import DeclarativeAnimation.Proofs.Number.Range
import DeclarativeAnimation.Proofs.Timing.ExactTimes
import DeclarativeAnimation.Proofs.Timing.Timeline
import DeclarativeAnimation.Proofs.Value.Grouping
import DeclarativeAnimation.State.Evaluation

/-! After the end of the timeline.  An animation rests where its active duration has left it.  A
    set looks at its duration and its end alone, so that it may be held for longer than its
    active duration; where it is not, no state changes any more. -/
namespace DeclarativeAnimation

open Number

namespace ClockValue

theorem seconds_orElse (v : Value .exact) :
    ∃ x y q, seconds v = .ok x ∧ seconds (v.orElse (.text "0s")) = .ok y ∧ x.Denotes q ∧
      y.Denotes q := by
  cases present : v.isPresent with
  | true =>
    obtain ⟨x, read, bounded⟩ := seconds_exact v
    refine ⟨x, x, x.rat, read, ?_, .of_isFinite bounded, .of_isFinite bounded⟩
    rwa [Value.orElse, if_pos present]
  | false =>
    have nothing : ∃ x, seconds v = .ok x ∧ x.Denotes 0 := by
      cases v with
      | null => exact ⟨0, rfl, .zero⟩
      | bool b => exact ⟨0, rfl, .zero⟩
      | int n =>
        obtain rfl : n = 0 := by simpa [Value.isPresent] using present
        exact ⟨0, rfl, .zero⟩
      | number x =>
        have zero : x.isZero = true := by simpa [Value.isPresent] using present
        have is_zero : x.Denotes 0 := by
          cases x <;> simp_all [isZero, Denotes, isFinite, rat]
        obtain ⟨y, read, _⟩ := seconds_exact (.number x)
        refine ⟨x, ?_, is_zero⟩
        unfold seconds read?
        dsimp only [Value.toNumber, bind, Except.bind]
        rw [if_pos is_zero.1]
        rfl
      | text s =>
        obtain rfl : s = "" := by simpa [Value.isPresent] using present
        exact ⟨0, by decide +kernel, .zero⟩
      | list items =>
        obtain rfl : items = [] := by simpa [Value.isPresent] using present
        exact ⟨0, by decide +kernel, .zero⟩
      | object members =>
        obtain rfl : members = [] := by simpa [Value.isPresent] using present
        exact ⟨0, by decide +kernel, .zero⟩
    obtain ⟨x, read, is_zero⟩ := nothing
    refine ⟨x, 0, 0, read, ?_, is_zero, .zero⟩
    rw [Value.orElse, present, if_neg Bool.false_ne_true]
    decide +kernel

end ClockValue

namespace Schedule
variable {s : Schedule .exact} {t : Number .exact}

def IsOver (s : Schedule .exact) (t : Number .exact) : Prop :=
  ∃ stop, s.endSeconds = .ok stop ∧ stop.isFinite ∧ t.isFinite ∧ stop.rat ≤ t.rat

theorem IsOver.parts (past : s.IsOver t) : ∃ begin total, s.beginSeconds = .ok begin ∧
    s.activeDuration = .ok total ∧ begin.Denotes begin.rat ∧ total.Denotes total.rat ∧
    t.Denotes t.rat ∧ begin.rat + total.rat ≤ t.rat := by
  obtain ⟨stop, ends, bounded, is_time, le⟩ := past
  obtain ⟨begin, begins, ends⟩ := bind_eq_ok ends
  obtain ⟨total, lasts, ends⟩ := bind_eq_ok ends
  cases ends
  have is_begin := beginSeconds_denotes begins
  have is_total := Denotes.of_isFinite (add_of_isFinite bounded).2.1
  rw [(is_begin.add is_total).2] at le
  exact ⟨begin, total, begins, lasts, is_begin, is_total, .of_isFinite is_time, le⟩

def settled (s : Schedule A) : Except Fault (Moment A) := do
  let dur ← s.durSeconds
  let total ← s.activeDuration
  let iteration ← lastIteration dur total
  if s.fill.isTheText "freeze" then return ⟨1, .frozen, iteration⟩
  else return ⟨0, .removed, iteration⟩

theorem resolve_settled (past : s.IsOver t) : s.resolve t = s.settled := by
  obtain ⟨begin, total, begins, lasts, is_begin, is_total, is_time, behind⟩ := past.parts
  obtain ⟨dur, p, runs, _⟩ := s.durSeconds_exact
  have nonneg := activeDuration_nonneg lasts is_total
  have elapsed := is_time.sub is_begin
  have begun : ¬ t - begin < 0 := by
    rw [elapsed.lt_iff .zero, not_lt]
    linarith
  have ended : total ≤ t - begin := by
    rw [is_total.le_iff elapsed]
    linarith
  unfold resolve settled
  rw [begins, runs, lasts]
  dsimp only [bind, Except.bind]
  rw [if_neg begun, is_total.1, decide_eq_true ended, Bool.and_true, Bool.or_true, if_pos rfl]

/-- A set is held no longer than its active duration, or else for good: it has a duration where it
    has an end, and its repetitions take no less than that duration. -/
structure CoversSet (s : Schedule .exact) : Prop where
  unended : s.dur.isNull = true → ClockValue.read? s.finish = .ok none
  uncut : s.dur.isNull = false → ∀ dur times repeated, s.durSeconds = .ok dur →
    repeatTimes s.repeatCount = .ok times → repeatSeconds s.repeatDur = .ok repeated →
    dur ≤ span dur times repeated

end Schedule

namespace Animation
variable {a : Animation .exact} {t u : Number .exact}

theorem setStop_covered {begin total : Number .exact} (begins : a.schedule.beginSeconds = .ok begin)
    (lasts : a.schedule.activeDuration = .ok total) (is_total : total.Denotes total.rat)
    (covers : a.schedule.CoversSet) (timed : a.schedule.dur.isNull = false) :
    ∃ stop q, a.setStop begin = .ok stop ∧ stop.Denotes q ∧ q ≤ begin.rat + total.rat := by
  obtain ⟨held, dur, d, read, runs, is_held, is_dur⟩ := ClockValue.seconds_orElse a.schedule.dur
  obtain ⟨dur', times, repeated, runs', counts, repeats, made⟩ := Schedule.activeDuration_parts lasts
  obtain rfl : dur = dur' := Except.ok.inj (runs.symm.trans runs')
  have covered := covers.uncut timed dur times repeated runs counts repeats
  have is_begin := Schedule.beginSeconds_denotes begins
  have closes := is_begin.add is_held
  unfold setStop
  dsimp only
  rw [timed, read]
  rcases made with ⟨ends, rfl⟩ | ⟨finish, begin', ends, begins', rfl⟩
  · rw [ends]
    refine ⟨_, _, rfl, closes, ?_⟩
    have within := (is_dur.le_iff is_total).mp covered
    linarith
  · obtain rfl : begin = begin' := Except.ok.inj (begins.symm.trans begins')
    have is_end := ClockValue.read?_denotes ends
    have left := Denotes.zero.larger (is_end.sub is_begin)
    rw [ends]
    refine ⟨_, _, rfl, closes.smaller is_end, ?_⟩
    unfold Number.smaller at is_total ⊢
    split at is_total
    · rename_i cut
      rw [if_pos cut, left.2]
      have late := le_max_right 0 (finish.rat - begin.rat)
      exact (min_le_right _ _).trans (by linarith)
    · rename_i whole
      rw [if_neg whole]
      have within := (is_dur.le_iff is_total).mp covered
      exact (min_le_left _ _).trans (by linarith)

theorem isSetActive_settled (past : a.schedule.IsOver t) (covers : a.schedule.CoversSet) :
    a.isSetActive t = .ok a.schedule.dur.isNull := by
  obtain ⟨begin, total, begins, lasts, is_begin, is_total, is_time, behind⟩ := past.parts
  have nonneg := Schedule.activeDuration_nonneg lasts is_total
  have begun : begin ≤ t := by
    rw [is_begin.le_iff is_time]
    linarith
  unfold isSetActive
  rw [begins]
  dsimp only [bind, Except.bind]
  cases missing : a.schedule.dur.isNull with
  | true =>
    have held : t < .infinite false := by
      have finite := is_time.1
      cases t <;> trivial
    have stops : a.setStop begin = .ok (.infinite false) := by
      unfold setStop
      dsimp only
      rw [missing, covers.unended missing]
      rfl
    rw [stops]
    dsimp only
    rw [decide_eq_true begun, decide_eq_true held]
    rfl
  | false =>
    obtain ⟨stop, q, stops, is_stop, early⟩ := setStop_covered begins lasts is_total covers missing
    have past : ¬ t < stop := by
      rw [is_time.lt_iff is_stop, not_lt]
      linarith
    rw [stops]
    dsimp only
    rw [decide_eq_true begun, decide_eq_false past]
    rfl

theorem evaluate_settled (past : a.schedule.IsOver t) (later : a.schedule.IsOver u)
    (covers : a.subject.isSet = true → a.schedule.CoversSet) (element : Option (Element .exact))
    (resolver : MotionResolver .exact) :
    a.evaluate element resolver u = a.evaluate element resolver t := by
  have place : a.schedule.resolve u = a.schedule.resolve t := by
    rw [Schedule.resolve_settled past, Schedule.resolve_settled later]
  unfold evaluate
  split
  · rename_i name is_set
    have set_covers := covers (by rw [is_set]; rfl)
    rw [isSetActive_settled past set_covers, isSetActive_settled later set_covers]
  · rw [place]

end Animation

namespace ElementState
variable {A : Arithmetic} {state : ElementState A}

def seenAt (time : Number A) (state : ElementState A) : ElementState A := { state with time := time }

theorem apply_seenAt (a : Animation A) (element : Option (Element A)) (state : ElementState A)
    (time : Number A) (contribution : Contribution A) :
    apply a element (state.seenAt time) contribution =
      (apply a element state contribution).map (seenAt time) := by
  rcases contribution with ⟨property, value⟩ | ⟨name, value⟩ | data | ⟨property, amount⟩ |
    ⟨x, y⟩ | placement
  · unfold apply seenAt
    dsimp only
    cases compose a element ((state.style.getD {}).get property) value <;> rfl
  · unfold apply seenAt
    dsimp only
    cases compose a element ((Keyed.get? name state.attributes).getD .null) value <;> rfl
  · rfl
  · rfl
  · rfl
  · rfl

theorem applyAll_seenAt (a : Animation A) (element : Option (Element A)) (time : Number A)
    (contributions : List (Contribution A)) (state : ElementState A) :
    applyAll a element (state.seenAt time) contributions =
      (applyAll a element state contributions).map (seenAt time) :=
  foldlM_of_map (fun state c _ => apply_seenAt a element state time c) state

end ElementState

section States
variable {A : Arithmetic} {animations : List (Animation A)} {resolver : MotionResolver A}
  {t u : Number A}
  (same : ∀ a ∈ animations, ∀ element, a.evaluate element resolver u = a.evaluate element resolver t)
include same

theorem ofAnimations_seenAt (id : Value A) (element : Option (Element A)) :
    ElementState.ofAnimations id animations element resolver u =
      (ElementState.ofAnimations id animations element resolver t).map (ElementState.seenAt u) := by
  refine foldlM_of_map (h := ElementState.seenAt u) ?_ { id := id, time := t }
  intro state a member
  rw [same a (List.mem_of_mem_filter member)]
  cases a.evaluate element resolver t with
  | error fault => rfl
  | ok contributions => exact ElementState.applyAll_seenAt a element u contributions state

/-- Where each animation contributes the same at two times, the states differ in their time
    only. -/
theorem allStates_seenAt (elements : Elements A) :
    allStates animations elements resolver u =
      (allStates animations elements resolver t).map
        (List.map fun entry => (entry.1, entry.2.seenAt u)) := by
  unfold allStates
  cases elements.table? with
  | error fault => rfl
  | ok table =>
    cases grouped : groupedBy animations with
    | error fault => rfl
    | ok groups =>
      apply found_of_map
      intro entry member
      have state := ofAnimations_seenAt
        (fun a inside => same a (mem_of_grouping grouped member inside)) entry.1
      dsimp only
      split
      · rename_i element _
        rw [state element]
        cases ElementState.ofAnimations entry.1 entry.2 element resolver t <;> rfl
      · rfl

end States

/-- Nothing moves after the end of the timeline. -/
theorem states_rest_after_timeline {animations : List (Animation .exact)}
    (ends : ∀ a ∈ animations, Answers a.schedule.activeDuration (·.isFinite))
    (covers : ∀ a ∈ animations, a.subject.isSet = true → a.schedule.CoversSet) :
    ∃ duration, Schedule.timelineDuration (animations.map (·.schedule)) = .ok duration ∧
      ∀ t u : Number .exact, t.isFinite → u.isFinite → duration ≤ t → duration ≤ u →
        ∀ elements resolver, allStates animations elements resolver u =
          (allStates animations elements resolver t).map
            (List.map fun entry => (entry.1, entry.2.seenAt u)) := by
  have stops : ∀ s ∈ animations.map (·.schedule), Answers s.endSeconds (·.isFinite) := by
    intro s member
    obtain ⟨a, listed, rfl⟩ := List.mem_map.mp member
    obtain ⟨begin, q, begins, is_begin⟩ := a.schedule.beginSeconds_exact
    obtain ⟨total, lasts, bounded⟩ := ends a listed
    refine ⟨begin + total, ?_, (is_begin.add (.of_isFinite bounded)).1⟩
    unfold Schedule.endSeconds
    rw [begins, lasts]
    rfl
  obtain ⟨found, all, -⟩ := Answers.mapM _ stops
  have answered : ∃ duration, Schedule.timelineDuration (animations.map (·.schedule)) =
      .ok duration := by
    unfold Schedule.timelineDuration
    rw [all]
    dsimp only [bind, Except.bind]
    split
    · exact ⟨_, rfl⟩
    · exact ⟨_, rfl⟩
  obtain ⟨duration, answered⟩ := answered
  have bounded := Schedule.timelineDuration_isFinite answered
  refine ⟨duration, answered, ?_⟩
  have past {t : Number .exact} (finite : t.isFinite) (behind : duration ≤ t) :
      ∀ a ∈ animations, a.schedule.IsOver t := by
    intro a member
    have listed := List.mem_map_of_mem (f := (·.schedule)) member
    obtain ⟨stop, stops, limited⟩ := stops a.schedule listed
    have before := Schedule.le_timelineDuration answered listed stops limited
    exact ⟨stop, stops, limited, finite, before.trans ((le_iff_rat_le bounded finite).mp behind)⟩
  intro t u finite finite' behind behind' elements resolver
  apply allStates_seenAt
  intro a member element
  exact Animation.evaluate_settled (past finite behind a member) (past finite' behind' a member)
    (covers a member) element resolver

def sunset : Animation .exact :=
  { id := .text "sunset", target := .text "sun", subject := .attribute (.text "y")
    schedule := { begin := .text "1s", dur := .text "2s", fill := .text "freeze" }
    track := { start := .text "0", goal := .text "9" } }

def shownWhile (name : String) (dur finish : Value .exact) : Animation .exact :=
  { id := .text name, target := .text name, subject := .set (.text "display")
    schedule := { dur := dur, finish := finish }
    track := { goal := .text "inline" } }

def nightfall : List (Animation .exact) :=
  [sunset, shownWhile "lamp" .null .null, shownWhile "bird" (.text "5s") (.text "2s")]

theorem night_falls_for_good :
    allStates nightfall .all originPlacement 60 =
      (allStates nightfall .all originPlacement 3).map
        (List.map fun entry => (entry.1, entry.2.seenAt 60)) := by
  have covers : ∀ a ∈ nightfall, a.subject.isSet = true → a.schedule.CoversSet := by
    intro a member is_set
    simp only [nightfall, List.mem_cons, List.not_mem_nil, or_false] at member
    rcases member with rfl | rfl | rfl
    · cases is_set
    · exact ⟨fun _ => rfl, fun timed => by cases timed⟩
    · constructor
      · intro untimed
        cases untimed
      · intro _ dur times repeated runs counts repeats
        have five : (shownWhile "bird" (.text "5s") (.text "2s")).schedule.durSeconds = .ok 5 := by
          decide +kernel
        rw [five] at runs
        cases runs
        cases counts
        cases repeats
        decide +kernel
  have ends : ∀ a ∈ nightfall, Answers a.schedule.activeDuration (·.isFinite) := by
    intro a member
    simp only [nightfall, List.mem_cons, List.not_mem_nil, or_false] at member
    rcases member with rfl | rfl | rfl
    · exact ⟨2, by decide +kernel, rfl⟩
    · exact ⟨0, by decide +kernel, rfl⟩
    · exact ⟨2, by decide +kernel, rfl⟩
  obtain ⟨duration, answered, rests⟩ := states_rest_after_timeline ends covers
  have three : Schedule.timelineDuration (nightfall.map (·.schedule)) = .ok 3 := by
    decide +kernel
  rw [three] at answered
  cases answered
  exact rests 3 60 rfl rfl (by decide +kernel) (by decide +kernel) .all originPlacement

/-- A set with an end and no duration is counted as if it were over at once. -/
theorem held_after_timeline :
    (shownWhile "star" .null (.text "10s")).schedule.activeDuration = .ok 0 ∧
    Schedule.timelineDuration [(shownWhile "star" .null (.text "10s")).schedule] = .ok 0 ∧
    allStates [shownWhile "star" .null (.text "10s")] .all originPlacement 1 =
      .ok [(.text "star",
        { id := .text "star", time := 1, attributes := [(.text "display", .text "inline")] })] ∧
    allStates [shownWhile "star" .null (.text "10s")] .all originPlacement 11 =
      .ok [(.text "star", { id := .text "star", time := 11 })] := by
  refine ⟨by decide +kernel, by decide +kernel, ?_, ?_⟩
  all_goals with_unfolding_all rfl

end DeclarativeAnimation
