import DeclarativeAnimation.Proofs.Interpolation.DiscreteSteps
import DeclarativeAnimation.Proofs.Interpolation.StillKeyframes
import DeclarativeAnimation.Proofs.State.AfterEnd
import DeclarativeAnimation.Proofs.Timing.Phases

/-! Frozen animations.  When it is over, an animation that is frozen has passed all of its run, and
    shows the keyframe that this leads to.  Without key times, and where keyframes are picked, that
    is the last one.  Else it is the one at the first of the key times that is the end of the
    run, be there others at that time. -/
namespace DeclarativeAnimation

open Number

namespace Pace

/-- Key times that go from the start of a run to its end, one for each keyframe. -/
structure Spans (count : Nat) (times : List Rat) : Prop where
  as_many : times.length = count
  ordered : times.Pairwise (· ≤ ·)
  starts : times.head? = some 0
  ends : times.getLast? = some 1

theorem Spans.le_one {count : Nat} {times : List Rat} (spans : Spans count times) :
    ∀ time ∈ times, time ≤ 1 := by
  obtain ⟨init, rfl⟩ := List.getLast?_eq_some_iff.mp spans.ends
  intro time member
  rcases List.mem_append.mp member with before | last
  · exact (List.pairwise_append.mp spans.ordered).2.2 time before 1 List.mem_cons_self
  · exact (List.mem_singleton.mp last).le

theorem go_end (all : List (Number .exact)) {times : List Rat} {start : Rat} (n : Nat)
    (curves : List (Curve .exact)) (starts : times.head? = some start) (early : start < 1)
    (ends : times.getLast? = some 1) (below : ∀ time ∈ times, time ≤ 1)
    (parted : alongSegments.segments all ≠ 0) :
    alongSegments.go all 1 n (times.map .finite) curves =
      .finite ((n + times.findIdx (1 ≤ ·)) / alongSegments.segments all) := by
  -- By induction on the key times; `n` of them have been passed already.
  induction times generalizing n start curves with
  | nil => cases starts
  | cons x rest ih =>
    obtain rfl : x = start := Option.some.inj starts
    obtain _ | ⟨y, rest⟩ := rest
    · obtain rfl : x = 1 := Option.some.inj ends
      exact absurd early (lt_irrefl 1)
    obtain ⟨-, below⟩ := List.forall_mem_cons.mp below
    have before : decide (1 ≤ x) = false := decide_eq_false (not_le.mpr early)
    rcases (below y List.mem_cons_self).lt_or_eq with later | rfl
    · have more : rest.map Number.finite ≠ ([] : List (Number .exact)) := by
        intro none
        obtain rfl := List.map_eq_nil_iff.mp none
        obtain rfl : y = 1 := Option.some.inj ends
        exact lt_irrefl 1 later
      have passed : alongSegments.go all (.finite 1) n
          (.finite x :: .finite y :: rest.map .finite) curves = _ := go_later later more
      have found := ih (n + 1) curves.tail rfl later ends below
      rw [List.map_cons, List.map_cons]
      rw [List.map_cons] at found
      refine passed.trans (found.trans ?_)
      rw [List.findIdx_cons (b := x), before]
      simp only [cond_false]
      push_cast
      ring_nf
    · have bent : (Curve.bent curves.head? (fraction x 1 1)).Denotes 1 := by
        rw [fraction_stop early, Curve.bent_one]
        exact .finite 1
      have here : alongSegments.go all (.finite 1) n
          (.finite x :: .finite 1 :: rest.map .finite) curves = _ :=
        go_here early early.le le_rfl bent parted
      refine here.trans ?_
      rw [List.findIdx_cons, List.findIdx_cons, before, decide_eq_true le_rfl]
      simp

end Pace

namespace Keyframe

theorem discreteIndex_end {count : Nat} (some_keyframe : 0 < count)
    {keyTimes : Option (List (Number .exact))}
    (early : ∀ times ∈ keyTimes, ∀ time ∈ times, time ≤ 1) :
    discreteIndex count 1 keyTimes = .ok ((count - 1 : Nat) : Int) := by
  rw [← (timesFor_steps some_keyframe).ends keyTimes fun times given _ => early times given]
  exact discreteIndex_eq some_keyframe zero_le_one le_rfl keyTimes

end Keyframe

namespace Track
variable {track : Track .exact}

/-- Which keyframe the end of the run leads to. -/
def restingIndex {A : Arithmetic} (track : Track A) : Nat :=
  let last := (Listing.entries track.values).length - 1
  if track.isDiscrete then last
  else (Listing.numbers? track.keyTimes).elim last (·.findIdx (1 ≤ ·))

theorem restingIndex_discrete (discrete : track.isDiscrete = true) :
    track.restingIndex = (Listing.entries track.values).length - 1 := if_pos discrete

theorem restingIndex_untimed (blending : track.isDiscrete = false)
    (untimed : (Listing.numbers? track.keyTimes : Option (List (Number .exact))) = none) :
    track.restingIndex = (Listing.entries track.values).length - 1 := by
  rw [restingIndex, blending, untimed]
  rfl

theorem restingIndex_timed {times : List Rat} (blending : track.isDiscrete = false)
    (timed : Listing.numbers? track.keyTimes = some (times.map (.finite (A := .exact)))) :
    track.restingIndex = times.findIdx (1 ≤ ·) := by
  have reached : (fun x : Number .exact => decide (1 ≤ x)) ∘ Number.finite =
      fun q : Rat => decide (1 ≤ q) := by
    funext q
    exact decide_eq_decide.mpr ((Number.Denotes.finite 1).le_iff (.finite q))
  rw [restingIndex, blending, timed, if_neg Bool.false_ne_true, Option.elim_some,
    List.findIdx_map, reached]

structure IsSpanned (track : Track .exact) : Prop where
  texts : track.HasTexts
  times : ∀ found ∈ (Listing.numbers? track.keyTimes : Option (List (Number .exact))),
    ∃ times : List Rat, found = times.map .finite ∧
      Pace.Spans (Listing.entries track.values).length times

theorem ease_end_untimed (unpaced : track.mode.isTheText "paced" = false)
    (untimed : (Listing.numbers? track.keyTimes : Option (List (Number .exact))) = none) :
    track.ease 1 = 1 := by
  unfold ease
  rw [unpaced, untimed]
  dsimp only [Option.getD_none]
  split
  · rfl
  rw [if_neg Bool.false_ne_true, if_pos (by decide)]
  split
  · rename_i curve _ _
    rw [curve.ease_one, clampUnit_one]
  · rfl

theorem ease_end_timed {times : List Rat} {count : Nat} (several : 2 ≤ count)
    (blending : track.isDiscrete = false) (unpaced : track.mode.isTheText "paced" = false)
    (timed : Listing.numbers? track.keyTimes = some (times.map (.finite (A := .exact))))
    (spans : Pace.Spans count times) :
    times.findIdx (1 ≤ ·) < count ∧ 0 < times.findIdx (1 ≤ ·) ∧
      track.ease 1 = .finite (times.findIdx (1 ≤ ·) / (count - 1 : Nat)) := by
  have segments : Pace.alongSegments.segments (times.map (Number.finite (A := .exact))) =
      count - 1 := by
    rw [Pace.alongSegments.segments, List.length_map, spans.as_many]
  have inside : times.findIdx (1 ≤ ·) < count := by
    rw [← spans.as_many]
    exact List.findIdx_lt_length_of_exists
      ⟨1, List.mem_of_getLast? spans.ends, decide_eq_true le_rfl⟩
  have begun : 0 < times.findIdx (1 ≤ ·) := by
    obtain ⟨rest, rfl⟩ := List.head?_eq_some_iff.mp spans.starts
    have before : decide ((1 : Rat) ≤ 0) = false := rfl
    rw [List.findIdx_cons, before]
    exact Nat.succ_pos _
  have some_segment : (0 : Rat) < (count - 1 : Nat) := by exact_mod_cast (by omega)
  have several_times : ¬ (times.map (Number.finite (A := .exact))).length < 2 := by
    rw [List.length_map, spans.as_many]
    omega
  have placed := Pace.go_end (times.map .finite) 0 track.segmentCurves spans.starts
    zero_lt_one spans.ends spans.le_one (by omega)
  rw [segments, Nat.cast_zero, zero_add] at placed
  have discrete : track.mode.isTheText "discrete" = false := blending
  refine ⟨inside, begun, ?_⟩
  unfold ease
  simp only [discrete, unpaced, Bool.false_eq_true, ↓reduceIte, timed, Option.getD_some,
    several_times]
  show (Pace.alongSegments (times.map .finite) track.segmentCurves 1).clampUnit = _
  unfold Pace.alongSegments
  rw [placed]
  apply Number.clampUnit_finite (by positivity)
  rw [div_le_one some_segment]
  exact_mod_cast (by omega)

theorem restsAt_end {count : Nat} (listed : (Listing.entries track.values).length = count)
    (several : 2 ≤ count) (unpaced : track.mode.isTheText "paced" = false)
    (spanned : track.IsSpanned) :
    track.RestsAt count track.restingIndex (track.ease 1) := by
  have spanned := spanned.times
  rw [listed] at spanned
  cases discrete : track.isDiscrete with
  | true =>
    have unbent : track.ease 1 = 1 := if_pos discrete
    rw [restingIndex_discrete discrete, listed, unbent]
    refine ⟨by omega, by omega, fun _ => ?_, fun blending => ?_⟩
    · apply Keyframe.discreteIndex_end (by omega)
      intro found timed time member
      obtain ⟨times, rfl, spans⟩ := spanned found timed
      obtain ⟨x, listed, rfl⟩ := List.mem_map.mp member
      exact ((Number.Denotes.finite x).le_iff (.finite 1)).mpr (spans.le_one x listed)
    · rw [discrete] at blending
      cases blending
  | false =>
    have unpicked {P : Prop} (picks : track.isDiscrete = true) : P := by
      rw [discrete] at picks
      cases picks
    cases timed : (Listing.numbers? track.keyTimes : Option (List (Number .exact))) with
    | none =>
      rw [restingIndex_untimed discrete timed, listed, ease_end_untimed unpaced timed]
      refine ⟨by omega, by omega, unpicked, fun _ => ?_⟩
      have some_segment : ((count - 1 : Nat) : Rat) ≠ 0 := by exact_mod_cast (by omega)
      rw [div_self some_segment]
      rfl
    | some found =>
      obtain ⟨times, rfl, spans⟩ := spanned found timed
      obtain ⟨inside, begun, eased⟩ := ease_end_timed several discrete unpaced timed spans
      rw [restingIndex_timed discrete timed]
      exact ⟨begun, inside, unpicked, fun _ => eased⟩

theorem restingIndex_last (spanned : track.IsSpanned)
    (alone : track.isDiscrete = true ∨ ∀ times : List Rat,
      Listing.numbers? track.keyTimes = some (times.map (.finite (A := .exact))) →
        ∀ time ∈ times.dropLast, time < 1) :
    track.restingIndex = (Listing.entries track.values).length - 1 := by
  cases discrete : track.isDiscrete with
  | true => exact restingIndex_discrete discrete
  | false =>
    cases timed : (Listing.numbers? track.keyTimes : Option (List (Number .exact))) with
    | none => exact restingIndex_untimed discrete timed
    | some found =>
      obtain ⟨times, rfl, spans⟩ := spanned.times found timed
      have early := alone.resolve_left (by rw [discrete]; exact Bool.false_ne_true) times timed
      obtain ⟨init, rfl⟩ := List.getLast?_eq_some_iff.mp spans.ends
      rw [List.dropLast_concat] at early
      have missed : init.findIdx (1 ≤ ·) = init.length :=
        List.findIdx_eq_length.mpr fun time member =>
          decide_eq_false (not_le.mpr (early time member))
      have counted := spans.as_many
      rw [List.length_append, List.length_singleton] at counted
      rw [restingIndex_timed discrete timed, List.findIdx_append, missed, if_neg (lt_irrefl _)]
      rw [List.findIdx_singleton, decide_eq_true le_rfl]
      simp
      omega

end Track

theorem Schedule.IsOver.frozen {s : Schedule .exact} {t : Number .exact} (stopped : s.IsOver t)
    (frozen : s.fill = .text "freeze") :
    ∃ iteration, s.resolve t = .ok ⟨1, .frozen, iteration⟩ := by
  obtain ⟨begin, total, -, lasts, -, is_total, -, -⟩ := stopped.parts
  obtain ⟨dur, d, runs, is_dur⟩ := s.durSeconds_exact
  have counted := Schedule.lastIteration_exact (c := ⟨begin.rat, d, some total.rat⟩) is_dur
    ⟨is_total, Schedule.activeDuration_nonneg lasts is_total⟩ (.inr ⟨_, rfl⟩)
  rw [Schedule.resolve_settled stopped]
  unfold Schedule.settled
  rw [runs, lasts]
  dsimp only [bind, Except.bind]
  rw [counted, frozen]
  exact ⟨_, rfl⟩

namespace Animation
variable {a : Animation .exact} {t : Number .exact}

theorem contributions_attribute {name : String} (animates : a.subject = .attribute (.text name))
    (element : Option (Element .exact)) (resolver : MotionResolver .exact) (p : Number .exact) :
    ∃ base, a.contributions element resolver p =
      a.track.attributeContributions (.text name) base p := by
  unfold contributions
  rw [animates]
  cases element with
  | none => exact ⟨.null, rfl⟩
  | some element =>
    have known : ∃ base, element.baseValue (.text name) = .ok base := by
      simp only [Element.baseValue, Value.key, bind, Except.bind]
      split
      · exact ⟨_, rfl⟩
      · exact ⟨_, rfl⟩
    obtain ⟨base, known⟩ := known
    dsimp only
    rw [known]
    split
    · exact ⟨base, rfl⟩
    · exact ⟨.null, rfl⟩

theorem evaluate_frozen {name : Value .exact} (animates : a.subject = .attribute name)
    (texts : a.track.HasTexts) (frozen : a.schedule.fill = .text "freeze")
    (single : a.composition.isAccumulating = false) (stopped : a.schedule.IsOver t)
    (element : Option (Element .exact)) (resolver : MotionResolver .exact) :
    a.evaluate element resolver t = a.contributions element resolver (a.track.ease 1) := by
  obtain ⟨iteration, settled⟩ := stopped.frozen frozen
  unfold evaluate
  rw [settled, single]
  split
  · rename_i name is_set
    rw [animates] at is_set
    cases is_set
  · dsimp only [bind, Except.bind]
    rw [texts.eased]
    dsimp only
    cases a.contributions element resolver (a.track.ease 1) <;> rfl

/-- An animation that is frozen holds the keyframe that the end of its run leads to.  That is its
    last one where no earlier key time is the end of the run, or where keyframes are picked. -/
theorem frozen_at_resting_keyframe {name : String} {values : List Rat}
    (animates : a.subject = .attribute (.text name)) (some_name : name ≠ "")
    (frozen : a.schedule.fill = .text "freeze") (single : a.composition.isAccumulating = false)
    (numeric : (Listing.entries a.track.values).map Keyframe.leadingNumberOf =
      values.map fun v => some (.finite v : Number .exact)) (several : 2 ≤ values.length)
    (unpaced : a.track.mode.isTheText "paced" = false) (spanned : a.track.IsSpanned)
    (stopped : a.schedule.IsOver t) (element : Option (Element .exact))
    (resolver : MotionResolver .exact) :
    (∃ c, a.evaluate element resolver t = .ok [c] ∧
      ((Slot.names.lookup name).getD .plain).Shows a.track.isDiscrete (.text name)
        ((Listing.entries a.track.values).getD a.track.restingIndex [])
        (.finite (values.getD a.track.restingIndex 0)) c) ∧
    ((a.track.isDiscrete = true ∨ ∀ times : List Rat,
        Listing.numbers? a.track.keyTimes = some (times.map (.finite (A := .exact))) →
          ∀ time ∈ times.dropLast, time < 1) →
      a.track.restingIndex = values.length - 1) := by
  have listed : (Listing.entries a.track.values).length = values.length := by
    simpa using congrArg List.length numeric
  refine ⟨?_, fun alone => listed ▸ Track.restingIndex_last spanned alone⟩
  have rests := Track.restsAt_end listed several unpaced spanned
  obtain ⟨base, contributed⟩ := contributions_attribute animates element resolver (a.track.ease 1)
  rw [evaluate_frozen animates spanned.texts frozen single stopped, contributed]
  exact Track.attributeContributions_at_rest numeric some_name spanned.texts rests base

def gate (keyTimes : String) : Animation .exact :=
  { id := .text "gate", target := .text "yard", subject := .attribute (.text "x")
    schedule := { dur := .text "2s", fill := .text "freeze" }
    track := { values := .text "0; 10px; 25", keyTimes := .text keyTimes } }

theorem gate_stays_open :
    (∃ c, (gate "0; .25; 1").evaluate none originPlacement 7 = .ok [c] ∧
      c = .attribute (.text "x") (.number (.finite 25))) ∧
    (gate "0; .25; 1").track.restingIndex = 2 := by
  have numeric : (Listing.entries (gate "0; .25; 1").track.values).map Keyframe.leadingNumberOf =
      [0, 10, 25].map fun v => some (.finite v : Number .exact) := by decide +kernel
  have timed : Listing.numbers? (gate "0; .25; 1").track.keyTimes =
      some ([0, 1 / 4, 1].map (.finite (A := .exact))) := by decide +kernel
  have spanned : (gate "0; .25; 1").track.IsSpanned := by
    refine ⟨⟨rfl, rfl, rfl⟩, fun found known => ?_⟩
    obtain rfl := Option.some.inj (known.symm.trans timed)
    exact ⟨[0, 1 / 4, 1], rfl, by decide +kernel, by decide +kernel, rfl, rfl⟩
  have stopped : (gate "0; .25; 1").schedule.IsOver 7 :=
    ⟨2, by decide +kernel, rfl, rfl, by decide +kernel⟩
  have early : (gate "0; .25; 1").track.isDiscrete = true ∨ ∀ times : List Rat,
      Listing.numbers? (gate "0; .25; 1").track.keyTimes =
        some (times.map (.finite (A := .exact))) → ∀ time ∈ times.dropLast, time < 1 := by
    right
    intro times known
    have same := Option.some.inj (known.symm.trans timed)
    obtain rfl := List.map_injective_iff.mpr (fun p q same => Number.finite.inj same) same
    decide +kernel
  obtain ⟨⟨c, contributed, shows⟩, last⟩ := frozen_at_resting_keyframe (a := gate "0; .25; 1")
    rfl (show "x" ≠ "" by decide) rfl rfl numeric (by decide) rfl spanned stopped none
    originPlacement
  have third := last early
  rw [third] at shows
  exact ⟨⟨c, contributed, shows⟩, third⟩

/-- Of two keyframes at the end of the run the earlier one is held. -/
theorem gate_stays_ajar :
    (gate "0; 1; 1").evaluate none originPlacement 7 =
      .ok [.attribute (.text "x") (.number (.finite 10))] := by
  with_unfolding_all rfl

end Animation
end DeclarativeAnimation
