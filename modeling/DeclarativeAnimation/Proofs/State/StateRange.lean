import DeclarativeAnimation.Proofs.State.EvaluationRange

/-! States of all elements.  Every contribution makes the whole numbers of a state larger by no
    more than its own, so that a state that is built from a limited number of them stays among
    the doubles. -/
namespace DeclarativeAnimation

section Tables
variable {κ α : Type} [BEq κ] {P : α → Prop} {k : κ} {v : α} {table : List (κ × α)}

theorem Keyed.forall_put (all : ∀ entry ∈ table, P entry.2) (hv : P v) :
    ∀ entry ∈ Keyed.put k v table, P entry.2 := by
  intro entry member
  induction table with
  | nil =>
    cases List.mem_singleton.mp member
    exact hv
  | cons first rest ih =>
    obtain ⟨j, w⟩ := first
    obtain ⟨head, tail⟩ := List.forall_mem_cons.mp all
    unfold Keyed.put at member
    split at member
    · rcases List.mem_cons.mp member with rfl | later
      · exact hv
      · exact tail entry later
    · rcases List.mem_cons.mp member with rfl | later
      · exact head
      · exact ih tail later

theorem Keyed.of_get? (all : ∀ entry ∈ table, P entry.2) (found : Keyed.get? k table = some v) :
    P v := by
  induction table with
  | nil => cases found
  | cons first rest ih =>
    obtain ⟨j, w⟩ := first
    obtain ⟨head, tail⟩ := List.forall_mem_cons.mp all
    unfold Keyed.get? at found
    split at found
    · cases found
      exact head
    · exact ih tail found

theorem Keyed.forall_ofList {entries : List (κ × α)} (all : ∀ entry ∈ entries, P entry.2) :
    ∀ entry ∈ Keyed.ofList entries, P entry.2 := by
  suffices kept : ∀ table : List (κ × α), (∀ entry ∈ table, P entry.2) →
      ∀ entry ∈ entries.foldl (fun table e => Keyed.put e.1 e.2 table) table, P entry.2 from
    kept [] fun entry member => by cases member
  induction entries with
  | nil => exact fun table known => known
  | cons first rest ih =>
    intro table known
    obtain ⟨head, tail⟩ := List.forall_mem_cons.mp all
    exact ih tail _ (Keyed.forall_put known head)

end Tables

variable {A : Arithmetic} {N : Nat}

structure ElementState.Bounded (b : Nat) (state : ElementState A) : Prop where
  style : ∀ property, ((state.style.getD {}).get property).Bounded b
  attributes : ∀ entry ∈ state.attributes, entry.2.Bounded b

theorem ElementState.Bounded.mono {b c : Nat} {state : ElementState A} (h : state.Bounded b)
    (le : b ≤ c) : state.Bounded c :=
  ⟨fun property => (h.style property).mono le,
    fun entry member => (h.attributes entry member).mono le⟩

theorem attributeName_isPlain {subject : Subject A} (plain : subject.IsPlain) :
    subject.attributeName.IsPlain := by
  rcases subject with name | kind | ⟨path, reference, rotate, keyPoints⟩ | name | _
  · exact plain
  · exact Or.inl rfl
  · exact Or.inl rfl
  · exact plain
  · exact Or.inl rfl

section Composition
variable {a : Animation A} {element : Option (Element A)} (plain : a.subject.IsPlain)
  (known : ∀ e ∈ element, e.Bounded N) (le : N ≤ Value.mostWhole)
include plain known le

theorem baseNumber_answers : ∃ base, baseNumber a element = .ok base := by
  unfold baseNumber
  cases element with
  | none => exact ⟨none, rfl⟩
  | some e =>
    dsimp only
    split
    · rename_i present
      obtain ⟨base, read, bounded⟩ :=
        Element.baseValue_answers (known e rfl) (attributeName_isPlain plain) present
      rw [read]
      exact Keyframe.leadingNumber_answers le bounded
    · exact ⟨none, rfl⟩

variable {b c : Nat} {previous value : Value A} (small : b ≤ Value.mostWhole)
  (added : c ≤ Value.mostWhole)
include small added

theorem compose_answers (hp : previous.Bounded b) (hv : value.Bounded c) :
    Answers (compose a element previous value) (Value.Bounded (b + c)) := by
  unfold compose
  split
  · exact .ok (hv.mono (Nat.le_add_left c b))
  · rename_i additive
    have numeric : value.isNumeric := by
      by_contra other
      exact additive (by rw [Bool.eq_false_of_not_eq_true other, Bool.not_false, Bool.or_true])
    split
    · rename_i written
      exact Value.sum_answers written numeric hp hv small added
    · obtain ⟨base, found⟩ := baseNumber_answers plain known le
      rw [found]
      cases base with
      | none => exact .ok (hv.mono (Nat.le_add_left c b))
      | some x =>
        have number := Value.bounded_number b x
        exact Value.sum_answers rfl numeric number hv small added

theorem apply_answers {state : ElementState A} {contribution : Contribution A}
    (hs : state.Bounded b) (hc : contribution.Bounded c) :
    Answers (state.apply a element contribution) (ElementState.Bounded (b + c)) := by
  have kept := hs.mono (Nat.le_add_right b c)
  unfold ElementState.apply
  rcases contribution with ⟨property, value⟩ | ⟨name, value⟩ | data | ⟨property, amount⟩ |
    ⟨x, y⟩ | placement
  · refine (compose_answers plain known le small added (hs.style property) hc).bind
      fun v hv => .pure ⟨fun other => ?_, kept.attributes⟩
    show ((((state.style.getD {}).set property v).get other).Bounded (b + c))
    by_cases same : other = property
    · subst same
      rw [Style.get_set_self]
      exact hv
    · rw [Style.get_set_other _ same]
      exact kept.style other
  · have previous : ((Keyed.get? name state.attributes).getD .null).Bounded b := by
      cases found : Keyed.get? name state.attributes with
      | none => exact Value.bounded_of_isPlain (Or.inl rfl)
      | some v => exact Keyed.of_get? hs.attributes found
    refine (compose_answers plain known le small added previous hc).bind fun v hv => .pure ?_
    exact ⟨kept.style, Keyed.forall_put kept.attributes hv⟩
  · exact .ok ⟨kept.style, kept.attributes⟩
  · exact .ok ⟨kept.style, kept.attributes⟩
  · exact .ok ⟨kept.style, kept.attributes⟩
  · exact .ok ⟨kept.style, kept.attributes⟩

end Composition

structure PartOf (animations : List (Animation A)) (n : Nat) (group : List (Animation A)) :
    Prop where
  inside : ∀ a ∈ group, a ∈ animations
  few : group.length ≤ n

section Evaluation
variable {animations : List (Animation A)} {resolver : MotionResolver A} {time : Number A}
  {M : Nat} (readable : ∀ a ∈ animations, a.IsReadable)
  (reach : ∀ a ∈ animations, a.InReach N M time) (resolves : resolver.Answers)

/-- The most that all contributions of so many animations add to a whole number. -/
def stateBound (count M N : Nat) : Nat := count * (mostContributions * Animation.grownBound M N)

theorem stateBound_mono {i j M N : Nat} (le : i ≤ j) : stateBound i M N ≤ stateBound j M N :=
  Nat.mul_le_mul_right _ le

theorem stateBound_succ (i M N : Nat) :
    stateBound (i + 1) M N = stateBound i M N + mostContributions * Animation.grownBound M N :=
  Nat.succ_mul i _

include readable reach resolves

theorem applyAll_answers (room : stateBound animations.length M N ≤ Value.mostWhole)
    {a : Animation A} (inside : a ∈ animations) {element : Option (Element A)}
    (known : ∀ e ∈ element, e.Bounded N) {i : Nat} (few : i < animations.length)
    {state : ElementState A} (kept : state.Bounded (stateBound i M N)) :
    Answers (do state.applyAll a element (← a.evaluate element resolver time))
      (ElementState.Bounded (stateBound (i + 1) M N)) := by
  have grows : stateBound i M N + mostContributions * Animation.grownBound M N ≤
      Value.mostWhole := by
    rw [← stateBound_succ]
    exact (stateBound_mono few).trans room
  have plain := (readable a inside).subject
  have grown : Animation.grownBound M N ≤ Value.mostWhole := by
    unfold mostContributions at grows
    omega
  have le : N ≤ Value.mostWhole := (Nat.le_add_right N _).trans grown
  refine (Animation.evaluate_answers (readable a inside) (reach a inside) known resolves
    grown).bind fun found writes => ?_
  have steps : ∀ j c (state : ElementState A), c ∈ found → j < 0 + found.length →
      state.Bounded (stateBound i M N + j * Animation.grownBound M N) →
      Answers (state.apply a element c)
        (ElementState.Bounded (stateBound i M N + (j + 1) * Animation.grownBound M N)) := by
    intro j c state member below kept
    have few := writes.few
    have most : j * Animation.grownBound M N ≤ mostContributions * Animation.grownBound M N :=
      Nat.mul_le_mul_right _ (by omega)
    have next := apply_answers plain known le (by omega) grown kept (writes.bounded c member)
    rwa [Nat.add_assoc, ← Nat.succ_mul] at next
  have whole := Answers.foldlM _ (k := 0)
    (I := fun j state => ElementState.Bounded (stateBound i M N + j * Animation.grownBound M N) state)
    (by rwa [Nat.zero_mul, Nat.add_zero]) steps
  refine whole.imp fun state bounded => bounded.mono ?_
  rw [stateBound_succ, Nat.zero_add]
  exact Nat.add_le_add_left (Nat.mul_le_mul_right _ writes.few) _

theorem ofAnimations_readable (room : stateBound animations.length M N ≤ Value.mostWhole)
    {group : List (Animation A)} (part : PartOf animations animations.length group)
    {element : Option (Element A)} (known : ∀ e ∈ element, e.Bounded N) (id : Value A) :
    ∃ state, ElementState.ofAnimations id group element resolver time = .ok state := by
  have fewer := (List.length_filter_le (fun a => a.target == id) group).trans part.few
  have start : (⟨id, time, none, none, [], none, none⟩ : ElementState A).Bounded
      (stateBound 0 M N) := by
    refine ⟨fun property => ?_, fun entry member => by cases member⟩
    cases property <;> exact Value.bounded_of_isPlain (Or.inl rfl)
  have built := Answers.foldlM (group.filter fun a => a.target == id) (k := 0)
    (I := fun i (state : ElementState A) => state.Bounded (stateBound i M N)) start
    fun i a state member below kept =>
      applyAll_answers readable reach resolves room (part.inside a (List.mem_of_mem_filter member))
        known (by omega) kept
  obtain ⟨state, built, _⟩ := built
  exact ⟨state, built⟩

end Evaluation

theorem ofAnimations_answers {animations : List (Animation A)} {resolver : MotionResolver A}
    {time : Number A} {M : Nat}
    (authored : ∀ a ∈ animations, a.IsAuthored)
    (reach : ∀ a ∈ animations, a.InReach N M time) (resolves : resolver.Answers)
    (room : stateBound animations.length M N ≤ Value.mostWhole) {group : List (Animation A)}
    (part : PartOf animations animations.length group) {element : Option (Element A)}
    (known : ∀ e ∈ element, e.Bounded N) (id : Value A) :
    ∃ state, ElementState.ofAnimations id group element resolver time = .ok state :=
  ofAnimations_readable (fun a member => (authored a member).readable) reach resolves room part
    known id

section Groups
variable {animations : List (Animation A)}

theorem grouped_answers (authored : ∀ a ∈ animations, a.IsAuthored) :
    Answers (groupedBy animations) fun groups =>
      ∀ entry ∈ groups, PartOf animations animations.length entry.2 := by
  have step : ∀ i a (groups : List (Value A × List (Animation A))), a ∈ animations →
      i < 0 + animations.length → (∀ entry ∈ groups, PartOf animations i entry.2) →
      Answers (do
        let target ← a.target.key
        return Keyed.put target ((Keyed.get? target groups).getD [] ++ [a]) groups)
        fun groups => ∀ entry ∈ groups, PartOf animations (i + 1) entry.2 := by
    intro i a groups member _ kept
    obtain ⟨s, named⟩ := (authored a member).target
    rw [named]
    have before : PartOf animations i ((Keyed.get? (.text s) groups).getD []) := by
      cases found : Keyed.get? (.text s) groups with
      | none => exact ⟨fun a member => (by cases member), Nat.zero_le i⟩
      | some group => exact Keyed.of_get? kept found
    refine .ok (Keyed.forall_put ?_ ?_)
    · intro entry inside
      exact ⟨(kept entry inside).inside, (kept entry inside).few.trans (Nat.le_succ i)⟩
    · constructor
      · intro b inside
        rcases List.mem_append.mp inside with early | last
        · exact before.inside b early
        · cases List.mem_singleton.mp last
          exact member
      · rw [List.length_append]
        exact Nat.succ_le_succ before.few
  have built := Answers.foldlM _ (k := 0) (b := ([] : List (Value A × List (Animation A))))
    (I := fun i groups => ∀ entry ∈ groups, PartOf animations i entry.2)
    (fun entry member => by cases member) step
  rwa [Nat.zero_add] at built

end Groups

def Elements.Ready (N : Nat) : Elements A → Prop
  | .all => True
  | .listed elements => ∀ e ∈ elements, (∃ s, e.id = .text s) ∧ e.Bounded N
  | .named table => ∀ entry ∈ table, entry.2.Bounded N

theorem table_answers {elements : Elements A} (ready : elements.Ready N) :
    Answers elements.table? fun table => ∀ t ∈ table, ∀ entry ∈ t, entry.2.Bounded N := by
  cases elements with
  | all => exact .ok fun t none => by cases none
  | named table => exact .ok fun t same => by cases same; exact ready
  | listed elements =>
    unfold Elements.table?
    have entries := Answers.mapM (f := fun e : Element A => do return ((← e.id.key), e))
      (R := fun entry => entry.2.Bounded N) elements fun e member => ?_
    · exact entries.bind fun found all => .pure fun t same => by
        cases same
        exact Keyed.forall_ofList all.2
    · obtain ⟨⟨s, named⟩, bounded⟩ := ready e member
      rw [named]
      exact .ok bounded

theorem shownElement_bounded {table : Option (List (Value A × Element A))}
    (bounded : ∀ t ∈ table, ∀ entry ∈ t, entry.2.Bounded N) {target : Value A}
    {element : Option (Element A)} (shown : shownElement table target = some element) :
    ∀ e ∈ element, e.Bounded N := by
  intro e known
  cases table with
  | none =>
    cases shown
    cases known
  | some table =>
    obtain ⟨found, inside, rfl⟩ := Option.map_eq_some_iff.mp shown
    cases known
    exact Keyed.of_get? (P := Element.Bounded N) (bounded table rfl) inside

/-- Evaluation of authored animations.  Each has a progress, which is a part of its keyframes,
    and all elements have a state, whatever the texts of the animations are.  What it takes is
    that runs can be counted, that no curve or key time makes the pace infinite, and that whole
    numbers do not grow beyond the doubles. -/
theorem evaluation_answers {animations : List (Animation A)} {elements : Elements A}
    {resolver : MotionResolver A} {time : Number A} {M : Nat}
    (authored : ∀ a ∈ animations, a.IsAuthored)
    (reach : ∀ a ∈ animations, a.InReach N M time) (ready : elements.Ready N)
    (resolves : resolver.Answers)
    (room : stateBound animations.length M N ≤ Value.mostWhole) :
    (∀ a ∈ animations, ∃ progress, a.progressAt time = .ok progress ∧ progress.InUnit) ∧
      ∃ states, allStates animations elements resolver time = .ok states := by
  constructor
  · intro a member
    exact Animation.progressAt_answers (authored a member) (reach a member)
  · obtain ⟨table, tabled, bounded⟩ := table_answers ready
    obtain ⟨groups, grouped, parts⟩ := grouped_answers authored
    have all : Answers (allStates animations elements resolver time) fun _ => True := by
      unfold allStates
      rw [tabled, grouped]
      refine (Answers.mapM _ (R := fun _ => True) fun entry member => ?_).bind
        fun found _ => .pure trivial
      dsimp only
      split
      · rename_i element shown
        obtain ⟨state, built⟩ := ofAnimations_answers authored reach resolves
          room (parts entry member) (shownElement_bounded bounded shown) entry.1
        rw [built]
        exact .ok trivial
      · exact .ok trivial
    obtain ⟨states, built, _⟩ := all
    exact ⟨states, built⟩

section Instance

def climb : Animation .binary64 :=
  { id := .text "climb", target := .text "box", subject := .attribute (.text "x")
    schedule := { dur := .text "2s", repeatCount := .number 3 }
    track := { start := .int 1, goal := .int 5, mode := .text "discrete" }
    composition := { additive := .text "sum", accumulate := .text "sum" } }

def turn : Animation .binary64 :=
  { id := .text "turn", target := .text "box", subject := .transform (.text "rotate")
    schedule := { begin := .text "soon", dur := .text "1s", repeatCount := .text "indefinite" }
    track :=
      { values := .text ";0; 90 10 10;", mode := .text "spline", keyTimes := .text "0;nan"
        keySplines := .text "1 0 1" } }

theorem climb_authored : climb.IsAuthored where
  target := ⟨"box", rfl⟩
  subject := Or.inr ⟨"x", rfl⟩
  schedule := ⟨Or.inl rfl, Or.inr ⟨"2s", rfl⟩, Or.inl rfl, Or.inl rfl, Or.inl rfl⟩
  count := Or.inr ⟨3, rfl⟩

theorem turn_authored : turn.IsAuthored where
  target := ⟨"box", rfl⟩
  subject := Or.inr ⟨"rotate", rfl⟩
  schedule := ⟨Or.inr ⟨"soon", rfl⟩, Or.inr ⟨"1s", rfl⟩, Or.inl rfl, Or.inl rfl, Or.inl rfl⟩
  count := Or.inl (Or.inr ⟨"indefinite", rfl⟩)

theorem climb_inReach : climb.InReach 5 1 3 where
  ends := ⟨show 1 ≤ 5 by decide, show 5 ≤ 5 by decide⟩
  track :=
    { texts := ⟨rfl, rfl, rfl⟩, values := Nat.zero_le _, keyTimes := Nat.zero_le _
      bounded := fun blending => by cases blending
      curves := fun spline => by cases spline }
  countable := Schedule.countable_of 0 2 6 (by decide +kernel)
    (by decide +kernel) (by decide +kernel) (by decide +kernel)
  runs := by
    intro _ m resolved
    have once : (climb.schedule.resolve 3).toOption.map (·.iteration) = some 1 := by
      decide +kernel
    rw [resolved] at once
    have one : m.iteration = 1 := Option.some.inj once
    rw [one]
    decide

theorem turn_inReach : turn.InReach 5 1 3 where
  ends := ⟨rfl, rfl⟩
  track :=
    { texts := ⟨rfl, rfl, rfl⟩, values := by decide +kernel, keyTimes := by decide +kernel
      bounded := by
        intro _ _ times read
        have found : Listing.numbers? turn.track.keyTimes = some [0, .nan] := by decide +kernel
        rw [found] at read
        cases read
        decide
      curves := by
        intro _ c member
        have straight : Listing.curves turn.track.keySplines = [⟨0, 0, 1, 1⟩] := rfl
        rw [straight] at member
        cases List.mem_singleton.mp member
        exact Curve.straight_moderate }
  countable := Schedule.countable_of 0 1 (.infinite false)
    (by decide +kernel) (by decide +kernel) (by decide +kernel) (by decide +kernel)
  runs := fun accumulating => by cases accumulating

theorem turning_box_evaluated :
    (∀ a ∈ [climb, turn], ∃ progress, a.progressAt 3 = .ok progress ∧ progress.InUnit) ∧
      ∃ states, allStates [climb, turn] (.listed [⟨.text "box", .text "rect", [("x", .int 2)]⟩])
        originPlacement 3 = .ok states := by
  refine evaluation_answers (N := 5) (M := 1) ?_ ?_ ?_ originPlacement_answers
    (by decide +kernel)
  · intro a member
    rcases List.mem_cons.mp member with rfl | last
    · exact climb_authored
    · cases List.mem_singleton.mp last
      exact turn_authored
  · intro a member
    rcases List.mem_cons.mp member with rfl | last
    · exact climb_inReach
    · cases List.mem_singleton.mp last
      exact turn_inReach
  · intro e member
    cases List.mem_singleton.mp member
    refine ⟨⟨"box", rfl⟩, fun entry inside => ?_⟩
    cases List.mem_singleton.mp inside
    exact show 2 ≤ 5 by decide

def brokenCurve : Animation .binary64 :=
  { id := .text "r", target := .text "el", subject := .attribute (.text "x")
    schedule := { dur := .text "2s" }
    track :=
      { start := .text "0", goal := .text "1", mode := .text "spline"
        keySplines := .text "0 nan 1 1" } }

theorem broken_curve_refused :
    brokenCurve.IsAuthored ∧ brokenCurve.progressAt 1 = .ok .nan ∧
      allStates [brokenCurve] .all originPlacement 1 = .error .wholeOfNan := by
  refine ⟨⟨⟨"el", rfl⟩, Or.inr ⟨"x", rfl⟩, ?_, Or.inl (Or.inl rfl)⟩, by decide +kernel, ?_⟩
  · exact ⟨Or.inl rfl, Or.inr ⟨"2s", rfl⟩, Or.inl rfl, Or.inl rfl, Or.inl rfl⟩
  · have refused : (allStates [brokenCurve] .all originPlacement 1).map (fun _ => ()) =
        .error .wholeOfNan := by decide +kernel
    cases states : allStates [brokenCurve] .all originPlacement 1 with
    | ok found =>
      rw [states] at refused
      cases refused
    | error fault =>
      rw [states] at refused
      cases refused
      rfl

end Instance

end DeclarativeAnimation
