import DeclarativeAnimation.Chain
import DeclarativeAnimation.Proofs.Number.DecimalSteps
import DeclarativeAnimation.Proofs.Timing.ClockGrammar
import DeclarativeAnimation.Proofs.Timing.ExactTimes
import DeclarativeAnimation.Proofs.Value.Names

/-! Begins that were moved.  A begin is written anew with six places, without the zeros at its
    end, and what is read from that text is the begin on the grid of microseconds. -/
namespace DeclarativeAnimation

open Text

def onMicroseconds (q : Rat) : Rat := nearestEven (q * 10 ^ 6) / 10 ^ 6

theorem onMicroseconds_near (q : Rat) :
    q - 1 / 2 / 10 ^ 6 ≤ onMicroseconds q ∧ onMicroseconds q ≤ q + 1 / 2 / 10 ^ 6 := by
  obtain ⟨low, high⟩ := abs_le.mp (toPlaces_near 6 q)
  change -(1 / 2 / 10 ^ 6) ≤ onMicroseconds q - q at low
  change onMicroseconds q - q ≤ 1 / 2 / 10 ^ 6 at high
  constructor <;> linarith

theorem onMicroseconds_of_whole {q : Rat} {k : Int} (whole : q * 10 ^ 6 = k) :
    onMicroseconds q = q := toPlaces_of_steps 6 whole

section Seconds

theorem secondsText_positional {A : Arithmetic} {x : Number A} (finite : x.isFinite = true) :
    ∃ t : Positional, (secondsText x).toList = t.chars ++ ['s'] ∧
      t.decimal.value = onMicroseconds x.rat := by
  have six := Positional.ofCount_length x.isNegative 6 (nearestEven (x.rat * 10 ^ 6)).natAbs
  have value := Number.ofCount_toPlaces finite 6
  have written := Number.fixed_chars finite 6
  generalize Positional.ofCount x.isNegative 6 (nearestEven (x.rat * 10 ^ 6)).natAbs = t
    at six value written
  have pointed : t.fraction ≠ [] := by
    intro none
    rw [none] at six
    cases six
  refine ⟨t.shortened, ?_, t.shortened_value.trans value⟩
  unfold secondsText
  dsimp only
  rw [written, Positional.shortened_chars pointed, String.toList_ofList]

theorem secondsText_denotes {A : Arithmetic} {x : Number A} {q : Rat} (holds : x.Holds q) :
    ∃ y : Number A, ClockValue.read? (.text (secondsText x)) = .ok (some y) ∧
      y.Denotes (A.round (onMicroseconds q)) := by
  obtain ⟨finite, same⟩ := holds.denotes
  obtain ⟨t, written, amount⟩ := secondsText_positional finite
  rw [same] at amount
  have spans : A.Spans t.spelling.decimal.value := by
    rw [t.spelling_decimal, amount]
    exact spans_toPlaces 6 holds
  obtain ⟨y, read, denotes⟩ := ClockValue.seconds_denote spans
  rw [t.spelling_chars, ← written] at read
  rw [t.spelling_decimal, amount] at denotes
  exact ⟨y, congrArg Except.ok read, denotes⟩

theorem read_secondsText (q : Rat) :
    ClockValue.ofText? (secondsText (.finite q : Number .exact)).toList =
      some (.finite (onMicroseconds q) : Number .exact) := by
  obtain ⟨t, written, amount⟩ := secondsText_positional (A := .exact) (x := .finite q) rfl
  rw [Number.rat_finite] at amount
  have once : (Number.nearest (onMicroseconds q) t.decimal.negative : Number .exact) * 1 =
      .finite (onMicroseconds q) := by
    rw [Number.nearest_exact, Number.mul_exact rfl rfl]
    exact congrArg Number.finite (mul_one _)
  rw [← amount, ← t.spelling_decimal] at once
  rw [written, ← t.spelling_chars, ClockValue.ofText?_seconds (congrArg Number.isFinite once), once,
    t.spelling_decimal, amount]

theorem secondsText_isPresent {A : Arithmetic} (x : Number A) :
    (Value.text (secondsText x) : Value A).isPresent = true := by
  have unit : secondsText x ≠ "" := by
    intro empty
    have chars := congrArg String.toList empty
    unfold secondsText at chars
    dsimp only at chars
    rw [String.toList_ofList] at chars
    exact absurd chars (by simp)
  generalize secondsText x = s at unit
  exact decide_eq_true unit

/-- A begin that was written anew is read as the seconds on the grid. -/
theorem beginSeconds_shifted {s : Schedule .exact} (q : Rat) :
    Schedule.beginSeconds { s with begin := .text (secondsText (.finite q : Number .exact)) } =
      .ok (.finite (onMicroseconds q)) := by
  have read : ClockValue.read? (.text (secondsText (.finite q : Number .exact))) =
      .ok (some (.finite (onMicroseconds q) : Number .exact)) :=
    congrArg Except.ok (read_secondsText q)
  unfold Schedule.beginSeconds Value.orElse ClockValue.seconds
  dsimp only
  rw [if_pos (secondsText_isPresent _), read]
  rfl

end Seconds

namespace Animation
variable {a : Animation .exact} {begin delay : Number .exact} {q d : Rat}

theorem shifted_still (is_zero : delay.Denotes 0) : a.shifted delay = .ok a := by
  have zero : delay.isZero = true := by
    obtain ⟨bounded, same⟩ := is_zero
    cases delay <;> simp_all [Number.isFinite, Number.isZero, Number.rat]
  unfold shifted
  rw [zero]
  rfl

theorem shifted_begin (begins : a.schedule.beginSeconds = .ok begin) (is_q : begin.Denotes q)
    (is_d : delay.Denotes d) (moving : d ≠ 0) :
    ∃ text, a.shifted delay =
        .ok { a with schedule := { a.schedule with begin := .text text } } ∧
      ({ a.schedule with begin := .text text } : Schedule .exact).beginSeconds =
        .ok (.finite (onMicroseconds (q + d))) := by
  have some_delay : delay.isZero = false := by
    obtain ⟨bounded, same⟩ := is_d
    cases delay <;> simp_all [Number.isFinite, Number.isZero, Number.rat]
  have sum : begin + delay = .finite (q + d) := by
    rw [Number.add_exact is_q.1 is_d.1, is_q.2, is_d.2]
  refine ⟨secondsText (.finite (q + d) : Number .exact), ?_, beginSeconds_shifted (q + d)⟩
  unfold shifted
  rw [some_delay, begins, if_neg Bool.false_ne_true, ← sum]
  rfl

theorem shifted_answers (a : Animation .exact) (delay : Number .exact) :
    ∃ b, a.shifted delay = .ok b := by
  obtain ⟨begin, q, begins, _⟩ := a.schedule.beginSeconds_exact
  unfold shifted
  rw [begins]
  split
  · exact ⟨a, rfl⟩
  · exact ⟨_, rfl⟩

theorem withDelays_answers {animations : List (Animation .exact)}
    (delays : List (Value .exact × Number .exact)) (named : ∀ a ∈ animations, a.id.IsName) :
    ∃ moved, withDelays animations delays = .ok moved ∧
      List.Forall₂ (fun a b => (do a.shifted (← a.delayIn delays)) = Except.ok b) animations
        moved := by
  have each : ∀ a ∈ animations,
      Answers (do a.shifted (← a.delayIn delays)) fun _ => True := by
    intro a member
    obtain ⟨b, shifts⟩ := a.shifted_answers ((Keyed.get? a.id delays).getD 0)
    refine ⟨b, ?_, trivial⟩
    unfold delayIn
    rw [named a member]
    exact shifts
  obtain ⟨moved, all, -⟩ := Answers.mapM animations each
  exact ⟨moved, all, forall₂_of_ok all⟩

theorem shifted_near {b : Animation .exact} (shifts : a.shifted delay = .ok b)
    (bounded : delay.isFinite = true) (moving : delay.isZero = false) :
    ∃ begin begin', a.schedule.beginSeconds = .ok begin ∧ begin.isFinite = true ∧
      b.schedule.beginSeconds = .ok begin' ∧ begin'.isFinite = true ∧
      |begin'.rat - (begin.rat + delay.rat)| ≤ 1 / 2 / 10 ^ 6 := by
  have nonzero : delay.rat ≠ 0 := by
    cases delay <;> simp_all [Number.isFinite, Number.isZero, Number.rat]
  obtain ⟨begin, q, begins, is_q⟩ := a.schedule.beginSeconds_exact
  obtain ⟨text, written, read⟩ := shifted_begin begins is_q (.of_isFinite bounded) nonzero
  rw [written] at shifts
  cases shifts
  refine ⟨begin, _, begins, is_q.1, read, rfl, ?_⟩
  rw [is_q.2]
  exact toPlaces_near 6 (q + delay.rat)

/-- Seconds of any size and sign are read back from the text that is written for them, up to half
    a microsecond and exactly where they are on the grid.  So a begin that is moved by a table of
    delays is as far from where it was as the table says, up to half a microsecond. -/
theorem shifted_begins_read_back :
    (∀ x : Number .exact, x.isFinite = true →
      ∃ y : Number .exact,
        ClockValue.read? (.text (secondsText x)) = .ok (some y) ∧ y.isFinite = true ∧
        |y.rat - x.rat| ≤ 1 / 2 / 10 ^ 6 ∧ ∀ k : Int, x.rat * 10 ^ 6 = k → y.rat = x.rat) ∧
    ∀ (animations : List (Animation .exact)) (delays : List (Value .exact × Number .exact)),
      (∀ moved, withDelays animations delays = .ok moved →
        List.Forall₂ (fun a b => ∃ delay, a.delayIn delays = .ok delay ∧
          (delay.isFinite = true → delay.isZero = false →
            ∃ begin begin', a.schedule.beginSeconds = .ok begin ∧ begin.isFinite = true ∧
              b.schedule.beginSeconds = .ok begin' ∧ begin'.isFinite = true ∧
              |begin'.rat - (begin.rat + delay.rat)| ≤ 1 / 2 / 10 ^ 6)) animations moved) ∧
      ((∀ a ∈ animations, a.id.IsName) → ∃ moved, withDelays animations delays = .ok moved) := by
  refine ⟨fun x finite => ?_, fun animations delays => ⟨fun moved answer => ?_, fun named => ?_⟩⟩
  · have holds : x.Holds x.rat := ⟨.of_isFinite finite, rfl, nofun⟩
    obtain ⟨y, read, bounded, same⟩ := secondsText_denotes holds
    change y.rat = onMicroseconds x.rat at same
    refine ⟨y, read, bounded, ?_, fun k whole => ?_⟩
    · rw [same]
      exact toPlaces_near 6 x.rat
    · rw [same, onMicroseconds_of_whole whole]
  · refine (forall₂_of_ok answer).imp fun a b done => ?_
    obtain ⟨delay, given, shifts⟩ := bind_eq_ok done
    exact ⟨delay, given, shifted_near shifts⟩
  · obtain ⟨moved, answer, -⟩ := withDelays_answers delays named
    exact ⟨moved, answer⟩

section Instance

def lights : Animation .exact :=
  { id := .text "lights", target := .text "stage", subject := .attribute (.text "opacity")
    schedule := { begin := .text "2s" } }

/-- They go on a little earlier, by less than the grid can show. -/
theorem lights_moved :
    (∃ y : Number .exact,
      ClockValue.read? (.text (secondsText (.finite (-1 / 4000000) : Number .exact))) =
        .ok (some y) ∧ |y.rat - -1 / 4000000| ≤ 1 / 2 / 10 ^ 6) ∧
    ∃ b begin', withDelays [lights] [(.text "lights", .finite (-1 / 4000000))] = .ok [b] ∧
      b.schedule.beginSeconds = .ok begin' ∧ |begin'.rat - (2 + -1 / 4000000)| ≤ 1 / 2 / 10 ^ 6 := by
  obtain ⟨texts, lists⟩ := shifted_begins_read_back
  obtain ⟨each, answers⟩ := lists [lights] [(.text "lights", .finite (-1 / 4000000))]
  obtain ⟨y, read, -, near, -⟩ := texts (.finite (-1 / 4000000)) rfl
  obtain ⟨moved, answer⟩ := answers (List.forall_mem_singleton.mpr rfl)
  refine ⟨⟨y, read, near⟩, ?_⟩
  cases each moved answer with
  | cons first rest =>
    cases rest
    have given : lights.delayIn [(.text "lights", .finite (-1 / 4000000))] =
        .ok (.finite (-1 / 4000000) : Number .exact) := rfl
    obtain ⟨delay, same, shifts⟩ := first
    cases given.symm.trans same
    obtain ⟨begin, begin', begins, -, begins', -, near⟩ := shifts rfl (by decide +kernel)
    have second : lights.schedule.beginSeconds = .ok (.finite 2) := by decide +kernel
    cases second.symm.trans begins
    exact ⟨_, begin', answer, begins', near⟩

end Instance

end Animation
end DeclarativeAnimation
