import DeclarativeAnimation.Proofs.Animation.Authored
import DeclarativeAnimation.Proofs.Number.Magnitude
import DeclarativeAnimation.Proofs.Outcome
import DeclarativeAnimation.Timing.Schedule

/-! Where a schedule puts a time.  As long as the runs up to that time can be counted, there is
    an answer for every text of a clock value, and the progress is a part of a run. -/
namespace DeclarativeAnimation
variable {A : Arithmetic}

open Number

namespace ClockValue

theorem read?_fits {v : Value A} (fits : v.Fits) : ∃ x, read? v = .ok x := by
  cases v with
  | null => exact ⟨none, rfl⟩
  | bool b => exact ⟨none, rfl⟩
  | int n =>
    have read := Value.numberOfInt_of_finite (fits n rfl)
    exact ⟨_, by rw [read?, Value.toNumber, read]; rfl⟩
  | number x => exact ⟨_, rfl⟩
  | text s => exact ⟨_, rfl⟩
  | list items => exact ⟨_, rfl⟩
  | object members => exact ⟨_, rfl⟩

theorem seconds_fits {v : Value A} (fits : v.Fits) : ∃ x, seconds v = .ok x := by
  obtain ⟨x, read⟩ := read?_fits fits
  exact ⟨x.getD 0, by rw [seconds, read]; rfl⟩

end ClockValue

namespace Schedule
variable {s : Schedule A} {time : Number A}

def IsCount (v : Value A) : Prop := v.IsPlain ∨ ∃ x, v = .number x

theorem repeatTimes_answers {v : Value A} (count : IsCount v) : ∃ x, repeatTimes v = .ok x := by
  rcases count with (rfl | ⟨s, rfl⟩) | ⟨x, rfl⟩
  · exact ⟨_, rfl⟩
  · by_cases endless : (Value.text s : Value A).isIndefinite
    · exact ⟨.infinite false, by simp only [repeatTimes, endless, ↓reduceIte]; rfl⟩
    · simp only [repeatTimes, endless, Bool.false_eq_true, ↓reduceIte]
      exact ⟨_, rfl⟩
  · exact ⟨_, rfl⟩

theorem repeatSeconds_answers {v : Value A} (fits : v.Fits) :
    ∃ x, repeatSeconds v = .ok x := by
  unfold repeatSeconds
  split
  · exact ⟨_, rfl⟩
  · split
    · exact ClockValue.seconds_fits fits
    · exact ⟨_, rfl⟩

theorem times_answer (fits : s.Fits) (count : IsCount s.repeatCount) :
    ∃ begin dur total, s.beginSeconds = .ok begin ∧ s.durSeconds = .ok dur ∧
      s.activeDuration = .ok total := by
  obtain ⟨begin, begins⟩ := ClockValue.seconds_fits (fits.begin.orElse "0s")
  obtain ⟨dur, lasts⟩ := ClockValue.seconds_fits (fits.dur.orElse "0s")
  obtain ⟨times, counts⟩ := repeatTimes_answers count
  obtain ⟨repeated, repeats⟩ := repeatSeconds_answers fits.repeatDur
  obtain ⟨finish, ends⟩ := ClockValue.read?_fits fits.finish
  have begins : s.beginSeconds = .ok begin := begins
  have lasts : s.durSeconds = .ok dur := lasts
  have active : ∃ total, s.activeDuration = .ok total := by
    unfold activeDuration
    rw [lasts, counts, repeats, ends, begins]
    cases finish with
    | none => exact ⟨_, rfl⟩
    | some finish => exact ⟨_, rfl⟩
  obtain ⟨total, active⟩ := active
  exact ⟨begin, dur, total, begins, lasts, active⟩

/-- The runs that a time lies behind the begin, the last one cut off, and no more of them than
    the animation has. -/
def runs (elapsed dur total : Number A) : Number A :=
  (if total.isFinite && total ≤ elapsed then total else elapsed) / dur

/-- As soon as the animation has begun, its runs up to a time are not too many to be counted. -/
def Countable (s : Schedule A) (time : Number A) : Prop :=
  ∀ begin dur total, s.beginSeconds = .ok begin → s.durSeconds = .ok dur →
    s.activeDuration = .ok total → ¬ time - begin < 0 → ¬ dur ≤ 0 →
      (runs (time - begin) dur total).isFinite

theorem countable_of (begin dur total : Number A) (begins : s.beginSeconds = .ok begin)
    (lasts : s.durSeconds = .ok dur) (active : s.activeDuration = .ok total)
    (counted : (runs (time - begin) dur total).isFinite) : s.Countable time := by
  intro _ _ _ begins' lasts' active' _ _
  rw [begins] at begins'
  rw [lasts] at lasts'
  rw [active] at active'
  cases begins'
  cases lasts'
  cases active'
  exact counted

structure Moment.InRange (m : Moment A) : Prop where
  progress : m.progress.InUnit
  iteration : A.Spans m.iteration

theorem iterationTolerance_denotes :
    ∃ q, (iterationTolerance : Number A).Holds q ∧ |q| ≤ 1 := by
  have small : (0 : Rat) ≤ 1e-9 ∧ (1e-9 : Rat) ≤ 1 := by norm_num
  have near := Arithmetic.round_unit (A := A) small.1 small.2
  refine ⟨A.round 1e-9, nearest_holds (Arithmetic.spans_unit small.1 small.2) false, ?_⟩
  exact abs_le.mpr ⟨by linarith, near.2⟩

theorem lastIteration_answers {dur total : Number A}
    (counted : ¬ dur ≤ 0 → (total / dur).isFinite) :
    Answers (lastIteration dur total) fun n => A.Spans n := by
  unfold lastIteration
  split
  · rename_i both
    simp only [Bool.and_eq_true, decide_eq_true_eq] at both
    obtain ⟨_, _, q, is_q⟩ := div_of_isFinite (counted (not_le_zero_of_pos both.1))
    obtain ⟨e, is_e, near⟩ := iterationTolerance_denotes (A := A)
    have spanned : A.Spans (q - e) := by
      rw [sub_eq_add_neg]
      exact is_q.has.spans_near (by rwa [abs_neg])
    have difference := sub_holds is_q.denotes is_e spanned
    rw [Value.ceiling_of_finite difference.denotes]
    refine .pure ?_
    -- The last run begins below the quotient, so that it is no larger than it.
    have below : ((A.round (q - e)).ceil - 1 : Rat) ≤ A.round (q - e) := by
      linarith [Rat.ceil_lt (x := A.round (q - e))]
    rcases le_total ((A.round (q - e)).ceil - 1) 0 with none | some_run
    · rw [max_eq_left none]
      exact Arithmetic.has_zero.spanned
    · rw [max_eq_right some_run]
      have nonneg : (0 : Rat) ≤ (A.round (q - e)).ceil - 1 := by exact_mod_cast some_run
      push_cast
      exact Arithmetic.has_zero.spanned.between difference.has.spanned nonneg below
  · exact .ok Arithmetic.has_zero.spanned

theorem place_answers {elapsed dur : Number A} {p : Rat} (is_p : elapsed.Holds p)
    (begun : ¬ elapsed < 0) (lasting : ¬ dur ≤ 0) (counted : (elapsed / dur).isFinite) :
    ((elapsed.floorDivide dur).2 / dur).clampUnit.InUnit ∧
      Answers (Value.wholePart (elapsed.floorDivide dur).1) fun n => A.Spans n := by
  have nonneg : 0 ≤ p := not_lt.mp (mt (is_p.denotes.lt_iff .zero).mpr begun)
  have positive := pos_of_not_le_zero (div_of_isFinite counted).2.1 lasting
  obtain ⟨part, w, whole⟩ := floorDivide_isFinite is_p nonneg positive counted
  constructor
  · exact clampUnit_inUnit (div_isNan (isNan_of_isFinite part) positive (Or.inl part))
  · obtain ⟨n, cut, small⟩ := Value.wholePart_of_finite whole.denotes
    have spanned : A.Spans |w| := by
      rcases abs_choice w with same | negated
      · rw [same]
        exact whole.has.spanned
      · rw [negated]
        exact whole.has.neg.spanned
    exact ⟨n, cut, spanned.neg.between spanned (abs_le.mp small).1 (abs_le.mp small).2⟩

theorem resolve_answers (fits : s.Fits) (count : IsCount s.repeatCount)
    (counted : s.Countable time) : Answers (s.resolve time) Moment.InRange := by
  obtain ⟨begin, dur, total, begins, lasts, active⟩ := times_answer fits count
  have counted := counted begin dur total begins lasts active
  unfold resolve
  rw [begins, lasts, active]
  show Answers (if time - begin < 0 then Pure.pure _ else _) _
  split
  · exact .ok ⟨.zero, Arithmetic.has_zero.spanned⟩
  rename_i begun
  replace counted := counted begun
  show Answers (if dur ≤ 0 || (total.isFinite && total ≤ time - begin) then _ else _) _
  by_cases ended : (total.isFinite && decide (total ≤ time - begin)) = true
  · rw [runs, if_pos ended] at counted
    rw [if_pos (by rw [ended, Bool.or_true])]
    refine (lastIteration_answers counted).bind fun n spanned => ?_
    split
    · exact .ok ⟨.one, spanned⟩
    · exact .ok ⟨.zero, spanned⟩
  · rw [runs, if_neg ended] at counted
    rw [Bool.not_eq_true] at ended
    rw [ended, Bool.or_false]
    split
    · rename_i idle
      refine (lastIteration_answers fun lasting => ?_).bind fun n spanned => ?_
      · exact absurd (of_decide_eq_true idle) lasting
      · split
        · exact .ok ⟨.one, spanned⟩
        · exact .ok ⟨.zero, spanned⟩
    · rename_i running
      have lasting : ¬ dur ≤ 0 := by simpa using running
      replace counted := counted lasting
      have bounded := (div_of_isFinite counted).1
      obtain ⟨_, _, p, is_p⟩ := add_of_isFinite bounded
      obtain ⟨part, whole⟩ := place_answers is_p begun lasting counted
      exact whole.bind fun n spanned => .ok ⟨part, spanned⟩

end Schedule
end DeclarativeAnimation
