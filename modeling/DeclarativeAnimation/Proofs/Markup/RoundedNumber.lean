import DeclarativeAnimation.Markup.Rounded
import DeclarativeAnimation.Proofs.Number.DecimalSteps
import DeclarativeAnimation.Proofs.Number.Spelling

/-! Rounded numbers.  The text of one is that of the nearest step, without the zeros that end it
    and with a sign only where something is left of the number. -/
namespace DeclarativeAnimation

open Text

namespace Markup
variable {A : Arithmetic}

theorem trimFraction_chars (t : Positional) : trimFraction t.chars = t.shortened.chars := by
  unfold trimFraction
  by_cases none : t.fraction = []
  · have unpointed : t.chars.contains '.' = false := by
      have digit : ∀ c ∈ t.whole, c ≠ '.' := by
        rintro c member rfl
        exact absurd (t.whole_digits '.' member) (by decide)
      unfold Positional.chars Positional.unsigned fractionChars signChars
      rw [if_pos none, List.append_nil]
      cases t.negative <;> simpa using fun member => digit '.' member rfl
    rw [unpointed, Positional.shortened_whole none]
    rfl
  · have pointed : t.chars.contains '.' = true := by
      unfold Positional.chars Positional.unsigned fractionChars
      simp [none]
    rw [pointed]
    exact Positional.shortened_chars none

theorem ofSteps_useful (places : Nat) (x : Number A) :
    Positional.ofSteps (usefulPlaces places x) (nearestEven (x.rat * 10 ^ usefulPlaces places x)) =
      Positional.ofSteps places (nearestEven (x.rat * 10 ^ places)) := by
  unfold usefulPlaces
  dsimp only
  split
  · rename_i power
    rcases Nat.le_total places x.rat.den.log2 with few | many
    · rw [Nat.min_eq_left few]
    · rw [Nat.min_eq_right many]
      obtain ⟨j, rfl⟩ := Nat.exists_eq_add_of_le many
      have whole :
          x.rat * 10 ^ x.rat.den.log2 = ((x.rat.num * 5 ^ x.rat.den.log2 : Int) : Rat) := by
        have quotient : x.rat * 2 ^ x.rat.den.log2 = x.rat.num := by
          have denominator : (x.rat.den : Rat) = 2 ^ x.rat.den.log2 := by exact_mod_cast power
          rw [← denominator]
          exact Rat.mul_den_eq_num x.rat
        push_cast
        rw [← quotient, mul_assoc, ← mul_pow]
        norm_num
      have finer : x.rat * 10 ^ (x.rat.den.log2 + j) =
          ((x.rat.num * 5 ^ x.rat.den.log2 * 10 ^ j : Int) : Rat) := by
        rw [pow_add, ← mul_assoc, whole]
        push_cast
        rfl
      rw [whole, finer, nearestEven_intCast, nearestEven_intCast, Positional.ofSteps_shift]
  · rfl

theorem shortened_zero (negative : Bool) (places : Nat) :
    (Positional.ofCount negative places 0).shortened.chars = signChars negative ++ ['0'] := by
  have same := Positional.ofCount_shift negative 0 0 places
  rw [Nat.zero_add, Nat.zero_mul] at same
  rw [same]
  cases negative <;> decide +kernel

theorem chars_of_some_step {t : Positional} (some_step : t.decimal.value ≠ 0) :
    t.chars ≠ ['-', '0'] ∧ t.chars ≠ [] := by
  have read := t.whole?_chars
  constructor
  · intro same
    rw [same] at read
    have literal : Decimal.whole? ['-', '0'] = some ⟨true, 0, 0⟩ := by decide +kernel
    rw [← Option.some.inj (literal.symm.trans read)] at some_step
    exact some_step (by decide +kernel)
  · intro same
    rw [same] at read
    cases read

theorem roundedTo_chars {x : Number A} (finite : x.isFinite = true) (places : Nat) :
    (roundedTo places x).toList =
      (Positional.ofSteps places (nearestEven (x.rat * 10 ^ places))).chars := by
  rw [← ofSteps_useful]
  unfold roundedTo
  generalize usefulPlaces places x = u
  have signed := Number.nearestEven_signed finite u
  dsimp only
  rw [Number.fixed_chars finite, trimFraction_chars]
  generalize nearestEven (x.rat * 10 ^ u) = n at signed
  by_cases zero : n = 0
  · subst zero
    rw [Int.natAbs_zero, shortened_zero]
    unfold Positional.ofSteps
    rw [Int.natAbs_zero, shortened_zero]
    cases x.isNegative <;> decide
  · have sign : x.isNegative = decide (n < 0) := by
      have nonneg : (0 : Rat) ≤ n.natAbs := by positivity
      cases negative : x.isNegative with
      | true =>
        rw [negative, if_pos rfl, neg_one_mul] at signed
        have below : n ≤ 0 := by exact_mod_cast signed.trans_le (neg_nonpos.mpr nonneg)
        exact (decide_eq_true (lt_of_le_of_ne below zero)).symm
      | false =>
        rw [negative, if_neg Bool.false_ne_true, one_mul] at signed
        have above : 0 ≤ n := by exact_mod_cast nonneg.trans_eq signed.symm
        exact (decide_eq_false (not_lt.mpr above)).symm
    have value := Positional.ofSteps_value u n
    rw [sign,
      show (Positional.ofCount (n < 0) u n.natAbs).shortened = Positional.ofSteps u n from rfl]
    generalize Positional.ofSteps u n = t at value
    have some_step : t.decimal.value ≠ 0 := by
      rw [value]
      have : (n : Rat) ≠ 0 := by exact_mod_cast zero
      positivity
    have other := chars_of_some_step some_step
    rw [if_neg (by simp [other.1, other.2]), String.toList_ofList]

theorem roundedTo_step {x : Number A} (finite : x.isFinite = true) {places : Nat} {q : Rat}
    (step : x.rat = toPlaces places q) :
    (roundedTo places x).toList =
      (Positional.ofSteps places (nearestEven (q * 10 ^ places))).chars := by
  rw [roundedTo_chars finite, step, toPlaces_steps, nearestEven_intCast]

end Markup

end DeclarativeAnimation
