import DeclarativeAnimation.Proofs.Number.Positional
import DeclarativeAnimation.Proofs.Number.Range
import Mathlib.Algebra.Order.AbsoluteValue.Basic
import Mathlib.Algebra.Order.Field.Basic
import Mathlib.Tactic.Linarith

/-! Steps of a power of ten.  A number of steps is written as its digits, with a point so many
    places before the last and without the zeros that end them.  The same number in finer steps
    is the same text, and the nearest step is at most half a step away. -/
namespace DeclarativeAnimation

open Text

section Padding

def paddedDigits (length n : Nat) : List Char :=
  List.replicate (length - (Nat.toDigits 10 n).length) '0' ++ Nat.toDigits 10 n

theorem areDigits_padded (length n : Nat) : AreDigits (paddedDigits length n) := by
  intro c member
  rcases List.mem_append.mp member with zero | digit
  · rw [List.eq_of_mem_replicate zero]
    decide
  · exact isDigit_of_mem_toDigits digit

theorem le_length_padded (length n : Nat) : length ≤ (paddedDigits length n).length := by
  unfold paddedDigits
  rw [List.length_append, List.length_replicate]
  omega

theorem digitsValue_padded (length n : Nat) : digitsValue (paddedDigits length n) = n := by
  unfold paddedDigits
  rw [digitsValue_append, digitsValue_zeros, digitsValue_toDigits]
  omega

theorem toDigits_mul_tenPow {n : Nat} (pos : 0 < n) (j : Nat) :
    Nat.toDigits 10 (n * 10 ^ j) = Nat.toDigits 10 n ++ List.replicate j '0' := by
  induction j with
  | zero => simp
  | succ j ih =>
    have split := Nat.toDigits_append_toDigits (b := 10) (n := n * 10 ^ j) (d := 0) (by decide)
      (by positivity) (by decide)
    rw [ih, Nat.toDigits_zero, List.append_assoc] at split
    rw [pow_succ, List.replicate_succ', split]
    congr 1
    ring

theorem paddedDigits_shift {length : Nat} (pos : 0 < length) (n j : Nat) :
    paddedDigits (length + j) (n * 10 ^ j) = paddedDigits length n ++ List.replicate j '0' := by
  unfold paddedDigits
  rcases Nat.eq_zero_or_pos n with rfl | some_digit
  · have zeros (k : Nat) : List.replicate k '0' ++ ['0'] = List.replicate (k + 1) '0' :=
      List.replicate_succ'.symm
    rw [Nat.zero_mul, Nat.toDigits_zero, List.length_singleton, zeros, zeros, ← List.replicate_add]
    congr 1
    omega
  · rw [toDigits_mul_tenPow some_digit, List.length_append, List.length_replicate,
      Nat.add_sub_add_right, List.append_assoc]

end Padding

namespace Positional

def ofCount (negative : Bool) (places n : Nat) : Positional where
  negative := negative
  whole := (paddedDigits (places + 1) n).take ((paddedDigits (places + 1) n).length - places)
  fraction := (paddedDigits (places + 1) n).drop ((paddedDigits (places + 1) n).length - places)
  some_digit := by
    have long := le_length_padded (places + 1) n
    intro none
    have length := congrArg List.length none
    rw [List.length_take, List.length_nil] at length
    omega
  digits := by
    rw [List.take_append_drop]
    exact areDigits_padded _ n

section Count
variable (negative : Bool) (places n : Nat)

theorem ofCount_digits : (ofCount negative places n).whole ++ (ofCount negative places n).fraction =
    paddedDigits (places + 1) n := List.take_append_drop _ _

theorem ofCount_length : (ofCount negative places n).fraction.length = places := by
  have long := le_length_padded (places + 1) n
  unfold ofCount
  rw [List.length_drop]
  omega

theorem ofCount_unsigned :
    (ofCount negative places n).unsigned = Number.pointedDigits places n := by
  have length := ofCount_length negative places n
  have digits := ofCount_digits negative places n
  unfold unsigned fractionChars Number.pointedDigits
  change _ = if places = 0 then paddedDigits (places + 1) n else
    (ofCount negative places n).whole ++ '.' :: (ofCount negative places n).fraction
  by_cases none : places = 0
  · have empty : (ofCount negative places n).fraction = [] :=
      List.eq_nil_of_length_eq_zero (length.trans none)
    rw [if_pos none, if_pos empty, ← digits, empty]
  · have some_place : (ofCount negative places n).fraction ≠ [] := by
      intro empty
      rw [empty] at length
      exact none length.symm
    rw [if_neg none, if_neg some_place]

theorem ofCount_value : (ofCount negative places n).decimal.value =
    (if negative then -1 else 1) * (n / 10 ^ places : Rat) := by
  rw [decimal_value, ofCount_digits, ofCount_length, digitsValue_padded]
  rfl

theorem ofCount_shift (j : Nat) :
    (ofCount negative (places + j) (n * 10 ^ j)).shortened =
      (ofCount negative places n).shortened := by
  have more : paddedDigits (places + j + 1) (n * 10 ^ j) =
      paddedDigits (places + 1) n ++ List.replicate j '0' := by
    rw [← paddedDigits_shift (Nat.succ_pos places)]
    congr 1
    omega
  have long := le_length_padded (places + 1) n
  have zeros : ∀ c ∈ List.replicate j '0', (c == '0') = true := by
    intro c member
    rw [List.eq_of_mem_replicate member]
    rfl
  have cut : (paddedDigits (places + 1) n ++ List.replicate j '0').length - (places + j) =
      (paddedDigits (places + 1) n).length - places := by
    rw [List.length_append, List.length_replicate]
    omega
  have within :
      (paddedDigits (places + 1) n).length - places ≤ (paddedDigits (places + 1) n).length :=
    Nat.sub_le _ _
  have same_whole :
      (ofCount negative (places + j) (n * 10 ^ j)).whole = (ofCount negative places n).whole := by
    unfold ofCount
    dsimp only
    rw [more, cut, List.take_append_of_le_length within]
  have same_fraction :
      trimEndWhile (· == '0') (ofCount negative (places + j) (n * 10 ^ j)).fraction =
      trimEndWhile (· == '0') (ofCount negative places n).fraction := by
    unfold ofCount
    dsimp only
    rw [more, cut, List.drop_append_of_le_length within, trimEndWhile_append zeros]
  unfold shortened
  congr 1

end Count

/-- The text of a whole number of steps of `10 ^ -places`, as short as can be. -/
def ofSteps (places : Nat) (n : Int) : Positional := (ofCount (n < 0) places n.natAbs).shortened

section Steps
variable (places : Nat) (n : Int)

theorem ofSteps_value : (ofSteps places n).decimal.value = n / 10 ^ places := by
  have size : (n : Rat) = (if n < 0 then -1 else 1) * n.natAbs := by
    rw [Nat.cast_natAbs, Int.cast_abs]
    split
    · rename_i negative
      rw [abs_of_neg (by exact_mod_cast negative)]
      ring
    · rename_i nonneg
      rw [abs_of_nonneg (by exact_mod_cast not_lt.mp nonneg), one_mul]
  unfold ofSteps
  rw [shortened_value, ofCount_value, size]
  simp only [decide_eq_true_eq]
  ring

theorem ofSteps_length : (ofSteps places n).fraction.length ≤ places := by
  obtain ⟨k, length, -⟩ := (ofCount (n < 0) places n.natAbs).shortened_digits
  rw [ofCount_length] at length
  unfold ofSteps
  omega

theorem ofSteps_shift (j : Nat) : ofSteps (places + j) (n * 10 ^ j) = ofSteps places n := by
  have size : (n * 10 ^ j).natAbs = n.natAbs * 10 ^ j := by
    rw [Int.natAbs_mul, Int.natAbs_pow]
    rfl
  have sign : (n * 10 ^ j < 0) ↔ n < 0 := by
    constructor
    · intro negative
      exact neg_of_mul_neg_left negative (by positivity)
    · exact fun negative => mul_neg_of_neg_of_pos negative (by positivity)
  unfold ofSteps
  rw [size, ofCount_shift]
  simp only [sign]

end Steps

end Positional

def toPlaces (places : Nat) (q : Rat) : Rat := nearestEven (q * 10 ^ places) / 10 ^ places

section Places
variable (places : Nat)

theorem toPlaces_near (q : Rat) : |toPlaces places q - q| ≤ 1 / 2 / 10 ^ places := by
  have pos : (0 : Rat) < 10 ^ places := by positivity
  obtain ⟨low, high⟩ := nearestEven_bounds (q * 10 ^ places)
  have apart : toPlaces places q - q =
      (nearestEven (q * 10 ^ places) - q * 10 ^ places) / 10 ^ places := by
    unfold toPlaces
    field_simp
  rw [apart, abs_div, abs_of_pos pos]
  gcongr
  rw [abs_le]
  constructor <;> linarith

theorem toPlaces_steps (q : Rat) : toPlaces places q * 10 ^ places = nearestEven (q * 10 ^ places) :=
  div_mul_cancel₀ _ (by positivity)

theorem toPlaces_of_steps {q : Rat} {k : Int} (whole : q * 10 ^ places = k) :
    toPlaces places q = q := by
  have scale : (10 : Rat) ^ places ≠ 0 := by positivity
  have same := toPlaces_steps places q
  rw [whole, nearestEven_intCast, ← whole] at same
  exact mul_right_cancel₀ scale same

theorem spans_toPlaces {A : Arithmetic} {x : Number A} {q : Rat} (holds : x.Holds q) :
    A.Spans (toPlaces places q) := by
  have most : (1 : Rat) / 2 / 10 ^ places ≤ 1 := by
    have whole : (1 : Rat) ≤ 10 ^ places := one_le_pow₀ (by norm_num)
    rw [div_le_one (by positivity)]
    linarith
  have near := holds.has.spans_near ((toPlaces_near places q).trans most)
  rwa [add_sub_cancel] at near

end Places

namespace Number
variable {A : Arithmetic}

theorem nearestEven_nonneg {q : Rat} (nonneg : 0 ≤ q) : 0 ≤ nearestEven q := by
  have zero : nearestEven 0 = 0 := nearestEven_intCast 0
  rw [← zero]
  exact nearestEven_mono nonneg

theorem nearestEven_signed {x : Number A} (finite : x.isFinite = true) (places : Nat) :
    (nearestEven (x.rat * 10 ^ places) : Rat) =
      (if x.isNegative then -1 else 1) * (nearestEven (x.rat * 10 ^ places)).natAbs := by
  have pos : (0 : Rat) < 10 ^ places := by positivity
  have upward {k : Int} (nonneg : 0 ≤ k) : (k : Rat) = 1 * k.natAbs := by
    rw [one_mul, Nat.cast_natAbs, abs_of_nonneg nonneg]
  have downward {k : Int} (nonpos : k ≤ 0) : (k : Rat) = -1 * k.natAbs := by
    rw [Nat.cast_natAbs, abs_of_nonpos nonpos]
    push_cast
    ring
  cases x with
  | nan => cases finite
  | infinite negative => cases finite
  | negativeZero =>
    have zero : nearestEven ((negativeZero : Number A).rat * 10 ^ places) = 0 := by
      rw [show (negativeZero : Number A).rat = 0 from rfl, zero_mul]
      exact nearestEven_intCast 0
    rw [zero]
    exact downward le_rfl
  | finite q =>
    rw [rat_finite]
    unfold isNegative
    by_cases negative : q < 0
    · have flipped := nearestEven_nonneg (mul_nonneg (neg_nonneg.mpr negative.le) pos.le)
      rw [neg_mul, nearestEven_neg] at flipped
      rw [if_pos (decide_eq_true negative)]
      exact downward (neg_nonneg.mp flipped)
    · rw [if_neg (by simpa using negative)]
      exact upward (nearestEven_nonneg (mul_nonneg (not_lt.mp negative) pos.le))

theorem fixed_chars {x : Number A} (finite : x.isFinite = true) (places : Nat) :
    (x.fixed places).toList =
      (Positional.ofCount x.isNegative places (nearestEven (x.rat * 10 ^ places)).natAbs).chars := by
  have minus (n : Nat) :
      '-' :: pointedDigits places n = (Positional.ofCount true places n).chars := by
    rw [← Positional.ofCount_unsigned true]
    rfl
  have plus (n : Nat) : pointedDigits places n = (Positional.ofCount false places n).chars := by
    rw [← Positional.ofCount_unsigned false]
    rfl
  have size {q : Rat} (nonneg : 0 ≤ q) :
      (nearestEven (q * 10 ^ places)).toNat = (nearestEven (q * 10 ^ places)).natAbs := by
    have above := nearestEven_nonneg (mul_nonneg nonneg (by positivity : (0 : Rat) ≤ 10 ^ places))
    omega
  unfold fixed withSign
  cases x with
  | nan => cases finite
  | infinite negative => cases finite
  | negativeZero =>
    dsimp only
    rw [tenPow_natCast, String.toList_ofList, minus, size le_rfl]
    rfl
  | finite q =>
    dsimp only
    rw [tenPow_natCast, rat_finite]
    by_cases negative : q < 0
    · have sign : (Number.finite q : Number A).isNegative = true := decide_eq_true negative
      have flipped :
          (nearestEven (-q * 10 ^ places)).natAbs = (nearestEven (q * 10 ^ places)).natAbs := by
        rw [neg_mul, nearestEven_neg, Int.natAbs_neg]
      rw [if_pos negative, String.toList_ofList, minus, size (neg_nonneg.mpr negative.le), flipped,
        sign]
    · have sign : (Number.finite q : Number A).isNegative = false := decide_eq_false negative
      rw [if_neg negative, String.toList_ofList, plus, size (not_lt.mp negative), sign]

theorem ofCount_toPlaces {x : Number A} (finite : x.isFinite = true) (places : Nat) :
    (Positional.ofCount x.isNegative places
      (nearestEven (x.rat * 10 ^ places)).natAbs).decimal.value = toPlaces places x.rat := by
  unfold toPlaces
  rw [Positional.ofCount_value, nearestEven_signed finite, mul_div_assoc]

end Number

end DeclarativeAnimation
