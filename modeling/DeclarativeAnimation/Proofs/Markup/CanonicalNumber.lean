import DeclarativeAnimation.Proofs.Markup.FormattedKeyframes
import DeclarativeAnimation.Proofs.Number.NearestMultiple

/-! Canonical numbers.  A finite number is written in one way only, that of the step which is
    nearest to it: without zeros that could be left out and without a sign on a zero.  What is
    written is written again as it is, read exactly or as the nearest number. -/
namespace DeclarativeAnimation

open Text

theorem toDigits_leading {n : Nat} (zero : (Nat.toDigits 10 n).head? = some '0') :
    Nat.toDigits 10 n = ['0'] := by
  obtain ⟨rest, parts⟩ := List.head?_eq_some_iff.mp zero
  rcases Nat.eq_zero_or_pos rest.length with none | more
  · rw [parts, List.length_eq_zero_iff.mp none]
  · -- What follows the zero counts as much, with fewer digits.
    have value : digitsValue rest = n := by
      have same := digitsValue_toDigits n
      rw [parts, ← List.singleton_append, digitsValue_append] at same
      have nothing : digitsValue ['0'] = 0 := digitsValue_zeros 1
      rwa [nothing, zero_mul, zero_add] at same
    have short := digitsValue_lt rest
    rw [value, ← Nat.length_toDigits_le_iff (by decide) more, parts, List.length_cons] at short
    omega

namespace Positional

/-- A number as it is written canonically: no zero in front of other digits, no more places than
    those given, no zero in the last of them, and no sign in front of a zero alone. -/
structure IsCanonical (places : Nat) (t : Positional) : Prop where
  leading : t.whole.head? = some '0' → t.whole = ['0']
  few : t.fraction.length ≤ places
  ended : t.fraction.getLast? ≠ some '0'
  unsigned : t.chars ≠ ['-', '0']

theorem ofCount_leading (negative : Bool) {places n : Nat}
    (zero : (ofCount negative places n).whole.head? = some '0') :
    (ofCount negative places n).whole = ['0'] := by
  unfold ofCount at zero ⊢
  dsimp only at zero ⊢
  rcases Nat.lt_or_ge (places + 1) (Nat.toDigits 10 n).length with long | short
  · -- Where nothing is put in front the digits do not begin with a zero.
    have unpadded : paddedDigits (places + 1) n = Nat.toDigits 10 n := by
      unfold paddedDigits
      rw [Nat.sub_eq_zero_of_le long.le]
      rfl
    have some_digit : (Nat.toDigits 10 n).length - places ≠ 0 := by omega
    rw [unpadded, List.head?_take, if_neg some_digit] at zero
    rw [toDigits_leading zero] at long
    simp at long
  · have length : (paddedDigits (places + 1) n).length - places = 1 := by
      unfold paddedDigits
      rw [List.length_append, List.length_replicate]
      omega
    rw [length] at zero ⊢
    obtain ⟨rest, parts⟩ := List.head?_eq_some_iff.mp zero
    have single := congrArg List.length parts
    rw [List.length_take, List.length_cons] at single
    have none : rest.length = 0 := by omega
    rw [parts, List.length_eq_zero_iff.mp none]

theorem shortened_ended (t : Positional) : t.shortened.fraction.getLast? ≠ some '0' := by
  intro zero
  have stops := List.head?_dropWhile_not (· == '0') t.fraction.reverse
  have last : (t.fraction.reverse.dropWhile (· == '0')).head? = some '0' := by
    rw [← List.getLast?_reverse]
    exact zero
  rw [last] at stops
  cases stops

theorem ofSteps_canonical (places : Nat) (n : Int) : (ofSteps places n).IsCanonical places where
  leading := ofCount_leading (n < 0)
  few := ofSteps_length places n
  ended := shortened_ended _
  unsigned := by
    rcases eq_or_ne n 0 with rfl | some_step
    · have zero : (ofSteps places 0).chars = ['0'] := Markup.shortened_zero false places
      rw [zero]
      decide
    · apply (Markup.chars_of_some_step _).1
      have nonzero : (n : Rat) ≠ 0 := by exact_mod_cast some_step
      rw [ofSteps_value]
      positivity

end Positional

namespace Markup
variable {A : Arithmetic} {places : Nat} {x y : Number A} {m : Int}

def lastPlace (places : Nat) : Rat := 1 / 10 ^ places

/-- Finite numbers are written as the nearest multiple of the last place, each in one way only.  It
    is written again as it is, and a larger number is not written as a smaller one. -/
structure PrintsCanonically (places : Nat) (print : Number A → String) : Prop where
  written : ∀ x, x.isFinite = true → ∃ (t : Positional) (m : Int),
    (print x).toList = t.chars ∧ t.IsCanonical places ∧
      Decimal.whole? (print x).toList = some t.decimal ∧
      IsNearestMultiple (lastPlace places) x.rat m ∧ t.decimal.value = m * lastPlace places
  same : ∀ x y, x.isFinite = true → y.isFinite = true → (print x = print y ↔
    ∃ m, IsNearestMultiple (lastPlace places) x.rat m ∧
      IsNearestMultiple (lastPlace places) y.rat m)
  again : ∀ x d, x.isFinite = true → Decimal.whole? (print x).toList = some d →
    print (.finite d.value) = print x
  reread : ∀ x, x.isFinite = true → x.IsFloat → ∃ y : Number A,
    Number.ofText? (print x).toList = some y ∧ y.isFinite = true ∧ print y = print x
  rising : ∀ x y d e, x.isFinite = true → y.isFinite = true → x.rat ≤ y.rat →
    Decimal.whole? (print x).toList = some d → Decimal.whole? (print y).toList = some e →
      d.value ≤ e.value

theorem lastPlace_pos (places : Nat) : 0 < lastPlace places := by
  unfold lastPlace
  positivity

theorem div_lastPlace (q : Rat) : q / lastPlace places = q * 10 ^ places := by
  unfold lastPlace
  rw [div_div_eq_mul_div, div_one]

theorem isNearestMultiple_lastPlace {q : Rat} :
    IsNearestMultiple (lastPlace places) q m ↔ m = nearestEven (q * 10 ^ places) := by
  rw [isNearestMultiple_iff (lastPlace_pos places), div_lastPlace]

theorem value_of_steps (places : Nat) (m : Int) :
    (Positional.ofSteps places m).decimal.value = m * lastPlace places := by
  rw [Positional.ofSteps_value, lastPlace, mul_one_div]

theorem roundedTo_nearest (finite : x.isFinite = true)
    (nearest : IsNearestMultiple (lastPlace places) x.rat m) :
    (roundedTo places x).toList = (Positional.ofSteps places m).chars := by
  rw [roundedTo_chars finite, isNearestMultiple_lastPlace.mp nearest]

theorem whole?_roundedTo (finite : x.isFinite = true)
    (nearest : IsNearestMultiple (lastPlace places) x.rat m) :
    Decimal.whole? (roundedTo places x).toList = some (Positional.ofSteps places m).decimal := by
  rw [roundedTo_nearest finite nearest]
  exact (Positional.ofSteps places m).whole?_chars

theorem roundedTo_eq (fx : x.isFinite = true) (fy : y.isFinite = true)
    (hx : IsNearestMultiple (lastPlace places) x.rat m)
    (hy : IsNearestMultiple (lastPlace places) y.rat m) :
    roundedTo places x = roundedTo places y := by
  apply String.toList_inj.mp
  rw [roundedTo_nearest fx hx, roundedTo_nearest fy hy]

theorem holds_of_isFloat (finite : x.isFinite = true) (float : x.IsFloat) : x.Holds x.rat := by
  have same := float finite
  have bounded : (Number.nearest x.rat x.isNegative : Number A).isFinite = true := by
    rw [same]
    exact finite
  have holds := Number.holds_of_nearest bounded
  rw [same] at holds
  rwa [← holds.denotes.2] at holds

theorem roundedTo_canonical (places : Nat) :
    PrintsCanonically places (roundedTo places : Number A → String) := by
  have nearest (x : Number A) : IsNearestMultiple (lastPlace places) x.rat
      (nearestEven (x.rat * 10 ^ places)) := isNearestMultiple_lastPlace.mpr rfl
  constructor
  case written =>
    intro x finite
    exact ⟨_, _, roundedTo_nearest finite (nearest x), Positional.ofSteps_canonical places _,
      whole?_roundedTo finite (nearest x), nearest x, value_of_steps places _⟩
  case same =>
    intro x y fx fy
    constructor
    · intro same
      have read := whole?_roundedTo fx (nearest x)
      rw [same, whole?_roundedTo fy (nearest y)] at read
      have value := congrArg Decimal.value (Option.some.inj read)
      rw [value_of_steps, value_of_steps] at value
      have steps := mul_right_cancel₀ (lastPlace_pos places).ne' value
      exact ⟨_, nearest x, Int.cast_injective steps ▸ nearest y⟩
    · rintro ⟨m, hx, hy⟩
      exact roundedTo_eq fx fy hx hy
  case again =>
    intro x d finite read
    rw [whole?_roundedTo finite (nearest x)] at read
    obtain rfl := Option.some.inj read
    refine roundedTo_eq rfl finite ((nearest x).of_nearer (lastPlace_pos places) ?_) (nearest x)
    rw [Number.rat_finite, value_of_steps, sub_self, abs_zero]
    exact abs_nonneg _
  case reread =>
    intro x finite float
    have holds := holds_of_isFloat finite float
    have value := value_of_steps places (nearestEven (x.rat * 10 ^ places))
    have spans : A.Spans
        (Positional.ofSteps places (nearestEven (x.rat * 10 ^ places))).decimal.value := by
      rw [Positional.ofSteps_value]
      exact spans_toPlaces places holds
    obtain ⟨bounded, rounds⟩ := Decimal.toNumber_denotes spans
    refine ⟨_, Decimal.ofText?_whole (whole?_roundedTo finite (nearest x)), bounded, ?_⟩
    -- What is written is at least as near to the number that it is read as as to the number.
    refine roundedTo_eq bounded finite ((nearest x).of_nearer (lastPlace_pos places) ?_) (nearest x)
    rw [rounds, ← value, abs_sub_comm, abs_sub_comm x.rat]
    exact holds.has.round_nearest
  case rising =>
    intro x y d e fx fy le first second
    rw [whole?_roundedTo fx (nearest x)] at first
    rw [whole?_roundedTo fy (nearest y)] at second
    obtain rfl := Option.some.inj first
    obtain rfl := Option.some.inj second
    rw [value_of_steps, value_of_steps]
    have scaled := mul_le_mul_of_nonneg_right le (by positivity : (0 : Rat) ≤ 10 ^ places)
    have steps : ((nearestEven (x.rat * 10 ^ places) : Int) : Rat) ≤
        nearestEven (y.rat * 10 ^ places) := by exact_mod_cast nearestEven_mono scaled
    exact mul_le_mul_of_nonneg_right steps (lastPlace_pos places).le

/-- The precisions that can be asked for print numbers canonically, also as values.  A whole number
    is printed as the number nearest to it. -/
theorem numbers_print_canonically (few : (places : Int) ≤ mostPlaces) :
    (∀ x : Number A, rounded x (.int places) = .ok (roundedTo places x)) ∧
      (∀ (v : Value A) x, v.isNumeric = true → v.toNumber = .ok x →
        formatValue v (.int places) = .ok (roundedTo places x)) ∧
      PrintsCanonically places (roundedTo places : Number A → String) := by
  have precise : placesOf (.int places : Value A) = .ok places := placesOf_natCast few
  have rounds (x : Number A) : rounded x (.int places) = .ok (roundedTo places x) := by
    unfold rounded
    rw [precise]
    rfl
  refine ⟨rounds, ?_, roundedTo_canonical places⟩
  intro v x numeric counts
  cases v with
  | int n =>
    unfold formatValue
    dsimp only
    rw [counts]
    exact rounds x
  | number y =>
    unfold formatValue
    dsimp only
    rw [counts]
    exact rounds x
  | _ => cases numeric

/-- An eighth lies between two hundredths, and what is written for it is read as a double. -/
theorem eighth_prints_even :
    rounded (.finite (1 / 8) : Number .binary64) (.int (2 : Nat)) = .ok "0.12" ∧
    ∃ y : Number .binary64, Number.ofText? "0.12".toList = some y ∧ y.isFinite = true ∧
      rounded y (.int (2 : Nat)) = .ok "0.12" := by
  have few : ((2 : Nat) : Int) ≤ mostPlaces := by decide
  obtain ⟨rounds, -, canonical⟩ := numbers_print_canonically (A := .binary64) few
  have text : roundedTo 2 (.finite (1 / 8) : Number .binary64) = "0.12" := by decide +kernel
  have float : (.finite (1 / 8) : Number .binary64).IsFloat := fun _ => by decide +kernel
  obtain ⟨y, read, finite, again⟩ := canonical.reread (.finite (1 / 8)) rfl float
  rw [text] at read again
  exact ⟨by rw [rounds, text], y, read, finite, by rw [rounds, again]⟩

/-- More places than can be asked for are an error, and a whole number between two doubles is written
    as one of them. -/
theorem unprintable_numbers :
    rounded (.finite (3 / 2) : Number .binary64) (.int 2147483648) = .error .placesTooMany ∧
    formatValue (.int 9007199254740993 : Value .binary64) (.int 0) = .ok "9007199254740992" ∧
    ¬ IsNearestMultiple (lastPlace 0) 9007199254740993 9007199254740992 := by
  refine ⟨by decide, by decide +kernel, ?_⟩
  rw [isNearestMultiple_lastPlace]
  decide +kernel

end Markup

end DeclarativeAnimation
