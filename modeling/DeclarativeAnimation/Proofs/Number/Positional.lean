import DeclarativeAnimation.Proofs.Number.Numeral
import DeclarativeAnimation.Proofs.Number.Rounding
import Mathlib.Algebra.Order.Field.Basic
import Mathlib.Tactic.FieldSimp
import Mathlib.Tactic.Positivity

/-! Numbers in positional notation: a sign, digits, and digits after a point.  Such a text is a
    literal to every reader, up to the first character that could not go on with it, and what it
    denotes is the multiple of a power of ten that its digits count. -/
namespace DeclarativeAnimation

open Text

section Digits

theorem tenPow_natCast (k : Nat) : tenPow k = (10 : Rat) ^ k := by
  unfold tenPow
  rw [if_pos (Int.natCast_nonneg k)]
  simp

theorem tenPow_neg_natCast (k : Nat) : tenPow (-(k : Int)) = 1 / (10 : Rat) ^ k := by
  cases k with
  | zero => decide +kernel
  | succ k =>
    unfold tenPow
    rw [if_neg (by omega)]
    simp [Rat.mkRat_eq_div]

theorem digitsValue_append (xs ys : List Char) :
    digitsValue (xs ++ ys) = digitsValue xs * 10 ^ ys.length + digitsValue ys := by
  have after (start : Nat) (l : List Char) :
      l.foldl (fun n c => 10 * n + (digit? c).getD 0) start =
        start * 10 ^ l.length + digitsValue l := by
    induction l generalizing start with
    | nil => simp [digitsValue]
    | cons c rest ih =>
      unfold digitsValue
      rw [List.foldl_cons, List.foldl_cons, ih, ih (10 * 0 + _), List.length_cons, pow_succ]
      ring
  unfold digitsValue
  rw [List.foldl_append, after]
  rfl

theorem digitsValue_zeros (k : Nat) : digitsValue (List.replicate k '0') = 0 := by
  have zero : (digit? '0').getD 0 = 0 := by decide
  induction k with
  | zero => rfl
  | succ k ih =>
    rw [List.replicate_succ, ← List.singleton_append, digitsValue_append, ih]
    simp [digitsValue, zero]

theorem digitsValue_lt (text : List Char) : digitsValue text < 10 ^ text.length := by
  have single (c : Char) : digitsValue [c] < 10 := by
    unfold digitsValue
    cases known : digit? c with
    | none => simp [known]
    | some d => simpa [known] using digit?_lt_ten known
  induction text with
  | nil => decide
  | cons c rest ih =>
    have first := single c
    rw [← List.singleton_append, digitsValue_append, List.length_append, pow_add]
    have size : digitsValue [c] * 10 ^ rest.length ≤ 9 * 10 ^ rest.length :=
      Nat.mul_le_mul_right _ (by omega)
    rw [List.length_singleton, pow_one]
    omega

def AreDigits (text : List Char) : Prop := ∀ c ∈ text, c.isDigit = true

theorem AreDigits.isDigit {text : List Char} (digits : AreDigits text) :
    ∀ c ∈ text, Text.isDigit c = true := by
  intro c member
  simp [Text.isDigit, digit?_of_isDigit (digits c member)]

theorem areDigits_toDigits (n : Nat) : AreDigits (Nat.toDigits 10 n) :=
  fun _ member => isDigit_of_mem_toDigits member

end Digits

section Trimming
variable {p : Char → Bool} {text : List Char}

theorem trimEndWhile_stop (before : List Char) {c : Char} (outside : p c = false)
    (after : List Char) :
    trimEndWhile p (before ++ c :: after) = before ++ c :: trimEndWhile p after := by
  unfold trimEndWhile
  rw [List.reverse_append, List.reverse_cons, List.append_assoc, List.dropWhile_append]
  split
  · rename_i none
    rw [List.isEmpty_iff.mp none]
    simp [outside]
  · simp

theorem trimEndWhile_append {tail : List Char} (inside : ∀ c ∈ tail, p c = true) :
    trimEndWhile p (text ++ tail) = trimEndWhile p text := by
  unfold trimEndWhile
  rw [List.reverse_append, List.dropWhile_append_of_pos fun c member =>
    inside c (List.mem_reverse.mp member)]

theorem trimEndWhile_parts (p : Char → Bool) (text : List Char) :
    ∃ tail, text = trimEndWhile p text ++ tail ∧ ∀ c ∈ tail, p c = true := by
  refine ⟨(text.reverse.takeWhile p).reverse, ?_, ?_⟩
  · unfold trimEndWhile
    rw [← List.reverse_append, List.takeWhile_append_dropWhile, List.reverse_reverse]
  · intro c member
    exact List.mem_takeWhile_imp (List.mem_reverse.mp member)

theorem trimEndWhile_digits (before tail : List Char) {digits : List Char}
    (some_digit : digits ≠ []) (are_digits : AreDigits digits)
    (points : trimEndWhile (· == '.') tail = []) :
    trimEndWhile (· == '.') (before ++ (digits ++ tail)) = before ++ digits := by
  obtain ⟨front, last, rfl⟩ := List.eq_nil_or_concat digits |>.resolve_left some_digit
  have digit := are_digits last (by simp)
  have outside : (last == '.') = false := by
    cases hit : last == '.' with
    | false => rfl
    | true =>
      rw [eq_of_beq hit] at digit
      cases digit
  have stop := trimEndWhile_stop (p := (· == '.')) (before ++ front) outside tail
  rw [points] at stop
  simpa using stop

end Trimming

def signChars (negative : Bool) : List Char := if negative then ['-'] else []

def fractionChars (fraction : List Char) : List Char :=
  if fraction = [] then [] else '.' :: fraction

/-- A number written with a sign, digits, and digits after a point. -/
structure Positional where
  negative : Bool
  whole : List Char
  fraction : List Char
  some_digit : whole ≠ []
  digits : AreDigits (whole ++ fraction)

namespace Positional

def unsigned (t : Positional) : List Char := t.whole ++ fractionChars t.fraction

def chars (t : Positional) : List Char := signChars t.negative ++ t.unsigned

def decimal (t : Positional) : Decimal :=
  ⟨t.negative, digitsValue (t.whole ++ t.fraction), -(t.fraction.length : Int)⟩

theorem whole_digits (t : Positional) : AreDigits t.whole :=
  fun c member => t.digits c (List.mem_append_left t.fraction member)

theorem fraction_digits (t : Positional) : AreDigits t.fraction :=
  fun c member => t.digits c (List.mem_append_right t.whole member)

theorem mem_unsigned {t : Positional} {c : Char} (member : c ∈ t.unsigned) :
    c.isDigit = true ∨ c = '.' := by
  rcases List.mem_append.mp member with inside | inside
  · exact .inl (t.whole_digits c inside)
  · unfold fractionChars at inside
    split at inside
    · cases inside
    · rcases List.mem_cons.mp inside with point | place
      · exact .inr point
      · exact .inl (t.fraction_digits c place)

theorem unsigned_numeral (t : Positional) : t.unsigned ⊆ numeralChars := by
  intro c member
  rcases mem_unsigned member with digit | rfl
  · exact mem_numeralChars_of_isDigit digit
  · decide

theorem chars_numeral (t : Positional) : t.chars ⊆ numeralChars := by
  refine List.append_subset.mpr ⟨?_, t.unsigned_numeral⟩
  unfold signChars
  split <;> decide

def EndsNumber (rest : List Char) : Prop :=
  ∀ c ∈ rest.head?, isDigit c = false ∧ c ∉ ".eE".toList

def shortened (t : Positional) : Positional where
  negative := t.negative
  whole := t.whole
  fraction := trimEndWhile (· == '0') t.fraction
  some_digit := t.some_digit
  digits := by
    obtain ⟨zeros, parts, -⟩ := trimEndWhile_parts (· == '0') t.fraction
    intro c member
    apply t.digits c
    rw [parts, ← List.append_assoc]
    exact List.mem_append_left zeros member

theorem shortened_chars {t : Positional} (pointed : t.fraction ≠ []) :
    trimEndWhile (· == '.') (trimEndWhile (· == '0') t.chars) = t.shortened.chars := by
  have parted : t.chars = (signChars t.negative ++ t.whole) ++ '.' :: t.fraction := by
    unfold chars unsigned fractionChars
    rw [if_neg pointed, List.append_assoc]
  have digits := t.shortened.fraction_digits
  rw [parted, trimEndWhile_stop (p := (· == '0')) _ (by decide)]
  unfold chars unsigned fractionChars
  change trimEndWhile _ (_ ++ '.' :: t.shortened.fraction) = signChars t.negative ++
    (t.whole ++ if t.shortened.fraction = [] then [] else '.' :: t.shortened.fraction)
  split
  · -- Without digits after it the point goes too, and the digits before it stay.
    rename_i none
    rw [none, List.append_assoc]
    exact (trimEndWhile_digits _ ['.'] t.some_digit t.whole_digits (by decide)).trans (by simp)
  · rename_i some_place
    have trimmed := trimEndWhile_digits (signChars t.negative ++ t.whole ++ ['.']) []
      some_place digits rfl
    simpa using trimmed

theorem shortened_whole {t : Positional} (none : t.fraction = []) : t.shortened = t := by
  cases t
  subst none
  rfl

section Value

theorem decimal_value (t : Positional) : t.decimal.value =
    (if t.negative then -1 else 1) *
      (digitsValue (t.whole ++ t.fraction) / 10 ^ t.fraction.length) := by
  unfold Decimal.value decimal
  dsimp only
  rw [tenPow_neg_natCast]
  split <;> ring

theorem shortened_digits (t : Positional) : ∃ k, t.fraction.length = t.shortened.fraction.length + k ∧
    digitsValue (t.whole ++ t.fraction) =
      digitsValue (t.shortened.whole ++ t.shortened.fraction) * 10 ^ k := by
  obtain ⟨zeros, parts, all_zero⟩ := trimEndWhile_parts (· == '0') t.fraction
  have same : zeros = List.replicate zeros.length '0' :=
    List.eq_replicate_of_mem fun c member => eq_of_beq (all_zero c member)
  refine ⟨zeros.length, ?_, ?_⟩
  · rw [← List.length_append]
    exact congrArg List.length parts
  · have value : digitsValue zeros = 0 := by
      rw [same]
      exact digitsValue_zeros _
    rw [parts, ← List.append_assoc, digitsValue_append, value]
    rfl

theorem shortened_value (t : Positional) : t.shortened.decimal.value = t.decimal.value := by
  obtain ⟨k, length, digits⟩ := t.shortened_digits
  rw [decimal_value, decimal_value, length, digits, pow_add]
  push_cast
  rw [mul_div_mul_right _ _ (by positivity)]
  rfl

end Value

end Positional

end DeclarativeAnimation
