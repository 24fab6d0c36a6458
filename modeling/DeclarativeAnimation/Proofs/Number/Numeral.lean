import DeclarativeAnimation.Number.Decimal
import DeclarativeAnimation.Value
import Mathlib.Algebra.Order.Ring.Rat
import Mathlib.Data.List.TakeWhile
import Mathlib.Tactic.NormNum

/-! Numbers written as text.  The text of a number has no blanks and no letters beyond those of
    an exponent and of the names of infinity and of no number; a whole number reads back. -/
namespace DeclarativeAnimation

open Text

def numeralChars : List Char := "0123456789+-.einfa".toList

theorem forall_chars {text : List Char} {p : Char → Prop} [DecidablePred p]
    (all : text.all (fun c => decide (p c)) = true) : ∀ c ∈ text, p c := by
  intro c member
  exact of_decide_eq_true (List.all_eq_true.mp all c member)

theorem mem_digits_of_isDigit {c : Char} (digit : c.isDigit) : c ∈ "0123456789".toList := by
  have range : 48 ≤ c.toNat ∧ c.toNat ≤ 57 := by
    simpa [Char.isDigit, UInt32.le_iff_toNat_le] using digit
  have known : ∀ n ≤ 57, 48 ≤ n → Char.ofNat n ∈ "0123456789".toList := by decide
  simpa using known c.toNat range.2 range.1

theorem mem_numeralChars_of_isDigit {c : Char} (digit : c.isDigit) : c ∈ numeralChars := by
  have known : "0123456789".toList ⊆ numeralChars := by decide
  exact known (mem_digits_of_isDigit digit)

theorem isDigit_of_mem_toDigits {n : Nat} {c : Char} (member : c ∈ Nat.toDigits 10 n) :
    c.isDigit := Nat.isDigit_of_mem_toDigits (by decide) (by decide) member

theorem digit?_of_isDigit {c : Char} (digit : c.isDigit) : digit? c = some (c.toNat - 48) := by
  have range : 48 ≤ c.toNat ∧ c.toNat ≤ 57 := by
    simpa [Char.isDigit, UInt32.le_iff_toNat_le] using digit
  unfold digit? digitZeros
  rw [List.find?_cons_of_pos (by simp; omega)]
  rfl

theorem digitsValue_toDigits (n : Nat) : digitsValue (Nat.toDigits 10 n) = n := by
  have agree (l : List Char) (digits : ∀ c ∈ l, c.isDigit) (start : Nat) :
      l.foldl (fun m c => 10 * m + (digit? c).getD 0) start = Nat.ofDigitChars 10 l start := by
    induction l generalizing start with
    | nil => simp
    | cons c rest ih =>
      rw [List.foldl_cons, Nat.ofDigitChars_cons, ih fun d member => digits d (by simp [member]),
        digit?_of_isDigit (digits c (by simp))]
      rfl
  unfold digitsValue
  rw [agree _ (fun c member => isDigit_of_mem_toDigits member), Nat.ofDigitChars_ten_toDigits]

namespace Number
variable {A : Arithmetic}

theorem toDigits_numeral (n : Nat) : Nat.toDigits 10 n ⊆ numeralChars :=
  fun _ member => mem_numeralChars_of_isDigit (isDigit_of_mem_toDigits member)

theorem canonicalDigits_numeral (digits : Nat) (unit : Int) :
    (canonicalDigits digits unit).1 ⊆ numeralChars := by
  unfold canonicalDigits
  dsimp only
  split
  · decide
  · intro c member
    have kept := (List.dropWhile_sublist _).mem (List.mem_reverse.mp member)
    exact toDigits_numeral digits (List.mem_reverse.mp kept)

theorem exponentText_numeral (e : Int) : exponentText e ⊆ numeralChars := by
  have size := toDigits_numeral e.natAbs
  have zero : '0' ∈ numeralChars := by decide
  have sign : (if e < 0 then '-' else '+') ∈ numeralChars := by split <;> decide
  refine List.cons_subset.mpr ⟨by decide, List.cons_subset.mpr ⟨sign, ?_⟩⟩
  split
  · exact List.cons_subset.mpr ⟨zero, size⟩
  · exact size

theorem write_numeral (layout : Layout) (digits : Nat) (unit : Int) :
    layout.write digits unit ⊆ numeralChars := by
  have text := canonicalDigits_numeral digits unit
  have point : '.' ∈ numeralChars := by decide
  have zero : '0' ∈ numeralChars := by decide
  have zeros (n : Nat) : List.replicate n '0' ⊆ numeralChars := by
    intro c member
    exact (List.eq_of_mem_replicate member) ▸ zero
  unfold Layout.write
  generalize canonicalDigits digits unit = parts at text
  obtain ⟨found, first⟩ := parts
  dsimp only at text ⊢
  split
  · cases found with
    | nil => exact List.nil_subset _
    | cons d rest =>
      obtain ⟨leading, rest_numeral⟩ := List.cons_subset.mp text
      have fraction : (if rest.isEmpty then [] else '.' :: rest) ⊆ numeralChars := by
        split
        · exact List.nil_subset _
        · exact List.cons_subset.mpr ⟨point, rest_numeral⟩
      exact List.cons_subset.mpr
        ⟨leading, List.append_subset.mpr ⟨fraction, exponentText_numeral first⟩⟩
  split
  · exact List.cons_subset.mpr ⟨zero, List.cons_subset.mpr ⟨point,
      List.append_subset.mpr ⟨zeros _, text⟩⟩⟩
  have whole : found.take (first + 1).toNat ++
      List.replicate ((first + 1).toNat - found.length) '0' ⊆ numeralChars :=
    List.append_subset.mpr ⟨List.Subset.trans (List.take_subset _ _) text, zeros _⟩
  split
  · split
    · exact List.append_subset.mpr ⟨whole, by decide⟩
    · exact whole
  · exact List.append_subset.mpr ⟨whole, List.cons_subset.mpr
      ⟨point, List.Subset.trans (List.drop_subset _ _) text⟩⟩

theorem withSign_numeral {write : Rat → List Char} (written : ∀ q, write q ⊆ numeralChars)
    (x : Number A) : (x.withSign write).toList ⊆ numeralChars := by
  have minus : '-' ∈ numeralChars := by decide
  have names : "nan".toList ⊆ numeralChars ∧ "-inf".toList ⊆ numeralChars ∧
      "inf".toList ⊆ numeralChars := by decide
  unfold withSign
  cases x with
  | nan => exact names.1
  | infinite negative =>
    cases negative with
    | true => exact names.2.1
    | false => exact names.2.2
  | negativeZero =>
    rw [String.toList_ofList]
    exact List.cons_subset.mpr ⟨minus, written 0⟩
  | finite q =>
    dsimp only
    split
    · rw [String.toList_ofList]
      exact List.cons_subset.mpr ⟨minus, written (-q)⟩
    · rw [String.toList_ofList]
      exact written q

theorem shortest_numeral (x : Number A) : x.shortest.toList ⊆ numeralChars := by
  unfold shortest
  refine withSign_numeral (fun q => ?_) x
  split
  · decide
  · exact write_numeral _ _ _

theorem canonicalDigits_some (digits : Nat) (unit : Int) : (canonicalDigits digits unit).1 ≠ [] := by
  unfold canonicalDigits
  dsimp only
  split
  · exact List.cons_ne_nil _ _
  · rename_i kept
    intro none
    exact kept (List.isEmpty_iff.mpr none)

theorem write_some (layout : Layout) (digits : Nat) (unit : Int) :
    layout.write digits unit ≠ [] := by
  have text := canonicalDigits_some digits unit
  unfold Layout.write
  generalize canonicalDigits digits unit = parts at text
  obtain ⟨_ | ⟨d, rest⟩, first⟩ := parts
  · exact absurd rfl text
  dsimp only
  split
  · exact List.cons_ne_nil _ _
  split
  · exact List.cons_ne_nil _ _
  · rename_i large
    obtain ⟨k, places⟩ : ∃ k, (first + 1).toNat = k + 1 := ⟨first.toNat, by omega⟩
    rw [places]
    split
    · split <;> exact List.cons_ne_nil _ _
    · exact List.cons_ne_nil _ _

theorem withSign_some {write : Rat → List Char} (written : ∀ q, write q ≠ []) (x : Number A) :
    (x.withSign write).toList ≠ [] := by
  have names : "nan".toList ≠ [] ∧ "-inf".toList ≠ [] ∧ "inf".toList ≠ [] := by decide
  unfold withSign
  cases x with
  | nan => exact names.1
  | infinite negative =>
    cases negative with
    | true => exact names.2.1
    | false => exact names.2.2
  | negativeZero =>
    rw [String.toList_ofList]
    exact List.cons_ne_nil _ _
  | finite q =>
    dsimp only
    split
    · rw [String.toList_ofList]
      exact List.cons_ne_nil _ _
    · rw [String.toList_ofList]
      exact written q

theorem shortest_some (x : Number A) : x.shortest.toList ≠ [] := by
  unfold shortest
  refine withSign_some (fun q => ?_) x
  split
  · exact List.cons_ne_nil _ _
  · exact write_some _ _ _

theorem pointedDigits_numeral (places n : Nat) : pointedDigits places n ⊆ numeralChars := by
  have zero : '0' ∈ numeralChars := by decide
  have point : '.' ∈ numeralChars := by decide
  have digits : List.replicate (places + 1 - (Nat.toDigits 10 n).length) '0' ++
      Nat.toDigits 10 n ⊆ numeralChars :=
    List.append_subset.mpr ⟨List.replicate_subset.mpr (Or.inr zero), toDigits_numeral n⟩
  unfold pointedDigits
  dsimp only
  split
  · exact digits
  · exact List.append_subset.mpr ⟨List.Subset.trans (List.take_subset _ _) digits,
      List.cons_subset.mpr ⟨point, List.Subset.trans (List.drop_subset _ _) digits⟩⟩

theorem fixed_numeral (places : Nat) (x : Number A) : (x.fixed places).toList ⊆ numeralChars :=
  withSign_numeral (fun _ => pointedDigits_numeral places _) x

end Number

theorem intText_toList (n : Int) :
    (Value.intText n).toList = (if n < 0 then ['-'] else []) ++ Nat.toDigits 10 n.natAbs := by
  unfold Value.intText
  split <;> simp

theorem intText_numeral (n : Int) : (Value.intText n).toList ⊆ numeralChars := by
  rw [intText_toList]
  refine List.append_subset.mpr ⟨?_, Number.toDigits_numeral _⟩
  split <;> decide

theorem numeral_not_blank {c : Char} (member : c ∈ numeralChars) :
    isBlank c = false ∧ Decimal.isMargin c = false ∧ c ≠ '_' := by
  have known : ∀ c ∈ numeralChars, isBlank c = false ∧ Decimal.isMargin c = false ∧ c ≠ '_' :=
    forall_chars (by decide)
  exact known c member

theorem trim_numeral {text : List Char} (numeral : text ⊆ numeralChars) : trim text = text :=
  trimWhile_of_none fun _ member => (numeral_not_blank (numeral member)).1

namespace Decimal

theorem joinDigits?_plain {text : List Char} (plain : ∀ c ∈ text, c ≠ '_') (after : Bool) :
    joinDigits? after text = some text := by
  induction text generalizing after with
  | nil => rfl
  | cons c rest ih =>
    obtain ⟨first, others⟩ := List.forall_mem_cons.mp plain
    rw [joinDigits?.eq_def]
    split
    · contradiction
    · simp_all
    · rename_i same
      obtain ⟨rfl, rfl⟩ := List.cons.inj same
      rw [if_neg first, ih others]
      rfl

theorem joinDigits?_numeral {text : List Char} (numeral : text ⊆ numeralChars) (after : Bool) :
    joinDigits? after text = some text :=
  joinDigits?_plain (fun _ member => (numeral_not_blank (numeral member)).2.2) after

theorem scanUnsigned?_toDigits (negative : Bool) (n : Nat) :
    scanUnsigned? negative (Nat.toDigits 10 n) = some (⟨negative, n, 0⟩, []) := by
  have digits : ∀ c ∈ Nat.toDigits 10 n, isDigit c = true := by
    intro c member
    simp [isDigit, digit?_of_isDigit (isDigit_of_mem_toDigits member)]
  have whole : (Nat.toDigits 10 n).takeWhile isDigit = Nat.toDigits 10 n :=
    List.takeWhile_eq_self_iff.mpr digits
  have none : (Nat.toDigits 10 n).dropWhile isDigit = [] := List.dropWhile_eq_nil_iff.mpr digits
  have some_digit : (Nat.toDigits 10 n).isEmpty = false := by simp
  simp only [scanUnsigned?, whole, none, some_digit, Bool.false_eq_true, ↓reduceIte,
    digitsValue_toDigits]
  rfl

end Decimal

theorem scanSign_toDigits (n : Nat) :
    Decimal.scanSign (Nat.toDigits 10 n) = (false, Nat.toDigits 10 n) := by
  have unsigned : ∀ c ∈ Nat.toDigits 10 n, c ≠ '-' ∧ c ≠ '+' := by
    have known : ∀ c ∈ "0123456789".toList, c ≠ '-' ∧ c ≠ '+' := forall_chars (by decide)
    exact fun c member => known c (mem_digits_of_isDigit (isDigit_of_mem_toDigits member))
  rw [Decimal.scanSign.eq_def]
  split
  · rename_i found
    exact absurd rfl (unsigned '-' (by simp [found])).1
  · rename_i found
    exact absurd rfl (unsigned '+' (by simp [found])).2
  · rfl

theorem lowercase_toDigits (n : Nat) (name : String) (letter : 'n' ∈ name.toList) :
    lowercase (String.ofList (Nat.toDigits 10 n)) ≠ name := by
  intro same
  rw [← same] at letter
  simp only [lowercase, String.toList_ofList, List.mem_map] at letter
  obtain ⟨c, member, lowered⟩ := letter
  have known : ∀ c ∈ "0123456789".toList, c.toLower ≠ 'n' := forall_chars (by decide)
  exact known c (mem_digits_of_isDigit (isDigit_of_mem_toDigits member)) lowered

theorem ofText?_intText {A : Arithmetic} (n : Int) :
    Number.ofText? (Value.intText n).toList =
      some (Decimal.toNumber ⟨n < 0, n.natAbs, 0⟩ : Number A) := by
  have numeral := intText_numeral n
  have trimmed : trimWhile Decimal.isMargin (Value.intText n).toList = (Value.intText n).toList :=
    trimWhile_of_none fun _ member => (numeral_not_blank (numeral member)).2.1
  have signed : Decimal.scanSign (Value.intText n).toList =
      (decide (n < 0), Nat.toDigits 10 n.natAbs) := by
    rw [intText_toList]
    split
    · simp_all [Decimal.scanSign]
    · simp_all [scanSign_toDigits]
  have literal : Decimal.whole? (Value.intText n).toList = some ⟨n < 0, n.natAbs, 0⟩ := by
    simp [Decimal.whole?, Decimal.scan?, signed, Decimal.scanUnsigned?_toDigits]
  have inf := lowercase_toDigits n.natAbs "inf" (by decide)
  have infinity := lowercase_toDigits n.natAbs "infinity" (by decide)
  have nan := lowercase_toDigits n.natAbs "nan" (by decide)
  simp [Number.ofText?, trimmed, Decimal.joinDigits?_numeral numeral, signed, literal, inf,
    infinity, nan]

def Number.IsFloat {A : Arithmetic} (x : Number A) : Prop :=
  x.isFinite = true → Number.nearest x.rat x.isNegative = x

theorem value_of_int (n : Int) : Decimal.value ⟨n < 0, n.natAbs, 0⟩ = n := by
  have one : tenPow 0 = 1 := by decide +kernel
  simp only [Decimal.value, one, mul_one]
  by_cases negative : n < 0
  · obtain ⟨k, rfl⟩ := Int.exists_eq_neg_ofNat (le_of_lt negative)
    simp_all
  · obtain ⟨k, rfl⟩ := Int.eq_ofNat_of_zero_le (not_lt.mp negative)
    simp

theorem toNumber_of_int {A : Arithmetic} {n : Int} (float : (Number.finite n : Number A).IsFloat) :
    Decimal.toNumber ⟨n < 0, n.natAbs, 0⟩ = (.finite n : Number A) := by
  unfold Decimal.toNumber
  cases A with
  | exact => rw [value_of_int]
  | binary64 =>
    dsimp only
    by_cases zero : n = 0
    · subst zero
      decide +kernel
    · have some_digit : n.natAbs ≠ 0 := by omega
      have small : ¬ 3 * (0 : Int) + n.natAbs.log2 + 1 < -1100 := by omega
      have sign : (Number.finite n : Number .binary64).isNegative = decide (n < 0) := by
        simp [Number.isNegative]
      have rounded := float rfl
      rw [sign, Number.rat_finite] at rounded
      rw [if_neg some_digit, if_neg (by decide), if_neg small, value_of_int, rounded]

theorem toNumber_of_whole {A : Arithmetic} {x : Number A} (float : x.IsFloat)
    (finite : x.isFinite = true) (whole : x.isInteger = true) :
    Decimal.toNumber ⟨x.rat.floor < 0, x.rat.floor.natAbs, 0⟩ = x ∨ x = .negativeZero ∧
      Decimal.toNumber ⟨x.rat.floor < 0, x.rat.floor.natAbs, 0⟩ = (0 : Number A) := by
  cases x with
  | finite q =>
    have integral : q.den = 1 := by simpa [Number.isInteger] using whole
    have exact_quotient : (q.num : Rat) = q := (Rat.den_eq_one_iff q).mp integral
    left
    rw [Number.rat_finite, ← exact_quotient, Rat.floor_intCast]
    exact toNumber_of_int (exact_quotient ▸ float)
  | negativeZero =>
    right
    cases A <;> exact ⟨rfl, by decide +kernel⟩
  | infinite negative => cases finite
  | nan => cases finite

end DeclarativeAnimation
