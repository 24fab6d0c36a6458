import DeclarativeAnimation.Proofs.Number.Positional

/-! How numbers are spelled: a sign or none, digits with a point or none among them, and an
    exponent or none.  What a text is scanned for is the longest spelling that it begins with. -/
namespace DeclarativeAnimation

open Text Positional

namespace Decimal

inductive Sign where
  | none
  | plus
  | minus
  deriving DecidableEq, Repr

namespace Sign

def chars : Sign → List Char
  | .none => []
  | .plus => ['+']
  | .minus => ['-']

def isMinus : Sign → Bool
  | .minus => true
  | _ => false

end Sign

structure Exponent where
  mark : Char
  sign : Sign
  digits : List Char
  letter : mark = 'e' ∨ mark = 'E'
  some_digit : digits ≠ []
  are_digits : ∀ c ∈ digits, isDigit c = true

namespace Exponent

def chars (e : Exponent) : List Char := e.mark :: (e.sign.chars ++ e.digits)

def power (e : Exponent) : Int :=
  let size : Int := digitsValue e.digits
  if e.sign.isMinus then -size else size

def text (e : Option Exponent) : List Char := (e.map chars).getD []

def shift (e : Option Exponent) : Int := (e.map power).getD 0

end Exponent

/-- A number without its sign: digits, which may have a point before, between or behind them, and
    an exponent or none. -/
structure Unsigned where
  whole : List Char
  fraction : Option (List Char)
  exponent : Option Exponent
  some_digit : whole ++ fraction.getD [] ≠ []
  are_digits : ∀ c ∈ whole ++ fraction.getD [], isDigit c = true

namespace Unsigned

def places (u : Unsigned) : List Char := u.fraction.getD []

def pointed (u : Unsigned) : List Char := (u.fraction.map ('.' :: ·)).getD []

def chars (u : Unsigned) : List Char := u.whole ++ (u.pointed ++ Exponent.text u.exponent)

def decimal (u : Unsigned) (negative : Bool) : Decimal :=
  ⟨negative, digitsValue (u.whole ++ u.places),
    Exponent.shift u.exponent - (u.places.length : Int)⟩

end Unsigned

structure Spelling where
  sign : Sign
  size : Unsigned

namespace Spelling

def chars (l : Spelling) : List Char := l.sign.chars ++ l.size.chars

def decimal (l : Spelling) : Decimal := l.size.decimal l.sign.isMinus

end Spelling

def EndsDigits (rest : List Char) : Prop := ∀ c ∈ rest.head?, isDigit c = false

section Scanning
variable {text rest : List Char} {d : Decimal}

theorem takeWhile_digits {digits : List Char} (are_digits : ∀ c ∈ digits, isDigit c = true)
    (ends : EndsDigits rest) :
    (digits ++ rest).takeWhile isDigit = digits ∧ (digits ++ rest).dropWhile isDigit = rest := by
  rw [List.takeWhile_append_of_pos are_digits, List.dropWhile_append_of_pos are_digits]
  cases rest with
  | nil => simp
  | cons c rest =>
    have outside := ends c rfl
    rw [List.takeWhile_cons_of_neg (by simp [outside]), List.dropWhile_cons_of_neg (by simp [outside]),
      List.append_nil]
    exact ⟨rfl, rfl⟩

theorem dropWhile_ends (text : List Char) : EndsDigits (text.dropWhile isDigit) := by
  intro c first
  have stops := List.head?_dropWhile_not isDigit text
  rw [Option.mem_def.mp first] at stops
  exact stops

theorem scanSign_chars (sign : Sign) (unsigned : ∀ c ∈ text.head?, c ≠ '-' ∧ c ≠ '+') :
    scanSign (sign.chars ++ text) = (sign.isMinus, text) := by
  cases sign with
  | none =>
    rw [Sign.chars, List.nil_append, scanSign.eq_def]
    split
    · exact absurd rfl (unsigned '-' rfl).1
    · exact absurd rfl (unsigned '+' rfl).2
    · rfl
  | plus => rfl
  | minus => rfl

theorem scanSign_spelled (text : List Char) :
    ∃ sign : Sign, text = sign.chars ++ (scanSign text).2 ∧ (scanSign text).1 = sign.isMinus := by
  unfold scanSign
  split
  · exact ⟨.minus, rfl, rfl⟩
  · exact ⟨.plus, rfl, rfl⟩
  · exact ⟨.none, rfl, rfl⟩

theorem unsigned_of_digit {c : Char} (digit : isDigit c = true) : c ≠ '-' ∧ c ≠ '+' := by
  have signs : isDigit '-' = false ∧ isDigit '+' = false := by decide
  constructor
  · rintro rfl
    exact absurd (signs.1.symm.trans digit) Bool.false_ne_true
  · rintro rfl
    exact absurd (signs.2.symm.trans digit) Bool.false_ne_true

theorem scanSign_digit {c : Char} (digit : isDigit c = true) (rest : List Char) :
    scanSign (c :: rest) = (false, c :: rest) :=
  scanSign_chars .none fun _ first => Option.some.inj first ▸ unsigned_of_digit digit

theorem scanExponent_chars (e : Exponent) (ends : EndsDigits rest) :
    scanExponent (e.chars ++ rest) = (e.power, rest) := by
  obtain ⟨first, more, digits⟩ := List.exists_cons_of_ne_nil e.some_digit
  have unsigned : ∀ c ∈ (e.digits ++ rest).head?, c ≠ '-' ∧ c ≠ '+' := by
    rw [digits]
    rintro c ⟨⟩
    exact unsigned_of_digit (e.are_digits first (by simp [digits]))
  obtain ⟨taken, left⟩ := takeWhile_digits e.are_digits ends
  have letter : (e.mark = 'e' || e.mark = 'E') = true := by simpa using e.letter
  have nonempty : e.digits.isEmpty = false := by simpa using e.some_digit
  rw [Exponent.chars, List.cons_append, List.append_assoc, scanExponent]
  simp only [letter, ↓reduceIte, scanSign_chars e.sign unsigned, taken, left, nonempty,
    Bool.false_eq_true]
  rfl

theorem scanExponent_none (ends : EndsNumber rest) : scanExponent rest = (0, rest) := by
  cases rest with
  | nil => rfl
  | cons c rest =>
    have marks : c ≠ 'e' ∧ c ≠ 'E' := by
      have other := (ends c rfl).2
      exact ⟨fun same => other (by simp [same]), fun same => other (by simp [same])⟩
    simp [scanExponent, marks.1, marks.2]

theorem scanExponent_text (e : Option Exponent) (ends : EndsNumber rest) :
    scanExponent (Exponent.text e ++ rest) = (Exponent.shift e, rest) := by
  cases e with
  | none => exact scanExponent_none ends
  | some e => exact scanExponent_chars e fun c first => (ends c first).1

theorem scanExponent_spelled (ends : EndsDigits text) :
    ∃ e : Option Exponent, text = Exponent.text e ++ (scanExponent text).2 ∧
      (scanExponent text).1 = Exponent.shift e ∧ EndsDigits (scanExponent text).2 := by
  have none : ∃ e : Option Exponent, text = Exponent.text e ++ text ∧ 0 = Exponent.shift e ∧
      EndsDigits text := ⟨.none, rfl, rfl, ends⟩
  unfold scanExponent
  split
  · rename_i mark rest
    split
    · rename_i letter
      obtain ⟨sign, parts, minus⟩ := scanSign_spelled rest
      dsimp only
      split
      · exact none
      · rename_i some_digit
        refine ⟨some ⟨mark, sign, (scanSign rest).2.takeWhile isDigit, by simpa using letter,
          by simpa using some_digit, fun c member => List.mem_takeWhile_imp member⟩, ?_, ?_,
          dropWhile_ends _⟩
        · show mark :: rest = mark :: (sign.chars ++ _) ++ _
          rw [List.cons_append, List.append_assoc, List.takeWhile_append_dropWhile, ← parts]
        · rw [minus]
          rfl
    · exact none
  · exact none

theorem exponent_apart (e : Option Exponent) (ends : EndsNumber rest) :
    ∀ c ∈ (Exponent.text e ++ rest).head?, isDigit c = false ∧ c ≠ '.' := by
  cases e with
  | none =>
    intro c first
    exact ⟨(ends c first).1, fun same => (ends c first).2 (by simp [same])⟩
  | some e =>
    rintro c ⟨⟩
    have letters : ∀ c ∈ "eE".toList, isDigit c = false ∧ c ≠ '.' := forall_chars (by decide)
    exact letters e.mark (by simpa using e.letter)

theorem scanUnsigned?_chars (u : Unsigned) (negative : Bool) (ends : EndsNumber rest) :
    scanUnsigned? negative (u.chars ++ rest) = some (u.decimal negative, rest) := by
  obtain ⟨whole, fraction, exponent, some_digit, are_digits⟩ := u
  have scaled := scanExponent_text exponent ends
  have apart := exponent_apart exponent ends
  have wholes : ∀ c ∈ whole, isDigit c = true :=
    fun c member => are_digits c (List.mem_append_left _ member)
  unfold scanUnsigned? Unsigned.chars Unsigned.decimal Unsigned.pointed Unsigned.places
  cases fraction with
  | none =>
    have nonempty : whole.isEmpty = false := by simpa using some_digit
    obtain ⟨taken, left⟩ := takeWhile_digits wholes fun c first => (apart c first).1
    dsimp only [Option.map_none, Option.getD_none]
    rw [List.nil_append, List.append_assoc, taken, left]
    split
    · rename_i pointed
      rw [pointed] at apart
      exact absurd rfl (apart '.' rfl).2
    · simp [nonempty, scaled]
  | some places =>
    have point : EndsDigits ('.' :: (places ++ (Exponent.text exponent ++ rest))) := by
      rintro c ⟨⟩
      decide
    have digits : ∀ c ∈ places, isDigit c = true :=
      fun c member => are_digits c (List.mem_append_right _ member)
    have nonempty : (whole.isEmpty && places.isEmpty) = false := by
      simpa [← Bool.not_eq_true] using some_digit
    obtain ⟨taken, left⟩ := takeWhile_digits wholes point
    obtain ⟨behind, after⟩ := takeWhile_digits digits fun c first => (apart c first).1
    dsimp only [Option.map_some, Option.getD_some]
    rw [List.append_assoc, List.cons_append, List.cons_append, List.append_assoc, taken, left]
    simp only [behind, after, nonempty, Bool.false_eq_true, ↓reduceIte, scaled]

theorem scanUnsigned?_spelled {negative : Bool}
    (scanned : scanUnsigned? negative text = some (d, rest)) :
    ∃ u : Unsigned, text = u.chars ++ rest ∧ d = u.decimal negative ∧ EndsDigits rest := by
  have whole : text.takeWhile isDigit ++ text.dropWhile isDigit = text :=
    List.takeWhile_append_dropWhile
  have wholes : ∀ c ∈ text.takeWhile isDigit, isDigit c = true :=
    fun c member => List.mem_takeWhile_imp member
  unfold scanUnsigned? at scanned
  dsimp only at scanned
  split at scanned
  · rename_i after pointed
    split at scanned
    · cases scanned
    · rename_i some_digit
      have fraction : after.takeWhile isDigit ++ after.dropWhile isDigit = after :=
        List.takeWhile_append_dropWhile
      obtain ⟨e, parts, power, ends⟩ := scanExponent_spelled (dropWhile_ends after)
      cases scanned
      refine ⟨⟨text.takeWhile isDigit, some (after.takeWhile isDigit), e, by simpa using some_digit,
        List.forall_mem_append.mpr ⟨wholes, fun c member => List.mem_takeWhile_imp member⟩⟩,
        ?_, ?_, ends⟩
      · show text = (_ ++ ('.' :: _ ++ _)) ++ _
        rw [List.append_assoc, List.cons_append, List.cons_append, List.append_assoc, ← parts,
          fraction, ← pointed, whole]
      · rw [power]
        rfl
  · split at scanned
    · cases scanned
    · rename_i some_digit
      obtain ⟨e, parts, power, ends⟩ := scanExponent_spelled (dropWhile_ends text)
      cases scanned
      refine ⟨⟨text.takeWhile isDigit, none, e, by simpa using some_digit, by simpa using wholes⟩,
        ?_, ?_, ends⟩
      · show text = (_ ++ ([] ++ _)) ++ _
        rw [List.nil_append, List.append_assoc, ← parts, whole]
      · rw [power]
        simp [Unsigned.decimal, Unsigned.places]

theorem Unsigned.starts (u : Unsigned) : ∃ c ∈ u.chars.head?, isDigit c = true ∨ c = '.' := by
  obtain ⟨whole, fraction, exponent, some_digit, are_digits⟩ := u
  unfold chars pointed
  cases whole with
  | cons c more => exact ⟨c, rfl, .inl (are_digits c (by simp))⟩
  | nil =>
    cases fraction with
    | none => exact absurd rfl some_digit
    | some places => exact ⟨'.', rfl, .inr rfl⟩

theorem Unsigned.unsigned (u : Unsigned) : ∀ c ∈ u.chars.head?, c ≠ '-' ∧ c ≠ '+' := by
  obtain ⟨c, first, starts⟩ := u.starts
  rw [Option.mem_def.mp first]
  rintro d ⟨⟩
  rcases starts with digit | rfl
  · exact unsigned_of_digit digit
  · decide

theorem scan?_chars (l : Spelling) (ends : EndsNumber rest) :
    scan? (l.chars ++ rest) = some (l.decimal, rest) := by
  have unsigned : ∀ c ∈ (l.size.chars ++ rest).head?, c ≠ '-' ∧ c ≠ '+' := by
    obtain ⟨c, first, -⟩ := l.size.starts
    have plain := l.size.unsigned c first
    rw [List.head?_append, Option.mem_def.mp first]
    rintro d ⟨⟩
    exact plain
  rw [scan?, Spelling.chars, List.append_assoc, scanSign_chars l.sign unsigned]
  exact scanUnsigned?_chars l.size l.sign.isMinus ends

theorem scan?_spelled (scanned : scan? text = some (d, rest)) :
    ∃ l : Spelling, text = l.chars ++ rest ∧ d = l.decimal ∧ EndsDigits rest := by
  have unsigned : scanUnsigned? (scanSign text).1 (scanSign text).2 = some (d, rest) := scanned
  obtain ⟨sign, parts, minus⟩ := scanSign_spelled text
  obtain ⟨u, spelled, value, ends⟩ := scanUnsigned?_spelled unsigned
  refine ⟨⟨sign, u⟩, ?_, value.trans (congrArg u.decimal minus), ends⟩
  rw [Spelling.chars, List.append_assoc, ← spelled, ← parts]

end Scanning

def IsMark (c : Char) : Prop := isDigit c = true ∨ c ∈ "+-.eE".toList

section Marks

theorem Sign.marks (sign : Sign) : ∀ c ∈ sign.chars, IsMark c := by
  cases sign with
  | none => simp [Sign.chars]
  | plus => exact List.forall_mem_singleton.mpr (.inr (by decide))
  | minus => exact List.forall_mem_singleton.mpr (.inr (by decide))

theorem Exponent.marks (e : Option Exponent) : ∀ c ∈ Exponent.text e, IsMark c := by
  cases e with
  | none => exact fun c member => by cases member
  | some e =>
    have letter : IsMark e.mark := by
      rcases e.letter with same | same <;> exact .inr (by rw [same]; decide)
    exact List.forall_mem_cons.mpr ⟨letter, List.forall_mem_append.mpr
      ⟨e.sign.marks, fun c member => .inl (e.are_digits c member)⟩⟩

theorem Spelling.marks (l : Spelling) : ∀ c ∈ l.chars, IsMark c := by
  obtain ⟨sign, whole, fraction, exponent, some_digit, are_digits⟩ := l
  obtain ⟨wholes, places⟩ := List.forall_mem_append.mp are_digits
  have pointed : ∀ c ∈ (fraction.map ('.' :: ·)).getD [], IsMark c := by
    cases fraction with
    | none => exact fun c member => by cases member
    | some places' => exact List.forall_mem_cons.mpr ⟨.inr (by decide), fun c member =>
        .inl (places c member)⟩
  exact List.forall_mem_append.mpr ⟨sign.marks, List.forall_mem_append.mpr
    ⟨fun c member => .inl (wholes c member), List.forall_mem_append.mpr
      ⟨pointed, Exponent.marks exponent⟩⟩⟩

end Marks
end Decimal

namespace Positional

def size (t : Positional) : Decimal.Unsigned where
  whole := t.whole
  fraction := if t.fraction = [] then none else some t.fraction
  exponent := none
  some_digit := fun none => t.some_digit (List.append_eq_nil_iff.mp none).1
  are_digits := by
    intro c member
    refine t.digits.isDigit c ?_
    split at member
    · exact List.mem_append_left _ (by simpa using member)
    · exact member

theorem size_chars (t : Positional) : t.size.chars = t.unsigned := by
  unfold Decimal.Unsigned.chars Decimal.Unsigned.pointed size unsigned fractionChars
  split <;> simp [Decimal.Exponent.text]

theorem size_decimal (t : Positional) (negative : Bool) :
    t.size.decimal negative = { t.decimal with negative := negative } := by
  unfold Decimal.Unsigned.decimal Decimal.Unsigned.places size decimal
  by_cases none : t.fraction = [] <;> simp [none, Decimal.Exponent.shift]

def sign (t : Positional) : Decimal.Sign := if t.negative then .minus else .none

def spelling (t : Positional) : Decimal.Spelling := ⟨t.sign, t.size⟩

theorem spelling_chars (t : Positional) : t.spelling.chars = t.chars := by
  unfold Decimal.Spelling.chars spelling sign chars signChars
  rw [size_chars]
  split <;> rfl

theorem spelling_decimal (t : Positional) : t.spelling.decimal = t.decimal := by
  have minus : t.sign.isMinus = t.negative := by
    unfold sign
    cases t.negative <;> rfl
  unfold Decimal.Spelling.decimal spelling
  rw [minus, size_decimal]
  rfl

variable {rest : List Char} (ends : EndsNumber rest)
include ends

theorem scanUnsigned?_unsigned (t : Positional) (negative : Bool) :
    Decimal.scanUnsigned? negative (t.unsigned ++ rest) =
      some ({ t.decimal with negative := negative }, rest) := by
  rw [← size_chars, ← size_decimal]
  exact Decimal.scanUnsigned?_chars t.size negative ends

theorem scan?_chars (t : Positional) : Decimal.scan? (t.chars ++ rest) = some (t.decimal, rest) := by
  rw [← spelling_chars, ← spelling_decimal]
  exact Decimal.scan?_chars t.spelling ends

omit ends in
theorem whole?_chars (t : Positional) : Decimal.whole? t.chars = some t.decimal := by
  have nothing : EndsNumber [] := by
    intro c first
    cases first
  have scanned := t.scan?_chars nothing
  rw [List.append_nil] at scanned
  unfold Decimal.whole?
  rw [scanned]

end Positional
end DeclarativeAnimation
