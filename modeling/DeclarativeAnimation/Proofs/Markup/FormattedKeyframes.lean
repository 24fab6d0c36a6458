import DeclarativeAnimation.Proofs.Markup.FormattedValues
import DeclarativeAnimation.Proofs.Timing.EasedRange

/-! Keyframes that were formatted.  The numbers of a list are read as many as they were, each
    from the decimal it was rounded to, and a color is read as the color it was, as long as its
    digits are not a number that would be written otherwise. -/
namespace DeclarativeAnimation
variable {A : Arithmetic}

open Text

section Words
variable {p : Char → Bool}

namespace Text

theorem words_skip {word : List Char} (within : ∀ c ∈ word, p c = true) (rest : List Char) :
    words p (word ++ rest) = words p rest := by
  induction word with
  | nil => rfl
  | cons c word ih =>
    obtain ⟨here, later⟩ := List.forall_mem_cons.mp within
    rw [List.cons_append, ← ih later]
    unfold words
    rw [pieces, if_pos here]
    rfl

theorem words_take {word rest : List Char} (some_char : word ≠ []) (within : ∀ c ∈ word, p c = false)
    (ends : ∀ c ∈ rest.head?, p c = true) : words p (word ++ rest) = word :: words p rest := by
  have kept (more : List (List Char)) :
      (word :: more).filter (!·.isEmpty) = word :: more.filter (!·.isEmpty) :=
    List.filter_cons_of_pos (by simpa using some_char)
  cases rest with
  | nil =>
    rw [List.append_nil]
    unfold words
    rw [pieces_of_none within, kept]
    rfl
  | cons sep rest =>
    have hit := ends sep rfl
    have skipped : words p ([sep] ++ rest) = words p rest := words_skip (by simpa using hit) rest
    rw [List.singleton_append] at skipped
    rw [skipped]
    unfold words
    rw [pieces_append rest within hit, kept]

theorem Alternates.head {b : Bool} {parts : List (List Char)} (parted : Alternates p b parts) :
    ∀ c ∈ parts.flatten.head?, p c = b := by
  cases parted with
  | nil => exact fun c first => by cases first
  | cons some_char within _ =>
    intro c first
    rw [List.flatten_cons, List.head?_append_of_ne_nil _ some_char] at first
    exact within c (List.mem_of_mem_head? first)

theorem words_of_alternates {R : List Char → List Char → Prop} {b : Bool}
    {parts outs : List (List Char)} (each : List.Forall₂ R parts outs)
    (before : Alternates p b parts) (after : Alternates p b outs) :
    List.Forall₂ R (words p parts.flatten) (words p outs.flatten) := by
  induction before generalizing outs with
  | nil =>
    obtain rfl := List.forall₂_nil_left_iff.mp each
    exact .nil
  | @cons b part rest some_char within others ih =>
    cases each with
    | cons first later =>
      cases after with
      | cons some_out kept remaining =>
        rw [List.flatten_cons, List.flatten_cons]
        cases b with
        | true =>
          rw [words_skip within, words_skip kept]
          exact ih later remaining
        | false =>
          rw [words_take some_char within others.head, words_take some_out kept remaining.head]
          exact .cons first (ih later remaining)

end Text

end Words

namespace Markup

section Numbers

open Number Arithmetic

/-- A number that is read where another one was written: nearest to a decimal that is at most
    half a step away. -/
structure IsNear (places : Nat) (x y : Number A) : Prop where
  finite : y.isFinite = true
  near : ∃ d, |d - x.rat| ≤ 1 / 2 / 10 ^ places ∧ y.rat = A.round d

variable {places : Nat} {word out : List Char} {x : Number A}

theorem roundedWord_near (few : places ≤ 10)
    (rounds : roundedWord (.int places : Value A) word = .ok out)
    (read : Number.ofText? word = some x) (finite : x.isFinite = true) :
    ∃ y, Number.ofText? out = some y ∧ IsNear places x y := by
  obtain ⟨q, holds⟩ := Listing.ofText?_holds read finite
  have value : x.rat = q := holds.denotes.2
  have precise : placesOf (.int places : Value A) = .ok places :=
    placesOf_natCast (by unfold mostPlaces; omega)
  unfold roundedWord at rounds
  split at rounds
  · rename_i d number
    obtain rfl := Option.some.inj ((Decimal.ofText?_whole number).symm.trans read)
    unfold rounded at rounds
    rw [precise] at rounds
    obtain rfl := Except.ok.inj rounds
    have step := Positional.ofSteps_value places (nearestEven (q * 10 ^ places))
    rw [roundedTo_chars finite, value]
    generalize Positional.ofSteps places (nearestEven (q * 10 ^ places)) = t at step ⊢
    change t.decimal.value = toPlaces places q at step
    have spans := spans_toPlaces places holds
    rw [← step] at spans
    obtain ⟨bounded, same⟩ := Decimal.toNumber_denotes spans
    refine ⟨_, Decimal.ofText?_whole t.whole?_chars, bounded, toPlaces places q, ?_, ?_⟩
    · rw [value]
      exact toPlaces_near places q
    · rw [same, step]
  · -- A word that is no literal stays, and so does what it denotes.
    obtain rfl := Except.ok.inj rounds
    refine ⟨x, read, finite, x.rat, ?_, ?_⟩
    · rw [sub_self, abs_zero]
      positivity
    · rw [value, holds.has.fixed]

theorem roundedWords_near (few : places ≤ 10) {words outs : List (List Char)} {xs : List (Number A)}
    (each :
      List.Forall₂ (fun word out => roundedWord (.int places : Value A) word = .ok out) words outs)
    (read : words.mapM Number.ofText? = some xs) (finite : ∀ x ∈ xs, x.isFinite = true) :
    ∃ ys, outs.mapM Number.ofText? = some ys ∧ List.Forall₂ (IsNear places) xs ys := by
  have numbers := forall₂_of_mapM read
  clear read
  induction each generalizing xs with
  | nil =>
    obtain rfl := List.forall₂_nil_left_iff.mp numbers
    exact ⟨[], rfl, .nil⟩
  | cons first _ ih =>
    cases numbers with
    | cons number others =>
      obtain ⟨here, later⟩ := List.forall_mem_cons.mp finite
      obtain ⟨y, again, near⟩ := roundedWord_near few first number here
      obtain ⟨ys, more, all⟩ := ih later others
      refine ⟨y :: ys, ?_, .cons near all⟩
      rw [List.mapM_cons, again, more]
      rfl

theorem numbersOf_rounded (few : places ≤ 10) {text out : List Char} {xs : List (Number A)}
    (rounds : roundedText (.int places : Value A) text = .ok out)
    (read : Keyframe.numbersOf text = some xs) (finite : ∀ x ∈ xs, x.isFinite = true) :
    ∃ ys, Keyframe.numbersOf out = some ys ∧ List.Forall₂ (IsNear places) xs ys := by
  obtain ⟨each, b, before, after⟩ := runs_of_rounded rounds
  have words := words_of_alternates each before after
  rw [runs_flatten, runs_flatten] at words
  have separators : Keyframe.isSeparator = isSeparator := rfl
  unfold Keyframe.numbersOf at read ⊢
  rw [separators] at read ⊢
  rw [trim_of_tight (roundedText_tight rounds)]
  generalize Text.words isSeparator (trim text) = found at words read
  generalize Text.words isSeparator out = outs at words ⊢
  cases words with
  | nil => cases read
  | cons first later => exact roundedWords_near few (.cons first later) read finite

end Numbers

section Colors

open Keyframe Number

theorem hexDigit_apart {c : Char} {k : Nat} (hex : hexDigit? c = some k) :
    Markup.isSeparator c = false := by
  have range : 48 ≤ c.toNat ∧ c.toNat ≤ 102 := by
    unfold hexDigit? at hex
    simp only [Bool.and_eq_true, decide_eq_true_eq, Char.le_def, UInt32.le_iff_toNat_le] at hex
    split at hex
    · rename_i digit
      exact ⟨digit.1, digit.2.trans (by decide)⟩
    split at hex
    · rename_i letter
      exact ⟨(by decide : 48 ≤ 97).trans letter.1, letter.2⟩
    split at hex
    · rename_i letter
      exact ⟨(by decide : 48 ≤ 65).trans letter.1, letter.2.trans (by decide)⟩
    · cases hex
  have comma : c ≠ ',' := by
    rintro rfl
    exact absurd range.1 (by decide)
  have solid : isBlank c = false := by
    unfold isBlank
    simp only [Bool.or_eq_false_iff, Bool.and_eq_false_iff, decide_eq_false_iff_not,
      beq_eq_false_iff_ne]
    omega
  simp [Markup.isSeparator, solid, comma]

theorem colorOf?_digits {text : List Char} {color : Color} (read : colorOf? text = some color) :
    ∃ digits values, (trim text = digits ∨ trim text = '#' :: digits) ∧
      digits.mapM hexDigit? = some values ∧ (values.length = 3 ∨ values.length = 6) := by
  unfold colorOf? at read
  dsimp only at read
  generalize trim text = word at read
  split at read
  · rename_i mapped
    split at mapped
    · exact ⟨_, _, .inr rfl, mapped, .inl rfl⟩
    · exact ⟨_, _, .inl rfl, mapped, .inl rfl⟩
  · rename_i mapped
    split at mapped
    · exact ⟨_, _, .inr rfl, mapped, .inr rfl⟩
    · exact ⟨_, _, .inl rfl, mapped, .inr rfl⟩
  · cases read

theorem colorOf?_word {text : List Char} {color : Color} (read : colorOf? text = some color) :
    trim text ≠ [] ∧ (trim text).length ≤ 7 ∧ ∀ c ∈ trim text, Markup.isSeparator c = false := by
  obtain ⟨digits, values, written, mapped, few⟩ := colorOf?_digits read
  have length := (forall₂_of_mapM mapped).length_eq
  have apart : ∀ c ∈ digits, Markup.isSeparator c = false := by
    intro c member
    obtain ⟨k, -, hex⟩ := mem_of_forall₂ (forall₂_of_mapM mapped).flip member
    exact hexDigit_apart hex
  have some_digit : digits ≠ [] := by
    rintro rfl
    rw [List.length_nil] at length
    omega
  rcases written with same | marked
  · rw [same]
    exact ⟨some_digit, by omega, apart⟩
  · rw [marked]
    refine ⟨List.cons_ne_nil _ _, by rw [List.length_cons]; omega, ?_⟩
    exact List.forall_mem_cons.mpr ⟨by decide, apart⟩

theorem roundedTo_natCast {x : Number A} {n : Nat} (is_n : x.Denotes n) (places : Nat) :
    (roundedTo places x).toList = Nat.toDigits 10 n := by
  have whole : (n : Rat) * 10 ^ places = ((n * 10 ^ places : Int) : Rat) := by
    push_cast
    rfl
  have unpointed : (Positional.ofCount ((n : Int) < 0) 0 (n : Int).natAbs).fraction = [] :=
    List.eq_nil_of_length_eq_zero (Positional.ofCount_length _ 0 _)
  have steps := Positional.ofSteps_shift 0 n places
  rw [Nat.zero_add] at steps
  rw [roundedTo_chars is_n.1, is_n.2, whole, nearestEven_intCast, steps]
  unfold Positional.ofSteps
  rw [Positional.shortened_whole unpointed]
  unfold Positional.chars
  rw [Positional.ofCount_unsigned]
  have some_digit : 0 < (Nat.toDigits 10 n).length := List.length_pos_iff.mpr Nat.toDigits_ne_nil
  have unpadded : 0 + 1 - (Nat.toDigits 10 n).length = 0 := by omega
  unfold pointedDigits
  simp [signChars, Positional.ofCount, unpadded]

theorem roundedWord_toDigits {places n : Nat} (few : places ≤ 10) (small : n < 2 ^ 53) :
    roundedWord (.int places : Value A) (Nat.toDigits 10 n) = .ok (Nat.toDigits 10 n) := by
  let t : Positional :=
    { negative := false, whole := Nat.toDigits 10 n, fraction := [], some_digit := Nat.toDigits_ne_nil
      digits := by
        rw [List.append_nil]
        exact areDigits_toDigits n }
  have written : t.chars = Nat.toDigits 10 n := List.append_nil _
  have value : t.decimal.value = n := by
    rw [Positional.decimal_value, List.append_nil, digitsValue_toDigits]
    simp [t]
  have has : A.Has n := Arithmetic.has_natCast small
  have spans : A.Spans t.decimal.value := value ▸ has.spanned
  have is_n : (t.decimal.toNumber : Number A).Denotes n := by
    obtain ⟨bounded, same⟩ := Decimal.toNumber_denotes spans
    exact ⟨bounded, by rw [same, value, has.fixed]⟩
  have read : Decimal.whole? (Nat.toDigits 10 n) = some t.decimal := written ▸ t.whole?_chars
  have precise : placesOf (.int places : Value A) = .ok places :=
    placesOf_natCast (by unfold mostPlaces; omega)
  unfold roundedWord rounded
  rw [read, precise]
  exact congrArg Except.ok (roundedTo_natCast is_n places)

/-- A color stays unless its digits are a number that is written otherwise. -/
theorem roundedText_color {places : Nat} (few : places ≤ 10) {text : List Char} {color : Color}
    (read : colorOf? text = some color)
    (kept : Decimal.whole? (trim text) = none ∨ ∃ n, trim text = Nat.toDigits 10 n) :
    roundedText (.int places : Value A) text = .ok (trim text) := by
  obtain ⟨some_char, short, apart⟩ := colorOf?_word read
  have one : runs Markup.isSeparator (trim text) = [trim text] := by
    have parted : Alternates Markup.isSeparator false [trim text] := .cons some_char apart (.nil _)
    have again := runs_of_alternates parted
    rwa [List.flatten_singleton] at again
  have same : roundedWord (.int places : Value A) (trim text) = .ok (trim text) := by
    rcases kept with other | ⟨n, digits⟩
    · unfold roundedWord
      rw [other]
    · rw [digits] at short ⊢
      have size := (Nat.length_toDigits_le_iff (by decide : 1 < 10) (by decide : 0 < 7)).mp short
      exact roundedWord_toDigits few (size.trans (by decide))
  unfold roundedText
  rw [one, List.mapM_cons, same]
  exact congrArg Except.ok (List.append_nil _)

end Colors

section Meaning

open Keyframe

theorem color?_text (s : String) : color? (.text s : Value A) = .ok (colorOf? s.toList) := rfl

theorem numbers_text (s : String) : numbers (.text s : Value A) = .ok (numbersOf s.toList) := rfl

/-- A keyframe means after formatting what it meant before.  A color is the same color, unless its
    digits alone are a number that is written with other ones; and numbers are as many, each read
    from a decimal that is at most half a step away. -/
theorem formatting_keeps_meaning {places : Nat} (few : places ≤ 10) (v : String) :
    ∃ out : String, formatValue (.text v) (.int places : Value A) = .ok out ∧
      (∀ color, color? (.text v : Value A) = .ok (some color) →
        (Decimal.whole? (trim v.toList) = none ∨ ∃ n, trim v.toList = Nat.toDigits 10 n) →
        color? (.text out : Value A) = .ok (some color)) ∧
      ∀ xs, numbers (.text v : Value A) = .ok (some xs) → (∀ x ∈ xs, x.isFinite = true) →
        ∃ ys, numbers (.text out : Value A) = .ok (some ys) ∧ List.Forall₂ (IsNear places) xs ys := by
  have precise : placesOf (.int places : Value A) = .ok places :=
    placesOf_natCast (by unfold mostPlaces; omega)
  obtain ⟨out, rounds⟩ := roundedText_answers precise v.toList
  refine ⟨String.ofList out, ?_, fun color read kept => ?_, fun xs read finite => ?_⟩
  · rw [formatValue_text, rounds]
    rfl
  · rw [color?_text] at read
    have same := roundedText_color (A := A) few (Except.ok.inj read) kept
    obtain rfl := Except.ok.inj (rounds.symm.trans same)
    rw [color?_text, String.toList_ofList, ← read]
    unfold colorOf?
    rw [trim_of_tight (tight_trim v.toList)]
  · rw [numbers_text] at read
    obtain ⟨ys, again, near⟩ := numbersOf_rounded few rounds (Except.ok.inj read) finite
    refine ⟨ys, ?_, near⟩
    rw [numbers_text, String.toList_ofList, again]

theorem hundred_keeps_meaning : 1 ≤ 10 ∧
    ∃ out : String, formatValue (.text "100" : Value .binary64) (.int 1) = .ok out ∧
      color? (.text out : Value .binary64) = .ok (some ⟨17, 0, 0⟩) ∧
      ∃ ys, numbers (.text out : Value .binary64) = .ok (some ys) ∧
        List.Forall₂ (IsNear 1) [.finite 100] ys := by
  have few : 1 ≤ 10 := by decide
  have red : color? (.text "100" : Value .binary64) = .ok (some ⟨17, 0, 0⟩) := by decide +kernel
  have hundred :
      numbers (.text "100" : Value .binary64) = .ok (some [.finite 100]) := by decide +kernel
  obtain ⟨out, written, colors, lists⟩ := formatting_keeps_meaning (A := .binary64) few "100"
  have color := colors _ red (Or.inr ⟨100, by decide +kernel⟩)
  exact ⟨few, out, written, color, lists _ hundred (by simp [Number.isFinite])⟩

/-- Three zeros are black as a color and written as one; and a double that a decimal is read as
    can be farther away than the decimal is. -/
theorem formatting_shifts_meaning :
    (color? (.text "000" : Value .binary64) = .ok (some ⟨0, 0, 0⟩) ∧
      formatValue (.text "000" : Value .binary64) (.int 4) = .ok "0" ∧
      color? (.text "0" : Value .binary64) = .ok none) ∧
    color? (.text "0.75" : Value .binary64) = .ok none ∧
      numbers (.text "0.75" : Value .binary64) = .ok (some [.finite (3 / 4)]) ∧
      formatValue (.text "0.75" : Value .binary64) (.int 1) = .ok "0.8" ∧
      numbers (.text "0.8" : Value .binary64) =
        .ok (some [.finite (3602879701896397 / 4503599627370496)]) ∧
      (1 : Rat) / 2 / 10 ^ 1 < 3602879701896397 / 4503599627370496 - 3 / 4 := by
  decide +kernel

end Meaning

end Markup

end DeclarativeAnimation
