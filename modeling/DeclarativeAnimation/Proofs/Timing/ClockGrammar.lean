import DeclarativeAnimation.Proofs.Interpolation.Literal
import DeclarativeAnimation.Proofs.Number.Conversion
import DeclarativeAnimation.Proofs.Number.Magnitude
import DeclarativeAnimation.Proofs.Outcome
import DeclarativeAnimation.Timing.ClockValue

/-! The grammar of clock values.  A text denotes seconds when it is a literal with a unit or
    without one, as long as what it denotes is in range, or when it is two or three fields
    between colons.  Nothing else does, and no text denotes what is no number.  Fields are not
    held to the range, which many digits of hours can leave. -/
namespace DeclarativeAnimation

open Text Number

namespace ClockValue
variable {A : Arithmetic}

inductive TimeUnit where
  | none
  | milliseconds
  | seconds
  | minutes
  | hours
  deriving DecidableEq, Repr

namespace TimeUnit

def chars : TimeUnit → List Char
  | .none => []
  | .milliseconds => ['m', 's']
  | .seconds => ['s']
  | .minutes => ['m', 'i', 'n']
  | .hours => ['h']

def length : TimeUnit → Number A
  | .none => 1
  | .milliseconds => 0.001
  | .seconds => 1
  | .minutes => 60
  | .hours => 3600

end TimeUnit

structure OffsetText where
  literal : Decimal.Spelling
  blanks : List Char
  unit : TimeUnit
  are_blanks : ∀ c ∈ blanks, isBlank c = true

namespace OffsetText

def chars (o : OffsetText) : List Char := o.literal.chars ++ (o.blanks ++ o.unit.chars)

def seconds (o : OffsetText) : Number A :=
  nearest o.literal.decimal.value o.literal.decimal.negative * o.unit.length

end OffsetText

structure IsShort (text : List Char) : Prop where
  are_digits : ∀ c ∈ text, isDigit c = true
  short : text.length = 1 ∨ text.length = 2

/-- Hours of any number of digits, which may be left out, minutes, and seconds with a fraction or
    without. -/
structure ClockText where
  hours : Option (List Char)
  minutes : List Char
  whole : List Char
  fraction : List Char
  some_hour : hours ≠ some []
  hour_digits : ∀ c ∈ hours.getD [], isDigit c = true
  short_minutes : IsShort minutes
  short_seconds : IsShort whole
  fraction_digits : ∀ c ∈ fraction, isDigit c = true

namespace ClockText

def fields (c : ClockText) : List (List Char) :=
  c.hours.toList ++ [c.minutes, c.whole ++ fractionChars c.fraction]

def chars (c : ClockText) : List Char := List.intercalate [':'] c.fields

def seconds (c : ClockText) : Number A :=
  nearest (digitsValue (c.hours.getD [])) false * 3600
    + nearest (digitsValue c.minutes) false * 60
    + nearest (digitsValue (c.whole ++ c.fraction) / 10 ^ c.fraction.length) false

end ClockText

section Offsets
variable {text : List Char} {x : Number A}

theorem unitSeconds?_iff :
    unitSeconds? text = some x ↔ ∃ unit : TimeUnit, text = unit.chars ∧ x = unit.length := by
  constructor
  · intro read
    unfold unitSeconds? at read
    split at read
    · cases read; exact ⟨.none, ‹_›, rfl⟩
    split at read
    · cases read; exact ⟨.milliseconds, ‹_›, rfl⟩
    split at read
    · cases read; exact ⟨.seconds, ‹_›, rfl⟩
    split at read
    · cases read; exact ⟨.minutes, ‹_›, rfl⟩
    split at read
    · cases read; exact ⟨.hours, ‹_›, rfl⟩
    · cases read
  · rintro ⟨unit, rfl, rfl⟩
    cases unit <;> rfl

theorem unit_apart {blanks : List Char} (are_blanks : ∀ c ∈ blanks, isBlank c = true)
    (unit : TimeUnit) : Positional.EndsNumber (blanks ++ unit.chars) := by
  intro c first
  cases blanks with
  | nil =>
    have letters : ∀ c ∈ "msinh".toList, isDigit c = false ∧ c ∉ ".eE".toList :=
      forall_chars (by decide)
    have spelled : unit.chars ⊆ "msinh".toList := by cases unit <;> decide
    exact letters c (spelled (List.mem_of_mem_head? first))
  | cons b rest =>
    obtain rfl := Option.some.inj first
    have blank := are_blanks b List.mem_cons_self
    constructor
    · cases digit : isDigit b with
      | false => rfl
      | true => exact absurd ((Decimal.digit_plain digit).1.symm.trans blank) Bool.false_ne_true
    · have solid : ∀ c ∈ ".eE".toList, isBlank c = false := forall_chars (by decide)
      exact fun mark => absurd ((solid b mark).symm.trans blank) Bool.false_ne_true

theorem dropWhile_unit {blanks : List Char} (are_blanks : ∀ c ∈ blanks, isBlank c = true)
    (unit : TimeUnit) : (blanks ++ unit.chars).dropWhile isBlank = unit.chars := by
  rw [List.dropWhile_append_of_pos are_blanks]
  cases unit <;> decide

theorem offset?_iff :
    offset? text = some x ↔ ∃ o : OffsetText, text = o.chars ∧ x = o.seconds := by
  unfold offset?
  constructor
  · intro read
    obtain ⟨⟨d, rest⟩, scanned, read⟩ := Option.bind_eq_some_iff.mp read
    obtain ⟨unit, known, same⟩ := Option.bind_eq_some_iff.mp read
    obtain ⟨l, spelled, rfl, -⟩ := Decimal.scan?_spelled scanned
    obtain ⟨u, named, rfl⟩ := unitSeconds?_iff.mp known
    cases same
    refine ⟨⟨l, rest.takeWhile isBlank, u, fun c member => List.mem_takeWhile_imp member⟩, ?_, ?_⟩
    · rw [OffsetText.chars, ← named, List.takeWhile_append_dropWhile, ← spelled]
    · rw [OffsetText.seconds, Decimal.toNumber_nearest]
  · rintro ⟨o, rfl, rfl⟩
    have scanned := Decimal.scan?_chars o.literal (unit_apart o.are_blanks o.unit)
    rw [OffsetText.chars, scanned, Option.bind_eq_bind, Option.bind_some]
    dsimp only
    rw [dropWhile_unit o.are_blanks, unitSeconds?_iff.mpr ⟨o.unit, rfl, rfl⟩,
      Decimal.toNumber_nearest]
    rfl

end Offsets

section Fields
variable {text : List Char} {x : Number A}

theorem digits_nearest (n k : Nat) :
    (Decimal.toNumber ⟨false, n, -(k : Int)⟩ : Number A) = nearest (n / 10 ^ k) false := by
  rw [Decimal.toNumber_nearest, Decimal.value_signed]
  dsimp only
  rw [if_neg Bool.false_ne_true, tenPow_neg_natCast, mul_one_div]

theorem whole_nearest (n : Nat) :
    (Decimal.toNumber ⟨false, n, 0⟩ : Number A) = nearest n false := by
  have whole := digits_nearest (A := A) n 0
  rw [pow_zero, div_one] at whole
  exact whole

theorem shortField?_iff :
    shortField? text = some x ↔ IsShort text ∧ x = nearest (digitsValue text) false := by
  unfold shortField?
  rw [whole_nearest]
  constructor
  · intro read
    split at read
    · rename_i short
      simp only [Bool.and_eq_true, List.all_eq_true, Bool.or_eq_true, decide_eq_true_eq] at short
      exact ⟨⟨short.1, short.2⟩, (Option.some.inj read).symm⟩
    · cases read
  · rintro ⟨short, rfl⟩
    rw [if_pos (by simpa using ⟨short.are_digits, short.short⟩)]

theorem secondsField?_iff :
    secondsField? text = some x ↔ ∃ whole fraction, text = whole ++ fractionChars fraction ∧
      IsShort whole ∧ (∀ c ∈ fraction, isDigit c = true) ∧
      x = nearest (digitsValue (whole ++ fraction) / 10 ^ fraction.length) false := by
  unfold secondsField?
  dsimp only
  constructor
  · intro read
    have parts : text.takeWhile isDigit ++ text.dropWhile isDigit = text :=
      List.takeWhile_append_dropWhile
    split at read
    · obtain ⟨short, value⟩ := shortField?_iff.mp read
      exact ⟨text, [], (List.append_nil text).symm, short, by simp, by simpa using value⟩
    · rename_i fraction pointed
      split at read
      · rename_i good
        simp only [Bool.and_eq_true, Bool.or_eq_true, Bool.not_eq_true', decide_eq_true_eq,
          List.isEmpty_eq_false_iff, List.all_eq_true] at good
        obtain ⟨⟨short, some_place⟩, digits⟩ := good
        refine ⟨text.takeWhile isDigit, fraction, ?_,
          ⟨fun c member => List.mem_takeWhile_imp member, short⟩, digits, ?_⟩
        · rw [fractionChars, if_neg some_place, ← pointed, parts]
        · rw [← digits_nearest]
          exact (Option.some.inj read).symm
      · cases read
    · cases read
  · rintro ⟨whole, fraction, rfl, short, digits, rfl⟩
    by_cases none : fraction = []
    · subst none
      have ends : Decimal.EndsDigits [] := fun c first => by cases first
      obtain ⟨-, left⟩ := Decimal.takeWhile_digits short.are_digits ends
      rw [fractionChars, if_pos rfl, left]
      exact shortField?_iff.mpr ⟨by rwa [List.append_nil], by simp⟩
    · have point : Decimal.EndsDigits ('.' :: fraction) := by
        rintro c ⟨⟩
        decide
      obtain ⟨taken, left⟩ := Decimal.takeWhile_digits short.are_digits point
      have good : ((whole.length = 1 || whole.length = 2) && !fraction.isEmpty &&
          fraction.all isDigit) = true := by
        simpa using ⟨⟨short.short, none⟩, digits⟩
      rw [fractionChars, if_neg none, taken, left]
      simp only [good, ↓reduceIte, digits_nearest]

theorem hoursField?_iff : hoursField? text = some x ↔
    text ≠ [] ∧ (∀ c ∈ text, isDigit c = true) ∧ x = nearest (digitsValue text) false := by
  unfold hoursField?
  rw [whole_nearest]
  constructor
  · intro read
    split at read
    · rename_i digits
      simp only [Bool.and_eq_true, Bool.not_eq_true', List.isEmpty_eq_false_iff,
        List.all_eq_true] at digits
      exact ⟨digits.1, digits.2, (Option.some.inj read).symm⟩
    · cases read
  · rintro ⟨some_digit, digits, rfl⟩
    rw [if_pos (by simpa using ⟨some_digit, digits⟩)]

theorem ClockText.fields_apart (c : ClockText) :
    ∀ field ∈ c.fields, ∀ d ∈ field, (d == ':') = false := by
  have digit (d : Char) (is_digit : isDigit d = true) : (d == ':') = false := by
    cases same : d == ':' with
    | false => rfl
    | true =>
      rw [eq_of_beq same] at is_digit
      cases is_digit
  have seconds : ∀ d ∈ c.whole ++ fractionChars c.fraction, (d == ':') = false := by
    refine List.forall_mem_append.mpr ⟨fun d m => digit d (c.short_seconds.are_digits d m), ?_⟩
    unfold fractionChars
    split
    · exact fun d member => by cases member
    · exact List.forall_mem_cons.mpr ⟨rfl, fun d m => digit d (c.fraction_digits d m)⟩
  have hours : ∀ field ∈ c.hours.toList, ∀ d ∈ field, (d == ':') = false := by
    intro field member d inside
    have given := Option.mem_toList.mp member
    refine digit d (c.hour_digits d ?_)
    rwa [Option.mem_def.mp given]
  refine List.forall_mem_append.mpr ⟨hours, List.forall_mem_cons.mpr ⟨fun d m =>
    digit d (c.short_minutes.are_digits d m), List.forall_mem_singleton.mpr seconds⟩⟩

theorem clock?_iff :
    clock? text = some x ↔ ∃ c : ClockText, text = c.chars ∧ x = c.seconds := by
  have zero : (nearest ((digitsValue [] : Nat) : Rat) false : Number A) = 0 := by
    cases A <;> rfl
  unfold clock?
  constructor
  · intro read
    have again := intercalate_pieces ':' text
    split at read
    · rename_i minutes seconds pieces
      obtain ⟨m, known, read⟩ := Option.bind_eq_some_iff.mp read
      obtain ⟨s, listed, read⟩ := Option.bind_eq_some_iff.mp read
      obtain ⟨short, rfl⟩ := shortField?_iff.mp known
      obtain ⟨whole, fraction, rfl, few, digits, rfl⟩ := secondsField?_iff.mp listed
      cases read
      refine ⟨⟨none, minutes, whole, fraction, by simp, by simp, short, few, digits⟩, ?_, ?_⟩
      · rw [← again, pieces]
        rfl
      · rw [← zero]
        rfl
    · rename_i hours minutes seconds pieces
      obtain ⟨h, counted, read⟩ := Option.bind_eq_some_iff.mp read
      obtain ⟨m, known, read⟩ := Option.bind_eq_some_iff.mp read
      obtain ⟨s, listed, read⟩ := Option.bind_eq_some_iff.mp read
      obtain ⟨some_hour, hour_digits, rfl⟩ := hoursField?_iff.mp counted
      obtain ⟨short, rfl⟩ := shortField?_iff.mp known
      obtain ⟨whole, fraction, rfl, few, digits, rfl⟩ := secondsField?_iff.mp listed
      cases read
      refine ⟨⟨some hours, minutes, whole, fraction, by simpa using some_hour, hour_digits, short,
        few, digits⟩, ?_, rfl⟩
      rw [← again, pieces]
      rfl
    · cases read
  · rintro ⟨c, rfl, rfl⟩
    have some_field : c.fields ≠ [] := by simp [ClockText.fields]
    have apart : pieces (· == ':') (List.intercalate [':'] c.fields) = c.fields :=
      pieces_intercalate (by decide) some_field c.fields_apart
    have minutes := (shortField?_iff (A := A)).mpr ⟨c.short_minutes, rfl⟩
    have seconds := (secondsField?_iff (A := A)).mpr
      ⟨c.whole, c.fraction, rfl, c.short_seconds, c.fraction_digits, rfl⟩
    rw [ClockText.chars, apart]
    unfold ClockText.seconds ClockText.fields
    cases given : c.hours with
    | none =>
      dsimp only [Option.toList, List.nil_append, Option.getD_none]
      rw [minutes, seconds, zero]
      rfl
    | some hours =>
      have some_hour : hours ≠ [] := fun none => c.some_hour (by rw [given, none])
      have digits : ∀ d ∈ hours, isDigit d = true := by
        have all := c.hour_digits
        rwa [given] at all
      have counted := (hoursField?_iff (A := A)).mpr ⟨some_hour, digits, rfl⟩
      dsimp only [Option.toList, List.cons_append, List.nil_append, Option.getD_some]
      rw [counted, minutes, seconds]
      rfl

end Fields

theorem OffsetText.no_colon (o : OffsetText) : ':' ∉ o.chars := by
  have colon : isDigit ':' = false ∧ isBlank ':' = false := by decide
  have literal : ':' ∉ o.literal.chars := by
    intro member
    rcases o.literal.marks ':' member with digit | mark
    · exact absurd (colon.1.symm.trans digit) Bool.false_ne_true
    · exact absurd mark (by decide)
  have blanks : ':' ∉ o.blanks := fun member =>
    absurd (colon.2.symm.trans (o.are_blanks ':' member)) Bool.false_ne_true
  have unit : ':' ∉ o.unit.chars := by cases o.unit <;> decide
  simp [chars, literal, blanks, unit]

theorem ClockText.colon_mem (c : ClockText) : ':' ∈ c.chars := by
  unfold chars fields
  cases c.hours <;> simp [List.intercalate_cons_cons]

theorem offset?_of_clock (c : ClockText) : (offset? c.chars : Option (Number A)) = none := by
  cases read : (offset? c.chars : Option (Number A)) with
  | none => rfl
  | some x =>
    obtain ⟨o, same, -⟩ := offset?_iff.mp read
    exact absurd (same ▸ c.colon_mem) o.no_colon

section Range

theorem within_of_le {k : Nat} {q : Rat} (nonneg : 0 ≤ q) (le : q ≤ twoPow k) (small : k ≤ 1023) :
    (nearest q false : Number A).Within k :=
  .of_ofRat (by rwa [abs_of_nonneg nonneg]) small

theorem IsShort.value_lt {text : List Char} (field : IsShort text) : digitsValue text < 100 := by
  have bound := digitsValue_lt text
  rcases field.short with one | two
  · rw [one] at bound
    omega
  · rwa [two] at bound

variable (c : ClockText)

theorem ClockText.minutes_within :
    (nearest (digitsValue c.minutes) false * 60 : Number A).Within 13 := by
  have value : (digitsValue c.minutes : Rat) ≤ twoPow (7 : Nat) := by
    have power : twoPow (7 : Nat) = (128 : Nat) := by decide +kernel
    have small := c.short_minutes.value_lt
    rw [power]
    exact_mod_cast (by omega : digitsValue c.minutes ≤ 128)
  have minutes : (nearest (digitsValue c.minutes) false : Number A).Within 7 :=
    within_of_le (Nat.cast_nonneg _) value (by decide)
  have minute : (60 : Number A).Within 6 := .of_nat (n := 60) (by decide) (by decide)
  exact minutes.mul minute (by decide)

theorem ClockText.fraction_within :
    (nearest (digitsValue (c.whole ++ c.fraction) / 10 ^ c.fraction.length) false :
      Number A).Within 7 := by
  have value : digitsValue (c.whole ++ c.fraction) ≤ 100 * 10 ^ c.fraction.length := by
    have whole := c.short_seconds.value_lt
    have places := digitsValue_lt c.fraction
    have size : digitsValue c.whole * 10 ^ c.fraction.length ≤ 99 * 10 ^ c.fraction.length :=
      Nat.mul_le_mul_right _ (by omega)
    rw [digitsValue_append]
    omega
  have bound : (100 : Rat) ≤ twoPow (7 : Nat) := by decide +kernel
  refine within_of_le (by positivity) (le_trans ?_ bound) (by decide)
  rw [div_le_iff₀ (by positivity)]
  exact_mod_cast value

theorem ClockText.seconds_isNan : (c.seconds : Number A).isNan = false := by
  have hours := isNan_mul_of_pos (A := A)
    (isNan_nearest (digitsValue (c.hours.getD [])) false) (by norm_num : (0 : Rat) < 3600)
  exact isNan_add (isNan_add hours c.minutes_within.isFinite) c.fraction_within.isFinite

theorem ClockText.seconds_isFinite (few : (c.hours.getD []).length ≤ 300) :
    (c.seconds : Number A).isFinite = true := by
  have value : (digitsValue (c.hours.getD []) : Rat) ≤ twoPow (997 : Nat) := by
    have power : (10 : Rat) ^ 300 ≤ twoPow (997 : Nat) := by decide +kernel
    calc (digitsValue (c.hours.getD []) : Rat)
        ≤ 10 ^ (c.hours.getD []).length := by exact_mod_cast (digitsValue_lt _).le
      _ ≤ 10 ^ 300 := pow_le_pow_right₀ (by norm_num) few
      _ ≤ twoPow (997 : Nat) := power
  have hours : (nearest (digitsValue (c.hours.getD [])) false : Number A).Within 997 :=
    within_of_le (Nat.cast_nonneg _) value (by decide)
  have hour : (3600 : Number A).Within 12 := .of_nat (n := 3600) (by decide) (by decide)
  have whole := (hours.mul hour (by decide)).add (c.minutes_within.mono (by decide)) (by decide)
  exact (whole.add (c.fraction_within.mono (by decide)) (by decide)).isFinite

end Range

theorem ofText?_iff {text : List Char} {x : Number A} : ofText? text = some x ↔
    (∃ o : OffsetText, trim text = o.chars ∧ x = o.seconds ∧ x.isFinite = true) ∨
      ∃ c : ClockText, trim text = c.chars ∧ x = c.seconds := by
  unfold ofText?
  dsimp only
  cases read : (offset? (trim text) : Option (Number A)) with
  | none =>
    dsimp only
    rw [clock?_iff]
    refine (or_iff_right ?_).symm
    rintro ⟨o, spelled, rfl, -⟩
    exact absurd (read.symm.trans (offset?_iff.mpr ⟨o, spelled, rfl⟩)) (by simp)
  | some y =>
    have untimed : ¬ ∃ c : ClockText, trim text = c.chars ∧ x = c.seconds := by
      rintro ⟨c, spelled, -⟩
      rw [spelled, offset?_of_clock] at read
      cases read
    have only : (∃ o : OffsetText, trim text = o.chars ∧ x = o.seconds) ↔ x = y := by
      rw [← offset?_iff, read, Option.some.injEq, eq_comm]
    rw [or_iff_left untimed]
    dsimp only
    constructor
    · intro given
      split at given
      · rename_i finite
        obtain rfl := Option.some.inj given
        obtain ⟨o, spelled, value⟩ := only.mpr rfl
        exact ⟨o, spelled, value, finite⟩
      · cases given
    · rintro ⟨o, spelled, value, finite⟩
      obtain rfl := only.mp ⟨o, spelled, value⟩
      exact if_pos finite

section Seconds
variable {l : Decimal.Spelling}

theorem mark_solid {c : Char} (mark : Decimal.IsMark c) : isBlank c = false := by
  have signs : ∀ c ∈ "+-.eE".toList, isBlank c = false := forall_chars (by decide)
  rcases mark with digit | sign
  · exact (Decimal.digit_plain digit).1
  · exact signs c sign

theorem ofText?_seconds
    (finite : (nearest l.decimal.value l.decimal.negative * 1 : Number A).isFinite = true) :
    ofText? (l.chars ++ ['s']) =
      some (nearest l.decimal.value l.decimal.negative * 1 : Number A) := by
  have solid : ∀ c ∈ l.chars ++ ['s'], isBlank c = false :=
    List.forall_mem_append.mpr ⟨fun c member => mark_solid (l.marks c member),
      List.forall_mem_singleton.mpr (by decide)⟩
  have trimmed : trim (l.chars ++ ['s']) = l.chars ++ ['s'] := trimWhile_of_none solid
  exact ofText?_iff.mpr (.inl ⟨⟨l, [], .seconds, nofun⟩, trimmed, rfl, finite⟩)

theorem seconds_denote (spans : A.Spans l.decimal.value) :
    ∃ y : Number A, ofText? (l.chars ++ ['s']) = some y ∧
      y.Denotes (A.round l.decimal.value) := by
  have has := Arithmetic.has_round spans
  have once := mul_holds (A := A) (nearest_denotes spans l.decimal.negative) (.finite 1)
    (by rw [mul_one]; exact has.spanned)
  rw [mul_one, has.fixed] at once
  exact ⟨_, ofText?_seconds once.denotes.1, once.denotes⟩

end Seconds

/-- The seconds that a text denotes: those of a literal with its unit as long as they are in
    range, and those of fields between colons; nothing else denotes any.  They are a number, and
    unless the hours have very many digits they are in range. -/
theorem clock_values_read (s : String) :
    Answers (read? (.text s : Value A)) fun result =>
      (∀ x, result = some x ↔
        (∃ o : OffsetText, trim s.toList = o.chars ∧ x = o.seconds ∧ x.isFinite = true) ∨
          ∃ c : ClockText, trim s.toList = c.chars ∧ x = c.seconds) ∧
      (∀ x, result = some x → x.isNan = false) ∧
      ((∀ c : ClockText, trim s.toList = c.chars → (c.hours.getD []).length ≤ 300) →
        ∀ x, result = some x ↔
          ((∃ o : OffsetText, trim s.toList = o.chars ∧ x = o.seconds) ∨
            ∃ c : ClockText, trim s.toList = c.chars ∧ x = c.seconds) ∧ x.isFinite = true) := by
  refine .ok ⟨fun x => ofText?_iff, fun x read => ?_, fun few x => ?_⟩
  · rcases ofText?_iff.mp read with ⟨o, -, -, finite⟩ | ⟨c, -, rfl⟩
    · exact isNan_of_isFinite finite
    · exact c.seconds_isNan
  · refine ofText?_iff.trans ⟨?_, ?_⟩
    · rintro (⟨o, spelled, value, finite⟩ | ⟨c, spelled, rfl⟩)
      · exact ⟨.inl ⟨o, spelled, value⟩, finite⟩
      · exact ⟨.inr ⟨c, spelled, rfl⟩, c.seconds_isFinite (few c spelled)⟩
    · rintro ⟨⟨o, spelled, value⟩ | timed, finite⟩
      · exact .inl ⟨o, spelled, value, finite⟩
      · exact .inr timed

section Instance

theorem half_minute_read :
    Answers (read? (.text " .5 min\n" : Value .binary64)) fun result =>
      ∀ x, result = some x ↔
        ((∃ o : OffsetText, ".5 min".toList = o.chars ∧ x = o.seconds) ∨
          ∃ c : ClockText, ".5 min".toList = c.chars ∧ x = c.seconds) ∧ x.isFinite = true := by
  have trimmed : trim " .5 min\n".toList = ".5 min".toList := by decide
  refine (clock_values_read " .5 min\n").imp fun result read => ?_
  rw [trimmed] at read
  refine read.2.2 fun c spelled => ?_
  have colon := c.colon_mem
  rw [← spelled] at colon
  exact absurd colon (by decide)

def endlessHours : String := String.ofList ('1' :: List.replicate 305 '0' ++ ":00:00".toList)

theorem endless_hours_read :
    read? (.text endlessHours : Value .binary64) = .ok (some (.infinite false)) := by
  decide +kernel

end Instance

end ClockValue
end DeclarativeAnimation
