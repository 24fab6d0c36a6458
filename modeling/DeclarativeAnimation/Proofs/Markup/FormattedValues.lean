import DeclarativeAnimation.Proofs.Interpolation.Literal
import DeclarativeAnimation.Proofs.Markup.EmittedKeyframes
import DeclarativeAnimation.Proofs.Markup.RoundedNumber

/-! Formatted values.  Rounding goes word by word: a number becomes another numeral, everything
    else stays, so that the words of what is written are the written words.  In exact arithmetic
    a numeral is written as it is, and what was formatted once stays as it is. -/
namespace DeclarativeAnimation

open Text

section Runs
variable {p : Char → Bool}

/-- Words that lie in turn wholly inside and wholly outside a class. -/
inductive Text.Alternates (p : Char → Bool) : Bool → List (List Char) → Prop
  | nil (b : Bool) : Alternates p b []
  | cons {b : Bool} {word : List Char} {rest : List (List Char)} (some_char : word ≠ [])
      (within : ∀ c ∈ word, p c = b) (others : Alternates p (!b) rest) :
      Alternates p b (word :: rest)

namespace Markup

theorem runs_alternate (p : Char → Bool) (text : List Char) : ∃ b, Alternates p b (runs p text) := by
  induction text with
  | nil => exact ⟨true, .nil true⟩
  | cons c rest ih =>
    obtain ⟨b, parted⟩ := ih
    unfold runs
    generalize runs p rest = found at parted
    cases parted with
    | nil => exact ⟨p c, .cons (List.cons_ne_nil c []) (by simp) (.nil _)⟩
    | @cons _ word more some_char within others =>
      obtain ⟨d, run, rfl⟩ := List.exists_cons_of_ne_nil some_char
      have first : p d = b := within d List.mem_cons_self
      dsimp only
      split
      · rename_i same
        have joined : p c = b := (eq_of_beq same).trans first
        refine ⟨b, .cons (List.cons_ne_nil _ _) ?_ others⟩
        exact List.forall_mem_cons.mpr ⟨joined, within⟩
      · rename_i apart
        have other : p c = !b := by
          rw [first] at apart
          revert apart
          cases p c <;> cases b <;> decide
        refine ⟨!b, .cons (List.cons_ne_nil c []) (by simpa using other) ?_⟩
        rw [Bool.not_not]
        exact .cons some_char within others

theorem runs_cons {b : Bool} {word : List Char} {rest : List (List Char)} (some_char : word ≠ [])
    (within : ∀ c ∈ word, p c = b) (others : Alternates p (!b) rest)
    (later : runs p rest.flatten = rest) : runs p (word ++ rest.flatten) = word :: rest := by
  induction word with
  | nil => exact absurd rfl some_char
  | cons c word ih =>
    obtain ⟨here, within⟩ := List.forall_mem_cons.mp within
    rw [List.cons_append, runs.eq_def]
    dsimp only
    cases word with
    | nil =>
      rw [List.nil_append, later]
      cases others with
      | nil => rfl
      | @cons _ next more some_next apart _ =>
        obtain ⟨d, run, rfl⟩ := List.exists_cons_of_ne_nil some_next
        have differ : (p c == p d) = false := by
          rw [here, apart d List.mem_cons_self]
          cases b <;> decide
        dsimp only
        rw [differ]
        rfl
    | cons d word =>
      have same : (p c == p d) = true := by
        rw [here, within d List.mem_cons_self]
        exact beq_self_eq_true b
      rw [ih (List.cons_ne_nil d word) within]
      dsimp only
      rw [same]
      rfl

theorem runs_of_alternates {b : Bool} {words : List (List Char)} (parted : Alternates p b words) :
    runs p words.flatten = words := by
  induction parted with
  | nil => rfl
  | cons some_char within others ih => exact runs_cons some_char within others ih

end Markup

end Runs

namespace Markup

section Words
variable {A : Arithmetic} {precision : Value A} {word out : List Char}

theorem apart_of_number {d : Decimal} (read : Decimal.whole? word = some d) :
    ∀ c ∈ word, isSeparator c = false := by
  intro c member
  have plain := Decimal.whole?_plain read c member
  have comma : c ≠ ',' := fun same => plain.2 (by simp [same])
  simp [isSeparator, plain.1, comma]

theorem numeral_apart {text : List Char} (numeral : text ⊆ numeralChars) :
    ∀ c ∈ text, isSeparator c = false := by
  have known : ∀ c ∈ numeralChars, isSeparator c = false := forall_chars (by decide)
  exact fun c member => known c (numeral member)

theorem roundedWord_within {b : Bool} (rounds : roundedWord precision word = .ok out)
    (some_char : word ≠ []) (within : ∀ c ∈ word, isSeparator c = b) :
    out ≠ [] ∧ ∀ c ∈ out, isSeparator c = b := by
  unfold roundedWord at rounds
  split at rounds
  · rename_i d number
    obtain ⟨s, writes, same⟩ := bind_eq_ok rounds
    obtain ⟨places, _, written⟩ := bind_eq_ok writes
    obtain rfl := Except.ok.inj same
    obtain rfl := Except.ok.inj written
    obtain ⟨c, rest, rfl⟩ := List.exists_cons_of_ne_nil some_char
    have outside : b = false := by
      rw [← within c List.mem_cons_self]
      exact apart_of_number number c List.mem_cons_self
    obtain ⟨numeral, some_digit⟩ := roundedTo_numeral places (d.toNumber : Number A)
    exact ⟨some_digit, outside ▸ numeral_apart numeral⟩
  · obtain rfl := Except.ok.inj rounds
    exact ⟨some_char, within⟩

theorem alternates_rounded {b : Bool} {words found : List (List Char)}
    (each : List.Forall₂ (fun word out => roundedWord precision word = .ok out) words found)
    (parted : Alternates isSeparator b words) : Alternates isSeparator b found := by
  induction parted generalizing found with
  | nil =>
    obtain rfl := List.forall₂_nil_left_iff.mp each
    exact .nil _
  | cons some_char within _ ih =>
    cases each with
    | cons first later =>
      obtain ⟨some_out, kept⟩ := roundedWord_within first some_char within
      exact .cons some_out kept (ih later)

theorem runs_of_rounded {text out : List Char} (read : roundedText precision text = .ok out) :
    List.Forall₂ (fun word out => roundedWord precision word = .ok out)
        (runs isSeparator (trim text)) (runs isSeparator out) ∧
      ∃ b, Alternates isSeparator b (runs isSeparator (trim text)) ∧
        Alternates isSeparator b (runs isSeparator out) := by
  obtain ⟨found, mapped, same⟩ := bind_eq_ok read
  obtain rfl := Except.ok.inj same
  have each := forall₂_of_ok mapped
  obtain ⟨b, parted⟩ := runs_alternate isSeparator (trim text)
  have kept := alternates_rounded each parted
  rw [runs_of_alternates kept]
  exact ⟨each, b, parted, kept⟩

end Words

/-- What formatting makes of a word.  Separators and words that are no number stay, and a number
    is written as the nearest step. -/
structure Reworded (places : Nat) (word out : List Char) : Prop where
  separators : (∀ c ∈ word, isSeparator c = true) → out = word
  others : Decimal.whole? word = none → out = word
  numbers : ∀ d, Decimal.whole? word = some d →
    out = (Positional.ofSteps places (nearestEven (d.value * 10 ^ places))).chars

section Exact
variable {precision : Value .exact} {places : Nat} (precise : placesOf precision = .ok places)
include precise

theorem reworded_of_rounded {word out : List Char} (read : roundedWord precision word = .ok out) :
    Reworded places word out := by
  unfold roundedWord at read
  split at read
  · rename_i d number
    unfold rounded at read
    rw [precise] at read
    obtain rfl := Except.ok.inj read
    have written := roundedTo_chars (x := (d.toNumber : Number .exact)) rfl places
    refine ⟨fun separators => ?_, fun none => ?_, fun d' same => ?_⟩
    · obtain ⟨c, rest, rfl⟩ := List.exists_cons_of_ne_nil (Decimal.whole?_ne_nil number)
      have apart := apart_of_number number c List.mem_cons_self
      rw [separators c List.mem_cons_self] at apart
      cases apart
    · rw [number] at none
      cases none
    · obtain rfl := Option.some.inj (number.symm.trans same)
      exact written
  · rename_i none
    obtain rfl := Except.ok.inj read
    exact ⟨fun _ => rfl, fun _ => rfl, fun d number => by rw [none] at number; cases number⟩

theorem roundedText_reworded {text out : List Char} (read : roundedText precision text = .ok out) :
    List.Forall₂ (Reworded places) (runs isSeparator (trim text)) (runs isSeparator out) :=
  (runs_of_rounded read).1.imp fun _ _ rounds => reworded_of_rounded precise rounds

theorem roundedWord_again {word out : List Char} (reworded : Reworded places word out) :
    roundedWord precision out = .ok out := by
  cases read : Decimal.whole? word with
  | none =>
    rw [reworded.others read]
    unfold roundedWord
    rw [read]
  | some d =>
    have step := Positional.ofSteps_value places (nearestEven (d.value * 10 ^ places))
    have literal := (Positional.ofSteps places (nearestEven (d.value * 10 ^ places))).whole?_chars
    rw [reworded.numbers d read]
    unfold roundedWord rounded
    rw [literal, precise]
    exact congrArg Except.ok (roundedTo_step (x := .finite _) rfl step)

theorem roundedText_again {text out : List Char} (read : roundedText precision text = .ok out) :
    roundedText precision out = .ok out := by
  have each := roundedText_reworded precise read
  have mapped :
      (runs isSeparator out).mapM (roundedWord precision) = .ok (runs isSeparator out) := by
    refine mapM_eq_ok_iff.mpr (List.forall₂_same.mpr fun word member => ?_)
    obtain ⟨_, _, reworded⟩ := mem_of_forall₂ each member
    exact roundedWord_again precise reworded
  unfold roundedText
  rw [trim_of_tight (roundedText_tight read), mapped]
  exact congrArg Except.ok (runs_flatten isSeparator out)

theorem roundedTexts_again {texts found : List (List Char)}
    (mapped : texts.mapM (roundedText precision) = .ok found) :
    found.mapM (roundedText precision) = .ok found := by
  refine mapM_eq_ok_iff.mpr (List.forall₂_same.mpr fun out member => ?_)
  obtain ⟨_, _, read⟩ := mem_of_forall₂ (forall₂_of_ok mapped) member
  exact roundedText_again precise read

end Exact

section Lists
variable {A : Arithmetic} {precision : Value A}

theorem entries_text (s : String) :
    Listing.entries (.text s : Value A) = Listing.entriesOf s.toList := rfl

theorem entries_of_formatted {text : List Char} {found : List (List Char)}
    (rounds : (pieces (· == ';') text).mapM (roundedText precision) = .ok found) :
    (Listing.entriesOf text).mapM (roundedText precision) =
      .ok (Listing.entriesOf (List.intercalate [';'] found)) :=
  mapM_eq_ok_iff.mpr ((Listing.entriesOf_rounded rounds).imp fun _ _ rounded => rounded.1)

theorem rounded_entries (text : List Char) :
    ((pieces (· == ';') text).filter fun e => !(trim e).isEmpty).mapM (roundedText precision) =
      (Listing.entriesOf text).mapM (roundedText precision) := by
  unfold Listing.entriesOf
  generalize pieces (· == ';') text = parts
  induction parts with
  | nil => rfl
  | cons piece rest ih =>
    rw [List.map_cons]
    by_cases blank : trim piece = []
    · rw [List.filter_cons_of_neg (by simp [blank]), List.filter_cons_of_neg (by simp [blank])]
      exact ih
    · rw [List.filter_cons_of_pos (by simpa using blank),
        List.filter_cons_of_pos (by simpa using blank), List.mapM_cons, List.mapM_cons, roundedText_trim, ih]

end Lists

section Formatting
variable {precision : Value .exact} {places : Nat}

/-- Formatting in exact arithmetic.  Of a value the separators and the words that are no number
    are kept, and of a list the number of pieces; what was formatted is formatted as itself; the
    entries of a formatted list are the entries, each formatted, and key points are these with
    semicolons between them. -/
theorem formatting_settles (precise : placesOf precision = .ok places) (v : String) :
    ∃ once all points : String,
      formatValue (.text v) precision = .ok once ∧
      formatValues (.text v) precision = .ok all ∧
      formatKeyPoints (.text v) precision = .ok points ∧
      List.Forall₂ (Reworded places) (runs isSeparator (trim v.toList))
        (runs isSeparator once.toList) ∧
      formatValue (.text once) precision = .ok once ∧
      formatValues (.text all) precision = .ok all ∧
      (pieces (· == ';') all.toList).length = (pieces (· == ';') v.toList).length ∧
      (Listing.entries (.text v : Value .exact)).mapM
          (fun entry => formatValue (.text (String.ofList entry)) precision) =
        .ok ((Listing.entries (.text all : Value .exact)).map String.ofList) ∧
      points = ";".intercalate ((Listing.entries (.text all : Value .exact)).map String.ofList) := by
  obtain ⟨out, reads⟩ := roundedText_answers precise v.toList
  obtain ⟨found, rounds⟩ := roundedTexts_answer precise (pieces (· == ';') v.toList)
  have apart := Listing.pieces_of_rounded rounds
  have entries := entries_of_formatted rounds
  have listed :
      formatValues (.text v) precision = .ok (String.ofList (List.intercalate [';'] found)) := by
    rw [formatValues_text, rounds]
    rfl
  refine ⟨String.ofList out, String.ofList (List.intercalate [';'] found),
    String.ofList (List.intercalate [';'] (Listing.entriesOf (List.intercalate [';'] found))),
    ?_, listed, ?_, ?_, ?_, ?_, ?_, ?_, ?_⟩
  · rw [formatValue_text, reads]
    rfl
  · rw [formatKeyPoints_text, rounded_entries, entries]
    rfl
  · rw [String.toList_ofList]
    exact roundedText_reworded precise reads
  · rw [formatValue_text, String.toList_ofList, roundedText_again precise reads]
    rfl
  · rw [formatValues_text, String.toList_ofList, apart, roundedTexts_again precise rounds]
    rfl
  · rw [String.toList_ofList, apart]
    exact (forall₂_of_ok rounds).length_eq.symm
  · rw [entries_text, entries_text, String.toList_ofList]
    refine mapM_eq_ok_iff.mpr (List.forall₂_map_right_iff.mpr ?_)
    refine (forall₂_of_ok entries).imp fun entry entryOut rounded => ?_
    rw [formatValue_text, String.toList_ofList, rounded]
    rfl
  · rw [entries_text, String.toList_ofList]
    apply String.toList_inj.mp
    rw [String.toList_intercalate, String.toList_ofList, List.map_map]
    simp

theorem drifting_list_settles : placesOf (.int 2 : Value .exact) = .ok 2 ∧
    formatValues (.text " 1.005 , auto;;-0.001;.5e1 ") (.int 2 : Value .exact) =
      .ok "1 , auto;;0;5" ∧
    formatValues (.text "1 , auto;;0;5") (.int 2 : Value .exact) = .ok "1 , auto;;0;5" := by
  have precise : placesOf (.int 2 : Value .exact) = .ok 2 := by decide
  have written : formatValues (.text " 1.005 , auto;;-0.001;.5e1 ") (.int 2 : Value .exact) =
      .ok "1 , auto;;0;5" := by decide +kernel
  obtain ⟨_, all, _, _, listed, _, _, _, again, _⟩ :=
    formatting_settles precise " 1.005 , auto;;-0.001;.5e1 "
  obtain rfl := Except.ok.inj (written.symm.trans listed)
  exact ⟨precise, written, again⟩

end Formatting

end Markup

end DeclarativeAnimation
