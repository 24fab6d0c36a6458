import DeclarativeAnimation.Markup.Rounded
import DeclarativeAnimation.Proofs.Animation.Authored
import DeclarativeAnimation.Proofs.Number.Magnitude
import DeclarativeAnimation.Proofs.Outcome

/-! Texts with their numbers rounded.  A rounded number is a numeral again: it is not empty, and
    it has no blank and no semicolon.  So rounding keeps a text apart from nothing, keeps its
    ends, and does not part it. -/
namespace DeclarativeAnimation
variable {A : Arithmetic}

open Text

namespace Markup

theorem trimEndWhile_subset (p : Char → Bool) (text : List Char) :
    trimEndWhile p text ⊆ text := by
  intro c member
  unfold trimEndWhile at member
  rw [List.mem_reverse] at member
  exact List.mem_reverse.mp ((List.dropWhile_sublist p).mem member)

theorem trimFraction_subset (text : List Char) : trimFraction text ⊆ text := by
  unfold trimFraction
  split
  · exact fun c member => trimEndWhile_subset _ _ (trimEndWhile_subset _ _ member)
  · exact fun c member => member

theorem roundedTo_numeral (places : Nat) (x : Number A) :
    (roundedTo places x).toList ⊆ numeralChars ∧ (roundedTo places x).toList ≠ [] := by
  unfold roundedTo
  dsimp only
  split
  · decide
  · rename_i other
    rw [String.toList_ofList]
    constructor
    · exact fun c member => Number.fixed_numeral _ x (trimFraction_subset _ member)
    · intro empty
      exact other (by rw [empty]; decide)

structure Tight (text : List Char) : Prop where
  head : ∀ c ∈ text.head?, isBlank c = false
  last : ∀ c ∈ text.getLast?, isBlank c = false

theorem trim_of_tight {text : List Char} (tight : Tight text) : trim text = text := by
  have kept (l : List Char) (clear : ∀ c ∈ l.head?, isBlank c = false) :
      l.dropWhile isBlank = l := by
    cases l with
    | nil => rfl
    | cons c rest => rw [List.dropWhile_cons_of_neg (by simp [clear c rfl])]
  unfold trim trimWhile trimEndWhile
  rw [kept text tight.head, kept text.reverse (by rw [List.head?_reverse]; exact tight.last),
    List.reverse_reverse]

theorem head_of_dropWhile (text : List Char) :
    ∀ c ∈ (text.dropWhile isBlank).head?, isBlank c = false := by
  intro c first
  have stops := List.head?_dropWhile_not isBlank text
  rw [Option.mem_def.mp first] at stops
  exact stops

theorem tight_trim (text : List Char) : Tight (trim text) := by
  unfold trim trimWhile trimEndWhile
  constructor
  · intro c first
    -- The blanks at the end are taken from what is left, which keeps its head.
    obtain ⟨dropped, parts⟩ := List.dropWhile_suffix (l := (text.dropWhile isBlank).reverse) isBlank
    have whole : (((text.dropWhile isBlank).reverse.dropWhile isBlank).reverse) ++
        dropped.reverse = text.dropWhile isBlank := by
      rw [← List.reverse_append, parts, List.reverse_reverse]
    refine head_of_dropWhile text c ?_
    rw [← whole, List.head?_append, Option.mem_def.mp first]
    rfl
  · intro c last
    rw [List.getLast?_reverse] at last
    exact head_of_dropWhile _ c last

structure Keeps (text out : List Char) : Prop where
  empty : out = [] ↔ text = []
  head : (∀ c ∈ text.head?, isBlank c = false) → ∀ c ∈ out.head?, isBlank c = false
  last : (∀ c ∈ text.getLast?, isBlank c = false) → ∀ c ∈ out.getLast?, isBlank c = false
  inside : ∀ c ∈ out, c ∈ text ∨ c ∈ numeralChars

theorem Keeps.refl (text : List Char) : Keeps text text :=
  ⟨Iff.rfl, id, id, fun _ member => Or.inl member⟩

theorem Keeps.append {text out more next : List Char} (first : Keeps text out)
    (second : Keeps more next) : Keeps (text ++ more) (out ++ next) := by
  constructor
  · rw [List.append_eq_nil_iff, List.append_eq_nil_iff, first.empty, second.empty]
  · intro clear
    by_cases none : text = []
    · rw [first.empty.mpr none, List.nil_append]
      rw [none, List.nil_append] at clear
      exact second.head clear
    · have some_out := mt first.empty.mp none
      rw [List.head?_append_of_ne_nil _ none] at clear
      rw [List.head?_append_of_ne_nil _ some_out]
      exact first.head clear
  · intro clear
    by_cases none : more = []
    · rw [second.empty.mpr none, List.append_nil]
      rw [none, List.append_nil] at clear
      exact first.last clear
    · have some_next := mt second.empty.mp none
      rw [List.getLast?_append_of_ne_nil _ none] at clear
      rw [List.getLast?_append_of_ne_nil _ some_next]
      exact second.last clear
  · intro c member
    rcases List.mem_append.mp member with early | late
    · exact (first.inside c early).imp_left (List.mem_append_left more)
    · exact (second.inside c late).imp_left (List.mem_append_right text)

section Rounding
variable {precision : Value A}

theorem roundedWord_keeps {word out : List Char} (some_char : word ≠ [])
    (read : roundedWord precision word = .ok out) : Keeps word out := by
  unfold roundedWord at read
  split at read
  · rename_i decimal _
    obtain ⟨number, rounds, same⟩ := bind_eq_ok read
    obtain ⟨places, _, result⟩ := bind_eq_ok rounds
    cases result
    cases same
    obtain ⟨numeral, some_digit⟩ := roundedTo_numeral places (decimal.toNumber : Number A)
    generalize (roundedTo places (decimal.toNumber : Number A)).toList = out at numeral some_digit
    refine ⟨⟨fun none => absurd none some_digit, fun none => absurd none some_char⟩, ?_, ?_, ?_⟩
    · exact fun _ c first => (numeral_not_blank (numeral (List.mem_of_mem_head? first))).1
    · exact fun _ c last => (numeral_not_blank (numeral (List.mem_of_mem_getLast? last))).1
    · exact fun c member => Or.inr (numeral member)
  · cases read
    exact .refl word

theorem runs_some (p : Char → Bool) (text : List Char) : ∀ run ∈ runs p text, run ≠ [] := by
  induction text with
  | nil => exact fun run member => by cases member
  | cons c rest ih =>
    intro run member
    unfold runs at member
    split at member
    · rename_i d first more found
      rw [found] at ih
      split at member
      · rcases List.mem_cons.mp member with rfl | later
        · exact List.cons_ne_nil _ _
        · exact ih run (List.mem_cons_of_mem _ later)
      · rcases List.mem_cons.mp member with rfl | later
        · exact List.cons_ne_nil _ _
        · exact ih run later
    · rcases List.mem_cons.mp member with rfl | later
      · exact List.cons_ne_nil _ _
      · exact ih run later

theorem words_keep {words found : List (List Char)} (some_char : ∀ word ∈ words, word ≠ [])
    (read : words.mapM (roundedWord precision) = .ok found) :
    Keeps words.flatten found.flatten := by
  have each := forall₂_of_ok read
  clear read
  induction each with
  | nil => exact .refl []
  | cons first _ ih =>
    obtain ⟨here, later⟩ := List.forall_mem_cons.mp some_char
    exact (roundedWord_keeps here first).append (ih later)

/-- A rounded text is the text without the blanks at its ends, as far as they can be told
    apart by what rounding keeps. -/
theorem roundedText_keeps {text out : List Char} (read : roundedText precision text = .ok out) :
    Keeps (trim text) out := by
  obtain ⟨found, mapped, same⟩ := bind_eq_ok read
  cases same
  have kept := words_keep (runs_some isSeparator (trim text)) mapped
  rwa [runs_flatten] at kept

theorem roundedText_trim (text : List Char) :
    roundedText precision (trim text) = roundedText precision text := by
  unfold roundedText
  rw [trim_of_tight (tight_trim text)]

theorem roundedText_tight {text out : List Char} (read : roundedText precision text = .ok out) :
    Tight out := by
  have kept := roundedText_keeps read
  exact ⟨kept.head (tight_trim text).head, kept.last (tight_trim text).last⟩

end Rounding

theorem placesOf_natCast {places : Nat} (few : (places : Int) ≤ mostPlaces) :
    placesOf (.int places : Value A) = .ok places := by
  have nonneg : ¬ (places : Int) < 0 := by omega
  unfold placesOf
  simp only [Value.toWhole, bind, Except.bind, nonneg, not_lt.mpr few, ↓reduceIte]
  rfl

theorem formatValue_text (s : String) (precision : Value A) :
    formatValue (.text s) precision =
      (do return String.ofList (← roundedText precision s.toList)) := rfl

theorem formatValues_text (s : String) (precision : Value A) :
    formatValues (.text s) precision = (do
      return String.ofList (List.intercalate [';']
        (← (Text.pieces (· == ';') s.toList).mapM (roundedText precision)))) := rfl

theorem formatKeyPoints_text (s : String) (precision : Value A) :
    formatKeyPoints (.text s) precision = (do
      return String.ofList (List.intercalate [';']
        (← ((Text.pieces (· == ';') s.toList).filter fun e =>
          !(trim e).isEmpty).mapM (roundedText precision)))) := rfl

section Answers
variable {precision : Value A} {places : Nat} (precise : placesOf precision = .ok places)
include precise

theorem rounded_answers (x : Number A) : ∃ out, rounded x precision = .ok out := by
  unfold rounded
  rw [precise]
  exact ⟨_, rfl⟩

theorem roundedWord_answers (word : List Char) :
    ∃ out, roundedWord precision word = .ok out := by
  unfold roundedWord
  split
  · rename_i decimal _
    obtain ⟨out, rounds⟩ := rounded_answers precise (decimal.toNumber : Number A)
    rw [rounds]
    exact ⟨_, rfl⟩
  · exact ⟨word, rfl⟩

theorem roundedText_answers (text : List Char) :
    ∃ out, roundedText precision text = .ok out := by
  obtain ⟨found, mapped, _⟩ := Answers.mapM (f := roundedWord precision) (R := fun _ => True)
    (runs isSeparator (trim text)) fun word _ => by
      obtain ⟨out, reads⟩ := roundedWord_answers precise word
      exact ⟨out, reads, trivial⟩
  unfold roundedText
  rw [mapped]
  exact ⟨_, rfl⟩

theorem roundedTexts_answer (texts : List (List Char)) :
    ∃ found, texts.mapM (roundedText precision) = .ok found := by
  obtain ⟨found, mapped, _⟩ := Answers.mapM (f := roundedText precision) (R := fun _ => True)
    texts fun text _ => by
      obtain ⟨out, reads⟩ := roundedText_answers precise text
      exact ⟨out, reads, trivial⟩
  exact ⟨found, mapped⟩

theorem formatValues_answers {v : Value A} (spellable : v.isSpellable = true) :
    ∃ s, formatValues v precision = .ok s := by
  obtain ⟨found, mapped⟩ := roundedTexts_answer precise (Text.pieces (· == ';') v.chars)
  unfold formatValues
  rw [Value.written_ok spellable]
  exact ⟨_, congrArg (Except.map _) mapped⟩

theorem formatKeyPoints_answers {v : Value A} (spellable : v.isSpellable = true) :
    ∃ s, formatKeyPoints v precision = .ok s := by
  obtain ⟨found, mapped⟩ := roundedTexts_answer precise
    ((Text.pieces (· == ';') v.chars).filter fun e => !(trim e).isEmpty)
  unfold formatKeyPoints
  rw [Value.written_ok spellable]
  exact ⟨_, congrArg (Except.map _) mapped⟩

theorem formatValue_answers {v : Value A} (fits : v.Fits) (spellable : v.isSpellable = true) :
    ∃ s, formatValue v precision = .ok s := by
  obtain ⟨out, reads⟩ := roundedText_answers precise v.chars
  cases v with
  | bool b => exact ⟨_, rfl⟩
  | int n =>
    have read := Value.numberOfInt_of_finite (fits n rfl)
    unfold formatValue Value.toNumber
    dsimp only
    rw [read]
    exact rounded_answers precise _
  | number x => exact rounded_answers precise x
  | _ =>
    unfold formatValue
    dsimp only
    rw [Value.written_ok spellable]
    exact ⟨_, congrArg (Except.map _) reads⟩

theorem roundedPath_answers (path : List Char) : ∃ out, roundedPath precision path = .ok out := by
  suffices steps : ∀ fuel path, ∃ out, roundedPath.go precision fuel path = .ok out from
    steps _ path
  intro fuel
  induction fuel with
  | zero => exact fun path => ⟨path, rfl⟩
  | succ fuel ih =>
    intro path
    cases path with
    | nil => exact ⟨[], rfl⟩
    | cons c text =>
      unfold roundedPath.go
      split
      · rename_i decimal rest _
        obtain ⟨number, rounds⟩ := rounded_answers precise (decimal.toNumber : Number A)
        obtain ⟨later, reads⟩ := ih rest
        rw [rounds, reads]
        exact ⟨_, rfl⟩
      · obtain ⟨later, reads⟩ := ih text
        rw [reads]
        exact ⟨_, rfl⟩

end Answers

section Present
variable {precision : Value A}

theorem trim_ne_nil {text : List Char} {c : Char} (member : c ∈ text) (solid : isBlank c = false) :
    trim text ≠ [] := by
  intro empty
  unfold trim trimWhile trimEndWhile at empty
  rw [List.reverse_eq_nil_iff, List.dropWhile_eq_nil_iff] at empty
  rw [← List.takeWhile_append_dropWhile (p := isBlank) (l := text)] at member
  rcases List.mem_append.mp member with early | late
  · rw [List.mem_takeWhile_imp early] at solid
    cases solid
  · rw [empty c (List.mem_reverse.mpr late)] at solid
    cases solid

theorem rounded_some {x : Number A} {s : String} (read : rounded x precision = .ok s) : s ≠ "" := by
  obtain ⟨places, _, same⟩ := bind_eq_ok read
  cases same
  intro empty
  exact (roundedTo_numeral places x).2 (by rw [empty]; rfl)

theorem formatValue_some {v : Value A} {s : String} (some_value : v.isNull = false)
    (solid : ∀ t, v = .text t → trim t.toList ≠ []) (read : formatValue v precision = .ok s) :
    s ≠ "" := by
  have texts : trim v.chars ≠ [] →
      (do return String.ofList (← roundedText precision (← v.written).toList) :
        Except Fault String) = .ok s → s ≠ "" := by
    intro some_char read
    obtain ⟨text, spelled, read⟩ := bind_eq_ok read
    obtain ⟨-, rfl⟩ := Value.spelling_eq_ok.mp spelled
    obtain ⟨out, reads, same⟩ := bind_eq_ok read
    cases same
    intro empty
    have none : out = [] := by
      have back := congrArg String.toList empty
      rwa [String.toList_ofList] at back
    exact some_char ((roundedText_keeps reads).empty.mp none)
  cases v with
  | null => cases some_value
  | bool b =>
    cases read
    cases b <;> decide
  | int n =>
    obtain ⟨x, _, read⟩ := bind_eq_ok read
    exact rounded_some read
  | number x =>
    obtain ⟨y, _, read⟩ := bind_eq_ok read
    exact rounded_some read
  | text t => exact texts (solid t rfl) read
  | list items => exact texts (trim_ne_nil (c := '[') (by simp [Value.chars, Value.asText,
      Value.shown]) (by decide)) read
  | object members => exact texts (trim_ne_nil (c := '\x7b') (by simp [Value.chars, Value.asText,
      Value.shown]) (by decide)) read

theorem roundedPath_some {path out : List Char} (some_char : path ≠ [])
    (read : roundedPath precision path = .ok out) : out ≠ [] := by
  cases path with
  | nil => exact absurd rfl some_char
  | cons c text =>
    unfold roundedPath roundedPath.go at read
    split at read
    · obtain ⟨number, rounds, read⟩ := bind_eq_ok read
      obtain ⟨later, _, same⟩ := bind_eq_ok read
      cases same
      have digit := rounded_some rounds
      intro empty
      rw [List.append_eq_nil_iff, String.toList_eq_nil_iff] at empty
      exact digit empty.1
    · obtain ⟨later, _, same⟩ := bind_eq_ok read
      cases same
      exact List.cons_ne_nil _ _

end Present

end Markup
end DeclarativeAnimation
