import DeclarativeAnimation.Markup.Compilation
import DeclarativeAnimation.Text.Pieces

/-! Reading markup back.  A start tag ends at the first `>`, for no value has one when it is
    written.  Between its quotes stand the values by turns, each after its name. -/
namespace DeclarativeAnimation.Markup
variable {A : Arithmetic}

def unescape : List Char → List Char
  | '&' :: 'a' :: 'm' :: 'p' :: ';' :: rest => '&' :: unescape rest
  | '&' :: 'l' :: 't' :: ';' :: rest => '<' :: unescape rest
  | '&' :: 'g' :: 't' :: ';' :: rest => '>' :: unescape rest
  | '&' :: 'q' :: 'u' :: 'o' :: 't' :: ';' :: rest => '"' :: unescape rest
  | c :: rest => c :: unescape rest
  | [] => []

theorem unescape_cons {c : Char} (plain : c ≠ '&') (rest : List Char) :
    unescape (c :: rest) = c :: unescape rest := by
  rw [unescape.eq_def]
  split
  all_goals simp_all

theorem unescape_escapeText (text : List Char) : unescape (escapeText text) = text := by
  induction text with
  | nil => rfl
  | cons c rest ih =>
    simp only [escapeText, List.flatMap_cons] at ih ⊢
    by_cases amp : c = '&'
    · subst amp
      simp [escapeChar, unescape, ih]
    by_cases lt : c = '<'
    · subst lt
      simp [escapeChar, unescape, ih]
    by_cases gt : c = '>'
    · subst gt
      simp [escapeChar, unescape, ih]
    by_cases quot : c = '"'
    · subst quot
      simp [escapeChar, unescape, ih]
    have plain : escapeChar c = [c] := by simp [escapeChar, amp, lt, gt, quot]
    rw [plain, List.singleton_append, unescape_cons amp, ih]

theorem plain_of_mem_escapeText {text : List Char} {c : Char} (member : c ∈ escapeText text) :
    c ≠ '"' ∧ c ≠ '>' ∧ c ≠ '<' := by
  obtain ⟨d, _, written⟩ := List.mem_flatMap.mp member
  unfold escapeChar at written
  split at written
  · refine ⟨?_, ?_, ?_⟩ <;> rintro rfl <;> simp at written
  split at written
  · refine ⟨?_, ?_, ?_⟩ <;> rintro rfl <;> simp at written
  split at written
  · refine ⟨?_, ?_, ?_⟩ <;> rintro rfl <;> simp at written
  split at written
  · refine ⟨?_, ?_, ?_⟩ <;> rintro rfl <;> simp at written
  · rename_i lt gt quot
    obtain rfl := List.mem_singleton.mp written
    exact ⟨quot, gt, lt⟩

structure StartTag where
  name : List Char
  attributes : List (List Char × List Char)
  deriving DecidableEq, Repr

def nameBefore (text : List Char) : List Char :=
  ((text.reverse.drop 1).takeWhile (!Text.isBlank ·)).reverse

/-- Names and values from the pieces between quotes; what follows the last value is no name. -/
def pairUp : List (List Char) → List (List Char × List Char)
  | before :: value :: rest => (nameBefore before, unescape value) :: pairUp rest
  | _ => []

def isNameChar (c : Char) : Bool := !Text.isBlank c && c ≠ '"' && c ≠ '>' && c ≠ '/'

def readInside (inside : List Char) : StartTag :=
  { name := inside.takeWhile isNameChar
    attributes := pairUp (Text.pieces (· == '"') inside) }

def readStartTag (text : List Char) : StartTag :=
  readInside ((text.drop 1).takeWhile (· ≠ '>'))

theorem nameBefore_written {name : List Char} (clean : name.all isNameChar) (before : List Char) :
    nameBefore (before ++ ' ' :: name ++ ['=']) = name := by
  have solid : ∀ c ∈ name.reverse, (!Text.isBlank c) = true := by
    intro c member
    have allowed := List.all_eq_true.mp clean c (List.mem_reverse.mp member)
    simp only [isNameChar, Bool.and_eq_true] at allowed
    exact allowed.1.1.1
  have gap : (!Text.isBlank ' ') = false := by decide
  unfold nameBefore
  simp only [List.reverse_append, List.reverse_cons, List.reverse_nil, List.nil_append,
    List.append_assoc, List.cons_append, List.drop_succ_cons, List.drop_zero]
  rw [List.takeWhile_append_of_pos solid, List.takeWhile_cons_of_neg (by simp [gap])]
  simp

def rawChars (entry : List Char × List Char) : List Char :=
  ' ' :: entry.1 ++ '=' :: '"' :: (entry.2 ++ ['"'])

def asWritten (entry : String × Value A) : List Char × List Char :=
  (entry.1.toList, escapeText entry.2.chars)

def attributeChars (entry : String × Value A) : List Char :=
  ' ' :: (writeAttribute entry.1 entry.2).toList

theorem attributeChars_eq (entry : String × Value A) :
    attributeChars entry = rawChars (asWritten entry) := by
  simp [attributeChars, rawChars, asWritten, writeAttribute, attributeText]

theorem attributeChars_flatMap (attributes : List (String × Value A)) :
    attributes.flatMap attributeChars = (attributes.map asWritten).flatMap rawChars := by
  rw [List.flatMap_map]
  exact congrArg (attributes.flatMap ·) (funext attributeChars_eq)

theorem plain_of_nameChar {name : List Char} (clean : name.all isNameChar) {c : Char}
    (member : c ∈ name) : c ≠ '"' ∧ c ≠ '>' := by
  have allowed := List.all_eq_true.mp clean c member
  simp only [isNameChar, Bool.and_eq_true, decide_eq_true_eq] at allowed
  exact ⟨allowed.1.1.2, allowed.1.2⟩

def IsSolid (entry : List Char × List Char) : Prop :=
  entry.1.all isNameChar ∧ ∀ c ∈ entry.2, c ≠ '"' ∧ c ≠ '>'

theorem isSolid_asWritten {entry : String × Value A} (clean : entry.1.toList.all isNameChar) :
    IsSolid (asWritten entry) := by
  refine ⟨clean, fun c member => ?_⟩
  obtain ⟨quote, stop, _⟩ := plain_of_mem_escapeText member
  exact ⟨quote, stop⟩

section
variable {entries : List (List Char × List Char)} (solid : ∀ e ∈ entries, IsSolid e)
include solid

theorem pairUp_entries (before after : List Char) (start : ∀ c ∈ before, (c == '"') = false)
    (rest : ∀ c ∈ after, (c == '"') = false) :
    pairUp (Text.pieces (· == '"') (before ++ (entries.flatMap rawChars ++ after))) =
      entries.map fun e => (e.1, unescape e.2) := by
  -- By induction on the attributes; `before` is what stands before the first of them.
  induction entries generalizing before with
  | nil =>
    have none : ∀ c ∈ before ++ after, (c == '"') = false := by
      intro c member
      exact (List.mem_append.mp member).elim (start c) (rest c)
    simp [Text.pieces_of_none none, pairUp]
  | cons entry others ih =>
    obtain ⟨name, value⟩ := entry
    obtain ⟨⟨named, valued⟩, later⟩ := List.forall_mem_cons.mp solid
    have label : ∀ c ∈ before ++ ' ' :: name ++ ['='], (c == '"') = false := by
      intro c member
      simp only [List.mem_append, List.mem_cons, List.not_mem_nil, or_false] at member
      rcases member with (inside | rfl | inside) | rfl
      · exact start c inside
      · decide
      · simpa using (plain_of_nameChar named inside).1
      · decide
    have text_value : ∀ c ∈ value, (c == '"') = false := by
      intro c member
      simpa using (valued c member).1
    -- One piece ends at the first quote of the attribute, and the next one at its second.
    have text : before ++ (((name, value) :: others).flatMap rawChars ++ after) =
        (before ++ ' ' :: name ++ ['=']) ++ '"' :: (value ++
          '"' :: ([] ++ (others.flatMap rawChars ++ after))) := by
      simp [rawChars]
    rw [text, Text.pieces_append _ label rfl, Text.pieces_append _ text_value rfl, pairUp,
      nameBefore_written named, ih later [] (by simp)]
    rfl

theorem mem_entries_plain {c : Char} (member : c ∈ entries.flatMap rawChars) : c ≠ '>' := by
  obtain ⟨⟨name, value⟩, listed, inside⟩ := List.mem_flatMap.mp member
  obtain ⟨named, valued⟩ := solid _ listed
  simp only [rawChars, List.mem_append, List.mem_cons, List.not_mem_nil, or_false] at inside
  rcases inside with (rfl | inside) | rfl | rfl | inside | rfl
  · decide
  · exact (plain_of_nameChar named inside).2
  · decide
  · decide
  · exact (valued c inside).2
  · decide

end

theorem readInside_entries {tag : List Char} (named : tag.all isNameChar)
    {entries : List (List Char × List Char)} (solid : ∀ e ∈ entries, IsSolid e)
    {after : List Char} (slash : after = [] ∨ after = ['/']) :
    readInside (tag ++ (entries.flatMap rawChars ++ after)) =
      ⟨tag, entries.map fun e => (e.1, unescape e.2)⟩ := by
  have ends : (entries.flatMap rawChars ++ after).takeWhile isNameChar = [] := by
    cases entries with
    | nil => rcases slash with rfl | rfl <;> rfl
    | cons entry others =>
      have gap : isNameChar ' ' = false := by decide
      simp [rawChars, gap]
  have start : ∀ c ∈ tag, (c == '"') = false := by
    intro c member
    simpa using (plain_of_nameChar named member).1
  have rest : ∀ c ∈ after, (c == '"') = false := by
    rcases slash with rfl | rfl <;> simp
  unfold readInside
  rw [List.takeWhile_append_of_pos (List.all_eq_true.mp named), ends, List.append_nil,
    pairUp_entries solid tag after start rest]

theorem head_toList (tag : String) (attributes : List (String × Value A)) :
    (" ".intercalate (tag :: attributes.map fun (name, v) => writeAttribute name v)).toList =
      tag.toList ++ attributes.flatMap attributeChars := by
  rw [String.toList_intercalate]
  induction attributes generalizing tag with
  | nil => simp
  | cons entry others ih =>
    have next := ih (writeAttribute entry.1 entry.2)
    simp only [List.map_cons] at next
    simp only [List.map_cons, List.intercalate_cons_cons, next]
    simp [attributeChars]

section
variable (tag : String) (attributes : List (String × Value A))

theorem writeElement_alone : (writeElement tag attributes "").toList =
    '<' :: (tag.toList ++ (attributes.filter fun a => isWritten a.2).flatMap attributeChars)
      ++ ['/', '>'] := by
  have head := head_toList tag (attributes.filter fun a => isWritten a.2)
  unfold writeElement
  simp only [↓reduceIte, String.toList_append, head]
  simp

theorem writeElement_filled {content : String} (filled : content ≠ "") :
    (writeElement tag attributes content).toList =
      '<' :: (tag.toList ++ (attributes.filter fun a => isWritten a.2).flatMap attributeChars)
        ++ '>' :: (content.toList ++ '<' :: '/' :: (tag.toList ++ ['>'])) := by
  have head := head_toList tag (attributes.filter fun a => isWritten a.2)
  unfold writeElement
  simp only [filled, ↓reduceIte, String.toList_append, head]
  simp

theorem writeElement_toList (content : String) : ∃ after rest, (after = [] ∨ after = ['/']) ∧
      (writeElement tag attributes content).toList =
        '<' :: (tag.toList ++ ((attributes.filter fun a => isWritten a.2).flatMap attributeChars
          ++ after)) ++ '>' :: rest := by
  by_cases empty : content = ""
  · refine ⟨['/'], [], Or.inr rfl, ?_⟩
    rw [empty, writeElement_alone]
    simp
  · refine ⟨[], content.toList ++ '<' :: '/' :: (tag.toList ++ ['>']), Or.inl rfl, ?_⟩
    rw [writeElement_filled tag attributes empty, List.append_nil]

end

theorem solid_written {attributes : List (String × Value A)}
    (clean : ∀ a ∈ attributes, a.1.toList.all isNameChar) :
    ∀ e ∈ (attributes.filter fun a => isWritten a.2).map asWritten, IsSolid e := by
  intro e member
  obtain ⟨a, listed, rfl⟩ := List.mem_map.mp member
  exact isSolid_asWritten (clean a (List.mem_filter.mp listed).1)

/-- What is written is read: the tag, and every attribute that has a value. -/
theorem readStartTag_writeElement {tag : String} (solid : tag.toList.all isNameChar)
    {attributes : List (String × Value A)} (clean : ∀ a ∈ attributes, a.1.toList.all isNameChar)
    (content : String) :
    readStartTag (writeElement tag attributes content).toList =
      ⟨tag.toList, (attributes.filter fun a => isWritten a.2).map fun a =>
        (a.1.toList, a.2.chars)⟩ := by
  have kept := solid_written clean
  obtain ⟨after, rest, slash, text⟩ := writeElement_toList tag attributes content
  rw [attributeChars_flatMap] at text
  have open_tag : ∀ c ∈ tag.toList ++ (((attributes.filter fun a => isWritten a.2).map
      asWritten).flatMap rawChars ++ after), decide (c ≠ '>') = true := by
    intro c member
    simp only [List.mem_append] at member
    rcases member with named | listed | ending
    · simpa using (plain_of_nameChar solid named).2
    · simpa using mem_entries_plain kept listed
    · rcases slash with rfl | rfl <;> simp_all
  unfold readStartTag
  rw [text, List.cons_append, List.drop_one, List.tail_cons,
    List.takeWhile_append_of_pos open_tag, List.takeWhile_cons_of_neg (by simp), List.append_nil,
    readInside_entries solid kept slash, List.map_map]
  simp only [Function.comp_def, asWritten, unescape_escapeText]

end DeclarativeAnimation.Markup
