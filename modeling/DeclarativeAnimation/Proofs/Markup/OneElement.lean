import DeclarativeAnimation.Proofs.Markup.MandatoryParts

/-! Markup as a whole.  Whatever text an animation holds, it is written as one element, with at
    most one other element inside: names are words and stand once, values are not empty, and the
    signs that delimit them do not occur in them.  So the element is read in one way only, and
    what is read is what was handed over to be written. -/
namespace DeclarativeAnimation
variable {A : Arithmetic}

open Markup

namespace Subject

def attributeNames (subject : Subject A) : List String :=
  match subject with
  | .attribute _ => ["attributeName", "values", "from", "to"] ++ subject.carriedNames
  | .transform _ => ["attributeName", "type", "values", "from", "to"] ++ subject.carriedNames
  | .motion _ _ _ _ => ["path", "rotate", "keyPoints"] ++ subject.carriedNames
  | .set _ => ["attributeName", "to", "begin", "dur", "end", "fill"]
  | .none => []

def reference? : Subject A → Option (Value A)
  | .motion _ reference _ _ => if reference.isPresent then .some reference else .none
  | _ => .none

end Subject

namespace Markup

section Escaping

def replaced (sign : Char) (name : String) (text : List Char) : List Char :=
  text.flatMap fun c => if c = sign then name.toList else [c]

/-- The four signs replaced one after another, first of all the one that their names begin
    with. -/
def escapedInTurn (text : List Char) : List Char :=
  replaced '"' "&quot;" (replaced '<' "&lt;" (replaced '>' "&gt;" (replaced '&' "&amp;" text)))

theorem escapedInTurn_eq (text : List Char) : escapedInTurn text = escapeText text := by
  unfold escapedInTurn replaced escapeText
  simp only [List.flatMap_assoc]
  refine congrArg (text.flatMap ·) (funext fun c => ?_)
  by_cases amp : c = '&'
  · subst amp
    decide
  by_cases gt : c = '>'
  · subst gt
    decide
  by_cases lt : c = '<'
  · subst lt
    decide
  by_cases quot : c = '"'
  · subst quot
    decide
  simp only [escapeChar, if_neg amp, if_neg gt, if_neg lt, if_neg quot, List.flatMap_singleton]

end Escaping

section Grammar

def IsWord (name : List Char) : Prop := name ≠ [] ∧ name.all Char.isAlpha

structure StartTag.IsWellFormed (tag : StartTag) : Prop where
  name : IsWord tag.name
  names : ∀ a ∈ tag.attributes, IsWord a.1
  distinct : (tag.attributes.map Prod.fst).Nodup
  filled : ∀ a ∈ tag.attributes, a.2 ≠ []
  plain : ∀ a ∈ tag.attributes, ∀ c ∈ a.2, c ≠ '"' ∧ c ≠ '>' ∧ c ≠ '<'

def StartTag.inside (tag : StartTag) : List Char := tag.name ++ tag.attributes.flatMap rawChars

/-- The text of an element, empty or around one other element that is empty. -/
inductive IsElement : List Char → StartTag → Option StartTag → Prop
  | alone {tag : StartTag} (formed : tag.IsWellFormed) :
    IsElement ('<' :: tag.inside ++ ['/', '>']) tag none
  | around {tag child : StartTag} (formed : tag.IsWellFormed) (inner : child.IsWellFormed) :
    IsElement ('<' :: tag.inside ++ '>' :: ('<' :: child.inside ++ ['/', '>']
      ++ '<' :: '/' :: (tag.name ++ ['>']))) tag (some child)

def StartTag.resolved (tag : StartTag) : StartTag :=
  { tag with attributes := tag.attributes.map fun a => (a.1, unescape a.2) }

def readEmptyTag : List Char → Option StartTag
  | '<' :: inside => if inside.getLast? = some '/' then some (readInside inside.dropLast) else none
  | _ => none

def readOpenTag : List Char → Option StartTag
  | '<' :: inside => if inside.getLast? = some '/' then none else some (readInside inside)
  | _ => none

def readElement (text : List Char) : Option (StartTag × Option StartTag) :=
  match Text.pieces (· == '>') text with
  | [alone, []] => (readEmptyTag alone).map fun tag => (tag, none)
  | [front, inner, back, []] => do
    let tag ← readOpenTag front
    let child ← readEmptyTag inner
    if back = '<' :: '/' :: tag.name then some (tag, some child) else none
  | _ => none

theorem isNameChar_of_isAlpha {c : Char} (letter : c.isAlpha) : isNameChar c = true := by
  have range : 65 ≤ c.toNat ∧ c.toNat ≤ 90 ∨ 97 ≤ c.toNat ∧ c.toNat ≤ 122 := by
    replace letter : (c.isUpper || c.isLower) = true := letter
    rcases Bool.or_eq_true_iff.mp letter with upper | lower
    · exact .inl (of_decide_eq_true upper)
    · obtain ⟨low, high⟩ := Bool.and_eq_true_iff.mp lower
      exact .inr ⟨of_decide_eq_true low, of_decide_eq_true high⟩
  have solid : Text.isBlank c = false := by
    simp only [Text.isBlank, Bool.or_eq_false_iff, Bool.and_eq_false_iff, decide_eq_false_iff_not,
      beq_eq_false_iff_ne]
    omega
  have other (d : Char) (apart : d.toNat < 65) : c ≠ d := by
    rintro rfl
    omega
  simp only [isNameChar, solid, Bool.not_false, Bool.true_and, Bool.and_eq_true, decide_eq_true_eq]
  exact ⟨⟨other '"' (by decide), other '>' (by decide)⟩, other '/' (by decide)⟩

theorem IsWord.solid {name : List Char} (word : IsWord name) : name.all isNameChar := by
  rw [List.all_eq_true]
  exact fun c member => isNameChar_of_isAlpha (List.all_eq_true.mp word.2 c member)

namespace StartTag.IsWellFormed
variable {tag : StartTag} (formed : tag.IsWellFormed)
include formed

theorem solid : ∀ e ∈ tag.attributes, IsSolid e := by
  intro e member
  refine ⟨(formed.names e member).solid, fun c inside => ?_⟩
  obtain ⟨quote, stop, _⟩ := formed.plain e member c inside
  exact ⟨quote, stop⟩

theorem readInside_inside : readInside tag.inside = tag.resolved := by
  have read := readInside_entries formed.name.solid formed.solid (.inl rfl)
  rwa [List.append_nil] at read

theorem inside_plain : ∀ c ∈ tag.inside, (c == '>') = false := by
  intro c member
  rcases List.mem_append.mp member with named | listed
  · simpa using (plain_of_nameChar formed.name.solid named).2
  · simpa using mem_entries_plain formed.solid listed

theorem inside_last : tag.inside.getLast? ≠ some '/' := by
  unfold inside
  rcases List.eq_nil_or_concat tag.attributes with none | ⟨others, last, some_last⟩
  · rw [none, List.flatMap_nil, List.append_nil]
    intro slash
    have letter := List.all_eq_true.mp formed.name.2 '/' (List.mem_of_getLast? slash)
    exact absurd letter (by decide)
  · have quoted : tag.name ++ (others.concat last).flatMap rawChars =
        (tag.name ++ others.flatMap rawChars ++ ' ' :: last.1 ++ '=' :: '"' :: last.2) ++ ['"'] := by
      simp [rawChars]
    rw [some_last, quoted, List.getLast?_concat]
    decide

theorem readEmptyTag_inside : readEmptyTag ('<' :: tag.inside ++ ['/']) = some tag.resolved := by
  rw [List.cons_append, readEmptyTag, List.getLast?_concat, if_pos rfl, List.dropLast_concat,
    formed.readInside_inside]

theorem readOpenTag_inside : readOpenTag ('<' :: tag.inside) = some tag.resolved := by
  rw [readOpenTag, if_neg formed.inside_last, formed.readInside_inside]

theorem opened_plain : ∀ c ∈ '<' :: tag.inside, (c == '>') = false :=
  List.forall_mem_cons.mpr ⟨by decide, formed.inside_plain⟩

theorem emptied_plain : ∀ c ∈ '<' :: tag.inside ++ ['/'], (c == '>') = false := by
  intro c member
  rcases List.mem_append.mp member with opened | slash
  · exact formed.opened_plain c opened
  · cases List.mem_singleton.mp slash
    decide

theorem closing_plain : ∀ c ∈ '<' :: '/' :: tag.name, (c == '>') = false := by
  intro c member
  simp only [List.mem_cons] at member
  rcases member with rfl | rfl | named
  · decide
  · decide
  · simpa using (plain_of_nameChar formed.name.solid named).2

end StartTag.IsWellFormed

/-- The brackets that end a tag are the only ones of their kind, so the text is cut at them. -/
theorem readElement_of_isElement {text : List Char} {tag : StartTag} {child : Option StartTag}
    (element : IsElement text tag child) :
    readElement text = some (tag.resolved, child.map StartTag.resolved) := by
  cases element with
  | alone formed =>
    have cut : '<' :: tag.inside ++ ['/', '>'] = ('<' :: tag.inside ++ ['/']) ++ '>' :: [] := by
      simp
    rw [readElement, cut, Text.pieces_append _ formed.emptied_plain rfl, Text.pieces]
    simp only [formed.readEmptyTag_inside, Option.map_some, Option.map_none]
  | @around _ child formed inner =>
    have cut : '<' :: tag.inside ++ '>' :: ('<' :: child.inside ++ ['/', '>']
        ++ '<' :: '/' :: (tag.name ++ ['>'])) = ('<' :: tag.inside) ++ '>' ::
          (('<' :: child.inside ++ ['/']) ++ '>' :: (('<' :: '/' :: tag.name) ++ '>' :: [])) := by
      simp
    rw [readElement, cut, Text.pieces_append _ formed.opened_plain rfl,
      Text.pieces_append _ inner.emptied_plain rfl, Text.pieces_append _ formed.closing_plain rfl,
      Text.pieces]
    simp only [formed.readOpenTag_inside, inner.readEmptyTag_inside, bind, Option.bind,
      StartTag.resolved, ↓reduceIte, Option.map_some]

end Grammar

section Handed
variable {a : Animation A} {options : Options A} {text : String} {attributes : Attributes A}

/-- The attributes that an animation hands over to be written, those without a value among
    them. -/
def handedAttributes (a : Animation A) (options : Options A) : Except Fault (Attributes A) :=
  match a.subject with
  | .motion path reference rotate keyPoints => do
    let path ← if path.isPresent && !reference.isPresent then optimizePath path options
      else pure .null
    let rotate ← rotateAttribute rotate options.precision
    let keyPoints ← if keyPoints.isPresent then do
      pure (.text (← formatKeyPoints keyPoints options.precision)) else pure .null
    return elementAttributes [("path", path), ("rotate", rotate), ("keyPoints", keyPoints)] a
  | .set name => do
    return [("attributeName", name), ("to", .text (← formatValue a.track.goal options.precision)),
      ("begin", a.schedule.begin), ("dur", a.schedule.dur), ("end", a.schedule.finish),
      ("fill", a.schedule.fill)]
  | .none => .ok []
  | subject => do
    return elementAttributes
      (frontAttributes subject ++ (← valueAttributes a.track options.precision)) a

def innerText (subject : Subject A) : String :=
  match subject with
  | .motion _ reference _ _ => pathReference reference
  | _ => ""

def textSources (a : Animation A) : List (Value A) :=
  match a.subject with
  | .motion _ reference _ _ => [a.schedule.repeatCount, reference]
  | .set _ => []
  | _ => [a.schedule.repeatCount]

theorem ofAnimation_handed (complete : a.IsComplete) :
    ofAnimation a options = handedAttributes a options >>= fun attributes =>
      spellElement (textSources a) a.subject.tagName attributes (innerText a.subject) := by
  obtain ⟨id, target, subject, schedule, track, composition⟩ := a
  unfold Animation.IsComplete at complete
  unfold ofAnimation handedAttributes
  rcases subject with name | kind | ⟨path, reference, rotate, keyPoints⟩ | name | _
  · have named : name.isPresent = true := complete
    simp [named, elementAttributes, frontAttributes, composedAttributes, Subject.composes,
      Subject.tagName, innerText, textSources]
  · have named : kind.isPresent = true := complete
    simp [named, elementAttributes, frontAttributes, composedAttributes, Subject.composes,
      Subject.tagName, innerText, textSources]
  · have located : (!path.isPresent && !reference.isPresent) = false := by
      rcases complete with drawn | referred
      · rw [drawn, Bool.not_true, Bool.false_and]
      · rw [referred, Bool.not_true, Bool.and_false]
    dsimp only
    rw [located]
    cases path.isPresent && !reference.isPresent <;> cases keyPoints.isPresent <;>
      simp [elementAttributes, composedAttributes, Subject.composes, Subject.tagName, innerText,
        pathReference, textSources]
  · simp [complete.1, complete.2, Subject.tagName, innerText, textSources]
  · cases complete

theorem handed_of_compiled (compiled : ofAnimation a options = .ok text) :
    ∃ attributes, handedAttributes a options = .ok attributes ∧
      text = writeElement a.subject.tagName attributes (innerText a.subject) := by
  by_cases complete : a.IsComplete
  · rw [ofAnimation_handed complete] at compiled
    obtain ⟨attributes, handed, written⟩ := bind_eq_ok compiled
    exact ⟨attributes, handed, (spellElement_written written).symm⟩
  · obtain ⟨fault, refused, _⟩ := ofAnimation_refuses complete
    rw [refused] at compiled
    cases compiled

theorem handedAttributes_order (handed : handedAttributes a options = .ok attributes) :
    (attributes.map Prod.fst).Sublist a.subject.attributeNames := by
  have composed (front values : Attributes A) (order : (values.map Prod.fst).Sublist
      ["values", "from", "to"]) : ((elementAttributes (front ++ values) a).map Prod.fst).Sublist
        (front.map Prod.fst ++ ["values", "from", "to"] ++ a.subject.carriedNames) := by
    rw [elementAttributes, List.map_append, List.map_append]
    exact ((List.Sublist.refl _).append order).append (tail_names a)
  have moved (path rotate keyPoints : Value A) : ((elementAttributes
      [("path", path), ("rotate", rotate), ("keyPoints", keyPoints)] a).map Prod.fst).Sublist
        (["path", "rotate", "keyPoints"] ++ a.subject.carriedNames) := by
    rw [elementAttributes, List.map_append]
    exact (List.Sublist.refl _).append (tail_names a)
  unfold handedAttributes at handed
  cases subject : a.subject with
  | motion path reference rotate keyPoints =>
    rw [subject] at handed moved
    dsimp only at handed
    split at handed
    all_goals
      obtain ⟨path, _, handed⟩ := bind_eq_ok handed
      obtain ⟨rotate, _, handed⟩ := bind_eq_ok handed
      split at handed
      · obtain ⟨points, _, handed⟩ := bind_eq_ok handed
        cases handed
        exact moved path rotate _
      · cases handed
        exact moved path rotate _
  | set name =>
    rw [subject] at handed
    obtain ⟨goal, _, handed⟩ := bind_eq_ok handed
    cases handed
    exact List.Sublist.refl _
  | none =>
    rw [subject] at handed
    cases handed
    exact List.Sublist.refl _
  | _ =>
    rw [subject] at handed composed
    obtain ⟨values, listed, handed⟩ := bind_eq_ok handed
    cases handed
    exact composed _ values (valueAttributes_order listed)

end Handed

section Written
variable {a : Animation A} {options : Options A} {text : String} {attributes : Attributes A}

def formedTag (form : List Char → List Char) (tag : String) (attributes : Attributes A) :
    StartTag :=
  ⟨tag.toList, (attributes.filter fun a => isWritten a.2).map fun a =>
    (a.1.toList, form a.2.chars)⟩

def referenceTag (form : List Char → List Char) (reference : Value A) : StartTag :=
  ⟨"mpath".toList, [("href".toList, form ('#' :: reference.chars))]⟩

theorem attributeNames_words (subject : Subject A) :
    ∀ name ∈ subject.attributeNames, IsWord name.toList := by
  cases subject <;>
    simp only [Subject.attributeNames, Subject.carriedNames, Subject.composes, IsWord,
      Bool.false_eq_true, ↓reduceIte] <;> decide

theorem attributeNames_distinct (subject : Subject A) : subject.attributeNames.Nodup := by
  cases subject <;>
    simp only [Subject.attributeNames, Subject.carriedNames, Subject.composes,
      Bool.false_eq_true, ↓reduceIte] <;> decide

theorem tagName_word {subject : Subject A} (typed : subject ≠ .none) :
    IsWord subject.tagName.toList := by
  cases subject with
  | none => exact absurd rfl typed
  | _ =>
    simp only [Subject.tagName, IsWord]
    decide

theorem formedTag_isWellFormed {tag : String} (word : IsWord tag.toList)
    (words : ∀ a ∈ attributes, IsWord a.1.toList) (distinct : (attributes.map Prod.fst).Nodup) :
    (formedTag escapeText tag attributes).IsWellFormed := by
  have kept {e : List Char × List Char} (member : e ∈ (formedTag escapeText tag
      attributes).attributes) : ∃ a ∈ attributes, isWritten a.2 = true ∧ asWritten a = e := by
    obtain ⟨a, written, same⟩ := List.mem_map.mp member
    obtain ⟨listed, shown⟩ := List.mem_filter.mp written
    exact ⟨a, listed, shown, same⟩
  constructor
  case name => exact word
  case names =>
    intro e member
    obtain ⟨a, listed, _, rfl⟩ := kept member
    exact words a listed
  case distinct =>
    have names : (formedTag escapeText tag attributes).attributes.map Prod.fst =
        ((attributes.filter fun a => isWritten a.2).map Prod.fst).map String.toList := by
      simp [formedTag]
    have once : ((attributes.filter fun a => isWritten a.2).map Prod.fst).Nodup :=
      distinct.sublist (List.filter_sublist.map Prod.fst)
    rw [names]
    exact List.Pairwise.map String.toList (fun _ _ apart => mt String.toList_inj.mp apart) once
  case filled =>
    intro e member
    obtain ⟨a, _, written, rfl⟩ := kept member
    exact escapeText_some (chars_some written)
  case plain =>
    intro e member c inside
    obtain ⟨a, _, _, rfl⟩ := kept member
    exact plain_of_mem_escapeText inside

theorem referenceTag_isWellFormed (reference : Value A) :
    (referenceTag escapeText reference).IsWellFormed := by
  have word : IsWord "mpath".toList ∧ IsWord "href".toList := by
    simp only [IsWord]
    decide
  constructor
  case name => exact word.1
  case names => exact List.forall_mem_singleton.mpr word.2
  case distinct => exact List.pairwise_singleton _ _
  case filled => exact List.forall_mem_singleton.mpr (escapeText_some (List.cons_ne_nil _ _))
  case plain => exact List.forall_mem_singleton.mpr fun c inside => plain_of_mem_escapeText inside

theorem formedTag_resolved (tag : String) (attributes : Attributes A) :
    (formedTag escapeText tag attributes).resolved = formedTag id tag attributes := by
  simp [formedTag, StartTag.resolved, unescape_escapeText]

theorem referenceTag_resolved (reference : Value A) :
    (referenceTag escapeText reference).resolved = referenceTag id reference := by
  simp [referenceTag, StartTag.resolved, unescape_escapeText]

theorem pathReference_toList {reference : Value A} (present : reference.isPresent = true) :
    (pathReference reference).toList =
      '<' :: (referenceTag escapeText reference).inside ++ ['/', '>'] := by
  simp [pathReference, present, attributeText, referenceTag, StartTag.inside, rawChars, escapeText,
    escapeChar]

theorem writeElement_isElement (typed : a.subject ≠ .none)
    (order : (attributes.map Prod.fst).Sublist a.subject.attributeNames) :
    IsElement (writeElement a.subject.tagName attributes (innerText a.subject)).toList
      (formedTag escapeText a.subject.tagName attributes)
      (a.subject.reference?.map (referenceTag escapeText)) := by
  have formed : (formedTag escapeText a.subject.tagName attributes).IsWellFormed :=
    formedTag_isWellFormed (tagName_word typed)
      (fun entry member => attributeNames_words a.subject entry.1
        (order.mem (List.mem_map.mpr ⟨entry, member, rfl⟩)))
      ((attributeNames_distinct a.subject).sublist order)
  have inside : a.subject.tagName.toList ++ (attributes.filter fun a => isWritten a.2).flatMap
      attributeChars = (formedTag escapeText a.subject.tagName attributes).inside := by
    rw [attributeChars_flatMap]
    rfl
  have alone (empty : innerText a.subject = "") (childless : a.subject.reference? = none) :
      IsElement (writeElement a.subject.tagName attributes (innerText a.subject)).toList
        (formedTag escapeText a.subject.tagName attributes)
        (a.subject.reference?.map (referenceTag escapeText)) := by
    rw [empty, childless, writeElement_alone, inside]
    exact .alone formed
  cases subject : a.subject with
  | motion path reference rotate keyPoints =>
    rw [subject] at formed inside alone
    cases referred : reference.isPresent with
    | false =>
      exact alone (by simp [innerText, pathReference, referred])
        (by simp [Subject.reference?, referred])
    | true =>
      have child : (Subject.motion path reference rotate keyPoints).reference? =
          some reference := by
        simp [Subject.reference?, referred]
      have content : innerText (.motion path reference rotate keyPoints) =
          pathReference reference := rfl
      have filled : pathReference reference ≠ "" := by
        intro empty
        simpa [pathReference_toList referred] using congrArg String.toList empty
      rw [content, child, writeElement_filled _ _ filled, inside, pathReference_toList referred]
      exact .around formed (referenceTag_isWellFormed reference)
  | none => exact absurd subject typed
  | _ =>
    rw [subject] at alone
    exact alone rfl rfl

/-- Whatever stands in its texts, an animation that compiles gives one element, with another one
    inside for a path that is referred to.  Names are those of the subject, in order; what the
    reader finds in the tags is what was handed over to be written. -/
theorem markup_is_one_element (compiled : ofAnimation a options = .ok text) :
    ∃ attributes, handedAttributes a options = .ok attributes ∧
      text = writeElement a.subject.tagName attributes (innerText a.subject) ∧
      (attributes.map Prod.fst).Sublist a.subject.attributeNames ∧
      IsElement text.toList (formedTag escapedInTurn a.subject.tagName attributes)
        (a.subject.reference?.map (referenceTag escapedInTurn)) ∧
      readElement text.toList = some (formedTag id a.subject.tagName attributes,
        a.subject.reference?.map (referenceTag id)) := by
  obtain ⟨attributes, handed, written⟩ := handed_of_compiled compiled
  have typed : a.subject ≠ .none := by
    intro untyped
    unfold ofAnimation at compiled
    rw [untyped] at compiled
    cases compiled
  have order := handedAttributes_order handed
  have element := writeElement_isElement typed order
  have turns : escapedInTurn = escapeText := funext escapedInTurn_eq
  rw [← written] at element
  refine ⟨attributes, handed, written, order, by rwa [turns], ?_⟩
  rw [readElement_of_isElement element, formedTag_resolved, Option.map_map]
  exact congrArg (fun child => some (_, child))
    (congrArg (Option.map · a.subject.reference?) (funext referenceTag_resolved))

end Written

section Instance

def hostile : Animation .binary64 :=
  { id := .text "m", target := .null
    subject := .motion .null (.text "a\"/></x>&amp;") (.text "auto") .null
    schedule := { dur := .text "2s\" id=\"<&lt;" } }

theorem hostile_is_one_element :
    ofAnimation hostile {} = .ok ("<animateMotion rotate=\"auto\"" ++
      " dur=\"2s&quot; id=&quot;&lt;&amp;lt;\">" ++
      "<mpath href=\"#a&quot;/&gt;&lt;/x&gt;&amp;amp;\"/></animateMotion>") ∧
    ∃ text attributes, ofAnimation hostile {} = .ok text ∧
      handedAttributes hostile {} = .ok attributes ∧
      readElement text.toList = some (formedTag id "animateMotion" attributes,
        some (referenceTag id (.text "a\"/></x>&amp;" : Value .binary64))) := by
  have compiled : ofAnimation hostile {} = .ok ("<animateMotion rotate=\"auto\"" ++
      " dur=\"2s&quot; id=&quot;&lt;&amp;lt;\">" ++
      "<mpath href=\"#a&quot;/&gt;&lt;/x&gt;&amp;amp;\"/></animateMotion>") := by decide +kernel
  obtain ⟨attributes, handed, _, _, _, read⟩ := markup_is_one_element compiled
  exact ⟨compiled, _, attributes, compiled, handed, read⟩

end Instance

end Markup
end DeclarativeAnimation
