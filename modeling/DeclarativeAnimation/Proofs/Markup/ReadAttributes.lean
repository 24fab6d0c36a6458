import DeclarativeAnimation.Animation.Wire
import DeclarativeAnimation.Proofs.Markup.Reader

/-! From a tag that was read to an object of a document: its name becomes the type, and some of
    its attributes become members.  An attribute that was written without a value is not there,
    and its member is missing. -/
namespace DeclarativeAnimation.Markup
variable {A : Arithmetic}

def StartTag.wire (tag : StartTag) (names : List String) : Value A :=
  .object (("type", .text (String.ofList tag.name)) :: names.filterMap fun name =>
    (tag.attributes.lookup name.toList).map fun value => (name, .text (String.ofList value)))

/-- A value as it is read after it was written. -/
def restored (v : Value A) : Value A := if isWritten v then .text v.asText else .null

theorem restored_text {s : String} (some_char : s ≠ "") :
    restored (.text s : Value A) = .text s := by
  simp [restored, isWritten, Value.isNull, Value.isTheText, Value.asText, some_char]

def readBack (attributes : List (String × Value A)) (name : String) : Value A :=
  (((attributes.filter fun a => isWritten a.2).lookup name).map fun v => .text v.asText).getD .null

section
variable {attributes lead : List (String × Value A)} {name other : String} {v : Value A}

theorem lookup_absent (absent : ∀ a ∈ attributes, a.1 ≠ name) :
    (attributes.filter fun a => isWritten a.2).lookup name = none := by
  rw [List.lookup_eq_none_iff]
  intro a member
  simpa using (absent a (List.mem_filter.mp member).1).symm

theorem readBack_absent (absent : ∀ a ∈ attributes, a.1 ≠ name) :
    readBack attributes name = .null := by
  simp [readBack, lookup_absent absent]

theorem readBack_lead (absent : ∀ a ∈ lead, a.1 ≠ name) :
    readBack (lead ++ attributes) name = readBack attributes name := by
  simp [readBack, List.lookup_append, lookup_absent absent]

theorem readBack_rest (absent : ∀ a ∈ attributes, a.1 ≠ name) :
    readBack (lead ++ attributes) name = readBack lead name := by
  simp [readBack, List.lookup_append, lookup_absent absent]

theorem readBack_here (absent : ∀ a ∈ attributes, a.1 ≠ name) :
    readBack ((name, v) :: attributes) name = restored v := by
  by_cases written : isWritten v
  · simp [readBack, restored, written]
  · have rest := readBack_absent absent
    simpa [readBack, restored, written] using rest

theorem readBack_other (differs : other ≠ name) :
    readBack ((other, v) :: attributes) name = readBack attributes name := by
  have apart : ∀ a ∈ [(other, v)], a.1 ≠ name := by simpa using differs
  exact readBack_lead apart

theorem readBack_of_mem (distinct : (attributes.map Prod.fst).Nodup)
    (member : (name, v) ∈ attributes) : readBack attributes name = restored v := by
  induction attributes with
  | nil => cases member
  | cons entry rest ih =>
    obtain ⟨other, w⟩ := entry
    rw [List.map_cons, List.nodup_cons] at distinct
    rcases List.mem_cons.mp member with here | later
    · obtain ⟨rfl, rfl⟩ := Prod.mk.inj here
      refine readBack_here ?_
      rintro a listed rfl
      exact distinct.1 (List.mem_map.mpr ⟨a, listed, rfl⟩)
    · have differs : other ≠ name := by
        rintro rfl
        exact distinct.1 (List.mem_map.mpr ⟨_, later, rfl⟩)
      rw [readBack_other differs]
      exact ih distinct.2 later

end

theorem lookup_filterMap {α : Type} (found : String → Option α) (names : List String)
    (name : String) :
    (names.filterMap fun n => (found n).map fun v => (n, v)).lookup name =
      if name ∈ names then found name else none := by
  induction names with
  | nil => rfl
  | cons n rest ih =>
    by_cases same : name = n
    · subst same
      cases here : found name with
      | none => simp [here, ih]
      | some v => simp [here]
    · have skipped : (name == n) = false := by simpa using same
      cases here : found n with
      | none => simp [here, same, ih]
      | some v => simp [here, same, skipped, ih, List.lookup_cons]

theorem lookup_toList (attributes : List (String × Value A)) (name : String) :
    (attributes.map fun a => (a.1.toList, a.2.chars)).lookup name.toList =
      (attributes.lookup name).map Value.chars := by
  induction attributes with
  | nil => rfl
  | cons entry rest ih =>
    obtain ⟨other, v⟩ := entry
    by_cases same : name = other
    · subst same
      simp
    · have apart : (name == other) = false := by simpa using same
      have apart_chars : (name.toList == other.toList) = false := by
        simpa [String.toList_inj] using same
      simp only [List.map_cons, List.lookup_cons, apart, apart_chars]
      exact ih

theorem member_wire {tag : String} (solid : tag.toList.all isNameChar)
    {attributes : List (String × Value A)} (clean : ∀ a ∈ attributes, a.1.toList.all isNameChar)
    (content : String) (names : List String) {name : String} (member : name ≠ "type") :
    ((readStartTag (writeElement tag attributes content).toList).wire names : Value A).member name =
      if name ∈ names then readBack attributes name else .null := by
  have typed : (name == "type") = false := by simpa using member
  rw [readStartTag_writeElement solid clean content]
  have found := lookup_filterMap (fun n => ((attributes.filter fun a => isWritten a.2).lookup n).map
    fun v => (.text v.asText : Value A)) names name
  have same (n : String) (v? : Option (Value A)) :
      (v?.map Value.chars).map (fun value => (n, (.text (String.ofList value) : Value A))) =
        (v?.map fun v => (.text v.asText : Value A)).map fun v => (n, v) := by
    cases v? <;> simp [Value.chars]
  simp only [StartTag.wire, Value.member, Value.member?, List.lookup_cons, typed, lookup_toList,
    same, found]
  split <;> rfl

end DeclarativeAnimation.Markup
