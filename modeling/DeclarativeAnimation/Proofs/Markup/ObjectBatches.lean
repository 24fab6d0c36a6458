import DeclarativeAnimation.Proofs.Animation.Authored
import DeclarativeAnimation.Proofs.Markup.BatchIsolation

/-! Batches of objects and batches of what is read from them.  An object is grouped by its target
    as it stands, and an animation by what its target was read as.  Where both draw the same
    lines between the objects, the batches are the same. -/
namespace DeclarativeAnimation
variable {A : Arithmetic}

def Animation.aimedAt (a : Animation A) (target : Value A) : Animation A :=
  { a with target := target }

namespace Markup
variable {options : Options A}

def objectTarget (data : Value A) : Value A :=
  .text ((data.member? "targetElementId").getD (.text "")).asText

def readTarget (data : Value A) : Value A := (data.member "targetElementId").textOr ""

theorem readTarget_plain (data : Value A) : (readTarget data).IsPlain := by
  unfold readTarget Value.textOr
  split <;> exact .inr ⟨_, rfl⟩

/-- Two objects have one target just when the animations that are read from them have. -/
def GroupedAlike (d e : Value A) : Prop :=
  objectTarget d = objectTarget e ↔ readTarget d = readTarget e

/-- Whether a target is missing, a text, or anything else that counts as present. -/
def isAimed (data : Value A) : Bool :=
  (data.member? "targetElementId").all fun target => target.isText || target.isPresent

theorem objectTarget_aimed {data : Value A} (aimed : isAimed data = true) :
    objectTarget data = readTarget data := by
  unfold isAimed at aimed
  unfold objectTarget readTarget Value.member Value.textOr
  cases known : data.member? "targetElementId" with
  | none => rfl
  | some target =>
    rw [known] at aimed
    rcases Bool.or_eq_true_iff.mp aimed with text | present
    · cases target with
      | text s =>
        by_cases empty : s = ""
        · subst empty
          rfl
        · rw [Option.getD_some, Option.getD_some, if_pos (by simpa [Value.isPresent] using empty)]
      | _ => cases text
    · rw [Option.getD_some, Option.getD_some, if_pos present]

theorem groupedAlike_of_aimed {d e : Value A} (first : isAimed d = true)
    (second : isAimed e = true) : GroupedAlike d e := by
  rw [GroupedAlike, objectTarget_aimed first, objectTarget_aimed second]

section Reading
variable {data : Value A} {animation : Animation A} {label : String}

theorem object_of_read (read : Animation.ofWire label data = .ok animation) :
    ∃ members, data = .object members := by
  unfold Animation.ofWire at read
  obtain ⟨type, typed, _⟩ := bind_eq_ok read
  unfold Animation.wireType at typed
  cases data with
  | object members => exact ⟨members, rfl⟩
  | _ => cases typed

theorem read_parts (read : Animation.ofWire label data = .ok animation) :
    animation.id = (data.member "id").textOr label ∧ animation.target = readTarget data := by
  unfold Animation.ofWire at read
  obtain ⟨type, _, read⟩ := bind_eq_ok read
  obtain ⟨kind, _, read⟩ := bind_eq_ok read
  obtain ⟨subject, _, read⟩ := bind_eq_ok read
  obtain ⟨count, _, read⟩ := bind_eq_ok read
  obtain ⟨-, rfl⟩ := Value.spelling_eq_ok.mp read
  exact ⟨rfl, rfl⟩

theorem ofWire_named (named : (data.member "id").isPresent = true) (first second : String) :
    Animation.ofWire first data = Animation.ofWire second data := by
  simp only [Animation.ofWire, Value.textOr, named, ↓reduceIte]

end Reading

structure IsReadAs (data : Value A) (animation : Animation A) : Prop where
  named : ∃ s, data.member "id" = .text s ∧ s ≠ ""
  read : ∃ label, Animation.ofWire label data = .ok animation

namespace IsReadAs
variable {data : Value A} {animation : Animation A} (known : IsReadAs data animation)
include known

theorem present : (data.member "id").isPresent = true := by
  obtain ⟨s, text, solid⟩ := known.named
  rw [text]
  simpa [Value.isPresent] using solid

theorem object : ∃ members, data = .object members := by
  obtain ⟨label, read⟩ := known.read
  exact object_of_read read

theorem target : animation.target = readTarget data := by
  obtain ⟨label, read⟩ := known.read
  exact (read_parts read).2

theorem source_target : (Source.wire data).target = .ok (objectTarget data) := by
  obtain ⟨label, read⟩ := known.read
  obtain ⟨members, rfl⟩ := known.object
  exact Source.target_wire (ofWire_names read).2

theorem id_eq_member : animation.id = data.member "id" := by
  obtain ⟨label, read⟩ := known.read
  obtain ⟨s, text, _⟩ := known.named
  rw [(read_parts read).1, Value.textOr, if_pos known.present, text]
  rfl

theorem source_id : (Source.wire data).id = (Source.read animation).id := by
  have id := known.id_eq_member
  obtain ⟨members, rfl⟩ := known.object
  exact congrArg Except.ok id.symm

theorem id_spellable : animation.id.isSpellable = true := by
  obtain ⟨s, text, _⟩ := known.named
  rw [known.id_eq_member, text]
  rfl

theorem source_compile :
    (Source.wire data).compile options = (Source.read animation).compile options := by
  obtain ⟨label, read⟩ := known.read
  have found : (Source.wire data).animation = .ok animation := by
    simp only [Source.animation, ofWire_named known.present "" label, read]
  rw [Source.compile_read options found]
  rfl

end IsReadAs

section Targets
variable {α : Type} {items : List α} {f : α → Animation A} {name : α → Value A}

theorem compileAll_retargeted (plain : ∀ a ∈ items, (f a).target.IsPlain)
    (named : ∀ a ∈ items, (name a).IsPlain)
    (same : ∀ a ∈ items, ∀ b ∈ items, name a = name b ↔ (f a).target = (f b).target) :
    compileAll (items.map fun a => .read ((f a).aimedAt (name a))) options =
      compileAll (items.map fun a => .read (f a)) options := by
  have lines : ∀ a ∈ items, ∀ b ∈ items, (name a == name b) = ((f a).target == (f b).target) := by
    intro a first b second
    rw [Bool.eq_iff_iff, (named a first).beq_iff (named b second),
      (plain a first).beq_iff (plain b second)]
    exact same a first b second
  have moved : ∀ a ∈ items, (Source.read ((f a).aimedAt (name a))).target = .ok (name a) :=
    fun a member => (named a member).key_eq
  have kept : ∀ a ∈ items, (Source.read (f a)).target = .ok (f a).target :=
    fun a member => (plain a member).key_eq
  rw [compileAll_named name moved, compileAll_named (fun a => (f a).target) kept,
    joined_items_congr name lines]
  exact compileEach_congr (fun a _ => rfl) fun a _ => rfl

end Targets

/-- A batch of objects is one of the animations that are read from them, each with the target
    that its object is grouped by.  If these targets draw the same lines as those that are read,
    it is the batch of the animations as they are; and without a fault that ends it, there is
    such a batch. -/
theorem objects_compile_as_animations {data : List (Value A)} {animations : List (Animation A)}
    (read : List.Forall₂ IsReadAs data animations) (options : Options A) :
    compileAll (data.map .wire) options = compileAll ((data.zip animations).map fun p =>
      .read (p.2.aimedAt (objectTarget p.1))) options ∧
    ((∀ d ∈ data, ∀ e ∈ data, GroupedAlike d e) →
      compileAll (data.map .wire) options = compileAll (animations.map .read) options ∧
      ((∀ a ∈ animations, ∀ fault, ofAnimation a options = .error fault →
          fault.category = .compile) →
        ∃ batch log, compileAll (data.map .wire) options = (.ok batch, log) ∧
          compileAll (animations.map .read) options = (.ok batch, log))) := by
  obtain ⟨length, each⟩ := List.forall₂_iff_zip.mp read
  have known : ∀ p ∈ data.zip animations, IsReadAs p.1 p.2 := fun p member => each member
  have objects : data.map Source.wire = (data.zip animations).map fun p => .wire p.1 := by
    conv => lhs; rw [← List.map_fst_zip length.le]
    rw [List.map_map]
    rfl
  have records : animations.map Source.read = (data.zip animations).map fun p => .read p.2 := by
    conv => lhs; rw [← List.map_snd_zip length.ge]
    rw [List.map_map]
    rfl
  have moved : compileAll (data.map .wire) options = compileAll ((data.zip animations).map fun p =>
      .read (p.2.aimedAt (objectTarget p.1))) options := by
    rw [objects]
    exact compileAll_congr (fun p member => (known p member).source_target)
      (fun p member => (known p member).source_compile)
      fun p member => (known p member).source_id
  refine ⟨moved, fun alike => ?_⟩
  have same : compileAll (data.map .wire) options = compileAll (animations.map .read) options := by
    rw [moved, records]
    refine compileAll_retargeted (fun p member => ?_) (fun p _ => .inr ⟨_, rfl⟩)
      fun p first q second => ?_
    · rw [(known p member).target]
      exact readTarget_plain p.1
    · rw [(known p first).target, (known q second).target]
      exact alike p.1 (List.of_mem_zip first).1 q.1 (List.of_mem_zip second).1
  refine ⟨same, fun refused => ?_⟩
  have kept : ∀ a ∈ animations, (Source.read a).target = .ok a.target := by
    intro a member
    obtain ⟨d, _, known⟩ := mem_of_forall₂ read member
    have plain := readTarget_plain d
    rw [← known.target] at plain
    exact plain.key_eq
  have settled : ∀ a ∈ animations, (Source.read a).Settles options := by
    intro a member
    cases done : ofAnimation a options with
    | ok text => exact .inl ⟨text, done⟩
    | error fault =>
      obtain ⟨d, _, known⟩ := mem_of_forall₂ read member
      have told : (Source.read a).warning fault = .ok (Source.warningText a.id fault) :=
        Value.spelling_ok known.id_spellable _
      exact .inr ⟨fault, _, done, refused a member fault done, told⟩
  obtain ⟨batch, done, _⟩ := compileAll_settled Animation.target kept settled
  exact ⟨batch, _, same.trans done, done⟩

section Instance

def objectOf (id goal : String) (target : List (String × Value .binary64)) : Value .binary64 :=
  .object ([("type", .text "set"), ("id", .text id), ("attributeName", .text "x"),
    ("to", .text goal)] ++ target)

def recordOf (id goal target : String) : Animation .binary64 :=
  { id := .text id, target := .text target, subject := .set (.text "x")
    track := { goal := .text goal } }

def mixedObjects : List (Value .binary64) :=
  [objectOf "a" "1" [], objectOf "b" "2" [("targetElementId", .int 3)],
   objectOf "c" "3" [("targetElementId", .text "")],
   objectOf "d" "4" [("targetElementId", .bool true)],
   objectOf "e" "5" [("targetElementId", .text "3")]]

def mixedRecords : List (Animation .binary64) :=
  [recordOf "a" "1" "", recordOf "b" "2" "3", recordOf "c" "3" "", recordOf "d" "4" "True",
   recordOf "e" "5" "3"]

theorem isReadAs_of_read {data : Value A} {animation : Animation A} (s : String)
    (named : data.member "id" = .text s) (solid : s ≠ "")
    (read : Animation.ofWire "" data = .ok animation) : IsReadAs data animation :=
  ⟨⟨s, named, solid⟩, "", read⟩

theorem mixedObjects_read : List.Forall₂ IsReadAs mixedObjects mixedRecords :=
  .cons (isReadAs_of_read "a" rfl (by decide) rfl)
    (.cons (isReadAs_of_read "b" rfl (by decide) rfl)
      (.cons (isReadAs_of_read "c" rfl (by decide) rfl)
        (.cons (isReadAs_of_read "d" rfl (by decide) rfl)
          (.cons (isReadAs_of_read "e" rfl (by decide) rfl) .nil))))

theorem mixed_batch_of_objects :
    List.Forall₂ IsReadAs mixedObjects mixedRecords ∧
      (∀ d ∈ mixedObjects, ∀ e ∈ mixedObjects, GroupedAlike d e) ∧
      ∃ batch log, compileAll (mixedObjects.map .wire) {} = (.ok batch, log) ∧
        compileAll (mixedRecords.map .read) {} = (.ok batch, log) := by
  have aimed : ∀ d ∈ mixedObjects, isAimed d = true := by decide +kernel
  have alike : ∀ d ∈ mixedObjects, ∀ e ∈ mixedObjects, GroupedAlike d e :=
    fun d first e second => groupedAlike_of_aimed (aimed d first) (aimed e second)
  have written : ∀ a ∈ mixedRecords, (ofAnimation a {}).isOk = true := by decide +kernel
  have refused : ∀ a ∈ mixedRecords, ∀ fault, ofAnimation a {} = .error fault →
      fault.category = .compile := by
    intro a member fault failed
    have done := written a member
    rw [failed] at done
    cases done
  obtain ⟨_, agree⟩ := objects_compile_as_animations mixedObjects_read {}
  exact ⟨mixedObjects_read, alike, (agree alike).2 refused⟩

def nullObjects : List (Value .binary64) :=
  [objectOf "a" "1" [("targetElementId", .null)],
   objectOf "b" "2" [("targetElementId", .text "")],
   objectOf "c" "3" [("targetElementId", .null)]]

def emptyRecords : List (Animation .binary64) :=
  [recordOf "a" "1" "", recordOf "b" "2" "", recordOf "c" "3" ""]

/-- A target that is none is read as an empty one, but grouped apart from it. -/
theorem null_target_grouped_apart :
    List.Forall₂ IsReadAs nullObjects emptyRecords ∧
    compileAll (nullObjects.map .wire) {} =
      (.ok { elements := ["<set attributeName=\"x\" to=\"1\"/>",
        "<set attributeName=\"x\" to=\"3\"/>", "<set attributeName=\"x\" to=\"2\"/>"] }, []) ∧
    compileAll (emptyRecords.map .read) {} =
      (.ok { elements := ["<set attributeName=\"x\" to=\"1\"/>",
        "<set attributeName=\"x\" to=\"2\"/>", "<set attributeName=\"x\" to=\"3\"/>"] }, []) := by
  refine ⟨?_, by decide +kernel, by decide +kernel⟩
  exact .cons (isReadAs_of_read "a" rfl (by decide) rfl)
    (.cons (isReadAs_of_read "b" rfl (by decide) rfl)
      (.cons (isReadAs_of_read "c" rfl (by decide) rfl) .nil))

end Instance

end Markup
end DeclarativeAnimation
