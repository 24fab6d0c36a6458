import DeclarativeAnimation.Animation.Wire
import DeclarativeAnimation.Proofs.Animation.Authored
import DeclarativeAnimation.Proofs.Number.Numeral

/-! Animations that are written as objects and read back.  Every value comes back as it was,
    except that a zero loses its sign. -/
namespace DeclarativeAnimation
variable {A : Arithmetic}

def Value.unsigned (v : Value A) : Value A :=
  match v with
  | .number x => if x.isZero then .number 0 else v
  | _ => v

section Numbers
variable {x : Number A} {v : Value A}

theorem Number.nearest_nonzero {q : Rat} (nonzero : q ≠ 0) (negative : Bool) :
    (Number.nearest q negative : Number A) = Number.nearest q false := by
  cases A with
  | exact => rfl
  | binary64 => simp only [Number.nearest, nonzero, ↓reduceIte]

theorem numberOfInt_zero : Value.numberOfInt (0 : Rat).floor = .ok (0 : Number A) := by
  cases A <;> decide +kernel

theorem numberOfInt_floor (float : x.IsFloat) (finite : x.isFinite = true)
    (whole : x.isInteger = true) :
    ∃ y, Value.numberOfInt x.rat.floor = .ok y ∧ (Value.number x).unsigned = .number y := by
  cases x with
  | finite q =>
    by_cases zero : q = 0
    · subst zero
      exact ⟨0, numberOfInt_zero, rfl⟩
    · have integral : q.den = 1 := by simpa [Number.isInteger] using whole
      have floor : ((q.floor : Int) : Rat) = q := by
        conv_rhs => rw [← (Rat.den_eq_one_iff q).mp integral]
        conv_lhs => rw [← (Rat.den_eq_one_iff q).mp integral, Rat.floor_intCast]
      have here : (Number.ofInt q.floor : Number A) = .finite q := by
        rw [Number.ofInt, Number.ofRat, floor, ← Number.nearest_nonzero zero]
        exact float rfl
      refine ⟨.finite q, ?_, ?_⟩
      · rw [Value.numberOfInt, Number.rat_finite, here]
      · simp [Value.unsigned, Number.isZero, zero]
  | negativeZero => exact ⟨0, numberOfInt_zero, rfl⟩
  | infinite negative => cases finite
  | nan => cases finite

theorem unsigned_of_fraction (fraction : x.isInteger = false) :
    (Value.number x).unsigned = .number x := by
  cases x with
  | finite q =>
    have nonzero : q ≠ 0 := by
      rintro rfl
      cases fraction
    simp [Value.unsigned, Number.isZero, nonzero]
  | negativeZero => cases fraction
  | _ => rfl

def Value.IsMeasure (v : Value A) : Prop := ∃ x, v = .number x ∧ x.isFinite = true ∧ x.IsFloat

theorem wireNumber_scalar (name : String) (measure : v.IsMeasure) :
    Animation.wireNumber name (Animation.wireScalar v) = .ok v.unsigned := by
  obtain ⟨x, rfl, finite, float⟩ := measure
  unfold Animation.wireScalar
  cases whole : x.isInteger with
  | true =>
    obtain ⟨y, read, same⟩ := numberOfInt_floor float finite whole
    simp only [whole, ↓reduceIte, Animation.wireNumber, Value.toNumber, read, same]
  | false =>
    simp only [whole, Bool.false_eq_true, ↓reduceIte, Animation.wireNumber, Value.toNumber,
      unsigned_of_fraction whole]

end Numbers

namespace Value
variable {v : Value A}

/-- What stands in an endpoint: nothing, a text or a whole number. -/
def IsEndpoint (v : Value A) : Prop := v.IsPlain ∨ ∃ n, v = .int n

theorem IsPlain.scalar (plain : v.IsPlain) : Animation.wireScalar v = v := by
  rcases plain with rfl | ⟨s, rfl⟩ <;> rfl

theorem IsPlain.same (plain : v.IsPlain) : (v == v) = true := by
  rcases plain with rfl | ⟨s, rfl⟩
  · rfl
  · exact decide_eq_true rfl

theorem unsigned_cases (v : Value A) :
    v.unsigned = v ∨ v = .number .negativeZero ∧ v.unsigned = .number 0 := by
  cases v with
  | number x =>
    cases x with
    | finite q =>
      by_cases zero : q = 0
      · subst zero
        exact Or.inl rfl
      · simp [unsigned, Number.isZero, zero]
    | negativeZero => exact Or.inr ⟨rfl, rfl⟩
    | _ => exact Or.inl rfl
  | _ => exact Or.inl rfl

theorem IsPlain.unsigned (plain : v.IsPlain) : v.unsigned = v := by
  rcases plain with rfl | ⟨s, rfl⟩ <;> rfl

theorem IsEndpoint.scalar (endpoint : v.IsEndpoint) : Animation.wireScalar v = v := by
  rcases endpoint with plain | ⟨n, rfl⟩
  · exact plain.scalar
  · rfl

theorem IsEndpoint.same (endpoint : v.IsEndpoint) : (v == v) = true := by
  rcases endpoint with plain | ⟨n, rfl⟩
  · exact plain.same
  · show Number.equal (.finite n : Number A) (.finite n) = true
    simp [Number.equal]

theorem IsMeasure.unsigned_same (measure : v.IsMeasure) : (v.unsigned == v) = true := by
  obtain ⟨x, rfl, finite, _⟩ := measure
  show Value.same (Value.number x).unsigned (.number x) = true
  cases x with
  | finite q =>
    by_cases zero : q = 0
    · subst zero
      rfl
    · simp [unsigned, Number.isZero, zero, Value.same, quantity?, Number.equal]
  | negativeZero => rfl
  | infinite negative => cases finite
  | nan => cases finite

end Value

/-- An animation as it may be written: of one of the four kinds, with a name, the other texts left
    out or not, whole numbers at most as endpoints, and floats or words as repeat count and
    rotation. -/
def Subject.IsWireable : Subject A → Prop
  | .attribute name | .set name => name.IsPlain
  | .transform kind => kind.IsPlain
  | .motion path reference rotate keyPoints =>
    path.IsPlain ∧ reference.IsPlain ∧ (rotate.IsPlain ∨ rotate.IsMeasure) ∧ keyPoints.IsPlain
  | .none => False

structure Animation.IsWireable (a : Animation A) : Prop where
  id : ∃ s, a.id = .text s ∧ s ≠ ""
  target : a.target.IsPlain
  subject : a.subject.IsWireable
  schedule : a.schedule.IsPlain
  repeatCount : a.schedule.repeatCount = .null ∨ a.schedule.repeatCount = .text indefinite ∨
    a.schedule.repeatCount.IsMeasure
  start : a.track.start.IsEndpoint
  goal : a.track.goal.IsEndpoint
  values : a.track.values.IsPlain
  track : a.track.IsPlain
  additive : a.composition.additive.IsPlain
  accumulate : a.composition.accumulate.IsPlain

namespace Animation
variable {a : Animation A} {label name : String} {members : List (String × Value A)}

def writtenMembers (members : List (String × Value A)) : List (String × Value A) :=
  (members.filter fun (_, v) => !v.isNull).map fun (n, v) => (n, wireScalar v)

theorem writtenMembers_cons (name : String) (v : Value A) (rest : List (String × Value A)) :
    writtenMembers ((name, v) :: rest) =
      if v.isNull then writtenMembers rest else (name, wireScalar v) :: writtenMembers rest := by
  cases null : v.isNull <;> simp [writtenMembers, null]

theorem lookup_absent (absent : name ∉ members.map Prod.fst) :
    (writtenMembers members).lookup name = none := by
  induction members with
  | nil => rfl
  | cons entry rest ih =>
    obtain ⟨other, v⟩ := entry
    rw [List.map_cons, List.mem_cons, not_or] at absent
    have apart : (name == other) = false := by simpa using absent.1
    rw [writtenMembers_cons]
    split
    · exact ih absent.2
    · rw [List.lookup_cons, apart]
      exact ih absent.2

theorem lookup_written (distinct : (members.map Prod.fst).Nodup) :
    ((writtenMembers members).lookup name).getD .null =
      wireScalar ((members.lookup name).getD .null) := by
  induction members with
  | nil => rfl
  | cons entry rest ih =>
    obtain ⟨other, v⟩ := entry
    rw [List.map_cons, List.nodup_cons] at distinct
    rw [writtenMembers_cons, List.lookup_cons]
    by_cases here : name = other
    · subst here
      rw [beq_self_eq_true]
      cases v with
      | null =>
        have absent := lookup_absent distinct.1
        simp [Value.isNull, wireScalar, absent]
      | _ => simp [Value.isNull]
    · have apart : (name == other) = false := by simpa using here
      rw [apart]
      split
      · exact ih distinct.2
      · rw [List.lookup_cons, apart]
        exact ih distinct.2

theorem members_distinct (a : Animation A) : (a.members.map Prod.fst).Nodup := by
  rcases a with ⟨id, target, subject, schedule, track, composition⟩
  cases subject <;> simp [members]

theorem member_toWire (a : Animation A) (other : name ≠ "type") :
    a.toWire.member name = wireScalar ((a.members.lookup name).getD .null) := by
  have apart : (name == "type") = false := by simpa using other
  simp only [toWire, Value.member, Value.member?, List.lookup_cons, apart]
  exact lookup_written a.members_distinct

theorem mem_of_lookup {v : Value A} (found : members.lookup name = some v) :
    (name, v) ∈ members := by
  obtain ⟨before, after, rfl, _⟩ := List.lookup_eq_some_iff.mp found
  simp

theorem endpoint_of_mem (wireable : a.IsWireable) : ∀ entry ∈ a.members,
    entry.1 ∉ ["type", "repeatCount", "rotate"] → entry.2.IsEndpoint := by
  obtain ⟨s, id, _⟩ := wireable.id
  have timing := wireable.schedule
  have track := wireable.track
  have empty (P : String × Value A → Prop) : ∀ entry ∈ [], P entry := fun _ none => by cases none
  simp only [members, List.forall_mem_append, List.forall_mem_cons]
  refine ⟨⟨⟨fun _ => .inl (.inr ⟨s, id⟩), fun _ => .inl wireable.target, empty _⟩, ?_⟩,
    fun _ => wireable.start, fun _ => wireable.goal, fun _ => .inl wireable.values,
    fun _ => .inl timing.begin, fun _ => .inl timing.dur, fun _ => .inl timing.finish,
    fun other => absurd other (by decide), fun _ => .inl timing.repeatDur,
    fun _ => .inl timing.fill, fun _ => .inl track.mode, fun _ => .inl track.keyTimes,
    fun _ => .inl track.keySplines, fun _ => .inl wireable.additive,
    fun _ => .inl wireable.accumulate, empty _⟩
  -- Only the members of the subject are left, between the names and the keyframes.
  have shown := wireable.subject
  rcases a with ⟨id, target, subject, schedule, track, composition⟩
  rcases subject with name | kind | ⟨path, reference, rotate, keyPoints⟩ | name | _
  · exact List.forall_mem_singleton.mpr fun _ => .inl shown
  · exact List.forall_mem_singleton.mpr fun _ => .inl shown
  · obtain ⟨drawn, referred, _, paced⟩ := shown
    simp only [List.forall_mem_cons]
    exact ⟨fun _ => .inl drawn, fun _ => .inl referred, fun other => absurd other (by decide),
      fun _ => .inl paced, empty _⟩
  · exact List.forall_mem_singleton.mpr fun _ => .inl shown
  · cases shown

theorem member_scalar (wireable : a.IsWireable) (name : String)
    (scalar : name ∉ ["type", "repeatCount", "rotate"]) :
    a.toWire.member name = (a.members.lookup name).getD .null := by
  rw [member_toWire a (by rintro rfl; simp at scalar)]
  cases found : a.members.lookup name with
  | none => rfl
  | some v => exact (endpoint_of_mem wireable (name, v) (mem_of_lookup found) scalar).scalar

theorem numeric_scalar {v : Value A} (measure : v.IsMeasure) :
    (wireScalar v).isNumeric = true := by
  obtain ⟨x, rfl, _⟩ := measure
  cases whole : x.isInteger <;> simp only [wireScalar, whole] <;> rfl

theorem wireRepeatCount_numeric {v : Value A} (numeric : v.isNumeric = true) :
    wireRepeatCount v = wireNumber "repeatCount" v := by
  cases v <;> first | rfl | cases numeric

theorem wireRotate_numeric {v : Value A} (numeric : v.isNumeric = true) :
    wireRotate v = wireNumber "rotate" v := by
  cases v <;> first | rfl | cases numeric

theorem wireRepeatCount_scalar {v : Value A}
    (count : v = .null ∨ v = .text indefinite ∨ v.IsMeasure) :
    wireRepeatCount (wireScalar v) = .ok v.unsigned := by
  rcases count with rfl | rfl | measure
  · rfl
  · rfl
  · rw [wireRepeatCount_numeric (numeric_scalar measure), wireNumber_scalar _ measure]

theorem wireRotate_scalar {v : Value A} (rotate : v.IsPlain ∨ v.IsMeasure) :
    wireRotate (wireScalar v) = .ok v.unsigned := by
  rcases rotate with (rfl | ⟨s, rfl⟩) | measure
  · rfl
  · rfl
  · rw [wireRotate_numeric (numeric_scalar measure), wireNumber_scalar _ measure]

end Animation

def Subject.unsigned : Subject A → Subject A
  | .motion path reference rotate keyPoints => .motion path reference rotate.unsigned keyPoints
  | subject => subject

namespace Animation
variable {a : Animation A} {label : String}

def unsigned (a : Animation A) : Animation A :=
  { a with
    subject := a.subject.unsigned
    schedule := { a.schedule with repeatCount := a.schedule.repeatCount.unsigned } }

/-- An animation as it is read back: a target is a text, if only an empty one. -/
def reread (a : Animation A) : Animation A := { a.unsigned with target := a.target.textOr "" }

theorem kind_of_name (kind : Kind) : Kind.ofValue (.text kind.name : Value A) = .ok kind := by
  have listed : Kind.names.lookup (Text.lowercase (String.ofList
      ((Text.trim kind.name.toList).map fun c => if c = '_' then '-' else c))) = some kind := by
    cases kind <;> decide +kernel
  simp only [Kind.ofValue, Value.written_text, bind, Except.bind, listed]
  rfl

theorem subject_read (wireable : a.IsWireable) : ∃ kind : Kind,
    kind.name = a.subject.typeName ∧ wireSubject kind a.toWire = .ok a.subject.unsigned := by
  have scalar := member_scalar wireable
  have shown := wireable.subject
  rcases a with ⟨id, target, subject, schedule, track, composition⟩
  rcases subject with name | kind | ⟨path, reference, rotate, keyPoints⟩ | name | _
  · refine ⟨.attribute, rfl, ?_⟩
    rw [wireSubject, scalar "attributeName" (by decide)]
    rfl
  · refine ⟨.transform, rfl, ?_⟩
    rw [wireSubject, scalar "transformType" (by decide)]
    rfl
  · obtain ⟨_, _, turned, _⟩ := shown
    refine ⟨.motion, rfl, ?_⟩
    rw [wireSubject, scalar "motionPathRef" (by decide), scalar "mpath" (by decide),
      scalar "path" (by decide), scalar "keyPoints" (by decide), member_toWire _ (by decide)]
    show (do
      let rotate ← wireRotate (wireScalar rotate)
      pure (Subject.motion path (if reference.isNull && false then .null else reference) rotate
        keyPoints)) = _
    rw [wireRotate_scalar turned, Bool.and_false]
    rfl
  · refine ⟨.set, rfl, ?_⟩
    rw [wireSubject, scalar "attributeName" (by decide)]
    rfl
  · cases shown

theorem ofWire_toWire (label : String) (wireable : a.IsWireable) :
    ofWire label a.toWire = .ok a.reread := by
  obtain ⟨kind, named, subject⟩ := subject_read wireable
  have type : Kind.ofValue (.text a.subject.typeName : Value A) = .ok kind := by
    rw [← named, kind_of_name]
  have typed : wireType a.toWire = .ok (.text a.subject.typeName) := rfl
  have count : wireRepeatCount (a.toWire.member "repeatCount") =
      .ok a.schedule.repeatCount.unsigned := by
    rw [member_toWire a (by decide), ← wireRepeatCount_scalar wireable.repeatCount]
    rcases a with ⟨_, _, _ | _ | _ | _ | _, _, _, _⟩ <;> rfl
  have id : a.id.textOr label = a.id := by
    obtain ⟨s, text, named⟩ := wireable.id
    rw [text, Value.textOr, if_pos (by simpa [Value.isPresent] using named)]
    rfl
  have spellable : (Value.list [a.toWire.member "id", a.toWire.member "targetElementId"]).isSpellable
      = true := by
    obtain ⟨s, text, _⟩ := wireable.id
    rw [member_scalar wireable "id" (by decide),
      member_scalar wireable "targetElementId" (by decide), Value.isSpellable_list]
    show ∀ v ∈ [a.id, a.target], v.isSpellable = true
    simp [text, wireable.target.isSpellable]
  simp only [ofWire, typed, type, subject, count, bind, Except.bind]
  rw [Value.spelling_ok spellable]
  simp (disch := decide) only [member_scalar wireable]
  refine congrArg Except.ok ?_
  rcases a with ⟨_, _, _ | _ | _ | _ | _, _, _, _⟩ <;>
    exact (Animation.mk.injEq ..).mpr ⟨id, rfl, rfl, rfl, rfl, rfl⟩

/-- Equality of animations: they are of one kind, with equal values in their members. -/
def Alike (a b : Animation A) : Prop :=
  a.subject.typeName = b.subject.typeName ∧
    List.Forall₂ (fun x y => x.1 = y.1 ∧ (x.2 == y.2) = true) a.members b.members

theorem unsigned_alike (wireable : a.IsWireable) : a.unsigned.Alike a := by
  have same : ∀ entry ∈ a.members, entry.1 ∉ ["type", "repeatCount", "rotate"] →
      (entry.2 == entry.2) = true := fun entry listed scalar =>
    (endpoint_of_mem wireable entry listed scalar).same
  have count : (a.schedule.repeatCount.unsigned == a.schedule.repeatCount) = true := by
    rcases wireable.repeatCount with null | word | measure
    · rw [null]
      rfl
    · rw [word]
      exact Value.IsPlain.same (.inr ⟨indefinite, rfl⟩)
    · exact measure.unsigned_same
  have shown := wireable.subject
  rcases a with ⟨id, target, subject, schedule, track, composition⟩
  rcases subject with name | kind | ⟨path, reference, rotate, keyPoints⟩ | name | _
  · simpa [Alike, members, unsigned, Subject.unsigned, count] using same
  · simpa [Alike, members, unsigned, Subject.unsigned, count] using same
  · have turned : (rotate.unsigned == rotate) = true := by
      rcases shown.2.2.1 with plain | measure
      · rw [plain.unsigned]
        exact plain.same
      · exact measure.unsigned_same
    simpa [Alike, members, unsigned, Subject.unsigned, Subject.typeName, count, turned] using same
  · simpa [Alike, members, unsigned, Subject.unsigned, count] using same
  · cases shown

theorem reread_addressed (addressed : a.target.isText = true) : a.reread = a.unsigned := by
  rcases a with ⟨id, target, subject, schedule, track, composition⟩
  cases target with
  | text s =>
    have same : (Value.text s : Value A).textOr "" = .text s := by
      unfold Value.textOr
      split
      · rfl
      · simp_all [Value.isPresent]
    simp only [reread, unsigned, same]
  | _ => cases addressed

/-- A list of animations is read back as a whole, without a warning. -/
theorem listOfWire_toWire (label : Nat → String) {animations : List (Animation A)}
    (wireable : ∀ a ∈ animations, a.IsWireable) :
    listOfWire label (animations.map toWire) =
      (.ok (animations.map reread), []) := by
  suffices onward : ∀ position, listOfWire.go label position (animations.map toWire) =
      (.ok (animations.map reread), []) from onward 0
  induction animations with
  | nil => exact fun position => rfl
  | cons a rest ih =>
    intro position
    obtain ⟨head, tail⟩ := List.forall_mem_cons.mp wireable
    rw [List.map_cons, listOfWire.go, ofWire_toWire (label position) head, ih tail (position + 1)]
    rfl

end Animation
end DeclarativeAnimation
