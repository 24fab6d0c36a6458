import DeclarativeAnimation.Markup.Compilation
import DeclarativeAnimation.Proofs.Markup.RoundedText

/-! When an animation can be written.  With all its mandatory parts and with numbers that are
    numbers, it is; without one of the parts it is refused, and never anything worse. -/
namespace DeclarativeAnimation
variable {A : Arithmetic}

open Markup

def Markup.Options.IsPrecise (options : Options A) : Prop :=
  ∃ n : Int, options.precision = .int n ∧ 0 ≤ n ∧ n ≤ mostPlaces

theorem Markup.placesOf_precise {options : Options A} (precise : options.IsPrecise) :
    ∃ places, placesOf options.precision = .ok places := by
  obtain ⟨n, given, low, high⟩ := precise
  obtain ⟨places, rfl⟩ := Int.eq_ofNat_of_zero_le low
  refine ⟨places, ?_⟩
  rw [given]
  exact placesOf_natCast high

namespace Animation

/-- The parts that an element cannot do without are there. -/
def IsComplete (a : Animation A) : Prop :=
  match a.subject with
  | .attribute name => name.isPresent = true
  | .transform kind => kind.isPresent = true
  | .motion path reference _ _ => path.isPresent = true ∨ reference.isPresent = true
  | .set name => name.isPresent = true ∧ isWritten a.track.goal = true
  | .none => False

def IsSpellable (a : Animation A) : Prop := ∀ m ∈ a.members, m.2.isSpellable = true

instance (a : Animation A) : Decidable a.IsSpellable :=
  inferInstanceAs (Decidable (∀ m ∈ a.members, m.2.isSpellable = true))

/-- Every member has a text, whole numbers that are rounded are numbers, and a path that is to be
    rounded is text. -/
def IsWritable (options : Options A) (a : Animation A) : Prop :=
  a.IsSpellable ∧ match a.subject with
  | .attribute _ | .transform _ => a.track.start.Fits ∧ a.track.goal.Fits
  | .motion path reference rotate _ => rotate.Fits ∧
      (options.optimize.isPresent = true → path.isPresent = true → reference.isPresent = false →
        path.isText = true)
  | .set _ => a.track.goal.Fits
  | .none => True

end Animation

namespace Markup
variable {a : Animation A} {options : Options A} {precision : Value A} {places : Nat}

theorem valueAttributes_answers (precise : placesOf precision = .ok places)
    (spellable : a.IsSpellable) (start : a.track.start.Fits) (goal : a.track.goal.Fits) :
    ∃ values, valueAttributes a.track precision = .ok values ∧
      ∀ m ∈ values, m.2.isSpellable = true := by
  obtain ⟨listed, lists⟩ := formatValues_answers precise
    (spellable ("values", a.track.values) (by simp [Animation.members]))
  obtain ⟨first, starts⟩ := formatValue_answers precise start
    (spellable ("from", a.track.start) (by simp [Animation.members]))
  obtain ⟨last, ends⟩ := formatValue_answers precise goal
    (spellable ("to", a.track.goal) (by simp [Animation.members]))
  unfold valueAttributes
  rw [lists, starts, ends]
  cases a.track.values.isPresent <;> cases a.track.start.isNull <;> cases a.track.goal.isNull <;>
    exact ⟨_, rfl, by simp⟩

theorem rotateAttribute_answers (precise : placesOf precision = .ok places) {rotate : Value A}
    (fits : rotate.Fits) (spellable : rotate.isSpellable = true) :
    ∃ v, rotateAttribute rotate precision = .ok v ∧ v.isSpellable = true := by
  obtain ⟨s, reads⟩ := formatValue_answers precise fits spellable
  unfold rotateAttribute
  split
  · exact ⟨_, rfl, rfl⟩
  · exact ⟨_, rfl, rfl⟩
  · rw [reads]
    exact ⟨_, rfl, rfl⟩

theorem optimizePath_answers (precise : placesOf options.precision = .ok places) {path : Value A}
    (spellable : path.isSpellable = true)
    (text : options.optimize.isPresent = true → path.isText = true) :
    ∃ v, optimizePath path options = .ok v ∧ v.isSpellable = true := by
  unfold optimizePath
  split
  · exact ⟨_, rfl, spellable⟩
  · rename_i optimized
    have is_text := text (by simpa using optimized)
    cases path with
    | text s =>
      obtain ⟨out, reads⟩ := roundedPath_answers precise s.toList
      dsimp only
      rw [reads]
      exact ⟨_, rfl, rfl⟩
    | _ => cases is_text

section Spelled
variable {attributes : Attributes A} {others : List (Value A)} {tag content text : String}

theorem spellElement_ok (shown : ∀ m ∈ attributes, m.2.isSpellable = true)
    (beside : ∀ v ∈ others, v.isSpellable = true) :
    spellElement others tag attributes content = .ok (writeElement tag attributes content) :=
  Value.spelling_ok (Value.isSpellable_list.mpr
    (List.forall_mem_cons.mpr ⟨Value.isSpellable_object.mpr shown, beside⟩)) _

theorem spellElement_written (written : spellElement others tag attributes content = .ok text) :
    writeElement tag attributes content = text := (Value.spelling_eq_ok.mp written).2

theorem scalarText_spellable (v : Value A) : (scalarText v).isSpellable = true := by
  cases v <;> rfl

theorem timingAttributes_spellable (spellable : a.IsSpellable) :
    ∀ m ∈ timingAttributes a.schedule a.track, m.2.isSpellable = true := by
  have member (name : String) (v : Value A) (listed : (name, v) ∈ a.members) :
      v.isSpellable = true := spellable (name, v) listed
  have mode : (modeAttribute a.track.mode).isSpellable = true := by
    unfold modeAttribute
    split
    · exact member "calcMode" _ (by simp [Animation.members])
    · rfl
  simp only [timingAttributes, List.forall_mem_cons]
  exact ⟨member "dur" _ (by simp [Animation.members]),
    member "begin" _ (by simp [Animation.members]), member "end" _ (by simp [Animation.members]),
    member "fill" _ (by simp [Animation.members]), scalarText_spellable _,
    member "repeatDur" _ (by simp [Animation.members]), mode,
    member "keyTimes" _ (by simp [Animation.members]),
    member "keySplines" _ (by simp [Animation.members]), fun _ none => by cases none⟩

theorem compositionAttributes_spellable (c : Composition A) :
    ∀ m ∈ compositionAttributes c, m.2.isSpellable = true := by
  unfold compositionAttributes
  cases c.isAdditive <;> cases c.isAccumulating <;> simp

end Spelled

theorem ofAnimation_refuses (incomplete : ¬ a.IsComplete) :
    ∃ fault, ofAnimation a options = .error fault ∧ fault.category = .compile := by
  obtain ⟨id, target, subject, schedule, track, composition⟩ := a
  unfold Animation.IsComplete at incomplete
  unfold ofAnimation
  rcases subject with name | kind | ⟨path, reference, rotate, keyPoints⟩ | name | _
  · have missing : name.isPresent = false := by simpa using incomplete
    dsimp only
    rw [missing]
    exact ⟨_, rfl, rfl⟩
  · have missing : kind.isPresent = false := by simpa using incomplete
    dsimp only
    rw [missing]
    exact ⟨_, rfl, rfl⟩
  · have missing : path.isPresent = false ∧ reference.isPresent = false := by
      simpa using incomplete
    dsimp only
    rw [missing.1, missing.2]
    exact ⟨_, rfl, rfl⟩
  · dsimp only
    cases named : name.isPresent with
    | false => exact ⟨_, rfl, rfl⟩
    | true =>
      have missing : isWritten track.goal = false := by simpa [named] using incomplete
      rw [missing]
      exact ⟨_, rfl, rfl⟩
  · exact ⟨_, rfl, rfl⟩

section Complete
variable (spellable : a.IsSpellable) (precise : placesOf options.precision = .ok places)
include spellable

theorem keyframes_written {first values : Attributes A} (tag : String)
    (leading : ∀ m ∈ first, m.2.isSpellable = true)
    (listed : ∀ m ∈ values, m.2.isSpellable = true) :
    ∃ text, spellElement [a.schedule.repeatCount] tag (first ++ values
      ++ timingAttributes a.schedule a.track ++ compositionAttributes a.composition) "" =
        .ok text := by
  refine ⟨_, spellElement_ok ?_ ?_⟩
  · simp only [List.forall_mem_append]
    exact ⟨⟨⟨leading, listed⟩, timingAttributes_spellable spellable⟩,
      compositionAttributes_spellable a.composition⟩
  · exact List.forall_mem_singleton.mpr
      (spellable ("repeatCount", a.schedule.repeatCount) (by simp [Animation.members]))

include precise

theorem attribute_answers {name : Value A} (animates : a.subject = .attribute name)
    (named : name.isPresent = true) (start : a.track.start.Fits) (goal : a.track.goal.Fits) :
    ∃ text, ofAnimation a options = .ok text := by
  obtain ⟨values, lists, listed⟩ := valueAttributes_answers precise spellable start goal
  have shown : name.isSpellable = true :=
    spellable ("attributeName", name) (by simp [Animation.members, animates])
  unfold ofAnimation
  rw [animates]
  dsimp only
  rw [named, lists]
  exact keyframes_written spellable "animate" (List.forall_mem_singleton.mpr shown) listed

theorem transform_answers {kind : Value A} (animates : a.subject = .transform kind)
    (named : kind.isPresent = true) (start : a.track.start.Fits) (goal : a.track.goal.Fits) :
    ∃ text, ofAnimation a options = .ok text := by
  obtain ⟨values, lists, listed⟩ := valueAttributes_answers precise spellable start goal
  have shown : kind.isSpellable = true :=
    spellable ("transformType", kind) (by simp [Animation.members, animates])
  unfold ofAnimation
  rw [animates]
  dsimp only
  rw [named, lists]
  exact keyframes_written spellable "animateTransform" (by simp [shown]) listed

theorem set_answers {name : Value A} (animates : a.subject = .set name)
    (named : name.isPresent = true) (ends : isWritten a.track.goal = true)
    (goal : a.track.goal.Fits) : ∃ text, ofAnimation a options = .ok text := by
  have member (name : String) {v : Value A} (listed : (name, v) ∈ a.members) :
      v.isSpellable = true := spellable (name, v) listed
  obtain ⟨s, reads⟩ := formatValue_answers precise goal
    (member "to" (by simp [Animation.members]))
  unfold ofAnimation
  rw [animates]
  dsimp only
  rw [named, ends, reads]
  refine ⟨_, spellElement_ok ?_ (fun _ none => by cases none)⟩
  simp only [List.forall_mem_cons]
  exact ⟨member "attributeName" (by simp [Animation.members, animates]), rfl,
    member "begin" (by simp [Animation.members]),
    member "dur" (by simp [Animation.members]),
    member "end" (by simp [Animation.members]),
    member "fill" (by simp [Animation.members]), fun _ none => by cases none⟩

theorem motion_answers {path reference rotate keyPoints : Value A}
    (animates : a.subject = .motion path reference rotate keyPoints)
    (located : path.isPresent = true ∨ reference.isPresent = true) (turns : rotate.Fits)
    (drawn : options.optimize.isPresent = true → path.isPresent = true →
      reference.isPresent = false → path.isText = true) :
    ∃ text, ofAnimation a options = .ok text := by
  have member (name : String) {v : Value A} (listed : (name, v) ∈ a.members) :
      v.isSpellable = true := spellable (name, v) listed
  obtain ⟨turned, turns, turnShown⟩ := rotateAttribute_answers precise turns
    (member "rotate" (by simp [Animation.members, animates]))
  obtain ⟨points, lists⟩ := formatKeyPoints_answers precise
    (member "keyPoints" (v := keyPoints) (by simp [Animation.members, animates]))
  have written {path points : Value A} {content : String} (drawn : path.isSpellable = true)
      (paced : points.isSpellable = true) :
      ∃ text, spellElement [a.schedule.repeatCount, reference] "animateMotion"
        ([("path", path), ("rotate", turned), ("keyPoints", points)]
          ++ timingAttributes a.schedule a.track) content = .ok text := by
    refine ⟨_, spellElement_ok (List.forall_mem_append.mpr
      ⟨by simp [drawn, turnShown, paced], timingAttributes_spellable spellable⟩) ?_⟩
    simp only [List.forall_mem_cons]
    exact ⟨member "repeatCount" (by simp [Animation.members]),
      member "mpath" (by simp [Animation.members, animates]),
      fun _ none => by cases none⟩
  have missing : (!path.isPresent && !reference.isPresent) = false := by
    rcases located with drawn | referred
    · rw [drawn, Bool.not_true, Bool.false_and]
    · rw [referred, Bool.not_true, Bool.and_false]
  unfold ofAnimation
  rw [animates]
  dsimp only
  rw [missing, turns, lists]
  -- A reference stands before a path; only a path that is shown is rounded.
  cases shown : (path.isPresent && !reference.isPresent) with
  | true =>
    obtain ⟨present, alone⟩ := Bool.and_eq_true_iff.mp shown
    obtain ⟨rounded, rounds, roundShown⟩ := optimizePath_answers precise
      (member "path" (by simp [Animation.members, animates]))
      (fun optimized => drawn optimized present (by simpa using alone))
    rw [rounds]
    cases keyPoints.isPresent <;> exact written roundShown rfl
  | false => cases keyPoints.isPresent <;> exact written rfl rfl

end Complete

theorem ofAnimation_answers (complete : a.IsComplete) (writable : a.IsWritable options)
    (precise : options.IsPrecise) : ∃ text, ofAnimation a options = .ok text := by
  obtain ⟨places, precise⟩ := placesOf_precise precise
  obtain ⟨spellable, fits⟩ := writable
  unfold Animation.IsComplete at complete
  rcases animates : a.subject with name | kind | ⟨path, reference, rotate, keyPoints⟩ | name | _ <;>
    rw [animates] at complete fits
  · exact attribute_answers spellable precise animates complete fits.1 fits.2
  · exact transform_answers spellable precise animates complete fits.1 fits.2
  · exact motion_answers spellable precise animates complete fits.1 fits.2
  · exact set_answers spellable precise animates complete.1 complete.2 fits
  · cases complete

theorem ofAnimation_settles {a : Animation A} (writable : a.IsWritable options)
    (precise : options.IsPrecise) : (∃ text, ofAnimation a options = .ok text) ∨
      ∃ fault, ofAnimation a options = .error fault ∧ fault.category = .compile := by
  by_cases complete : a.IsComplete
  · exact Or.inl (ofAnimation_answers complete writable precise)
  · exact Or.inr (ofAnimation_refuses complete)

section Reading
variable {v : Value A} {fault : Fault}

theorem toNumber_fault (fits : v.Fits) : v.toNumber ≠ .error .beyondDoubles := by
  intro refused
  cases v with
  | int n =>
    rw [Value.toNumber, Value.numberOfInt_of_finite (fits n rfl)] at refused
    cases refused
  | text s =>
    unfold Value.toNumber at refused
    dsimp only at refused
    split at refused <;> cases refused
  | _ => cases refused

def IsNumberRefusal (member : String) (v : Value A) (fault : Fault) : Prop :=
  fault = .invalidMember member v.shown ∨ (fault = .beyondDoubles ∧ ¬ v.Fits) ∨
    (fault = .unspellable ∧ v.isSpellable = false)

theorem refusal_isNumberRefusal (member : String) (v : Value A) :
    IsNumberRefusal member v (v.refusal (.invalidMember member v.shown)) := by
  unfold Value.refusal
  cases spellable : v.isSpellable with
  | true => exact Or.inl rfl
  | false => exact Or.inr (Or.inr ⟨rfl, spellable⟩)

theorem wireNumber_refuses {member : String}
    (refused : Animation.wireNumber member v = .error fault) :
    IsNumberRefusal member v fault := by
  unfold Animation.wireNumber at refused
  split at refused
  · cases refused
    exact refusal_isNumberRefusal member _
  · split at refused
    · cases refused
    · rename_i beyond
      cases refused
      exact Or.inr (Or.inl ⟨rfl, fun fits => toNumber_fault fits beyond⟩)
    · cases refused
      exact refusal_isNumberRefusal member _

theorem wireRepeatCount_refuses (refused : Animation.wireRepeatCount v = .error fault) :
    IsNumberRefusal "repeatCount" v fault := by
  cases v with
  | text s =>
    simp only [Animation.wireRepeatCount] at refused
    split at refused
    · cases refused
    split at refused
    · cases refused
    split at refused
    · cases refused
    · cases refused
      exact Or.inl rfl
  | null => cases refused
  | _ => exact wireNumber_refuses refused

theorem wireRotate_refuses (refused : Animation.wireRotate v = .error fault) :
    IsNumberRefusal "rotate" v fault := by
  cases v with
  | null => cases refused
  | text s => cases refused
  | _ => exact wireNumber_refuses refused

/-- What can be wrong with an object: it names no kind, or one that there is not, or one of the
    members that are looked at is none of the things that it can be, or has no text. -/
def IsRefusal (data : Value A) (fault : Fault) : Prop :=
  fault = .missingType ∨ (∃ type, fault = .unsupportedType type) ∨
    (∃ name ∈ ["repeatCount", "rotate"], IsNumberRefusal name (data.member name) fault) ∨
    (fault = .unspellable ∧
      ∃ name ∈ ["type", "id", "targetElementId"], (data.member name).isSpellable = false)

theorem ofWire_refuses {label : String} {data : Value A}
    (object : ∃ members, data = .object members)
    (refused : Animation.ofWire label data = .error fault) : IsRefusal data fault := by
  obtain ⟨members, rfl⟩ := object
  unfold Animation.ofWire at refused
  rcases bind_eq_error refused with untyped | ⟨type, typed, refused⟩
  · unfold Animation.wireType at untyped
    dsimp only at untyped
    split at untyped
    · cases untyped
    · cases untyped
      exact Or.inl rfl
  have here : (Value.object members).member "type" = type := by
    unfold Animation.wireType at typed
    dsimp only at typed
    split at typed
    · rename_i found
      cases typed
      simp [Value.member, Value.member?, found]
    · cases typed
  rcases bind_eq_error refused with unnamed | ⟨kind, named, refused⟩
  · rcases bind_eq_error unnamed with unwritten | ⟨text, written, unnamed⟩
    · obtain ⟨long, rfl⟩ := Value.spelling_fault unwritten
      exact Or.inr (Or.inr (Or.inr ⟨rfl, "type", by simp, by rw [here, long]⟩))
    · dsimp only at unnamed
      split at unnamed
      · cases unnamed
      · cases unnamed
        exact Or.inr (Or.inl ⟨_, rfl⟩)
  rcases bind_eq_error refused with undescribed | ⟨subject, described, refused⟩
  · cases kind with
    | motion =>
      rcases bind_eq_error undescribed with unturned | ⟨rotate, turned, rest⟩
      · exact Or.inr (Or.inr (Or.inl ⟨"rotate", by simp, wireRotate_refuses unturned⟩))
      · cases rest
    | _ => cases undescribed
  rcases bind_eq_error refused with uncounted | ⟨count, counted, refused⟩
  · exact Or.inr (Or.inr (Or.inl ⟨"repeatCount", by simp, wireRepeatCount_refuses uncounted⟩))
  · obtain ⟨long, rfl⟩ := Value.spelling_fault refused
    refine Or.inr (Or.inr (Or.inr ⟨rfl, ?_⟩))
    cases named : ((Value.object members).member "id").isSpellable with
    | false => exact ⟨"id", by simp, named⟩
    | true =>
      refine ⟨"targetElementId", by simp, ?_⟩
      simpa [Value.isSpellable, Value.areSpellable, named] using long

theorem ofWire_names {label : String} {data : Value A} {a : Animation A}
    (read : Animation.ofWire label data = .ok a) :
    (data.member "id").isSpellable = true ∧ (data.member "targetElementId").isSpellable = true := by
  obtain ⟨type, _, read⟩ := bind_eq_ok read
  obtain ⟨kind, _, read⟩ := bind_eq_ok read
  obtain ⟨subject, _, read⟩ := bind_eq_ok read
  obtain ⟨count, _, read⟩ := bind_eq_ok read
  have texts := Value.isSpellable_list.mp (Value.spelling_eq_ok.mp read).1
  exact ⟨texts _ (by simp), texts _ (by simp)⟩

/-- An object that cannot be read has a bad value, unless a whole number in it is no number. -/
theorem ofWire_fault {label : String} {data : Value A} (object : ∃ members, data = .object members)
    (counts : (data.member "repeatCount").Fits) (turns : (data.member "rotate").Fits)
    (refused : Animation.ofWire label data = .error fault) : fault.isOfValue = true := by
  rcases ofWire_refuses object refused with rfl | ⟨type, rfl⟩ |
    ⟨name, looked, rfl | ⟨-, beyond⟩ | ⟨rfl, -⟩⟩ | ⟨rfl, -⟩
  · rfl
  · rfl
  · rfl
  · rcases List.mem_pair.mp looked with rfl | rfl
    · exact absurd counts beyond
    · exact absurd turns beyond
  · rfl
  · rfl

end Reading

namespace Source

def IsObjectOrTargeted : Source A → Prop
  | .read animation => ∃ s, animation.target = .text s
  | .wire data => ∃ members, data = .object members

def Fits : Source A → Prop
  | .read _ => True
  | .wire data => (data.member "repeatCount").Fits ∧ (data.member "rotate").Fits

/-- What a batch calls a source by has a text: its name, and the target of an object. -/
def HasNames : Source A → Prop
  | .read animation => animation.id.isSpellable = true
  | .wire data =>
    (data.member "id").isSpellable = true ∧ (data.member "targetElementId").isSpellable = true

def IsWritable (options : Options A) (source : Source A) : Prop :=
  source.Fits ∧ source.HasNames ∧
    ∀ animation, source.animation = .ok animation → animation.IsWritable options

variable {source : Source A}

theorem warning_answers (formed : source.IsObjectOrTargeted) (named : source.HasNames)
    (fault : Fault) :
    ∃ text, source.warning fault = .ok text := by
  cases source with
  | read animation => exact ⟨_, Value.spelling_ok named _⟩
  | wire data =>
    obtain ⟨members, rfl⟩ := formed
    exact ⟨_, Value.spelling_ok named.1 _⟩

theorem target_wire {members : List (String × Value A)}
    (short : ((Value.object members).member "targetElementId").isSpellable = true) :
    (wire (.object members)).target =
      .ok (.text ((members.lookup "targetElementId").getD (.text "")).asText) := by
  have text : ((members.lookup "targetElementId").getD (.text "")).isSpellable = true := by
    unfold Value.member Value.member? at short
    cases found : members.lookup "targetElementId" <;> simp_all
  show (do return Value.text (← Value.written _) : Except Fault (Value A)) = _
  rw [Value.written_ok text]
  rfl

theorem target_answers (formed : source.IsObjectOrTargeted) (named : source.HasNames) :
    ∃ target, source.target = .ok target := by
  cases source with
  | read animation =>
    obtain ⟨s, named⟩ := formed
    exact ⟨_, by rw [target, named]; rfl⟩
  | wire data =>
    obtain ⟨members, rfl⟩ := formed
    exact ⟨_, target_wire named.2⟩

theorem compile_read (options : Options A) {a : Animation A}
    (read : source.animation = .ok a) :
    source.compile options = ofAnimation a options := by
  rw [compile, read]
  rfl

theorem animation_fault {fault : Fault} (formed : source.IsObjectOrTargeted) (fits : source.Fits)
    (refused : source.animation = .error fault) : fault.category = .compile := by
  cases source with
  | read animation => cases refused
  | wire data =>
    unfold animation at refused
    dsimp only at refused
    split at refused
    · cases refused
    · rename_i bad unread
      cases refused
      rw [ofWire_fault formed fits.1 fits.2 unread]
      rfl

end Source

end Markup
end DeclarativeAnimation
