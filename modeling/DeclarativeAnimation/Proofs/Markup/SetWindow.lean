import DeclarativeAnimation.Proofs.Markup.OneElement
import DeclarativeAnimation.Proofs.State.EvaluationRange

/-! Markup carries the window of a set.  The window is found from three clock values, and each of
    them is written as it stands.  Only a duration without characters is lost on the way, for an
    attribute without a value is left out, and a set without a duration holds its value for good. -/
namespace DeclarativeAnimation
variable {A : Arithmetic}

open Markup

namespace Animation

/-- The set without a duration that has no characters. -/
def unblanked (a : Animation A) : Animation A :=
  { a with schedule := { a.schedule with dur := restored a.schedule.dur } }

section Window
variable {a b : Animation A}

theorem unblanked_of_filled (plain : a.schedule.dur.IsPlain) (filled : a.schedule.dur ≠ .text "") :
    a.unblanked = a := by
  have kept : restored a.schedule.dur = a.schedule.dur := by
    rcases plain with null | ⟨t, text⟩
    · rw [null]
      rfl
    · rw [text] at filled ⊢
      exact restored_text fun empty => filled (congrArg Value.text empty)
  unfold unblanked
  rw [kept]

/-- A set looks at its window only, and there it makes no difference how a begin and an end are
    written that are read alike. -/
theorem isSetActive_congr (begins : a.schedule.beginSeconds = b.schedule.beginSeconds)
    (lasts : a.schedule.dur = b.schedule.dur)
    (ends : ClockValue.read? a.schedule.finish = ClockValue.read? b.schedule.finish)
    (time : Number A) : a.isSetActive time = b.isSetActive time := by
  unfold isSetActive setStop
  dsimp only
  rw [begins, lasts, ends]

end Window

end Animation

namespace Markup

theorem restored_fits {v : Value A} : (restored v).Fits := by
  intro n same
  unfold restored at same
  split at same <;> cases same

def setAttributes (name : Value A) (goal : String) (s : Schedule A) : Attributes A :=
  [("attributeName", name), ("to", .text goal), ("begin", s.begin), ("dur", s.dur),
    ("end", s.finish), ("fill", s.fill)]

/-- The object that is read from the element of a set, all of its attributes taken as members. -/
def setObject (name : Value A) (goal : String) (s : Schedule A) : Value A :=
  (readStartTag (writeElement "set" (setAttributes name goal s) "").toList).wire
    (Subject.set name).attributeNames

section Object
variable (name : Value A) (goal : String) (s : Schedule A)

theorem setAttributes_names :
    (setAttributes name goal s).map Prod.fst = (Subject.set name).attributeNames := rfl

theorem setAttributes_clean :
    ∀ entry ∈ setAttributes name goal s, entry.1.toList.all isNameChar := by
  have known : ∀ n ∈ ["attributeName", "to", "begin", "dur", "end", "fill"],
      n.toList.all isNameChar := by decide
  intro entry member
  exact known entry.1 (List.mem_map.mpr ⟨entry, member, rfl⟩)

theorem wireType_setObject : Animation.wireType (setObject name goal s) = .ok (.text "set") := by
  unfold setObject
  rw [readStartTag_writeElement (by decide) (setAttributes_clean name goal s)]
  simp [StartTag.wire, Animation.wireType]

variable {name goal s} {n : String} (untyped : n ≠ "type")
include untyped

theorem member_setObject {v : Value A} (entry : (n, v) ∈ setAttributes name goal s) :
    (setObject name goal s).member n = restored v := by
  have listed : n ∈ (Subject.set name).attributeNames := by
    rw [← setAttributes_names name goal s]
    exact List.mem_map.mpr ⟨_, entry, rfl⟩
  unfold setObject
  rw [member_wire (by decide) (setAttributes_clean name goal s) "" _ untyped, if_pos listed]
  exact readBack_of_mem (attributeNames_distinct (.set name)) entry

theorem member_setObject_absent (unlisted : n ∉ (Subject.set name).attributeNames) :
    (setObject name goal s).member n = .null := by
  unfold setObject
  rw [member_wire (by decide) (setAttributes_clean name goal s) "" _ untyped, if_neg unlisted]

end Object

section Read
variable {a : Animation A} {options : Options A} {text : String} {name : Value A}
  (sets : a.subject = .set name) (compiled : ofAnimation a options = .ok text)
include sets compiled

theorem element_of_set : ∃ goal, formatValue a.track.goal options.precision = .ok goal ∧
    text = writeElement "set" (setAttributes name goal a.schedule) "" := by
  obtain ⟨attributes, handed, written⟩ := handed_of_compiled compiled
  rw [handedAttributes, sets] at handed
  rw [sets] at written
  obtain ⟨goal, formatted, same⟩ := bind_eq_ok handed
  obtain rfl := Except.ok.inj same
  exact ⟨goal, formatted, written⟩

theorem readAnimation_of_set (label : String) :
    ∃ read : Animation A, readAnimation label a.subject.attributeNames text = .ok read ∧
      read.schedule.begin = restored a.schedule.begin ∧
      read.schedule.dur = restored a.schedule.dur ∧
      read.schedule.finish = restored a.schedule.finish := by
  obtain ⟨goal, _, written⟩ := element_of_set sets compiled
  have turned : "rotate" ∉ (Subject.set name).attributeNames := by simp [Subject.attributeNames]
  have repeated : "repeatCount" ∉ (Subject.set name).attributeNames := by
    simp [Subject.attributeNames]
  have counted : Animation.wireRepeatCount
      ((setObject name goal a.schedule).member "repeatCount") = .ok .null := by
    rw [member_setObject_absent (by decide) repeated]
    rfl
  have begins : (setObject name goal a.schedule).member "begin" = restored a.schedule.begin :=
    member_setObject (by decide) (by simp [setAttributes])
  have lasts : (setObject name goal a.schedule).member "dur" = restored a.schedule.dur :=
    member_setObject (by decide) (by simp [setAttributes])
  have ends : (setObject name goal a.schedule).member "end" = restored a.schedule.finish :=
    member_setObject (by decide) (by simp [setAttributes])
  have shown : (Subject.set name).tagName ≠ "" := by simp [Subject.tagName]
  obtain ⟨kind, named⟩ := Subject.kind_of_tagName shown
  obtain ⟨read, ok, schedule, -, -⟩ := Animation.ofWire_members (wireType_setObject name goal _)
    named (member_setObject_absent (by decide) turned) counted
    (member_setObject_absent (by decide) (by simp [Subject.attributeNames]))
    (member_setObject_absent (by decide) (by simp [Subject.attributeNames])) label
  refine ⟨read, ?_, ?_, ?_, ?_⟩
  · rw [sets, written]
    exact ok
  · rw [schedule, begins]
  · rw [schedule, lasts]
  · rw [schedule, ends]

/-- The set that is read from its element holds its value at the same times, as long as its
    duration is not a text without characters; with such a one it is read as a set without a
    duration. -/
theorem set_window_survives_markup (plain : a.schedule.IsPlain) (label : String) :
    ∃ read : Animation A, readAnimation label a.subject.attributeNames text = .ok read ∧
      ∀ time, ∃ active, read.isSetActive time = .ok active ∧
        a.unblanked.isSetActive time = .ok active ∧
        (a.schedule.dur ≠ .text "" → a.isSetActive time = .ok active) := by
  obtain ⟨read, ok, begins, lasts, ends⟩ := readAnimation_of_set sets compiled label
  refine ⟨read, ok, fun time => ?_⟩
  have same : read.isSetActive time = a.unblanked.isSetActive time := by
    apply Animation.isSetActive_congr
    · unfold Schedule.beginSeconds
      rw [begins]
      exact eq_of_restored plain.begin (fun v => ClockValue.seconds (v.orElse (.text "0s"))) rfl
    · exact lasts
    · rw [ends]
      exact eq_of_restored plain.finish ClockValue.read? rfl
  have fits : a.unblanked.schedule.Fits :=
    ⟨plain.begin.fits, restored_fits, plain.finish.fits, plain.repeatDur.fits⟩
  obtain ⟨active, shown⟩ := Animation.isSetActive_answers fits time
  refine ⟨active, by rw [same, shown], shown, fun filled => ?_⟩
  rwa [Animation.unblanked_of_filled plain.dur filled] at shown

end Read

section Instance

def barrier : Animation .binary64 :=
  { id := .text "barrier", target := .text "gate", subject := .set (.text "display")
    schedule := { begin := .text "", dur := .text "2s", finish := .text "<noon> & \"later\"" }
    track := { goal := .text "none" } }

def barrierElement : String := "<set attributeName=\"display\" to=\"none\" dur=\"2s\"" ++
  " end=\"&lt;noon&gt; &amp; &quot;later&quot;\"/>"

theorem barrier_window_survives_markup :
    ∃ read : Animation .binary64,
      readAnimation "anim" barrier.subject.attributeNames barrierElement = .ok read ∧
      read.isSetActive 1 = .ok true ∧ read.isSetActive 2 = .ok false := by
  have compiled : ofAnimation barrier {} = .ok barrierElement := by decide +kernel
  have some_text (s : String) : (Value.text s : Value .binary64).IsPlain := Or.inr ⟨s, rfl⟩
  have nothing : (Value.null : Value .binary64).IsPlain := Or.inl rfl
  have plain : barrier.schedule.IsPlain :=
    ⟨some_text _, some_text _, some_text _, nothing, nothing⟩
  have filled : barrier.schedule.dur ≠ .text "" := by simp [barrier]
  obtain ⟨read, ok, window⟩ := set_window_survives_markup rfl compiled plain "anim"
  have holds : barrier.isSetActive 1 = .ok true := by decide +kernel
  have ends : barrier.isSetActive 2 = .ok false := by decide +kernel
  refine ⟨read, ok, ?_, ?_⟩
  · obtain ⟨active, same, -, own⟩ := window 1
    rw [same, ← own filled, holds]
  · obtain ⟨active, same, -, own⟩ := window 2
    rw [same, ← own filled, ends]

def blink : Animation .binary64 :=
  { id := .text "blink", target := .text "gate", subject := .set (.text "display")
    schedule := { dur := .text "" }, track := { goal := .text "none" } }

/-- A duration without characters ends a set as it begins, and is not written. -/
theorem blank_dur_holds_in_markup :
    ofAnimation blink {} = .ok "<set attributeName=\"display\" to=\"none\"/>" ∧
      blink.isSetActive 1 = .ok false ∧
      (do (← readAnimation "anim" blink.subject.attributeNames
        "<set attributeName=\"display\" to=\"none\"/>").isSetActive (1 : Number .binary64)) =
          .ok true := by
  decide +kernel

end Instance

end Markup
end DeclarativeAnimation
