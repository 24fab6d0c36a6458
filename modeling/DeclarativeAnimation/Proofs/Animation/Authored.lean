import DeclarativeAnimation.Interpolation.Contribution
import DeclarativeAnimation.Timing.Easing

/-! Animations as they are written: whatever text stands in a field that holds text, whole numbers
    that are numbers too, and values that have a text. -/
namespace DeclarativeAnimation
variable {A : Arithmetic}

namespace Value

def IsPlain (v : Value A) : Prop := v = .null ∨ ∃ s, v = .text s

theorem IsPlain.key_eq {v : Value A} (plain : v.IsPlain) : v.key = .ok v := by
  rcases plain with rfl | ⟨s, rfl⟩ <;> rfl

theorem IsPlain.beq_iff {v w : Value A} (first : v.IsPlain) (second : w.IsPlain) :
    (v == w) = true ↔ v = w := by
  rcases first with rfl | ⟨s, rfl⟩ <;> rcases second with rfl | ⟨t, rfl⟩
  · exact ⟨fun _ => rfl, fun _ => rfl⟩
  · exact ⟨fun same => (by cases same), fun same => by cases same⟩
  · exact ⟨fun same => (by cases same), fun same => by cases same⟩
  · show decide (s = t) = true ↔ _
    rw [decide_eq_true_iff, Value.text.injEq]

/-- A whole number is among the numbers; other values are not restricted. -/
def Fits (v : Value A) : Prop :=
  ∀ n, v = .int n → (Number.ofInt n : Number A).isFinite

theorem IsPlain.fits {v : Value A} (plain : v.IsPlain) : v.Fits := by
  intro n same
  rcases plain with rfl | ⟨s, rfl⟩
  · cases same
  · cases same

theorem Fits.orElse {v : Value A} (fits : v.Fits) (default : String) :
    (v.orElse (.text default)).Fits := by
  unfold Value.orElse
  split
  · exact fits
  · intro n same
    cases same

section Spelling
variable {α : Type} {v : Value A} {result answer : α} {fault : Fault}

@[simp] theorem isSpellable_null : (null : Value A).isSpellable = true := rfl

@[simp] theorem isSpellable_number (x : Number A) : (number x).isSpellable = true := rfl

@[simp] theorem isSpellable_text (s : String) : (text s : Value A).isSpellable = true := rfl

theorem isSpellable_list {items : List (Value A)} :
    (list items).isSpellable = true ↔ ∀ v ∈ items, v.isSpellable = true := by
  show areSpellable items = true ↔ _
  induction items with
  | nil => simp [areSpellable]
  | cons v rest ih => simp [areSpellable, ih]

theorem isSpellable_object {members : List (String × Value A)} :
    (object members).isSpellable = true ↔ ∀ m ∈ members, m.2.isSpellable = true := by
  show membersSpellable members = true ↔ _
  induction members with
  | nil => simp [membersSpellable]
  | cons m rest ih => simp [membersSpellable, ih]

theorem IsPlain.isSpellable (plain : v.IsPlain) : v.isSpellable = true := by
  rcases plain with rfl | ⟨s, rfl⟩ <;> rfl

theorem spelling_ok (spellable : v.isSpellable = true) (result : α) :
    v.spelling result = .ok result := if_pos spellable

theorem spelling_eq_ok :
    v.spelling result = .ok answer ↔ v.isSpellable = true ∧ result = answer := by
  unfold spelling
  cases v.isSpellable <;> simp

theorem spelling_fault (failed : v.spelling result = .error fault) :
    v.isSpellable = false ∧ fault = .unspellable := by
  unfold spelling at failed
  cases spellable : v.isSpellable <;> simp_all

theorem written_ok (spellable : v.isSpellable = true) : v.written = .ok v.asText :=
  spelling_ok spellable v.asText

@[simp] theorem written_text (s : String) : (text s : Value A).written = .ok s := rfl

theorem refusal_ofValue (v : Value A) (bad : fault.isOfValue = true) :
    (v.refusal fault).isOfValue = true := by
  unfold refusal
  split
  · exact bad
  · rfl

end Spelling

end Value

structure Schedule.IsPlain (s : Schedule A) : Prop where
  begin : s.begin.IsPlain
  dur : s.dur.IsPlain
  finish : s.finish.IsPlain
  repeatDur : s.repeatDur.IsPlain
  fill : s.fill.IsPlain

structure Schedule.Fits (s : Schedule A) : Prop where
  begin : s.begin.Fits
  dur : s.dur.Fits
  finish : s.finish.Fits
  repeatDur : s.repeatDur.Fits

theorem Schedule.IsPlain.fits {s : Schedule A} (plain : s.IsPlain) : s.Fits :=
  ⟨plain.begin.fits, plain.dur.fits, plain.finish.fits, plain.repeatDur.fits⟩

structure Track.IsPlain (track : Track A) : Prop where
  mode : track.mode.IsPlain
  keyTimes : track.keyTimes.IsPlain
  keySplines : track.keySplines.IsPlain

namespace Track
variable {track : Track A}

/-- All that is taken apart has a text. -/
structure HasTexts (track : Track A) : Prop where
  values : track.values.isSpellable = true
  keyTimes : track.keyTimes.isSpellable = true
  keySplines : track.keySplines.isSpellable = true

theorem HasTexts.eased (texts : track.HasTexts) (progress : Number A) :
    track.eased progress = .ok (track.ease progress) := by
  refine Value.spelling_ok ?_ _
  unfold paceFields
  split
  · rfl
  split
  · exact texts.values
  rw [Value.isSpellable_list]
  split
  · simp [texts.keySplines, texts.keyTimes]
  · simp [texts.keyTimes]

theorem HasTexts.pick {α : Type} (texts : track.HasTexts) (result : α) :
    track.pickFields.spelling result = .ok result := by
  refine Value.spelling_ok ?_ result
  rw [pickFields, Value.isSpellable_list]
  split
  · simp [texts.values, texts.keyTimes]
  · simp [texts.values]

end Track

end DeclarativeAnimation
