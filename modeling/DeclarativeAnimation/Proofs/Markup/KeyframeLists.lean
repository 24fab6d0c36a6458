import DeclarativeAnimation.Animation.Basic
import DeclarativeAnimation.Proofs.Animation.Authored
import DeclarativeAnimation.Proofs.Markup.MandatoryParts
import DeclarativeAnimation.Proofs.Markup.ObjectBatches
import DeclarativeAnimation.Proofs.Outcome

/-! The lists of an animation against each other.  The check asks for as many key times as there
    are values, and for one timing curve less, wherever both lists are written; it does not
    ask for curves that are left out, nor for any where endpoints take the place of values. -/
namespace DeclarativeAnimation
variable {A : Arithmetic}

open Markup

/-- The lists that are written next to a list of values fit its length. -/
structure Track.ListsMatch (track : Track A) : Prop where
  times : track.values.isPresent = true → track.keyTimes.isPresent = true →
    (Listing.entries track.keyTimes).length = (Listing.entries track.values).length
  splines : track.values.isPresent = true → track.mode.isTheText "spline" = true →
    track.keySplines.isPresent = true →
    (Listing.entries track.keySplines).length + 1 = (Listing.entries track.values).length

def Track.keyframeCount (track : Track A) : Nat :=
  if track.values.isPresent then (Listing.entries track.values).length else 2

def Track.IsCurved (track : Track A) : Prop :=
  track.mode.isTheText "spline" = true → track.keySplines.isPresent = true ∧
    (Listing.entries track.keySplines).length + 1 = track.keyframeCount

namespace Markup

theorem entryCount_text (s : String) :
    entryCount (.text s : Value A) = .ok (Listing.entries (.text s : Value A)).length := by
  have trimmed (pieces : List (List Char)) :
      ((pieces.map Text.trim).filter (!·.isEmpty)).length =
        (pieces.filter fun e => !(Text.trim e).isEmpty).length := by
    rw [List.filter_map, List.length_map]
    rfl
  show Except.ok _ = Except.ok (Listing.entriesOf s.toList).length
  rw [Listing.entriesOf, trimmed]

theorem entryCount_plain {v : Value A} (plain : v.IsPlain) (present : v.isPresent = true) :
    entryCount v = .ok (Listing.entries v).length := by
  rcases plain with rfl | ⟨s, rfl⟩
  · cases present
  · exact entryCount_text s

theorem present_of_entries {v : Value A} (plain : v.IsPlain)
    (some_entry : 0 < (Listing.entries v).length) : v.isPresent = true := by
  rcases plain with rfl | ⟨s, rfl⟩
  · cases some_entry
  · by_cases empty : s = ""
    · subst empty
      cases some_entry
    · simpa [Value.isPresent] using empty

theorem keyframeComplaints_match {track : Track A} (plain : track.IsPlain)
    (values : track.values.IsPlain) :
    Answers (keyframeComplaints track) fun found => found = [] ↔ track.ListsMatch := by
  unfold keyframeComplaints
  cases given : track.values.isPresent with
  | false =>
    refine .ok (iff_of_true rfl ⟨fun present => ?_, fun present => ?_⟩)
    · rw [given] at present
      cases present
    · rw [given] at present
      cases present
  | true =>
    rw [entryCount_plain values given]
    refine asked_entries (entryCount_plain plain.keyTimes) fun times timed => ?_
    refine asked_entries (fun asked => entryCount_plain plain.keySplines
      (Bool.and_eq_true_iff.mp asked).2) fun splines curved => .ok ?_
    rw [List.append_eq_nil_iff, timed, curved, Bool.and_eq_true_iff]
    constructor
    · rintro ⟨timed, curved⟩
      exact ⟨fun _ written => by exact_mod_cast timed written,
        fun _ mode written => by have := curved ⟨mode, written⟩; omega⟩
    · rintro ⟨timed, curved⟩
      exact ⟨fun written => by exact_mod_cast timed given written,
        fun ⟨mode, written⟩ => by have := curved given mode written; omega⟩

/-- The check finds what it looks for first, a type and a target. -/
def Source.IsHeaded : Source A → Prop
  | .read animation => animation.target.isPresent = true
  | .wire data => (data.member "type").isPresent = true ∧
      (data.member "targetElementId").isPresent = true

theorem complaints_headed {source : Source A} {a : Animation A} (read : source.animation = .ok a)
    (plain : a.track.IsPlain) (values : a.track.values.IsPlain) :
    Answers source.complaints fun found =>
      found = [] ↔ source.IsHeaded ∧ partComplaints a = [] ∧ a.track.ListsMatch := by
  have animation : Answers (animationComplaints a) fun found =>
      found = [] ↔ partComplaints a = [] ∧ a.track.ListsMatch := by
    refine (keyframeComplaints_match plain values).bind fun found fits => .ok ?_
    rw [List.append_eq_nil_iff, fits]
  cases source with
  | read b =>
    obtain rfl := Except.ok.inj read
    refine animation.bind fun found fits => .ok ?_
    rw [List.append_eq_nil_iff, fits]
    exact and_congr_left' (by simp [Source.IsHeaded])
  | wire data =>
    have parsed : Animation.ofWire "" data = .ok a := by
      unfold Source.animation at read
      dsimp only at read
      split at read
      · cases read
        assumption
      · cases read
    have typed : data.get "type" .null = .ok (data.member "type") := by
      obtain ⟨members, rfl⟩ := object_of_read parsed
      rfl
    unfold Source.complaints
    dsimp only
    rw [typed, parsed]
    dsimp only [bind, Except.bind]
    cases kind : (data.member "type").isPresent with
    | false => exact .ok (iff_of_false (List.cons_ne_nil _ _) fun ⟨⟨present, _⟩, _⟩ =>
        absurd (kind.symm.trans present) Bool.false_ne_true)
    | true =>
      refine animation.bind fun found fits => .ok ?_
      rw [List.append_eq_nil_iff, fits]
      exact and_congr_left' (by simp [Source.IsHeaded, kind])

/-- The check of a source whose lists are texts, where they are written.  It comes to an end, and
    finds nothing wrong just when no part is missing and the lists match; so there are as many
    key times as values, unless there are none of either, and curves that are written next to
    values lead from every value to the next. -/
theorem accepted_lists_match {source : Source A} {a : Animation A}
    (read : source.animation = .ok a) (plain : a.track.IsPlain) (values : a.track.values.IsPlain) :
    Answers source.complaints fun found =>
      (found = [] ↔ source.IsHeaded ∧ partComplaints a = [] ∧ a.track.ListsMatch) ∧
      (found = [] →
        (0 < (Listing.entries a.track.values).length →
          0 < (Listing.entries a.track.keyTimes).length →
          (Listing.entries a.track.keyTimes).length = (Listing.entries a.track.values).length) ∧
        (a.track.mode.isTheText "spline" = true → a.track.values.isPresent = true →
          a.track.keySplines.isPresent = true →
          (Listing.entries a.track.keySplines).length + 1 =
            (Listing.entries a.track.values).length)) := by
  refine (complaints_headed read plain values).imp fun found valid => ⟨valid, fun none => ?_⟩
  obtain ⟨-, -, lists⟩ := valid.mp none
  constructor
  · intro valued timed
    exact lists.times (present_of_entries values valued) (present_of_entries plain.keyTimes timed)
  · exact fun mode given written => lists.splines given mode written

section Instance

def flicker (values keyTimes keySplines : Value .binary64) : Animation .binary64 :=
  { id := .text "flicker", target := .text "lamp", subject := .attribute (.text "opacity")
    track := { start := .text "0", goal := .text "1", values := values, mode := .text "spline"
               keyTimes := keyTimes, keySplines := keySplines } }

theorem flicker_lists_match :
    Answers (Source.read (flicker (.text "0; 1; 0.5") (.text "0;0.5;1")
        (.text "0 0 1 1; 0.5 0 0.5 1"))).complaints fun found =>
      found = [] ∧ (Listing.entries (.text "0;0.5;1" : Value .binary64)).length =
        (Listing.entries (.text "0; 1; 0.5" : Value .binary64)).length ∧
      (Listing.entries (.text "0 0 1 1; 0.5 0 0.5 1" : Value .binary64)).length + 1 =
        (Listing.entries (.text "0; 1; 0.5" : Value .binary64)).length := by
  have valid : (Source.read (flicker (.text "0; 1; 0.5") (.text "0;0.5;1")
      (.text "0 0 1 1; 0.5 0 0.5 1"))).complaints = .ok [] := by decide +kernel
  have read : (Source.read (flicker (.text "0; 1; 0.5") (.text "0;0.5;1")
      (.text "0 0 1 1; 0.5 0 0.5 1"))).animation = .ok _ := rfl
  obtain ⟨found, answered, -, lists⟩ := accepted_lists_match read
    ⟨.inr ⟨_, rfl⟩, .inr ⟨_, rfl⟩, .inr ⟨_, rfl⟩⟩ (.inr ⟨_, rfl⟩)
  obtain rfl := Except.ok.inj (valid.symm.trans answered)
  obtain ⟨times, splines⟩ := lists rfl
  exact ⟨[], answered, rfl, times (by decide) (by decide), splines rfl rfl rfl⟩

/-- Curves that are left out are not asked for, and between endpoints any number will do. -/
theorem curves_left_unchecked :
    (Source.read (flicker (.text "0;1") .null .null)).complaints = .ok [] ∧
      ¬ (flicker (.text "0;1") .null .null).track.IsCurved ∧
      (Source.read (flicker .null .null (.text "0 0 1 1; 0 0 1 1"))).complaints = .ok [] ∧
      ¬ (flicker .null .null (.text "0 0 1 1; 0 0 1 1")).track.IsCurved := by
  refine ⟨by decide +kernel, fun curved => ?_, by decide +kernel, fun curved => ?_⟩
  · exact absurd (curved rfl).1 (by decide)
  · exact absurd (curved rfl).2 (by decide)

end Instance

end Markup
end DeclarativeAnimation
