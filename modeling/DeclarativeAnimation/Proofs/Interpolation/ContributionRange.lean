import DeclarativeAnimation.Proofs.Interpolation.KeyframeRange
import DeclarativeAnimation.State.Evaluation

/-! What an animation contributes at a progress of the unit interval.  There is an answer
    whatever its texts are, and the whole numbers in it come from the animation or from its
    element. -/
namespace DeclarativeAnimation
variable {A : Arithmetic} {N : Nat}

open Number Arithmetic

def Contribution.Bounded (N : Nat) : Contribution A → Prop
  | .style _ value | .attribute _ value => value.Bounded N
  | _ => True

theorem Contribution.Bounded.mono {M : Nat} {c : Contribution A} (h : c.Bounded N)
    (le : N ≤ M) : c.Bounded M := by
  cases c <;> first | exact Value.Bounded.mono h le | trivial

structure Writes (N most : Nat) (found : List (Contribution A)) : Prop where
  few : found.length ≤ most
  bounded : ∀ c ∈ found, c.Bounded N

theorem writes_nil {most : Nat} : Writes N most ([] : List (Contribution A)) :=
  ⟨Nat.zero_le most, fun c member => by cases member⟩

theorem writes_cons {most : Nat} {c : Contribution A} {rest : List (Contribution A)}
    (hc : c.Bounded N) (hr : Writes N most rest) : Writes N (most + 1) (c :: rest) := by
  refine ⟨Nat.succ_le_succ hr.few, fun d member => ?_⟩
  rcases List.mem_cons.mp member with rfl | later
  · exact hc
  · exact hr.bounded d later

theorem writes_one {most : Nat} {c : Contribution A} (h : c.Bounded N) :
    Writes N (most + 1) [c] := writes_cons h writes_nil

theorem writes_two {most : Nat} {c d : Contribution A} (hc : c.Bounded N) (hd : d.Bounded N) :
    Writes N (most + 2) [c, d] := writes_cons hc (writes_one hd)

theorem Writes.append {m k : Nat} {first second : List (Contribution A)}
    (hf : Writes N m first) (hs : Writes N k second) : Writes N (m + k) (first ++ second) := by
  constructor
  · rw [List.length_append]
    exact Nat.add_le_add hf.few hs.few
  · intro c member
    rcases List.mem_append.mp member with early | late
    · exact hf.bounded c early
    · exact hs.bounded c late

theorem Writes.mono {m k : Nat} {found : List (Contribution A)} (h : Writes N m found)
    (le : m ≤ k) : Writes N k found := ⟨h.few.trans le, h.bounded⟩

/-- The most contributions that an animation makes at once: two shifts, or a rotation with its
    center. -/
def mostContributions : Nat := 3

theorem key_of_isPlain {v : Value A} (plain : v.IsPlain) : v.key = .ok v := by
  rcases plain with rfl | ⟨s, rfl⟩ <;> rfl

theorem Slot.ofName_answers {name : Value A} (plain : name.IsPlain) :
    ∃ slot, Slot.ofName name = .ok slot := by
  unfold Slot.ofName
  rw [key_of_isPlain plain]
  rcases plain with rfl | ⟨s, rfl⟩
  · exact ⟨_, rfl⟩
  · exact ⟨_, rfl⟩

theorem Slot.endpoints_bounded (slot : Slot) :
    (slot.endpoints (A := A)).1.Bounded N ∧ (slot.endpoints (A := A)).2.Bounded N := by
  have text (s : String) : (Value.text s : Value A).Bounded N := Value.isSpellable_text s
  have number (x : Number A) := Value.bounded_number N x
  cases slot with
  | styleNumber property =>
    cases property <;> exact ⟨number _, number _⟩
  | styleColor property => exact ⟨text _, text _⟩
  | color => exact ⟨text _, text _⟩
  | path => exact ⟨number _, number _⟩
  | plain => exact ⟨number _, number _⟩

namespace Track

structure Ends (N : Nat) (track : Track A) : Prop where
  start : track.start.Bounded N
  goal : track.goal.Bounded N

variable {track : Track A} {base name : Value A} {progress : Number A}
  (ends : track.Ends N) (moderate : track.Moderate)

include ends in
theorem keyframes_bounded {endpoints : Value A × Value A} (hb : base.Bounded N)
    (he : endpoints.1.Bounded N ∧ endpoints.2.Bounded N) :
    ∀ v ∈ track.keyframes base endpoints, v.Bounded N := by
  intro v member
  unfold keyframes at member
  split at member
  · rcases List.mem_cons.mp member with rfl | last
    · split
      · exact ends.start
      · split
        · exact hb
        · exact he.1
    · cases List.mem_singleton.mp last
      split
      · exact he.2
      · exact ends.goal
  · obtain ⟨entry, _, rfl⟩ := List.mem_map.mp member
    exact Value.bounded_of_isPlain (Or.inr ⟨_, rfl⟩)

include moderate in
theorem keyframes_few (base : Value A) (endpoints : Value A × Value A) :
    (track.keyframes base endpoints).length ≤ mostEntries := by
  have several : 2 ≤ mostEntries := by decide +kernel
  unfold keyframes
  split
  · exact several
  · rw [List.length_map]
    exact moderate.values

variable (le : N ≤ Value.mostWhole) (inside : progress.InUnit)
include ends moderate le inside

theorem attributeContributions_answers (plain : name.IsPlain) (hb : base.Bounded N) :
    Answers (track.attributeContributions name base progress) (Writes N mostContributions) := by
  obtain ⟨slot, named⟩ := Slot.ofName_answers plain
  have bounded := keyframes_bounded ends hb (slot.endpoints_bounded (A := A))
  have few := keyframes_few moderate base (slot.endpoints (A := A))
  unfold attributeContributions
  split
  · exact .ok writes_nil
  rw [named]
  show Answers (track.pickFields.spelling (track.keyframes base slot.endpoints) >>= _) _
  rw [moderate.texts.pick]
  cases slot with
  | path =>
    have spellable : (Value.list (track.keyframes base (Slot.path.endpoints (A := A)))).isSpellable
        = true := Value.isSpellable_list.mpr fun v member => (bounded v member).isSpellable le
    have texts : ∀ v ∈ (track.keyframes base (Slot.path.endpoints (A := A))).map
        fun k => (.text k.asText : Value A), v.Bounded N := by
      intro v member
      obtain ⟨k, _, rfl⟩ := List.mem_map.mp member
      exact Value.bounded_of_isPlain (Or.inr ⟨_, rfl⟩)
    show Answers ((Value.list (track.keyframes base Slot.path.endpoints)).spelling _ >>= _) _
    rw [Value.spelling_ok spellable]
    refine (Keyframe.pick_answers texts (by rwa [List.length_map]) inside track
      Keyframe.blendSwitch_blends).bind fun v _ => ?_
    split
    · exact .ok (writes_one trivial)
    · exact .ok writes_nil
  | styleColor property =>
    refine (Keyframe.pick_answers bounded few inside track (Keyframe.blendColor_blends le)).bind
      fun v hv => .ok (writes_one hv)
  | color =>
    refine (Keyframe.pick_answers bounded few inside track (Keyframe.blendColor_blends le)).bind
      fun v hv => .ok (writes_one hv)
  | plain =>
    refine (Keyframe.pick_answers bounded few inside track (Keyframe.blendNumber_blends le)).bind
      fun v hv => .ok (writes_one hv)
  | styleNumber property =>
    refine (Keyframe.pick_answers bounded few inside track (Keyframe.blendNumber_blends le)).bind
      fun v hv => ?_
    obtain ⟨read, reads⟩ := Keyframe.leadingNumber_answers le hv
    rw [reads]
    cases read with
    | none => exact .ok (writes_one hv)
    | some x => exact .ok (writes_one (Value.bounded_number N x))

end Track

namespace TransformKind

theorem ofValue?_answers {kind : Value A} (plain : kind.IsPlain) :
    ∃ found, ofValue? kind = .ok found := by
  unfold ofValue?
  rw [key_of_isPlain plain]
  rcases plain with rfl | ⟨s, rfl⟩
  · exact ⟨_, rfl⟩
  · exact ⟨_, rfl⟩

theorem blend_blends (kind : TransformKind) (le : N ≤ Value.mostWhole) :
    Keyframe.Blends N (Writes N 2) (kind.blend (A := A)) := by
  intro first second t hf hs _
  obtain ⟨a, read_first⟩ := Keyframe.components_answers le hf
  obtain ⟨b, read_second⟩ := Keyframe.components_answers le hs
  unfold blend
  rw [read_first, read_second]
  cases kind with
  | translate => exact .ok (writes_two trivial trivial)
  | scale => exact .ok (writes_two trivial trivial)
  | rotate => exact .ok (writes_one trivial)
  | skewX => exact .ok (writes_one trivial)
  | skewY => exact .ok (writes_one trivial)

end TransformKind

theorem rotationCenter_answers {keyframe : Value A} (h : keyframe.Bounded N)
    (le : N ≤ Value.mostWhole) : Answers (rotationCenter keyframe) (Writes N 1) := by
  obtain ⟨found, read⟩ := Keyframe.components_answers le h
  unfold rotationCenter
  rw [read]
  rcases found with _ | ⟨angle, _ | ⟨x, _ | ⟨y, rest⟩⟩⟩
  · exact .ok writes_nil
  · exact .ok writes_nil
  · exact .ok writes_nil
  · exact .ok (writes_one trivial)

namespace Track
variable {track : Track A} {kind name : Value A} {progress : Number A}
  (ends : track.Ends N) (le : N ≤ Value.mostWhole)
include ends le

theorem transformContributions_answers (moderate : track.Moderate) (inside : progress.InUnit)
    (plain : kind.IsPlain) :
    Answers (track.transformContributions kind progress) (Writes N mostContributions) := by
  obtain ⟨found, named⟩ := TransformKind.ofValue?_answers plain
  have none : (Value.null : Value A).Bounded N := Value.isSpellable_null
  have bounded : ∀ v ∈ track.keyframes .null (.null, .null), v.Bounded N :=
    keyframes_bounded ends none ⟨none, none⟩
  have few := keyframes_few moderate .null (.null, .null)
  unfold transformContributions
  rw [named]
  cases found with
  | none => exact .ok writes_nil
  | some kind =>
    have blends := TransformKind.blend_blends (A := A) kind le
    generalize track.keyframes .null (.null, .null) = keyframes at bounded few
    have first : (keyframes.headD .null).Bounded N := by
      cases keyframes with
      | nil => exact none
      | cons v rest => exact bounded v List.mem_cons_self
    have centered : ∀ moved : List (Contribution A), Writes N 2 moved →
        Answers (if kind = .rotate then do
          return moved ++ (← rotationCenter (keyframes.headD .null))
        else return moved) (Writes N mostContributions) := by
      intro moved written
      split
      · refine (rotationCenter_answers first le).bind fun center fixed => .pure ?_
        exact written.append fixed
      · exact .pure (written.mono (by decide))
    show Answers (track.pickFields.spelling keyframes >>= _) _
    rw [moderate.texts.pick]
    show Answers (if track.isDiscrete then _ else _) _
    split
    · refine (Keyframe.discreteKeyframe_answers bounded few inside track).bind fun chosen hc => ?_
      exact (blends chosen chosen 0 hc hc .zero).bind centered
    · refine (Keyframe.along_answers bounded few inside blends).bind fun found all => ?_
      apply centered
      cases found with
      | none => exact writes_nil
      | some written => exact all written rfl

theorem setContributions_answers (plain : name.IsPlain) :
    Answers (track.setContributions name) (Writes N mostContributions) := by
  obtain ⟨slot, named⟩ := Slot.ofName_answers plain
  unfold setContributions
  split
  · exact .ok writes_nil
  rw [named]
  cases slot with
  | styleNumber property =>
    obtain ⟨read, reads⟩ := Keyframe.leadingNumber_answers le ends.goal
    show Answers (Keyframe.leadingNumber track.goal >>= _) _
    rw [reads]
    cases read with
    | none => exact .ok writes_nil
    | some x => exact .ok (writes_one (Value.bounded_number N x))
  | styleColor property => exact .ok (writes_one ends.goal)
  | path =>
    show Answers (track.goal.written >>= _) _
    rw [Value.written_ok (ends.goal.isSpellable le)]
    exact .ok (writes_one trivial)
  | color => exact .ok (writes_one ends.goal)
  | plain => exact .ok (writes_one ends.goal)

end Track

end DeclarativeAnimation
