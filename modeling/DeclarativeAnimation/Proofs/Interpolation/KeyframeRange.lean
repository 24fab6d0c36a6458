import DeclarativeAnimation.Interpolation.Contribution
import DeclarativeAnimation.Proofs.Timing.EasedRange

/-! Between keyframes.  At a progress of the unit interval every blend of keyframes answers; the
    whole numbers in its answer are no larger than those of the keyframes. -/
namespace DeclarativeAnimation
variable {A : Arithmetic}

open Number Arithmetic

namespace Value
variable {N : Nat} {v : Value A}

/-- A whole number is not larger than this, and any other value has a text. -/
def Bounded (N : Nat) : Value A → Prop
  | .int n => n.natAbs ≤ N
  | v => v.isSpellable = true

/-- Whole numbers of at most this size are numbers in every arithmetic. -/
def mostWhole : Nat := 2 ^ 1023

theorem Bounded.mono {M : Nat} (h : v.Bounded N) (le : N ≤ M) : v.Bounded M := by
  cases v with
  | int n => exact Nat.le_trans h le
  | _ => exact h

theorem bounded_of_isPlain (plain : v.IsPlain) : v.Bounded N := by
  rcases plain with rfl | ⟨s, rfl⟩
  · exact isSpellable_null
  · exact isSpellable_text s

theorem bounded_number (N : Nat) (x : Number A) : (number x).Bounded N := isSpellable_number x

theorem Bounded.isSpellable (h : v.Bounded N) (le : N ≤ mostWhole) : v.isSpellable = true := by
  cases v with
  | int n =>
    have small : n.natAbs < 10 ^ mostDigits :=
      (Nat.le_trans h le).trans_lt (by decide +kernel)
    exact decide_eq_true ((Nat.length_toDigits_le_iff (by decide) (by decide)).mpr small)
  | _ => exact h

theorem numberOfInt_of_le {n : Int} (small : n.natAbs ≤ mostWhole) :
    numberOfInt n = .ok (.ofInt n : Number A) := by
  have power : twoPow (1023 : Nat) = (mostWhole : Nat) := by decide +kernel
  have bound : |(n : Rat)| ≤ twoPow (1023 : Nat) := by
    rw [power, ← Int.cast_abs, Int.abs_eq_natAbs]
    exact_mod_cast small
  exact numberOfInt_of_spans (spans_of_abs_le bound le_rfl)

theorem toNumber_of_numeric (numeric : v.isNumeric) (h : v.Bounded N) (le : N ≤ mostWhole) :
    ∃ x, v.toNumber = .ok x := by
  cases v with
  | int n => exact ⟨_, numberOfInt_of_le (Nat.le_trans h le)⟩
  | number x => exact ⟨x, rfl⟩
  | _ => cases numeric

end Value

namespace Keyframe
variable {N : Nat} (le : N ≤ Value.mostWhole)
include le

theorem leadingNumber_answers {v : Value A} (h : v.Bounded N) : ∃ r, leadingNumber v = .ok r := by
  cases v with
  | int n =>
    have read := Value.numberOfInt_of_le (A := A) (Nat.le_trans h le)
    exact ⟨_, by simp only [leadingNumber, Value.toNumber, read]; rfl⟩
  | _ => exact ⟨_, rfl⟩

theorem components_answers {v : Value A} (h : v.Bounded N) : ∃ r, components v = .ok r := by
  cases v with
  | int n =>
    have read := Value.numberOfInt_of_le (A := A) (Nat.le_trans h le)
    exact ⟨_, by simp only [components, Value.toNumber, read]; rfl⟩
  | list _ | object _ => exact ⟨_, Value.spelling_ok h _⟩
  | _ => exact ⟨_, rfl⟩

omit le

def Blends {β : Type} (N : Nat) (P : β → Prop)
    (blend : Value A → Value A → Number A → Except Fault β) : Prop :=
  ∀ first second t, first.Bounded N → second.Bounded N → t.InUnit → Answers (blend first second t) P

theorem switch_bounded {first second : Value A} {t : Number A} (hf : first.Bounded N)
    (hs : second.Bounded N) : (switch first second t).Bounded N := by
  unfold switch
  split
  · exact hf
  · exact hs

theorem blendSwitch_blends : Blends N (Value.Bounded N) (blendSwitch (A := A)) := by
  intro first second t hf hs _
  exact .ok (switch_bounded hf hs)

theorem blendNumber_blends (le : N ≤ Value.mostWhole) :
    Blends N (Value.Bounded N) (blendNumber (A := A)) := by
  intro first second t hf hs _
  obtain ⟨a, read_first⟩ := leadingNumber_answers le hf
  obtain ⟨b, read_second⟩ := leadingNumber_answers le hs
  unfold blendNumber
  rw [read_first, read_second]
  cases a with
  | none => exact .ok (switch_bounded hf hs)
  | some a =>
    cases b with
    | none => exact .ok (switch_bounded hf hs)
    | some b =>
      exact .ok rfl

theorem hexDigit?_lt {c : Char} {n : Nat} (read : Text.hexDigit? c = some n) : n < 16 := by
  simp only [Text.hexDigit?, Bool.and_eq_true, decide_eq_true_eq, Char.le_def,
    UInt32.le_iff_toNat_le] at read
  have code : c.toNat = c.val.toNat := rfl
  split at read
  · rename_i decimal
    have last : c.val.toNat ≤ 57 := decimal.2
    cases read
    omega
  split at read
  · rename_i letter
    have last : c.val.toNat ≤ 102 := letter.2
    cases read
    omega
  split at read
  · rename_i letter
    have last : c.val.toNat ≤ 70 := letter.2
    cases read
    omega
  · cases read

theorem colorOf?_channels {text : List Char} {c : Color} (read : colorOf? text = some c) :
    c.red ≤ 255 ∧ c.green ≤ 255 ∧ c.blue ≤ 255 := by
  simp only [colorOf?] at read
  split at read
  · rename_i r g b digits
    have small : ∀ n ∈ [r, g, b], n < 16 := by
      intro n member
      obtain ⟨c, _, same⟩ := mem_of_mapM digits member
      exact hexDigit?_lt same
    cases read
    simp only [List.mem_cons, forall_eq_or_imp, List.not_mem_nil] at small
    dsimp only
    omega
  · rename_i r r' g g' b b' digits
    have small : ∀ n ∈ [r, r', g, g', b, b'], n < 16 := by
      intro n member
      obtain ⟨c, _, same⟩ := mem_of_mapM digits member
      exact hexDigit?_lt same
    cases read
    simp only [List.mem_cons, forall_eq_or_imp, List.not_mem_nil] at small
    dsimp only
    omega
  · cases read

theorem color?_channels {v : Value A} (spellable : v.isSpellable = true) :
    Answers (color? v) fun found =>
      ∀ c ∈ found, c.red ≤ 255 ∧ c.green ≤ 255 ∧ c.blue ≤ 255 := by
  unfold color?
  split
  · exact .ok fun c member => by cases member
  · rw [Value.spelling_ok spellable]
    exact .ok fun c member => colorOf?_channels member

theorem channel_answers {x y : Nat} (hx : x ≤ 255) (hy : y ≤ 255) {t : Number A}
    (ht : t.InUnit) : ∃ n, roundHalfUp (lerp (.finite x) (.finite y) t : Number A) = .ok n := by
  have bound {z : Nat} (hz : z ≤ 255) : |(z : Rat)| ≤ twoPow (8 : Nat) := by
    have power : twoPow (8 : Nat) = 256 := by decide +kernel
    rw [power, abs_of_nonneg (Nat.cast_nonneg z)]
    exact_mod_cast hz.trans (by decide)
  have start := Within.of_mul_unit (.finite x) (bound hx) ht.one_sub (by omega)
  have stop := Within.of_mul_unit (.finite y) (bound hy) ht (by omega)
  have half : (0.5 : Number A).Within 9 := Within.of_ofRat (by decide +kernel) (by omega)
  obtain ⟨q, is_q, _⟩ := (start.add stop (by omega)).add half (by omega)
  exact ⟨_, Value.floor_of_finite is_q.denotes⟩

theorem blendColor_blends (le : N ≤ Value.mostWhole) :
    Blends N (Value.Bounded N) (blendColor (A := A)) := by
  intro first second t hf hs ht
  refine (color?_channels (hf.isSpellable le)).bind fun read_first firsts =>
    (color?_channels (hs.isSpellable le)).bind fun read_second seconds => ?_
  split
  · rename_i a b
    obtain ⟨ra, ga, ba⟩ := firsts a rfl
    obtain ⟨rb, gb, bb⟩ := seconds b rfl
    obtain ⟨red, reds⟩ := channel_answers ra rb ht
    obtain ⟨green, greens⟩ := channel_answers ga gb ht
    obtain ⟨blue, blues⟩ := channel_answers ba bb ht
    dsimp only
    rw [reds, greens, blues]
    exact .ok rfl
  · exact .ok rfl

theorem share_within {progress : Number A} (inside : progress.InUnit) {n : Nat}
    (few : n ≤ mostEntries) : (progress.clampUnit * .ofInt n).Within 1000 :=
  Within.unit_mul (clampUnit_inUnit inside.isNan) (ofInt_within few) (by decide)

theorem segment_answers {progress : Number A} (inside : progress.InUnit) {n : Nat}
    (few : n ≤ mostEntries) :
    Answers (segment n progress) fun found => found.2.InUnit := by
  unfold segment
  split
  · exact .ok InUnit.zero
  · rename_i several
    obtain ⟨m, count⟩ : ∃ m : Nat, (n : Int) = m + 2 := ⟨n - 2, by omega⟩
    have last : (n : Int) - 1 = (m + 1 : Nat) := by omega
    have within := share_within inside (n := m + 1) (by omega)
    obtain ⟨q, is_q, _⟩ := within
    rw [last]
    dsimp only
    rw [Value.floor_of_finite is_q.denotes]
    refine .ok ?_
    -- The segment is one of the grid, whatever the share was rounded to.
    obtain ⟨i, place, below⟩ : ∃ i : Nat, min (max q.floor 0) ((n : Int) - 2) = i ∧ i ≤ m :=
      ⟨(min (max q.floor 0) ((n : Int) - 2)).toNat, by omega, by omega⟩
    have passed := neg_holds (ofInt_holds (A := A) (n := i) (by omega))
    rw [place]
    exact clampUnit_inUnit (add_isNan is_q.denotes.1 (isNan_of_isFinite passed.denotes.1))

theorem discreteIndex_answers {progress : Number A} (inside : progress.InUnit) {n : Nat}
    (few : n ≤ mostEntries) (keyTimes : Option (List (Number A))) :
    ∃ i, discreteIndex n progress keyTimes = .ok i := by
  obtain ⟨q, is_q, _⟩ := share_within inside few
  unfold discreteIndex
  split
  · exact ⟨0, rfl⟩
  · dsimp only
    rw [Value.floor_of_finite is_q.denotes]
    split
    · split
      · exact ⟨_, rfl⟩
      · exact ⟨_, rfl⟩
    · exact ⟨_, rfl⟩

variable {keyframes : List (Value A)} {progress : Number A}
  (bounded : ∀ v ∈ keyframes, v.Bounded N) (few : keyframes.length ≤ mostEntries)
  (inside : progress.InUnit)
include bounded

theorem getD_bounded (i : Nat) : (keyframes.getD i .null).Bounded N := by
  rw [List.getD_eq_getElem?_getD]
  cases found : keyframes[i]? with
  | none => exact Value.bounded_of_isPlain (Or.inl rfl)
  | some v => exact bounded v (List.mem_of_getElem? found)

include few inside

theorem along_answers {β : Type} {P : β → Prop}
    {blend : Value A → Value A → Number A → Except Fault β} (blends : Blends N P blend) :
    Answers (along keyframes progress blend) fun found => ∀ b ∈ found, P b := by
  unfold along
  split
  · exact .ok fun b member => by cases member
  · rename_i only
    have one := bounded only List.mem_cons_self
    refine (blends only only 0 one one .zero).bind fun b holds => .pure fun c member => ?_
    cases member
    exact holds
  · refine (segment_answers inside few).bind fun found unit => ?_
    refine (blends _ _ _ (getD_bounded bounded _) (getD_bounded bounded _) unit).bind
      fun b holds => .pure fun c member => ?_
    cases member
    exact holds

theorem discreteKeyframe_answers (track : Track A) :
    Answers (track.discreteKeyframe keyframes progress) (Value.Bounded N) := by
  obtain ⟨i, chosen⟩ :=
    discreteIndex_answers inside few (Listing.numbers? track.keyTimes)
  unfold Track.discreteKeyframe
  rw [chosen]
  exact .ok (getD_bounded bounded i.toNat)

theorem pick_answers (track : Track A) {blend : Blend A}
    (blends : Blends N (Value.Bounded N) blend) :
    Answers (track.pick keyframes progress blend) (Value.Bounded N) := by
  unfold Track.pick
  split
  · exact discreteKeyframe_answers bounded few inside track
  · refine (along_answers bounded few inside blends).bind fun found all => .pure ?_
    cases found with
    | none => exact Value.bounded_of_isPlain (Or.inl rfl)
    | some v => exact all v rfl

end Keyframe
end DeclarativeAnimation
