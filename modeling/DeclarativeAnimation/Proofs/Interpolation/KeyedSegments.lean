import DeclarativeAnimation.Interpolation.Contribution
import DeclarativeAnimation.Proofs.Outcome
import DeclarativeAnimation.Proofs.Timing.KeyTimes

/-! Keyframes at key times.  The progress is first laid onto the even grid of the segments, and
    the keyframes are then looked up in that grid.  Together this is interpolation straight
    between the two keyframes whose key times enclose the progress. -/
namespace DeclarativeAnimation

namespace Keyframe

theorem clampUnit_of_grid {segments i : Nat} {s : Rat} (inside : i < segments) (low : 0 ≤ s)
    (high : s ≤ 1) :
    (Number.finite ((i + s) / segments) : Number .exact).clampUnit =
      .finite ((i + s) / segments) := by
  have parted : (0 : Rat) < segments := by exact_mod_cast Nat.zero_lt_of_lt inside
  have last : (i : Rat) + 1 ≤ segments := by exact_mod_cast inside
  have start : (0 : Rat) ≤ i := by exact_mod_cast Nat.zero_le i
  apply Number.clampUnit_finite
  · exact div_nonneg (by linarith) parted.le
  · rw [div_le_one parted]
    linarith

theorem floor_of_grid {i : Nat} {s : Rat} (low : 0 ≤ s) (high : s < 1) :
    ((i : Rat) + s).floor = i := by
  have upper : ((i : Rat) + s).floor < i + 1 := by
    rw [Rat.floor_lt_iff]
    push_cast
    linarith
  have lower : (i : Int) ≤ ((i : Rat) + s).floor := by
    rw [Rat.le_floor_iff]
    push_cast
    linarith
  omega

theorem segment_of_grid {segments i : Nat} {s : Rat} (inside : i < segments) (low : 0 ≤ s)
    (high : s ≤ 1) :
    segment (segments + 1 : Nat) (.finite ((i + s) / segments) : Number .exact) =
        .ok (i, .finite s) ∨
      s = 1 ∧ i + 1 < segments ∧
        segment (segments + 1 : Nat) (.finite ((i + s) / segments) : Number .exact) =
          .ok (i + 1, .finite 0) := by
  have parted : (0 : Rat) < segments := by exact_mod_cast Nat.zero_lt_of_lt inside
  have scaled : (Number.finite ((i + s) / segments) : Number .exact).clampUnit *
      .ofInt ((segments + 1 : Nat) - 1 : Int) = .finite (i + s) := by
    have count : ((segments + 1 : Nat) - 1 : Int) = segments := by omega
    rw [clampUnit_of_grid inside low high, count, Number.mul_exact rfl rfl]
    show Number.finite ((i + s) / segments * segments) = _
    rw [div_mul_cancel₀ _ (ne_of_gt parted)]
  have rest (j : Int) : (Number.finite (i + s) : Number .exact) - .ofInt j =
      .finite (i + s - j) := Number.sub_exact rfl rfl
  have several : ¬ ((segments + 1 : Nat) : Int) < 2 := by omega
  simp only [segment, several, ↓reduceIte, scaled]
  rcases lt_or_eq_of_le high with partly | rfl
  · have floor : Value.floor (Number.finite (i + s) : Number .exact) = .ok (i : Int) :=
      congrArg Except.ok (floor_of_grid low partly)
    have kept : min (max (i : Int) 0) (((segments + 1 : Nat) : Int) - 2) = i := by omega
    left
    simp only [floor, bind, Except.bind, kept, rest, pure, Except.pure]
    simp [Number.clampUnit_finite low high]
  · have floor : Value.floor (Number.finite (i + 1) : Number .exact) = .ok (i + 1 : Int) := by
      have next := floor_of_grid (i := i + 1) (le_refl 0) zero_lt_one
      push_cast at next
      simpa [Value.floor] using next
    by_cases more : i + 1 < segments
    · have kept : min (max (i + 1 : Int) 0) (((segments + 1 : Nat) : Int) - 2) = i + 1 := by omega
      right
      refine ⟨rfl, more, ?_⟩
      simp only [floor, bind, Except.bind, kept, rest, pure, Except.pure]
      simp [Number.clampUnit_finite (le_refl 0) zero_le_one]
    · have kept : min (max (i + 1 : Int) 0) (((segments + 1 : Nat) : Int) - 2) = i := by omega
      left
      simp only [floor, bind, Except.bind, kept, rest, pure, Except.pure]
      simp [Number.clampUnit_finite zero_le_one (le_refl 1)]

theorem along_segment {β : Type} {values : List (Value .exact)} {progress part : Number .exact}
    {j : Nat} (several : 2 ≤ values.length)
    (found : segment values.length progress = .ok (j, part))
    (blend : Value .exact → Value .exact → Number .exact → Except Fault β) :
    along values progress blend =
      (blend (values.getD j .null) (values.getD (j + 1) .null) part).map some := by
  match values, several with
  | first :: second :: rest, _ =>
    simp only [along, found, bind, Except.bind, Int.toNat_natCast]
    cases blend _ _ part <;> rfl

/-- Keyframes at a place in the grid are blended by the part of its segment.  The whole of a segment
    may be found as nothing of the next one, where the blend has to show the same. -/
theorem along_of_grid {β : Type} {P : β → Prop} {values : List (Value .exact)} {segments i : Nat}
    {s : Rat} {blend : Value .exact → Value .exact → Number .exact → Except Fault β}
    (count : values.length = segments + 1) (inside : i < segments) (low : 0 ≤ s) (high : s ≤ 1)
    (here : Answers (blend (values.getD i .null) (values.getD (i + 1) .null) (.finite s)) P)
    (next : s = 1 → i + 1 < segments →
      Answers (blend (values.getD (i + 1) .null) (values.getD (i + 1 + 1) .null) (.finite 0)) P) :
    ∃ shown, along values (.finite ((i + s) / segments)) blend = .ok (some shown) ∧ P shown := by
  rcases segment_of_grid inside low high with found | ⟨whole, more, found⟩
  · obtain ⟨shown, answered, held⟩ := here
    rw [← count] at found
    rw [along_segment (by omega) found, answered]
    exact ⟨shown, rfl, held⟩
  · obtain ⟨shown, answered, held⟩ := next whole more
    have ahead : ((i : Int) + 1) = (i + 1 : Nat) := rfl
    rw [← count, ahead] at found
    rw [along_segment (by omega) found, answered]
    exact ⟨shown, rfl, held⟩

theorem lerp_exact (a b t : Rat) :
    lerp (.finite a) (.finite b) (.finite t) =
      (.finite ((1 - t) * a + t * b) : Number .exact) := by
  have rest : (1 : Number .exact) - .finite t = .finite (1 - t) := Number.sub_exact rfl rfl
  have left : (.finite a : Number .exact) * .finite (1 - t) = .finite (a * (1 - t)) :=
    Number.mul_exact rfl rfl
  have right : (.finite b : Number .exact) * .finite t = .finite (b * t) :=
    Number.mul_exact rfl rfl
  rw [lerp, rest, left, right, Number.add_exact rfl rfl]
  simp only [Number.rat_finite]
  ring_nf

theorem blendNumber_texts {first second : List Char} {a b t : Rat}
    (is_a : leadingNumberOf first = some (.finite a : Number .exact))
    (is_b : leadingNumberOf second = some (.finite b : Number .exact)) :
    blendNumber (.text (String.ofList first)) (.text (String.ofList second))
        (.finite t : Number .exact) =
      .ok (.number (.finite ((1 - t) * a + t * b))) := by
  simp [blendNumber, leadingNumber, is_a, is_b, bind, Except.bind, pure, Except.pure, lerp_exact]

end Keyframe

namespace Track

/-- The curves that bend the segments: those of a track whose mode asks for them. -/
def segmentCurves {A : Arithmetic} (track : Track A) : List (Curve A) :=
  if track.mode.isTheText "spline" then Listing.curves track.keySplines else []

theorem ease_of_keyTimes {track : Track .exact} {times : List Rat}
    (timed : Listing.numbers? track.keyTimes = some (times.map .finite))
    (increasing : times.Pairwise (· < ·))
    (blending : track.mode.isTheText "discrete" = false)
    (unpaced : track.mode.isTheText "paced" = false) {p s : Rat} {i : Nat}
    (here : i < times.length) (inside : i + 1 < times.length)
    (after : times[i] ≤ p) (before : p ≤ times[i + 1])
    (bent : (Curve.bent track.segmentCurves[i]?
      (Pace.fraction times[i] times[i + 1] p)).Denotes s) (low : 0 ≤ s) (high : s ≤ 1) :
    track.ease (.finite p) = .finite ((i + s) / (times.length - 1 : Nat)) := by
  have several : ¬ (times.map (Number.finite (A := .exact))).length < 2 := by
    simp
    omega
  have segments : Pace.alongSegments.segments (times.map (Number.finite (A := .exact))) =
      times.length - 1 := by
    simp [Pace.alongSegments.segments]
  have placed := Pace.go_segment (times.map .finite) times increasing 0 i track.segmentCurves
    inside after before bent (by rw [segments]; omega)
  simp only [segments, Nat.cast_zero, zero_add] at placed
  unfold ease
  simp only [blending, unpaced, Bool.false_eq_true, ↓reduceIte, timed, Option.getD_some, several]
  show (Pace.alongSegments (times.map .finite) track.segmentCurves (.finite p)).clampUnit = _
  unfold Pace.alongSegments
  rw [placed]
  exact Keyframe.clampUnit_of_grid (by omega) low high

section
variable {track : Track .exact} {values : List Rat}
  (numeric : (Listing.entries track.values).map Keyframe.leadingNumberOf =
    values.map fun v => some (.finite v : Number .exact))
include numeric

theorem entries_of_values (some_value : values ≠ []) : Listing.entries track.values ≠ [] := by
  intro none
  rw [none] at numeric
  exact some_value (List.map_eq_nil_iff.mp numeric.symm)

theorem blend_of_entries (base : Value .exact) (endpoints : Value .exact × Value .exact) (t : Rat)
    {j : Nat} (here : j < values.length) (inside : j + 1 < values.length) :
    Keyframe.blendNumber ((track.keyframes base endpoints).getD j .null)
        ((track.keyframes base endpoints).getD (j + 1) .null) (.finite t) =
      .ok (.number (.finite ((1 - t) * values[j] + t * values[j + 1]))) := by
  have listed : (Listing.entries track.values).length = values.length := by
    simpa using congrArg List.length numeric
  have entry (k : Nat) (there : k < values.length) :
      Keyframe.leadingNumberOf ((Listing.entries track.values).get ⟨k, listed ▸ there⟩) =
        some (.finite values[k] : Number .exact) := by
    have same := congrArg (·[k]?) numeric
    simpa [there, listed ▸ there] using same
  have some_value : values ≠ [] := List.ne_nil_of_length_pos (by omega)
  rw [keyframes_of_entries (entries_of_values numeric some_value)]
  simp only [List.getD_eq_getElem?_getD, List.getElem?_map]
  rw [List.getElem?_eq_getElem (by omega), List.getElem?_eq_getElem (by omega)]
  exact Keyframe.blendNumber_texts (entry j here) (entry (j + 1) inside)

theorem along_entries (base : Value .exact) (endpoints : Value .exact × Value .exact) {i : Nat}
    {s : Rat} (inside : i < values.length - 1) (low : 0 ≤ s) (high : s ≤ 1) :
    Keyframe.along (track.keyframes base endpoints) (.finite ((i + s) / (values.length - 1 : Nat)))
        Keyframe.blendNumber =
      .ok (some (.number (.finite ((1 - s) * values.getD i 0 + s * values.getD (i + 1) 0)))) := by
  have some_value : values ≠ [] := List.ne_nil_of_length_pos (by omega)
  have count : (track.keyframes base endpoints).length = values.length - 1 + 1 := by
    have listed := congrArg List.length numeric
    rw [keyframes_of_entries (entries_of_values numeric some_value)]
    simp only [List.length_map] at listed ⊢
    omega
  have value (j : Nat) (there : j < values.length) : values.getD j 0 = values[j] :=
    (List.getElem_eq_getD 0).symm
  obtain ⟨shown, found, rfl⟩ : ∃ shown, Keyframe.along (track.keyframes base endpoints)
      (.finite ((i + s) / (values.length - 1 : Nat))) Keyframe.blendNumber = .ok (some shown) ∧
        shown = .number (.finite ((1 - s) * values.getD i 0 + s * values.getD (i + 1) 0)) := by
    apply Keyframe.along_of_grid count inside low high
    · rw [value i (by omega), value (i + 1) (by omega),
        blend_of_entries numeric base endpoints s (by omega) (by omega)]
      exact .ok rfl
    · rintro rfl more
      rw [blend_of_entries numeric base endpoints 0 (by omega) (by omega),
        value (i + 1) (by omega)]
      exact .ok (by simp)
  exact found

end

/-- Interpolation along key times: between the two keyframes whose key times enclose a progress,
    at the fraction that lies before it, bent by the curve of the segment. -/
theorem blend_between_key_times {track : Track .exact} {values times : List Rat}
    (numeric : (Listing.entries track.values).map Keyframe.leadingNumberOf =
      values.map fun v => some (.finite v : Number .exact))
    (timed : Listing.numbers? track.keyTimes = some (times.map .finite))
    (as_many : times.length = values.length) (increasing : times.Pairwise (· < ·))
    (blending : track.mode.isTheText "discrete" = false)
    (unpaced : track.mode.isTheText "paced" = false)
    (tame : ∀ curve ∈ track.segmentCurves, curve.Tame)
    (base : Value .exact) (endpoints : Value .exact × Value .exact) {p : Rat} {i : Nat}
    (inside : i + 1 < times.length) (after : times[i] ≤ p) (before : p ≤ times[i + 1]) :
    ∃ s : Rat, (Curve.bent track.segmentCurves[i]?
        (Pace.fraction times[i] times[i + 1] p)).Denotes s ∧
      Keyframe.along (track.keyframes base endpoints) (track.ease (.finite p))
          Keyframe.blendNumber =
        .ok (some (.number (.finite ((1 - s) * values[i] + s * values[i + 1])))) := by
  have wide : times[i] < times[i + 1] :=
    List.pairwise_iff_getElem.mp increasing i (i + 1) _ _ (Nat.lt_succ_self i)
  have bounded : (Curve.bent track.segmentCurves[i]?
      (Pace.fraction times[i] times[i + 1] p)).InUnit := by
    refine Curve.bent_inUnit ?_ (Pace.fraction_inUnit wide after before)
    intro curve held
    exact tame curve (List.mem_of_getElem? held)
  obtain ⟨s, bent, low, high⟩ := bounded
  refine ⟨s, bent, ?_⟩
  rw [ease_of_keyTimes timed increasing blending unpaced (by omega) inside after before bent low
    high]
  have some_value : values ≠ [] := List.ne_nil_of_length_pos (by omega)
  have count : (track.keyframes base endpoints).length = times.length - 1 + 1 := by
    have listed := congrArg List.length numeric
    rw [keyframes_of_entries (entries_of_values numeric some_value)]
    simp only [List.length_map] at listed ⊢
    omega
  have cell : i < times.length - 1 := by omega
  rcases Keyframe.segment_of_grid cell low high with found | ⟨rfl, more, found⟩
  · rw [← count] at found
    rw [Keyframe.along_segment (by omega) found, blend_of_entries numeric base endpoints s
      (by omega)]
    rfl
  · have next : ((i : Int) + 1) = (i + 1 : Nat) := rfl
    rw [← count, next] at found
    rw [Keyframe.along_segment (by omega) found,
      blend_of_entries numeric base endpoints 0 (by omega) (by omega)]
    simp [Except.map]

def unevenTrack : Track .exact :=
  { values := .text "0; 10; 40", mode := .text "spline", keyTimes := .text "0; 0.25; 1"
    keySplines := .text "0.25 0.1 0.25 1" }

theorem uneven_track_halfway :
    Keyframe.along (unevenTrack.keyframes .null (.null, .null)) (unevenTrack.ease (.finite (1 / 2)))
      Keyframe.blendNumber = .ok (some (.number (.finite 20))) := by
  have numeric : (Listing.entries unevenTrack.values).map Keyframe.leadingNumberOf =
      [0, 10, 40].map fun v => some (.finite v : Number .exact) := by decide +kernel
  have timed : Listing.numbers? unevenTrack.keyTimes =
      some ([0, 1 / 4, 1].map (.finite (A := .exact))) := by decide +kernel
  have tame : ∀ curve ∈ unevenTrack.segmentCurves, curve.Tame := by decide +kernel
  obtain ⟨s, bent, halfway⟩ := blend_between_key_times numeric timed rfl (by decide +kernel) rfl rfl
    tame .null (.null, .null) (p := 1 / 2) (i := 1) (by decide) (by decide +kernel)
    (by decide +kernel)
  have third : s = 1 / 3 := by
    rw [← bent.2]
    decide +kernel
  rw [halfway, third]
  norm_num

end Track
end DeclarativeAnimation
