import DeclarativeAnimation.Proofs.Animation.Authored
import DeclarativeAnimation.Proofs.Number.Conversion
import DeclarativeAnimation.Proofs.Outcome
import DeclarativeAnimation.Proofs.Timing.CurveRange

/-! The eased progress is a part of the keyframes again.  Every way of bending it ends in a
    number, which is then moved into the unit interval; only an infinity below zero among the
    key times, and controls of a curve that are no numbers or too large for its polynomial, can
    lead to something that is none. -/
namespace DeclarativeAnimation
variable {A : Arithmetic}

open Number Arithmetic

def mostEntries : Nat := 2 ^ 1000

theorem ofInt_bound {n : Nat} (small : n ≤ mostEntries) : |(n : Rat)| ≤ twoPow (1000 : Nat) := by
  have power : twoPow (1000 : Nat) = (mostEntries : Nat) := by decide +kernel
  rw [power, abs_of_nonneg (Nat.cast_nonneg n)]
  exact_mod_cast small

theorem ofInt_holds {n : Nat} (small : n ≤ mostEntries) :
    (Number.ofInt n : Number A).Holds (A.round n) :=
  nearest_holds (spans_of_abs_le (ofInt_bound small) (by decide)) false

theorem ofInt_within {n : Nat} (small : n ≤ mostEntries) :
    (Number.ofInt n : Number A).Within 1000 := Within.of_ofRat (ofInt_bound small) (by decide)

theorem ofInt_pos {n : Nat} (small : n ≤ mostEntries) (pos : 0 < n) :
    (0 : Number A) < .ofInt n := by
  have least : A.round 1 ≤ A.round n := round_mono (by exact_mod_cast pos)
  rw [has_one.fixed] at least
  rw [Denotes.zero.lt_iff (ofInt_holds small).denotes]
  linarith

namespace Curve

/-- The ordinates of the controls are not so large that their multiples are infinite. -/
structure Moderate (curve : Curve A) : Prop where
  y1 : curve.y1.Within 1000
  y2 : curve.y2.Within 1000

theorem straight_moderate : (⟨0, 0, 1, 1⟩ : Curve A).Moderate :=
  ⟨⟨0, holds_zero, by rw [abs_zero]; exact (twoPow_pos _).le⟩, Within.one.mono (by omega)⟩

theorem sample_within {x y t : Number A} (hx : x.Within 1000) (hy : y.Within 1000)
    (ht : t.InUnit) : (sample x y t).Within 1007 := by
  have c := hx.triple (by omega)
  have step := (hy.sub hx (by omega)).triple (by omega)
  have b := step.sub (c.mono (by omega)) (by omega)
  have one : (1 : Number A).Within 1002 := Within.one.mono (by omega)
  have a := ((one.sub c (by omega)).mono (by omega)).sub b (by omega)
  have cubic := (a.mul_unit ht (by omega)).add (b.mono (by omega)) (by omega)
  have rest := (cubic.mul_unit ht (by omega)).add (c.mono (by omega)) (by omega)
  exact rest.mul_unit ht (by omega)

theorem Moderate.ease_isFinite {curve : Curve A} (moderate : curve.Moderate)
    {progress : Number A} (inside : progress.InUnit) : (curve.ease progress).isFinite := by
  unfold ease
  split
  · exact InUnit.zero.isFinite
  · split
    · exact InUnit.one.isFinite
    · have found := search_unit curve progress mostSteps .zero .one inside
      exact (sample_within moderate.y1 moderate.y2 found).isFinite

end Curve

namespace Pace

/-- What can stand among key times: anything but an infinity below zero.  A finite one is in
    range. -/
structure IsTime (x : Number A) : Prop where
  bounded : x ≠ .infinite true
  held : x.isFinite → ∃ q, x.Holds q

section Segments
variable {all : List (Number A)} {progress start : Number A}
  (few : all.length ≤ mostEntries) (inside : progress.InUnit)
include inside

theorem part_isNan (hstart : IsTime start) (stop : Number A) :
    (if (0 : Number A) < stop - start then (progress - start) / (stop - start)
      else 1).isNan = false := by
  split
  · rename_i span
    by_cases finite : start.isFinite
    · obtain ⟨p, is_p, low, high⟩ := inside
      obtain ⟨q, is_q⟩ := hstart.held finite
      have near : A.Spans (p - q) := by
        rw [sub_eq_add_neg, add_comm]
        exact is_q.has.neg.spans_near (abs_le.mpr ⟨by linarith, high⟩)
      have passed := (sub_holds is_p is_q near).denotes.1
      exact div_isNan (isNan_of_isFinite passed) span (Or.inl passed)
    · -- No segment begins at an infinity: none above it is longer than nothing.
      cases start with
      | nan => cases stop <;> cases span
      | infinite negative =>
        cases negative with
        | true => exact absurd rfl hstart.bounded
        | false => cases stop with
          | infinite other => cases other <;> cases span
          | _ => cases span
      | _ => exact absurd rfl finite
  · rfl

include few

theorem go_isNan {times : List (Number A)} {curves : List (Curve A)} {i : Nat}
    (timed : ∀ x ∈ times, IsTime x) (moderate : ∀ c ∈ curves, c.Moderate)
    (rest : i + times.length ≤ all.length) :
    (alongSegments.go all progress i times curves).isNan = false := by
  -- By induction on the key times; `i` of them are passed already.
  induction times generalizing curves i with
  | nil => exact inside.isNan
  | cons start later ih =>
    obtain _ | ⟨stop, later⟩ := later
    · exact inside.isNan
    · rw [List.length_cons, List.length_cons] at rest
      simp only [alongSegments.go]
      split
      · have unit := clampUnit_inUnit
          (part_isNan inside (timed start List.mem_cons_self) stop)
        generalize (if (0 : Number A) < stop - start then (progress - start) / (stop - start)
          else 1).clampUnit = part at unit ⊢
        have passed : (ofInt i : Number A).isFinite :=
          (ofInt_holds (by omega)).denotes.1
        have segments : (0 : Number A) < .ofInt (alongSegments.segments all) :=
          ofInt_pos (by rw [alongSegments.segments]; omega) (by rw [alongSegments.segments]; omega)
        have counted := (ofInt_holds (A := A) (n := alongSegments.segments all)
          (by rw [alongSegments.segments]; omega)).denotes.1
        have bent : ∀ y : Number A, y.isFinite →
            ((ofInt i + y) / ofInt (alongSegments.segments all)).isNan = false := by
          intro y finite
          exact div_isNan (add_isNan passed (isNan_of_isFinite finite)) segments (Or.inr counted)
        cases curves with
        | nil => exact bent part unit.isFinite
        | cons curve others =>
          exact bent _ ((moderate curve List.mem_cons_self).ease_isFinite unit)
      · apply ih
        · intro x member
          exact timed x (List.mem_cons_of_mem start member)
        · intro c member
          exact moderate c (List.mem_of_mem_tail member)
        · rw [List.length_cons]
          omega

end Segments

theorem alongSegments_inUnit {keyTimes : List (Number A)} {curves : List (Curve A)}
    {progress : Number A} (few : keyTimes.length ≤ mostEntries) (inside : progress.InUnit)
    (timed : ∀ x ∈ keyTimes, IsTime x) (moderate : ∀ c ∈ curves, c.Moderate) :
    (alongSegments keyTimes curves progress).clampUnit.InUnit := by
  have whole : 0 + keyTimes.length ≤ keyTimes.length := by omega
  exact clampUnit_inUnit (go_isNan few inside timed moderate whole)

section Paced

theorem zero_not_neg : ¬ (0 : Number A) < 0 := by
  rw [Denotes.zero.lt_iff .zero]
  exact lt_irrefl 0

variable {sum : Number A} {lengths : List (Number A)}

theorem steps_not_neg (points : List (List (Number A))) : ∀ x ∈ steps points, ¬ x < 0 := by
  intro x member
  induction points with
  | nil => cases member
  | cons a rest ih =>
    obtain _ | ⟨b, rest⟩ := rest
    · cases member
    · rcases List.mem_cons.mp member with rfl | later
      · exact sqrt_not_neg _
      · exact ih later

theorem steps_length (points : List (List (Number A))) :
    (steps points).length = points.length - 1 := by
  induction points with
  | nil => rfl
  | cons a rest ih =>
    obtain _ | ⟨b, rest⟩ := rest
    · rfl
    · rw [steps, List.length_cons, ih]
      rfl

theorem partialSums_not_neg (start : ¬ sum < 0) (lengths_not_neg : ∀ x ∈ lengths, ¬ x < 0) :
    ∀ x ∈ partialSums sum lengths, ¬ x < 0 := by
  intro x member
  induction lengths generalizing sum with
  | nil => cases member
  | cons first rest ih =>
    rcases List.mem_cons.mp member with rfl | later
    · exact start
    · refine ih (add_not_neg start (lengths_not_neg first (by simp))) ?_ later
      intro y inside
      exact lengths_not_neg y (List.mem_cons_of_mem first inside)

theorem partialSums_length : (partialSums sum lengths).length = lengths.length := by
  induction lengths generalizing sum with
  | nil => rfl
  | cons first rest ih => rw [partialSums, List.length_cons, List.length_cons, ih]

theorem keyTimes?_timed {points : List (Option (List (Number A)))} {times : List (Number A)}
    (paced : keyTimes? points = some times) :
    times.length = points.length ∧ ∀ x ∈ times, IsTime x := by
  unfold keyTimes? at paced
  obtain ⟨known, read, paced⟩ := Option.bind_eq_some_iff.mp paced
  have size := (forall₂_of_mapM read).length_eq
  split at paced
  · rename_i first second rest
    split at paced
    · cases paced
    dsimp only at paced
    split at paced
    · cases paced
    rename_i positive
    cases paced
    have lengths_not_neg := steps_not_neg (first :: second :: rest)
    have some_length := steps_length (first :: second :: rest)
    generalize steps (first :: second :: rest) = lengths at positive lengths_not_neg some_length
    generalize lengths.foldl (· + ·) (0 : Number A) = total at positive
    simp only [Bool.or_eq_true, Bool.not_eq_true', decide_eq_true_eq, not_or,
      Bool.not_eq_false] at positive
    have above := pos_of_not_le_zero (isNan_of_isFinite positive.1) positive.2
    constructor
    · rw [List.length_append, List.length_map, partialSums_length, some_length, size]
      rfl
    · intro x member
      rcases List.mem_append.mp member with share | last
      · obtain ⟨sum, inside, rfl⟩ := List.mem_map.mp share
        have sum_not_neg := partialSums_not_neg zero_not_neg lengths_not_neg sum inside
        have quotient := div_not_neg sum_not_neg above
        constructor
        · intro lowest
          rw [lowest] at quotient
          exact quotient rfl
        · exact fun finite => (div_of_isFinite finite).2.2
      · rw [List.mem_singleton] at last
        subst last
        exact ⟨fun lowest => (by cases lowest), fun _ => ⟨1, holds_one⟩⟩
  · cases paced

end Paced

end Pace

namespace Listing

theorem ofText?_holds {text : List Char} {x : Number A} (read : Number.ofText? text = some x)
    (finite : x.isFinite) : ∃ q, x.Holds q := by
  unfold Number.ofText? at read
  obtain ⟨body, _, read⟩ := Option.bind_eq_some_iff.mp read
  dsimp only at read
  split at read
  · cases read
    cases finite
  split at read
  · cases read
    cases finite
  · obtain ⟨d, _, rfl⟩ := Option.map_eq_some_iff.mp read
    exact d.toNumber_holds finite

theorem numbers?_of_entries {v : Value A} {times : List (Number A)}
    (read : numbers? v = some times) :
    times.length = (entries v).length ∧ ∀ x ∈ times, x.isFinite → ∃ q, x.Holds q := by
  unfold numbers? at read
  generalize entries v = found at read ⊢
  cases found with
  | nil => cases read
  | cons first rest =>
    constructor
    · exact (forall₂_of_mapM read).length_eq.symm
    · intro x member
      obtain ⟨entry, _, same⟩ := mem_of_mapM read member
      exact ofText?_holds same

end Listing

namespace Track

/-- Lists that can be counted, and what keeps the pace of a track from ending in no number. -/
structure Moderate (track : Track A) : Prop where
  texts : track.HasTexts
  values : (Listing.entries track.values).length ≤ mostEntries
  keyTimes : (Listing.entries track.keyTimes).length ≤ mostEntries
  bounded : track.mode.isTheText "discrete" = false → track.mode.isTheText "paced" = false →
    ∀ times, Listing.numbers? track.keyTimes = some times → Number.infinite true ∉ times
  curves : track.mode.isTheText "spline" → ∀ c ∈ Listing.curves track.keySplines, c.Moderate

theorem ease_inUnit {track : Track A} (moderate : track.Moderate) {progress : Number A}
    (inside : progress.InUnit) : (track.ease progress).InUnit := by
  unfold ease
  split
  · exact inside
  split
  · split
    · exact inside
    · rename_i times paced
      obtain ⟨size, timed⟩ := Pace.keyTimes?_timed paced
      refine Pace.alongSegments_inUnit ?_ inside timed fun c member => by cases member
      rw [size, List.length_map]
      exact moderate.values
  rename_i blending unpaced
  rw [Bool.not_eq_true] at blending unpaced
  dsimp only
  generalize bending : (if track.mode.isTheText "spline" then Listing.curves track.keySplines
    else []) = curves
  have tame : ∀ c ∈ curves, c.Moderate := by
    intro c member
    subst bending
    split at member
    · rename_i spline
      exact moderate.curves spline c member
    · cases member
  generalize read : (Listing.numbers? track.keyTimes).getD [] = times
  split
  · cases curves with
    | nil => exact inside
    | cons curve rest =>
      have eased := (tame curve List.mem_cons_self).ease_isFinite inside
      exact clampUnit_inUnit (isNan_of_isFinite eased)
  · rename_i several
    cases listed : Listing.numbers? track.keyTimes with
    | none =>
      rw [listed, Option.getD_none] at read
      subst read
      exact absurd Nat.zero_lt_two several
    | some found =>
      rw [listed, Option.getD_some] at read
      subst read
      obtain ⟨size, held⟩ := Listing.numbers?_of_entries listed
      have bounded := moderate.bounded blending unpaced found listed
      refine Pace.alongSegments_inUnit ?_ inside ?_ tame
      · rw [size]
        exact moderate.keyTimes
      · intro x member
        exact ⟨fun lowest => bounded (lowest ▸ member), held x member⟩

end Track
end DeclarativeAnimation
