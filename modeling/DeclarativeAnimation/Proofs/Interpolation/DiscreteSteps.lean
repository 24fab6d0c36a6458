import DeclarativeAnimation.Interpolation.Contribution
import DeclarativeAnimation.Proofs.Number.Exact
import Mathlib.Algebra.Order.Floor.Ring
import Mathlib.Data.Rat.Floor
import Mathlib.Tactic.Positivity

/-! Discrete keyframes.  The keyframe that is shown is the last one whose time has come.  Without
    key times of their own keyframes have come at equal shares of the run, so that one function
    steps through them in both cases; it never goes back and always leads to a keyframe. -/
namespace DeclarativeAnimation

namespace Keyframe

/-- The place of the last time that has come, zero where none has. -/
structure IsLastReached {A : Arithmetic} (times : List (Number A)) (progress : Number A)
    (i : Nat) : Prop where
  reached : i = 0 ∨ ∃ time ∈ times[i]?, time ≤ progress
  last : ∀ j, ∀ time ∈ times[j]?, time ≤ progress → j ≤ i

section
variable {A : Arithmetic} {times : List (Number A)} {progress later : Number A} {i j : Nat}

theorem lastReached_isLastReached (times : List (Number A)) (progress : Number A) :
    IsLastReached times progress (lastReached times progress) := by
  have come {time : Number A} {j : Nat} :
      (time, j) ∈ times.zipIdx.filter (fun entry => entry.1 ≤ progress) ↔
        times[j]? = some time ∧ time ≤ progress := by
    rw [List.mem_filter, List.mem_zipIdx_iff_getElem?, decide_eq_true_eq]
  have in_order : (times.zipIdx.filter fun entry => entry.1 ≤ progress).Pairwise
      (fun first second => first.2 < second.2) := by
    apply List.Pairwise.filter
    rw [← List.pairwise_map (f := Prod.snd), List.zipIdx_map_snd]
    exact List.pairwise_lt_range'
  have picked : lastReached times progress =
      (times.zipIdx.filter fun entry => entry.1 ≤ progress).getLast?.elim 0 (·.2) := rfl
  rw [picked]
  generalize times.zipIdx.filter (fun entry => entry.1 ≤ progress) = found at come in_order
  cases ends : found.getLast? with
  | none =>
    obtain rfl := List.getLast?_eq_none_iff.mp ends
    exact ⟨.inl rfl, fun j time here past => by cases come.mpr ⟨here, past⟩⟩
  | some entry =>
    obtain ⟨time, i⟩ := entry
    obtain ⟨init, rfl⟩ := List.getLast?_eq_some_iff.mp ends
    refine ⟨.inr ⟨time, come.mp (by simp)⟩, fun j time' here past => ?_⟩
    rcases List.mem_append.mp (come.mpr ⟨here, past⟩) with before | same
    · exact ((List.pairwise_append.mp in_order).2.2 _ before _ List.mem_cons_self).le
    · exact (congrArg Prod.snd (List.mem_singleton.mp same)).le

namespace IsLastReached

theorem unique (hi : IsLastReached times progress i) (hj : IsLastReached times progress j) :
    i = j := by
  have le {i j : Nat} (hi : IsLastReached times progress i)
      (hj : IsLastReached times progress j) : i ≤ j := by
    rcases hi.reached with rfl | ⟨time, here, past⟩
    · exact Nat.zero_le j
    · exact hj.last i time here past
  exact Nat.le_antisymm (le hi hj) (le hj hi)

theorem inside (h : IsLastReached times progress i) (some_time : times ≠ []) :
    i < times.length := by
  rcases h.reached with rfl | ⟨time, here, _⟩
  · exact List.length_pos_of_ne_nil some_time
  · exact (List.getElem?_eq_some_iff.mp here).1

theorem mono (hi : IsLastReached times progress i) (hj : IsLastReached times later j)
    (still : ∀ time ∈ times, time ≤ progress → time ≤ later) : i ≤ j := by
  rcases hi.reached with rfl | ⟨time, here, past⟩
  · exact Nat.zero_le j
  · exact hj.last i time here (still time (List.mem_of_getElem? here) past)

theorem ends (h : IsLastReached times progress i) (some_time : times ≠ [])
    (all : ∀ time ∈ times, time ≤ progress) : i = times.length - 1 := by
  have inside := h.inside some_time
  have place : times.length - 1 < times.length := by omega
  have least := h.last _ times[times.length - 1] (List.getElem?_eq_getElem place)
    (all _ (List.getElem_mem place))
  omega

end IsLastReached

theorem lastReached_lt (some_time : times ≠ []) : lastReached times progress < times.length :=
  (lastReached_isLastReached times progress).inside some_time

end

theorem le_later {time : Number .exact} {p q : Rat} (past : time ≤ .finite p) (le : p ≤ q) :
    time ≤ .finite q := by
  cases time with
  | finite x =>
    have before := ((Number.Denotes.finite x).le_iff (.finite p)).mp past
    exact ((Number.Denotes.finite x).le_iff (.finite q)).mpr (before.trans le)
  | negativeZero =>
    have zero : (Number.negativeZero : Number .exact).Denotes 0 := ⟨rfl, rfl⟩
    have before := (zero.le_iff (.finite p)).mp past
    exact (zero.le_iff (.finite q)).mpr (before.trans le)
  | infinite negative =>
    cases negative with
    | true => rfl
    | false => cases past
  | nan => cases past

def evenTimes (count : Nat) : List (Number .exact) :=
  (List.range count).map fun i : Nat => .finite (i / count)

theorem evenTimes_reached {count : Nat} (some_keyframe : 0 < count) {p : Rat} (low : 0 ≤ p) :
    IsLastReached (evenTimes count) (.finite p) (min ⌊p * count⌋.toNat (count - 1)) := by
  have shares : (0 : Rat) < count := by exact_mod_cast some_keyframe
  have whole : (0 : Int) ≤ ⌊p * count⌋ := Int.floor_nonneg.mpr (by positivity)
  have begun (i : Nat) :
      (.finite (i / count) : Number .exact) ≤ .finite p ↔ i ≤ ⌊p * count⌋.toNat := by
    rw [(Number.Denotes.finite _).le_iff (.finite p), div_le_iff₀ shares, Int.le_toNat whole,
      Int.le_floor, Int.cast_natCast]
  have share (i : Nat) (inside : i < count) :
      (evenTimes count)[i]? = some (.finite (i / count)) := by
    rw [evenTimes, List.getElem?_map, List.getElem?_range inside, Option.map_some]
  constructor
  · right
    exact ⟨_, share _ (by omega), (begun _).mpr (Nat.min_le_left _ _)⟩
  · intro j time here past
    have inside : j < count := by
      simpa [evenTimes] using (List.getElem?_eq_some_iff.mp here).1
    obtain rfl := Option.some.inj ((share j inside).symm.trans here)
    have passed := (begun j).mp past
    omega

/-- The times that count: the given ones where there are as many as keyframes. -/
def timesFor (count : Nat) (keyTimes : Option (List (Number .exact))) : List (Number .exact) :=
  (keyTimes.filter (·.length = count)).getD (evenTimes count)

theorem timesFor_given {count : Nat} {times : List (Number .exact)}
    (as_many : times.length = count) : timesFor count (some times) = times := by
  simp [timesFor, Option.filter, as_many]

theorem timesFor_ignored {count : Nat} {times : List (Number .exact)}
    (other : times.length ≠ count) : timesFor count (some times) = evenTimes count := by
  simp [timesFor, Option.filter, other]

theorem timesFor_length (count : Nat) (keyTimes : Option (List (Number .exact))) :
    (timesFor count keyTimes).length = count := by
  unfold timesFor
  cases kept : keyTimes.filter (·.length = count) with
  | none => simp [evenTimes]
  | some times => simpa using (Option.filter_eq_some_iff.mp kept).2

theorem discreteIndex_eq {count : Nat} (some_keyframe : 0 < count) {p : Rat} (low : 0 ≤ p)
    (high : p ≤ 1) (keyTimes : Option (List (Number .exact))) :
    discreteIndex count (.finite p) keyTimes =
      .ok (lastReached (timesFor count keyTimes) (.finite p)) := by
  have some_time : timesFor count keyTimes ≠ [] :=
    List.ne_nil_of_length_pos ((timesFor_length count keyTimes).symm ▸ some_keyframe)
  have share : (.finite p : Number .exact) * .ofInt count = .finite (p * count) :=
    Number.mul_exact (y := .ofInt count) rfl rfl
  have shared : (lastReached (evenTimes count) (.finite p) : Int) = min ⌊p * count⌋ (count - 1) := by
    have whole : (0 : Int) ≤ ⌊p * count⌋ := Int.floor_nonneg.mpr (by positivity)
    rw [(lastReached_isLastReached _ _).unique (evenTimes_reached some_keyframe low)]
    omega
  unfold discreteIndex
  split
  · rename_i single
    have only : lastReached (timesFor count keyTimes) (.finite p) < _ := lastReached_lt some_time
    rw [timesFor_length] at only
    congr 1
    omega
  rw [Number.clampUnit_finite low high]
  dsimp only
  rw [share]
  cases keyTimes with
  | none => exact congrArg Except.ok shared.symm
  | some times =>
    dsimp only
    by_cases as_many : times.length = count
    · rw [timesFor_given as_many, if_pos (congrArg Nat.cast as_many)]
    · rw [timesFor_ignored as_many, shared, if_neg (mt Nat.cast_inj.mp as_many)]
      rfl

/-- How a discrete track steps through its keyframes: with key times that are as many, with none,
    and with others. -/
structure IsStepFunction (count : Nat) (index : Option (List (Number .exact)) → Rat → Nat) :
    Prop where
  timed : ∀ times p, times.length = count → IsLastReached times (.finite p) (index (some times) p)
  even : ∀ p, index none p = index (some (evenTimes count)) p
  ignored : ∀ times p, times.length ≠ count → index (some times) p = index none p
  rising : ∀ keyTimes p q, p ≤ q → index keyTimes p ≤ index keyTimes q
  below : ∀ keyTimes p, index keyTimes p < count
  ends : ∀ keyTimes, (∀ times ∈ keyTimes, times.length = count → ∀ time ∈ times, time ≤ 1) →
    index keyTimes 1 = count - 1

theorem timesFor_steps {count : Nat} (some_keyframe : 0 < count) :
    IsStepFunction count fun keyTimes p => lastReached (timesFor count keyTimes) (.finite p) where
  timed times p as_many := by
    rw [timesFor_given as_many]
    exact lastReached_isLastReached times _
  even p := by
    have as_many : (evenTimes count).length = count := by simp [evenTimes]
    rw [timesFor_given as_many]
    rfl
  ignored times p other := by
    rw [timesFor_ignored other]
    rfl
  rising keyTimes p q le :=
    (lastReached_isLastReached _ _).mono (lastReached_isLastReached _ _)
      fun _ _ past => le_later past le
  below keyTimes p := by
    have length := timesFor_length count keyTimes
    conv_rhs => rw [← length]
    exact lastReached_lt (List.ne_nil_of_length_pos (length.symm ▸ some_keyframe))
  ends keyTimes early := by
    have length := timesFor_length count keyTimes
    conv_rhs => rw [← length]
    refine (lastReached_isLastReached _ _).ends
      (List.ne_nil_of_length_pos (length.symm ▸ some_keyframe)) fun time member => ?_
    unfold timesFor at member
    cases kept : keyTimes.filter (·.length = count) with
    | none =>
      rw [kept] at member
      obtain ⟨i, inside, rfl⟩ := List.mem_map.mp member
      have shares : (0 : Rat) < count := by exact_mod_cast some_keyframe
      have share : (i : Rat) ≤ count := by exact_mod_cast (List.mem_range.mp inside).le
      rw [(Number.Denotes.finite _).le_iff (.finite 1)]
      exact (div_le_one shares).mpr share
    | some times =>
      rw [kept] at member
      obtain ⟨given, as_many⟩ := Option.filter_eq_some_iff.mp kept
      exact early times given (by simpa using as_many) time member

/-- One function steps through the keyframes with key times and without, and a discrete track
    shows the keyframe it leads to as it is. -/
theorem discrete_steps {count : Nat} (some_keyframe : 0 < count) :
    ∃ index, IsStepFunction count index ∧
      (∀ p : Rat, 0 ≤ p → p ≤ 1 → ∀ keyTimes,
        discreteIndex count (.finite p : Number .exact) keyTimes = .ok (index keyTimes p)) ∧
      ∀ p : Rat, 0 ≤ p → p ≤ 1 → ∀ (track : Track .exact) (keyframes : List (Value .exact)) blend,
        track.isDiscrete = true → keyframes.length = count →
          ∃ shown ∈ keyframes[index (Listing.numbers? track.keyTimes) p]?,
            track.pick keyframes (.finite p) blend = .ok shown := by
  have steps := timesFor_steps some_keyframe
  refine ⟨_, steps, fun p low high => discreteIndex_eq some_keyframe low high, ?_⟩
  intro p low high track keyframes blend discrete as_many
  subst as_many
  refine ⟨_, List.getElem?_eq_getElem (steps.below (Listing.numbers? track.keyTimes) p), ?_⟩
  unfold Track.pick Track.discreteKeyframe
  rw [if_pos discrete, discreteIndex_eq some_keyframe low high]
  exact congrArg Except.ok (List.getElem_eq_getD Value.null).symm

def signal : Track .exact := { mode := .text "discrete", keyTimes := .text "0; .25; 1" }

theorem signal_shows_second : 0 < 3 ∧
    signal.pick [.text "red", .text "amber", .text "green"] (.finite (1 / 2)) blendColor =
      .ok (.text "amber") := by
  obtain ⟨index, steps, _, picks⟩ := @discrete_steps 3 (by decide)
  have timed : Listing.numbers? signal.keyTimes =
      some ([0, 1 / 4, 1].map (.finite (A := .exact))) := by decide +kernel
  have second : IsLastReached ([0, 1 / 4, 1].map (.finite (A := .exact))) (.finite (1 / 2)) 1 := by
    refine ⟨.inr ⟨.finite (1 / 4), rfl, by decide +kernel⟩, fun j time here past => ?_⟩
    match j, here with
    | 0, _ => exact Nat.zero_le 1
    | 1, _ => exact Nat.le_refl 1
    | 2, here =>
      obtain rfl := Option.some.inj here
      exact absurd past (by decide +kernel)
  have place := (steps.timed _ (1 / 2) rfl).unique second
  obtain ⟨shown, here, picked⟩ := picks (1 / 2) (by decide +kernel) (by decide +kernel) signal
    [.text "red", .text "amber", .text "green"] blendColor rfl rfl
  rw [timed, place] at here
  obtain rfl := Option.some.inj here
  exact ⟨by decide, picked⟩

end Keyframe

end DeclarativeAnimation
