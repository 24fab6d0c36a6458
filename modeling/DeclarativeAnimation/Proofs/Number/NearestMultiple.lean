import DeclarativeAnimation.Proofs.Number.Range
import Mathlib.Algebra.Order.Field.Basic
import Mathlib.Tactic.FieldSimp

/-! Nearest multiples.  Both roundings, to so many places and to doubles, take the nearest of the
    multiples of a unit, and of two that are equally near the even one.  It is the same for all
    that lies no further from it, so that a double near a multiple is rounded to it again. -/
namespace DeclarativeAnimation

/-- Of all multiples of a unit this one is nearest, and it is even where another is as near. -/
structure IsNearestMultiple (unit q : Rat) (m : Int) : Prop where
  nearest : ∀ k : Int, |q - m * unit| ≤ |q - k * unit|
  even : ∀ k : Int, k ≠ m → |q - k * unit| = |q - m * unit| → Even m

/-- A whole number that is half of one away at most, and even if it is that far away. -/
structure IsNearInteger (s : Rat) (m : Int) : Prop where
  near : |s - m| ≤ 1 / 2
  even : |s - m| = 1 / 2 → Even m

namespace IsNearInteger
variable {s t : Rat} {m n : Int}

theorem nearestEven (s : Rat) : IsNearInteger s (nearestEven s) := by
  obtain ⟨low, high⟩ := nearestEven_bounds s
  refine ⟨abs_le.mpr ⟨by linarith, by linarith⟩, fun half => ?_⟩
  have below := Rat.floor_le s
  have above := Rat.lt_floor_add_one s
  push_cast at above
  unfold DeclarativeAnimation.nearestEven at half ⊢
  dsimp only at half ⊢
  split at half
  · rw [abs_of_nonneg (by linarith)] at half
    linarith
  split at half
  · push_cast at half
    rw [abs_of_nonpos (by linarith)] at half
    linarith
  · rename_i low high
    rw [if_neg low, if_neg high, Int.even_iff]
    omega

theorem apart (h : IsNearInteger s m) (other : n ≠ m) : 1 / 2 ≤ |s - n| := by
  have step : (1 : Rat) ≤ |(m - n : Int)| := by
    exact_mod_cast Int.one_le_abs (sub_ne_zero.mpr other.symm)
  have parts := abs_sub_le (m : Rat) s n
  rw [abs_sub_comm (m : Rat) s] at parts
  push_cast at step
  linarith [h.near]

theorem unique (hm : IsNearInteger s m) (hn : IsNearInteger s n) : m = n := by
  by_contra other
  have far := hm.apart (Ne.symm other)
  have far' := hn.apart other
  have half := le_antisymm hn.near far
  have half' := le_antisymm hm.near far'
  obtain ⟨i, rfl⟩ := hm.even half'
  obtain ⟨j, rfl⟩ := hn.even half
  have apart : (2 : Rat) ≤ |((i + i - (j + j) : Int) : Rat)| := by
    have some_step : 1 ≤ |i - j| := Int.one_le_abs (sub_ne_zero.mpr (by rintro rfl; exact other rfl))
    have double : i + i - (j + j) = 2 * (i - j) := by ring
    rw [double]
    push_cast
    rw [abs_mul, abs_two]
    have cast : (1 : Rat) ≤ |(i : Rat) - j| := by exact_mod_cast some_step
    linarith
  have parts := abs_sub_le ((i + i : Int) : Rat) s ((j + j : Int) : Rat)
  rw [abs_sub_comm _ s] at parts
  push_cast at apart parts half half'
  linarith

theorem of_nearer (h : IsNearInteger s m) (nearer : |t - m| ≤ |s - m|) : IsNearInteger t m :=
  ⟨nearer.trans h.near, fun half => h.even (le_antisymm h.near (half ▸ nearer))⟩

end IsNearInteger

section Unit
variable {unit q r : Rat} {m n : Int} (pos : 0 < unit)
include pos

theorem scaled_distance (q : Rat) (k : Int) : |q - k * unit| = |q / unit - k| * unit := by
  have parted : q - k * unit = (q / unit - k) * unit := by field_simp
  rw [parted, abs_mul, abs_of_pos pos]

theorem isNearestMultiple_of_near (h : IsNearInteger (q / unit) m) :
    IsNearestMultiple unit q m where
  nearest k := by
    rw [scaled_distance pos, scaled_distance pos]
    apply mul_le_mul_of_nonneg_right _ pos.le
    by_cases other : k = m
    · rw [other]
    · exact h.near.trans (h.apart other)
  even k other same := by
    rw [scaled_distance pos, scaled_distance pos] at same
    have same := mul_right_cancel₀ pos.ne' same
    exact h.even (le_antisymm h.near (same ▸ h.apart other))

theorem IsNearestMultiple.near (h : IsNearestMultiple unit q m) : IsNearInteger (q / unit) m := by
  have least (k : Int) : |q / unit - m| ≤ |q / unit - k| := by
    have scaled := h.nearest k
    rw [scaled_distance pos, scaled_distance pos] at scaled
    exact le_of_mul_le_mul_right scaled pos
  have tie (k : Int) (other : k ≠ m) (same : |q / unit - k| = |q / unit - m|) : Even m := by
    apply h.even k other
    rw [scaled_distance pos, scaled_distance pos, same]
  refine ⟨(least _).trans (IsNearInteger.nearestEven (q / unit)).near, fun half => ?_⟩
  rcases (abs_eq (by norm_num)).mp half with above | below
  · apply tie (m + 1) (by omega)
    rw [half]
    push_cast
    rw [show q / unit - (m + 1) = -(1 / 2) by linarith, abs_neg, abs_of_pos (by norm_num)]
  · apply tie (m - 1) (by omega)
    rw [half]
    push_cast
    rw [show q / unit - (m - 1) = 1 / 2 by linarith, abs_of_pos (by norm_num)]

theorem isNearestMultiple_iff : IsNearestMultiple unit q m ↔ m = nearestEven (q / unit) := by
  have rounded := IsNearInteger.nearestEven (q / unit)
  constructor
  · intro h
    exact (h.near pos).unique rounded
  · rintro rfl
    exact isNearestMultiple_of_near pos rounded

theorem IsNearestMultiple.of_nearer (h : IsNearestMultiple unit q m)
    (nearer : |r - m * unit| ≤ |q - m * unit|) : IsNearestMultiple unit r m := by
  rw [scaled_distance pos, scaled_distance pos] at nearer
  exact isNearestMultiple_of_near pos
    ((h.near pos).of_nearer (le_of_mul_le_mul_right nearer pos))

end Unit

section Doubles
variable {q x : Rat}

theorem OnGrid.neg (grid : OnGrid x) : OnGrid (-x) := by
  obtain ⟨m, multiple⟩ := grid
  exact ⟨-m, by rw [abs_neg]; push_cast; linarith⟩

theorem nearestDouble_nearest_multiple (nonneg : 0 ≤ q) (k : Int) :
    |q - nearestDouble q| ≤ |q - k * twoPow (spacing q)| := by
  rw [nearestDouble_of_nonneg nonneg]
  exact ((isNearestMultiple_iff (twoPow_pos (spacing q))).mpr rfl).nearest k

theorem nearestDouble_nearest (grid : OnGrid x) : |q - nearestDouble q| ≤ |q - x| := by
  have upward {q x : Rat} (nonneg : 0 ≤ q) (grid : OnGrid x) :
      |q - nearestDouble q| ≤ |q - x| := by
    have near := nearestDouble_nearest_multiple nonneg
    rcases le_or_gt x 0 with nonpos | some_size
    · have zero := near 0
      rw [Int.cast_zero, zero_mul, sub_zero] at zero
      rw [abs_of_nonneg nonneg] at zero
      rw [abs_of_nonneg (by linarith : 0 ≤ q - x)]
      linarith
    obtain ⟨m, multiple⟩ := grid
    rw [abs_of_pos some_size] at multiple
    rcases le_or_gt (spacing q) (spacing x) with coarse | fine
    · obtain ⟨n, power⟩ := twoPow_multiple coarse
      have on_grid := near (m * n)
      push_cast at on_grid
      rwa [mul_assoc, ← power, ← multiple] at on_grid
    · rcases eq_or_lt_of_le nonneg with rfl | pos
      · rw [nearestDouble_zero, sub_self, abs_zero]
        exact abs_nonneg _
      have lower : binaryExponent x < binaryExponent q ∧ spacing q ≤ binaryExponent q := by
        unfold spacing at fine ⊢
        omega
      have less : x < twoPow (binaryExponent q) :=
        (binaryExponent_bounds some_size).2.trans_le (twoPow_mono (by omega))
      have reached := (binaryExponent_bounds pos).1
      obtain ⟨n, power⟩ := twoPow_multiple lower.2
      have step := near n
      rw [← power, abs_of_nonneg (sub_nonneg.mpr reached)] at step
      rw [abs_of_nonneg (by linarith : 0 ≤ q - x)]
      linarith
  rcases le_total 0 q with nonneg | nonpos
  · exact upward nonneg grid
  · have flipped := upward (neg_nonneg.mpr nonpos) grid.neg
    rw [nearestDouble_neg, neg_sub_neg, neg_sub_neg] at flipped
    rwa [abs_sub_comm q, abs_sub_comm q]

end Doubles

theorem Arithmetic.Has.round_nearest {A : Arithmetic} {q x : Rat} (has : A.Has x) :
    |q - A.round q| ≤ |q - x| := by
  cases A with
  | exact =>
    show |q - q| ≤ _
    rw [sub_self, abs_zero]
    exact abs_nonneg _
  | binary64 =>
    have fixed : nearestDouble x = x := has.fixed
    exact nearestDouble_nearest (fixed ▸ onGrid_nearestDouble x)

end DeclarativeAnimation
