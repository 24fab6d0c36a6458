import DeclarativeAnimation.Number.Operations
import Mathlib.Algebra.Order.Ring.Rat
import Mathlib.Tactic.Linarith

/-! Finite numbers.  Order and equality look at the rational only, and in exact arithmetic every
    operation on finite numbers gives the finite number with the rational result. -/
namespace DeclarativeAnimation.Number

section Order
variable {A : Arithmetic} {x y : Number A}

theorem less_of_finite (hx : x.isFinite) (hy : y.isFinite) :
    x.less y = decide (x.rat < y.rat) := by
  cases x <;> cases y <;> simp_all [isFinite, less, rat]

theorem equal_of_finite (hx : x.isFinite) (hy : y.isFinite) :
    x.equal y = decide (x.rat = y.rat) := by
  cases x <;> cases y <;> simp_all [isFinite, equal, rat]
  all_goals rfl

theorem lt_iff_rat_lt (hx : x.isFinite) (hy : y.isFinite) : x < y ↔ x.rat < y.rat := by
  show x.less y = true ↔ _
  rw [less_of_finite hx hy]
  exact decide_eq_true_iff

theorem le_iff_rat_le (hx : x.isFinite) (hy : y.isFinite) : x ≤ y ↔ x.rat ≤ y.rat := by
  show (x.less y || x.equal y) = true ↔ _
  rw [less_of_finite hx hy, equal_of_finite hx hy]
  simp [le_iff_lt_or_eq]

end Order

section Exact
variable {x y : Number .exact}

theorem add_exact (hx : x.isFinite) (hy : y.isFinite) : x + y = .finite (x.rat + y.rat) := by
  show x.add y = _
  cases x <;> cases y <;> simp_all [isFinite, rat, add]

theorem sub_exact (hx : x.isFinite) (hy : y.isFinite) : x - y = .finite (x.rat - y.rat) := by
  show x + y.neg = _
  have negated : y.neg = .finite (-y.rat) := by cases y <;> simp_all [isFinite, rat, neg]
  rw [negated, add_exact hx rfl, rat_finite, sub_eq_add_neg]

theorem mul_exact (hx : x.isFinite) (hy : y.isFinite) : x * y = .finite (x.rat * y.rat) := by
  show x.mul y = _
  cases x <;> cases y <;> simp_all [isFinite, rat, mul]

theorem div_exact (hx : x.isFinite) (hy : y.isFinite) (ne : y.rat ≠ 0) :
    x / y = .finite (x.rat / y.rat) := by
  have positive : y.isZero = false := by cases y <;> simp_all [isFinite, rat, isZero]
  show x.div y = _
  cases x <;> cases y <;> simp_all [isFinite, rat, div]

end Exact

def Denotes {A : Arithmetic} (x : Number A) (q : Rat) : Prop := x.isFinite = true ∧ x.rat = q

namespace Denotes
variable {A : Arithmetic} {p q : Rat}

theorem finite (q : Rat) : (Number.finite q : Number A).Denotes q := ⟨rfl, rfl⟩

theorem zero : (0 : Number A).Denotes 0 := ⟨rfl, rfl⟩

theorem of_isFinite {x : Number A} (h : x.isFinite) : x.Denotes x.rat := ⟨h, rfl⟩

theorem lt_iff {x y : Number A} (hx : x.Denotes p) (hy : y.Denotes q) : x < y ↔ p < q := by
  rw [lt_iff_rat_lt hx.1 hy.1, hx.2, hy.2]

theorem le_iff {x y : Number A} (hx : x.Denotes p) (hy : y.Denotes q) : x ≤ y ↔ p ≤ q := by
  rw [le_iff_rat_le hx.1 hy.1, hx.2, hy.2]

theorem larger {x y : Number A} (hx : x.Denotes p) (hy : y.Denotes q) :
    (x.larger y).Denotes (max p q) := by
  unfold Number.larger
  split
  · rename_i less
    rwa [max_eq_right (le_of_lt ((hx.lt_iff hy).mp less))]
  · rename_i greater
    rwa [max_eq_left (not_lt.mp (mt (hx.lt_iff hy).mpr greater))]

theorem smaller {x y : Number A} (hx : x.Denotes p) (hy : y.Denotes q) :
    (x.smaller y).Denotes (min p q) := by
  unfold Number.smaller
  split
  · rename_i less
    rwa [min_eq_right (le_of_lt ((hy.lt_iff hx).mp less))]
  · rename_i greater
    rwa [min_eq_left (not_lt.mp (mt (hy.lt_iff hx).mpr greater))]

theorem add {x y : Number .exact} (hx : x.Denotes p) (hy : y.Denotes q) :
    (x + y).Denotes (p + q) := by
  rw [add_exact hx.1 hy.1, hx.2, hy.2]
  exact finite _

theorem sub {x y : Number .exact} (hx : x.Denotes p) (hy : y.Denotes q) :
    (x - y).Denotes (p - q) := by
  rw [sub_exact hx.1 hy.1, hx.2, hy.2]
  exact finite _

theorem neg {x : Number .exact} (hx : x.Denotes p) : (-x).Denotes (-p) := by
  obtain ⟨finite, rfl⟩ := hx
  cases x with
  | finite q => exact .finite (-q)
  | negativeZero => exact .finite 0
  | _ => cases finite

theorem abs {x : Number .exact} (hx : x.Denotes p) : x.abs.Denotes |p| := by
  unfold Number.abs
  cases x with
  | finite q =>
    obtain rfl : q = p := hx.2
    by_cases below : q < 0
    · rw [if_pos (by simpa [isNegative] using below), abs_of_neg below]
      exact hx.neg
    · rw [if_neg (by simpa [isNegative] using below), abs_of_nonneg (not_lt.mp below)]
      exact hx
  | negativeZero =>
    obtain rfl : 0 = p := hx.2
    rw [abs_zero]
    exact .finite 0
  | _ => cases hx.1

theorem mul {x y : Number .exact} (hx : x.Denotes p) (hy : y.Denotes q) :
    (x * y).Denotes (p * q) := by
  rw [mul_exact hx.1 hy.1, hx.2, hy.2]
  exact finite _

theorem div {x y : Number .exact} (hx : x.Denotes p) (hy : y.Denotes q) (ne : q ≠ 0) :
    (x / y).Denotes (p / q) := by
  rw [div_exact hx.1 hy.1 (hy.2 ▸ ne), hx.2, hy.2]
  exact finite _

end Denotes

theorem clampUnit_finite {A : Arithmetic} {q : Rat} (low : 0 ≤ q) (high : q ≤ 1) :
    (Number.finite q : Number A).clampUnit = .finite q := by
  have positive : (0 : Number A) < .finite q ↔ 0 < q := Denotes.zero.lt_iff (.finite q)
  have below_one : (Number.finite q : Number A) < 1 ↔ q < 1 :=
    (Denotes.finite q).lt_iff (.finite 1)
  have zero_below_one : (0 : Number A) < 1 := (Denotes.zero.lt_iff (.finite 1)).mpr zero_lt_one
  simp only [Number.clampUnit, isNan, Bool.false_eq_true, ↓reduceIte, positive]
  by_cases above : 0 < q
  · by_cases below : q < 1
    · rw [if_pos above, if_pos (below_one.mpr below)]
    · obtain rfl : q = 1 := le_antisymm high (not_lt.mp below)
      rw [if_pos above, if_neg (mt below_one.mp below)]
      rfl
  · obtain rfl : q = 0 := le_antisymm (not_lt.mp above) low
    rw [if_neg above, if_pos zero_below_one]
    rfl

theorem clampUnit_one {A : Arithmetic} : (1 : Number A).clampUnit = 1 :=
  clampUnit_finite zero_le_one le_rfl

def InUnit {A : Arithmetic} (x : Number A) : Prop := ∃ q : Rat, x.Denotes q ∧ 0 ≤ q ∧ q ≤ 1

instance {A : Arithmetic} (x : Number A) : Decidable x.InUnit :=
  decidable_of_iff (x.isFinite = true ∧ 0 ≤ x.rat ∧ x.rat ≤ 1)
    ⟨fun ⟨bounded, low, high⟩ => ⟨x.rat, .of_isFinite bounded, low, high⟩,
      fun ⟨_, is_q, low, high⟩ => ⟨is_q.1, is_q.2 ▸ low, is_q.2 ▸ high⟩⟩

theorem InUnit.zero {A : Arithmetic} : (0 : Number A).InUnit :=
  ⟨0, Denotes.zero, le_refl 0, zero_le_one⟩

theorem InUnit.one {A : Arithmetic} : (1 : Number A).InUnit :=
  ⟨1, .finite 1, zero_le_one, le_refl 1⟩

end DeclarativeAnimation.Number
