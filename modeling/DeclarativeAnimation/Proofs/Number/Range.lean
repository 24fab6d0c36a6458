import DeclarativeAnimation.Proofs.Number.Exact
import DeclarativeAnimation.Proofs.Number.Numeral
import DeclarativeAnimation.Proofs.Number.Rounding

/-! The range of the numbers.  A rational rounds to a finite number as long as it does not round
    beyond the largest one; so a result is finite when its rational lies between two that are.
    No operation on numbers leads out of them unless an infinity or an overflow takes part. -/
namespace DeclarativeAnimation

namespace Arithmetic

def round : Arithmetic → Rat → Rat
  | .exact, q => q
  | .binary64, q => nearestDouble q

/-- The rational becomes a finite number. -/
def Spans (A : Arithmetic) (q : Rat) : Prop := A = .binary64 → |nearestDouble q| ≤ largestDouble

structure Has (A : Arithmetic) (q : Rat) : Prop where
  fixed : A.round q = q
  spanned : A.Spans q

variable {A : Arithmetic} {p q r : Rat}

theorem round_mono (le : p ≤ q) : A.round p ≤ A.round q := by
  cases A with
  | exact => exact le
  | binary64 => exact nearestDouble_mono le

theorem round_neg (q : Rat) : A.round (-q) = -A.round q := by
  cases A with
  | exact => rfl
  | binary64 => exact nearestDouble_neg q

theorem round_zero : A.round 0 = 0 := by
  cases A with
  | exact => rfl
  | binary64 => exact nearestDouble_zero

theorem Spans.between (low : A.Spans p) (high : A.Spans r) (le : p ≤ q) (ge : q ≤ r) :
    A.Spans q := by
  intro double
  have after := (abs_le.mp (low double)).1.trans (nearestDouble_mono le)
  have before := (nearestDouble_mono ge).trans (abs_le.mp (high double)).2
  exact abs_le.mpr ⟨after, before⟩

theorem Spans.neg (h : A.Spans q) : A.Spans (-q) := by
  intro double
  rw [nearestDouble_neg, abs_neg]
  exact h double

theorem has_round (h : A.Spans q) : A.Has (A.round q) := by
  cases A with
  | exact => exact ⟨rfl, nofun⟩
  | binary64 =>
    refine ⟨nearestDouble_idem q, fun double => ?_⟩
    show |nearestDouble (nearestDouble q)| ≤ largestDouble
    rw [nearestDouble_idem]
    exact h double

theorem Has.neg (h : A.Has q) : A.Has (-q) :=
  ⟨by rw [round_neg, h.fixed], h.spanned.neg⟩

theorem has_zero : A.Has 0 := by
  refine ⟨round_zero, fun _ => ?_⟩
  rw [nearestDouble_zero]
  decide +kernel

theorem has_twoPow {k : Int} (low : -1074 ≤ k) (high : k ≤ 1023) : A.Has (twoPow k) := by
  have fixed := nearestDouble_of_onGrid (onGrid_twoPow low)
  constructor
  · cases A with
    | exact => rfl
    | binary64 => exact fixed
  · intro _
    have most : twoPow 1023 ≤ largestDouble := by decide +kernel
    rw [fixed, abs_of_pos (twoPow_pos k)]
    exact (twoPow_mono high).trans most

theorem has_one : A.Has 1 := by
  have power : twoPow 0 = 1 := by decide +kernel
  exact power ▸ has_twoPow (by decide) (by decide)

theorem spans_of_abs_le {k : Nat} (bound : |q| ≤ twoPow k) (small : k ≤ 1023) : A.Spans q := by
  have power : A.Has (twoPow k) := has_twoPow (by omega) (by omega)
  exact power.neg.spanned.between power.spanned (abs_le.mp bound).1 (abs_le.mp bound).2

theorem abs_round_le {k : Nat} (bound : |q| ≤ twoPow k) (small : k ≤ 1023) :
    |A.round q| ≤ twoPow k := by
  have power : A.Has (twoPow k) := has_twoPow (by omega) (by omega)
  have low := round_mono (A := A) (abs_le.mp bound).1
  have high := round_mono (A := A) (abs_le.mp bound).2
  rw [round_neg, power.fixed] at low
  rw [power.fixed] at high
  exact abs_le.mpr ⟨low, high⟩

theorem has_natCast {n : Nat} (small : n < 2 ^ 53) : A.Has n := by
  have below : (n : Rat) < twoPow (53 : Nat) := by
    have power : twoPow (53 : Nat) = (2 ^ 53 : Nat) := by decide +kernel
    rw [power]
    exact_mod_cast small
  have nonneg : (0 : Rat) ≤ n := Nat.cast_nonneg n
  have grid : OnGrid (n : Rat) := by
    rcases eq_or_lt_of_le nonneg with zero | pos
    · exact ⟨0, by rw [← zero]; simp⟩
    · have coarse : spacing |(n : Rat)| ≤ 0 := by
        have digits := lt_of_twoPow_lt (lt_of_le_of_lt (binaryExponent_bounds pos).1 below)
        rw [abs_of_pos pos]
        unfold spacing
        omega
      obtain ⟨m, multiple⟩ := twoPow_multiple coarse
      have one : twoPow 0 = 1 := by decide +kernel
      refine ⟨n * m, ?_⟩
      push_cast
      rw [mul_assoc, ← multiple, one, mul_one]
  constructor
  · cases A with
    | exact => rfl
    | binary64 => exact nearestDouble_of_onGrid grid
  · exact spans_of_abs_le (by rw [abs_of_nonneg nonneg]; exact below.le) (by decide)

theorem round_unit (low : 0 ≤ q) (high : q ≤ 1) : 0 ≤ A.round q ∧ A.round q ≤ 1 := by
  have least := round_mono (A := A) low
  have most := round_mono (A := A) high
  rw [round_zero] at least
  rw [has_one.fixed] at most
  exact ⟨least, most⟩

theorem spans_unit (low : 0 ≤ q) (high : q ≤ 1) : A.Spans q :=
  has_zero.spanned.between has_one.spanned low high

theorem Has.spans_near (h : A.Has q) (near : |r| ≤ 1) : A.Spans (q + r) := by
  have next : nearestDouble (largestDouble + 1) = largestDouble := by decide +kernel
  have positive : 0 < largestDouble := by decide +kernel
  have edge : A.Spans (largestDouble + 1) := by
    intro _
    rw [next, abs_of_pos positive]
  cases A with
  | exact => exact nofun
  | binary64 =>
    have fixed : nearestDouble q = q := h.fixed
    have range := h.spanned rfl
    rw [fixed] at range
    obtain ⟨low, high⟩ := abs_le.mp range
    obtain ⟨small, large⟩ := abs_le.mp near
    exact edge.neg.between edge (by linarith) (by linarith)

end Arithmetic

namespace Number

open Arithmetic

variable {A : Arithmetic} {p q : Rat}

theorem nearest_denotes (h : A.Spans q) (negative : Bool) :
    (nearest q negative : Number A).Denotes (A.round q) := by
  cases A with
  | exact => exact .finite q
  | binary64 =>
    have range := abs_le.mp (h rfl)
    have most : largestDouble < twoPow 1024 := by decide +kernel
    show (nearest q negative : Number .binary64).Denotes (nearestDouble q)
    unfold nearest
    dsimp only
    by_cases zero : q = 0
    · subst zero
      rw [nearestDouble_zero]
      cases negative <;> exact ⟨rfl, rfl⟩
    rw [if_neg zero]
    by_cases vanished : nearestDouble q = 0
    · rw [if_pos vanished, vanished]
      split <;> exact ⟨rfl, rfl⟩
    · rw [if_neg vanished, if_neg (by linarith [range.2]), if_neg (by linarith [range.1])]
      exact .finite _

theorem spans_of_isFinite (negative : Bool) (h : (nearest q negative : Number A).isFinite) :
    A.Spans q := by
  cases A with
  | exact => exact nofun
  | binary64 =>
    intro _
    have grid := onGrid_nearestDouble q
    have minus := onGrid_nearestDouble (-q)
    rw [nearestDouble_neg] at minus
    by_cases vanished : nearestDouble q = 0
    · rw [vanished]
      decide +kernel
    have some_size : q ≠ 0 := by
      rintro rfl
      exact vanished nearestDouble_zero
    simp only [nearest, some_size, vanished, ↓reduceIte] at h
    by_cases above : twoPow 1024 ≤ nearestDouble q
    · simp [above, isFinite] at h
    by_cases below : nearestDouble q ≤ -twoPow 1024
    · simp [above, below, isFinite] at h
    · have high := le_largestDouble grid (not_le.mp above)
      have low := le_largestDouble minus (by linarith [not_le.mp below])
      exact abs_le.mpr ⟨by linarith, high⟩

theorem isNan_nearest (q : Rat) (negative : Bool) :
    (nearest q negative : Number A).isNan = false := by
  unfold nearest
  cases A with
  | exact => rfl
  | binary64 =>
    dsimp only
    split
    · split <;> rfl
    split
    · split <;> rfl
    split
    · rfl
    split <;> rfl

/-- The number is finite, and it is the rational itself. -/
structure Holds (x : Number A) (q : Rat) : Prop where
  denotes : x.Denotes q
  has : A.Has q

theorem nearest_holds (h : A.Spans q) (negative : Bool) :
    (nearest q negative : Number A).Holds (A.round q) :=
  ⟨nearest_denotes h negative, has_round h⟩

theorem holds_of_nearest {negative : Bool} (finite : (nearest q negative : Number A).isFinite) :
    (nearest q negative : Number A).Holds (A.round q) :=
  nearest_holds (spans_of_isFinite negative finite) negative

theorem holds_zero : (0 : Number A).Holds 0 := ⟨.zero, has_zero⟩

theorem holds_one : (1 : Number A).Holds 1 := ⟨.finite 1, has_one⟩

section Operations
variable {x y : Number A}

theorem add_of_finite (hx : x.Denotes p) (hy : y.Denotes q) :
    ∃ negative, x + y = nearest (p + q) negative := by
  show ∃ negative, x.add y = _
  obtain ⟨fx, rfl⟩ := hx
  obtain ⟨fy, rfl⟩ := hy
  cases x <;> cases y <;> simp_all [isFinite, rat, add]

theorem mul_of_finite (hx : x.Denotes p) (hy : y.Denotes q) :
    ∃ negative, x * y = nearest (p * q) negative := by
  show ∃ negative, x.mul y = _
  obtain ⟨fx, rfl⟩ := hx
  obtain ⟨fy, rfl⟩ := hy
  cases x <;> cases y <;> simp_all [isFinite, rat, mul]

theorem div_of_finite (hx : x.Denotes p) (hy : y.Denotes q) (ne : q ≠ 0) :
    ∃ negative, x / y = nearest (p / q) negative := by
  show ∃ negative, x.div y = _
  obtain ⟨fx, rfl⟩ := hx
  obtain ⟨fy, rfl⟩ := hy
  cases x <;> cases y <;> simp_all [isFinite, rat, div, isZero]

theorem add_of_isFinite (finite : (x + y).isFinite) :
    x.isFinite ∧ y.isFinite ∧ ∃ q, (x + y).Holds q := by
  have operands : x.isFinite ∧ y.isFinite := by
    change (x.add y).isFinite at finite
    cases x with
    | nan => cases finite
    | infinite s =>
      cases y with
      | infinite t =>
        simp only [add] at finite
        split at finite <;> cases finite
      | _ => cases finite
    | _ => cases y <;> first | exact ⟨rfl, rfl⟩ | cases finite
  obtain ⟨negative, sum⟩ := add_of_finite (.of_isFinite operands.1) (.of_isFinite operands.2)
  rw [sum] at finite ⊢
  exact ⟨operands.1, operands.2, _, holds_of_nearest finite⟩

theorem div_of_isFinite (finite : (x / y).isFinite) :
    x.isFinite ∧ y.isNan = false ∧ ∃ q, (x / y).Holds q := by
  have quotient : x.isFinite ∧ y.isNan = false ∧ ∃ q negative, x / y = nearest q negative := by
    change (x.div y).isFinite at finite
    show _ ∧ _ ∧ ∃ q negative, x.div y = _
    cases x with
    | nan => cases finite
    | infinite s =>
      simp only [div] at finite
      cases y with
      | finite q => simp only at finite; split at finite <;> cases finite
      | _ => cases finite
    | _ =>
      cases y with
      | nan => cases finite
      | infinite t => exact ⟨rfl, rfl, 0, _, rfl⟩
      | _ =>
        simp only [div] at finite ⊢
        split at finite
        · cases finite
        · rename_i nonzero
          exact ⟨rfl, rfl, _, _, if_neg nonzero⟩
  obtain ⟨left, right, q, negative, same⟩ := quotient
  rw [same] at finite ⊢
  exact ⟨left, right, _, holds_of_nearest finite⟩

theorem neg_holds (hy : y.Holds q) : y.neg.Holds (-q) := by
  have minus := hy.has.neg
  obtain ⟨fy, rfl⟩ := hy.denotes
  cases y with
  | finite r =>
    have rounded := nearest_holds minus.spanned true
    rw [minus.fixed] at rounded
    exact rounded
  | negativeZero => exact ⟨⟨rfl, by simp [neg, rat]⟩, minus⟩
  | infinite negative => cases fy
  | nan => cases fy

theorem add_holds (hx : x.Denotes p) (hy : y.Denotes q) (spanned : A.Spans (p + q)) :
    (x + y).Holds (A.round (p + q)) := by
  obtain ⟨negative, sum⟩ := add_of_finite hx hy
  rw [sum]
  exact nearest_holds spanned negative

theorem sub_holds (hx : x.Denotes p) (hy : y.Holds q) (spanned : A.Spans (p - q)) :
    (x - y).Holds (A.round (p - q)) := by
  rw [sub_eq_add_neg] at spanned ⊢
  exact add_holds hx (neg_holds hy).denotes spanned

theorem mul_holds (hx : x.Denotes p) (hy : y.Denotes q) (spanned : A.Spans (p * q)) :
    (x * y).Holds (A.round (p * q)) := by
  obtain ⟨negative, product⟩ := mul_of_finite hx hy
  rw [product]
  exact nearest_holds spanned negative

theorem div_holds (hx : x.Denotes p) (hy : y.Denotes q) (ne : q ≠ 0) (spanned : A.Spans (p / q)) :
    (x / y).Holds (A.round (p / q)) := by
  obtain ⟨negative, quotient⟩ := div_of_finite hx hy ne
  rw [quotient]
  exact nearest_holds spanned negative

end Operations

end Number
end DeclarativeAnimation
