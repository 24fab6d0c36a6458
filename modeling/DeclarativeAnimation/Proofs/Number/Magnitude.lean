import DeclarativeAnimation.Proofs.Number.Range
import DeclarativeAnimation.Value

/-! Sizes of results.  A number of at most a given power of two stays so when a part of it is
    taken, and one power more holds a sum.  Results that are not that small may be infinite, but
    as long as no infinity meets another one they are numbers.  The whole runs in a finite
    quotient are finite too. -/
namespace DeclarativeAnimation

theorem twoPow_succ (k : Nat) : twoPow (k + 1 : Nat) = 2 * twoPow k := by
  rw [twoPow_eq, twoPow_eq, zpow_natCast, zpow_natCast]
  ring

namespace Number

open Arithmetic

variable {A : Arithmetic} {x y t : Number A} {p q : Rat} {k : Nat}

theorem isNan_of_isFinite (h : x.isFinite) : x.isNan = false := by
  cases x with
  | nan => cases h
  | _ => rfl

theorem InUnit.isFinite (h : x.InUnit) : x.isFinite := by
  obtain ⟨q, is_q, _⟩ := h
  exact is_q.1

theorem InUnit.isNan (h : x.InUnit) : x.isNan = false := isNan_of_isFinite h.isFinite

theorem clampUnit_inUnit (h : x.isNan = false) : x.clampUnit.InUnit := by
  cases x with
  | nan => cases h
  | infinite negative => cases A <;> cases negative <;> decide +kernel
  | negativeZero => cases A <;> decide +kernel
  | finite q =>
    have positive : (0 : Number A) < .finite q ↔ 0 < q := Denotes.zero.lt_iff (.finite q)
    have below_one : (Number.finite q : Number A) < 1 ↔ q < 1 :=
      (Denotes.finite q).lt_iff (.finite 1)
    have least : (0 : Number A) < 1 := (Denotes.zero.lt_iff (.finite 1)).mpr zero_lt_one
    simp only [clampUnit, Number.isNan, Bool.false_eq_true, ↓reduceIte, positive]
    by_cases above : 0 < q
    · rw [if_pos above]
      by_cases below : q < 1
      · rw [if_pos (below_one.mpr below)]
        exact ⟨q, .finite q, above.le, below.le⟩
      · rw [if_neg (mt below_one.mp below)]
        exact .one
    · rw [if_neg above, if_pos least]
      exact .zero

theorem pos_cases (pos : 0 < x) : x = .infinite false ∨ ∃ q, x = .finite q ∧ 0 < q := by
  cases x with
  | nan => cases pos
  | infinite negative =>
    cases negative with
    | true => cases pos
    | false => exact Or.inl rfl
  | negativeZero => exact absurd ((Denotes.zero.lt_iff ⟨rfl, rfl⟩).mp pos) (lt_irrefl 0)
  | finite q => exact Or.inr ⟨q, rfl, (Denotes.zero.lt_iff (.finite q)).mp pos⟩

theorem not_le_zero_of_pos (pos : 0 < x) : ¬ x ≤ 0 := by
  intro le
  rcases pos_cases pos with rfl | ⟨q, rfl, positive⟩
  · cases le
  · exact absurd (((Denotes.finite q).le_iff .zero).mp le) (not_le.mpr positive)

theorem pos_of_not_le_zero (real : x.isNan = false) (above : ¬ x ≤ 0) : 0 < x := by
  by_cases finite : x.isFinite
  · have is_q := Denotes.of_isFinite finite
    rw [is_q.le_iff .zero, not_le] at above
    exact (Denotes.zero.lt_iff is_q).mpr above
  · cases x with
    | nan => cases real
    | infinite negative =>
      cases negative with
      | true => exact absurd rfl above
      | false => exact rfl
    | _ => exact absurd rfl finite

theorem add_isNan (hx : x.isFinite) (hy : y.isNan = false) : (x + y).isNan = false := by
  by_cases finite : y.isFinite
  · obtain ⟨negative, sum⟩ := add_of_finite (.of_isFinite hx) (.of_isFinite finite)
    rw [sum]
    exact isNan_nearest _ negative
  · cases y with
    | infinite negative => cases x <;> first | rfl | cases hx
    | nan => cases hy
    | _ => exact absurd rfl finite

theorem isNan_add (hx : x.isNan = false) (hy : y.isFinite) : (x + y).isNan = false := by
  by_cases finite : x.isFinite
  · exact add_isNan finite (isNan_of_isFinite hy)
  · cases x with
    | infinite negative => cases y <;> first | rfl | cases hy
    | nan => cases hx
    | _ => exact absurd rfl finite

theorem isNan_mul_of_pos (hx : x.isNan = false) (positive : 0 < q) :
    (x * .finite q).isNan = false := by
  by_cases finite : x.isFinite
  · obtain ⟨negative, product⟩ := mul_of_finite (.of_isFinite finite) (.finite q)
    rw [product]
    exact isNan_nearest _ negative
  · cases x with
    | infinite negative =>
      show (Number.mul _ _).isNan = false
      simp [mul, isZero, isNan, ne_of_gt positive]
    | nan => cases hx
    | _ => exact absurd rfl finite

theorem div_infinite (hx : x.isFinite) (negative : Bool) :
    x / .infinite negative = nearest 0 (x.isNegative != negative) := by
  cases x <;> first | rfl | cases hx

theorem infinite_div (positive : 0 < q) (negative : Bool) :
    (.infinite negative : Number A) / .finite q = .infinite negative := by
  show Number.div _ _ = _
  simp [div, isNegative, isZero, not_lt.mpr positive.le, ne_of_gt positive]

theorem div_isNan (hx : x.isNan = false) (pos : 0 < y) (one : x.isFinite ∨ y.isFinite) :
    (x / y).isNan = false := by
  rcases pos_cases pos with rfl | ⟨d, rfl, positive⟩
  · rw [div_infinite (one.resolve_right fun bounded => by cases bounded)]
    exact isNan_nearest 0 _
  · by_cases finite : x.isFinite
    · obtain ⟨negative, quotient⟩ :=
        div_of_finite (.of_isFinite finite) (.finite d) (ne_of_gt positive)
      rw [quotient]
      exact isNan_nearest _ negative
    · cases x with
      | infinite negative => rw [infinite_div positive]; rfl
      | nan => cases hx
      | _ => exact absurd rfl finite

section Sign

theorem nearest_not_neg (nonneg : 0 ≤ q) (negative : Bool) :
    ¬ (nearest q negative : Number A) < 0 := by
  cases A with
  | exact =>
    rw [nearest_exact, (Denotes.finite q).lt_iff .zero]
    exact not_lt.mpr nonneg
  | binary64 =>
    have rounded := nearestDouble_nonneg nonneg
    have above : ¬ nearestDouble q ≤ -twoPow 1024 := by linarith [twoPow_pos 1024]
    unfold nearest
    simp only [above, ↓reduceIte]
    split
    · split <;> decide +kernel
    split
    · split <;> decide +kernel
    split
    · decide +kernel
    · rw [(Denotes.finite _).lt_iff .zero]
      exact not_lt.mpr rounded

theorem not_neg_cases (h : ¬ x < 0) :
    x = .nan ∨ x = .infinite false ∨ ∃ q, x.Denotes q ∧ 0 ≤ q := by
  cases x with
  | nan => exact Or.inl rfl
  | infinite negative =>
    cases negative with
    | true => exact absurd rfl h
    | false => exact Or.inr (Or.inl rfl)
  | negativeZero => exact Or.inr (Or.inr ⟨0, ⟨rfl, rfl⟩, le_rfl⟩)
  | finite q =>
    have is_q : (Number.finite q : Number A).Denotes q := .finite q
    exact Or.inr (Or.inr ⟨q, is_q, not_lt.mp (mt (is_q.lt_iff .zero).mpr h)⟩)

theorem add_not_neg (hx : ¬ x < 0) (hy : ¬ y < 0) : ¬ x + y < 0 := by
  rcases not_neg_cases hx with rfl | rfl | ⟨p, is_p, p_nonneg⟩
  · exact not_nan_lt 0
  · cases y with
    | infinite negative =>
      cases negative with
      | true => exact absurd rfl hy
      | false => exact hx
    | nan => exact not_nan_lt 0
    | _ => exact hx
  · rcases not_neg_cases hy with rfl | rfl | ⟨q, is_q, q_nonneg⟩
    · cases x <;> exact not_nan_lt 0
    · have bounded := is_p.1
      cases x <;> first | exact hy | cases bounded
    · obtain ⟨negative, sum⟩ := add_of_finite is_p is_q
      rw [sum]
      exact nearest_not_neg (add_nonneg p_nonneg q_nonneg) negative

theorem div_not_neg (hx : ¬ x < 0) (hy : 0 < y) : ¬ x / y < 0 := by
  rcases pos_cases hy with rfl | ⟨d, rfl, positive⟩
  · by_cases finite : x.isFinite
    · rw [div_infinite finite]
      exact nearest_not_neg le_rfl _
    · cases x <;> first | exact not_nan_lt 0 | exact absurd rfl finite
  · rcases not_neg_cases hx with rfl | rfl | ⟨p, is_p, nonneg⟩
    · exact not_nan_lt 0
    · rw [infinite_div positive]
      exact hx
    · obtain ⟨negative, quotient⟩ := div_of_finite is_p (.finite d) (ne_of_gt positive)
      rw [quotient]
      exact nearest_not_neg (div_nonneg nonneg positive.le) negative

theorem rootApproximation_nonneg (q : Rat) : 0 ≤ rootApproximation q := by
  unfold rootApproximation
  split
  · rename_i root found
    simp only [rationalRoot?] at found
    split at found
    · cases found
      exact Rat.mkRat_nonneg (Int.natCast_nonneg _) _
    · cases found
  · have half : (0 : Rat) ≤ 1 / 2 := by norm_num
    exact mul_nonneg (add_nonneg (Nat.cast_nonneg _) half) (twoPow_pos _).le

theorem sqrt_not_neg (x : Number A) : ¬ x.sqrt < 0 := by
  cases x with
  | nan => exact not_nan_lt 0
  | negativeZero => exact nearest_not_neg le_rfl true
  | infinite negative =>
    cases negative with
    | true => exact not_nan_lt 0
    | false => intro below; cases below
  | finite q =>
    simp only [sqrt]
    split
    · exact not_nan_lt 0
    · exact nearest_not_neg (rootApproximation_nonneg q) false

end Sign

def Within (x : Number A) (k : Nat) : Prop := ∃ q, x.Holds q ∧ |q| ≤ twoPow k

namespace Within

theorem isFinite (h : x.Within k) : x.isFinite := by
  obtain ⟨q, is_q, _⟩ := h
  exact is_q.denotes.1

theorem mono {l : Nat} (h : x.Within k) (le : k ≤ l) : x.Within l := by
  obtain ⟨q, is_q, bound⟩ := h
  exact ⟨q, is_q, bound.trans (twoPow_mono (by omega))⟩

theorem add (hx : x.Within k) (hy : y.Within k) (small : k + 1 ≤ 1023) :
    (x + y).Within (k + 1) := by
  obtain ⟨p, is_p, hp⟩ := hx
  obtain ⟨q, is_q, hq⟩ := hy
  have bound : |p + q| ≤ twoPow (k + 1 : Nat) := by
    rw [twoPow_succ]
    linarith [abs_add_le p q]
  exact ⟨_, add_holds is_p.denotes is_q.denotes (spans_of_abs_le bound small),
    abs_round_le bound small⟩

theorem neg (h : x.Within k) : x.neg.Within k := by
  obtain ⟨q, is_q, bound⟩ := h
  exact ⟨-q, neg_holds is_q, by rwa [abs_neg]⟩

theorem sub (hx : x.Within k) (hy : y.Within k) (small : k + 1 ≤ 1023) :
    (x - y).Within (k + 1) := hx.add hy.neg small

theorem mul {l : Nat} (hx : x.Within k) (hy : y.Within l) (small : k + l ≤ 1023) :
    (x * y).Within (k + l) := by
  obtain ⟨p, is_p, hp⟩ := hx
  obtain ⟨q, is_q, hq⟩ := hy
  have power : twoPow (k + l : Nat) = twoPow k * twoPow l := by
    rw [twoPow_eq, twoPow_eq, twoPow_eq, ← zpow_add₀ two_ne_zero, Nat.cast_add]
  have bound : |p * q| ≤ twoPow (k + l : Nat) := by
    rw [abs_mul, power]
    exact mul_le_mul hp hq (abs_nonneg q) (twoPow_pos k).le
  exact ⟨_, mul_holds is_p.denotes is_q.denotes (spans_of_abs_le bound small),
    abs_round_le bound small⟩

theorem of_nat {n : Nat} (few : n < 2 ^ 53) (le : n ≤ 2 ^ k) : (.finite n : Number A).Within k := by
  refine ⟨n, ⟨.finite _, has_natCast few⟩, ?_⟩
  rw [abs_of_nonneg (Nat.cast_nonneg n), twoPow_eq, zpow_natCast]
  exact_mod_cast le

theorem of_mul_unit (is_p : x.Denotes p) (hp : |p| ≤ twoPow k) (ht : t.InUnit)
    (small : k ≤ 1023) : (x * t).Within k := by
  obtain ⟨r, is_r, low, high⟩ := ht
  have bound : |p * r| ≤ twoPow k := by
    rw [abs_mul, abs_of_nonneg low]
    exact (mul_le_of_le_one_right (abs_nonneg p) high).trans hp
  exact ⟨_, mul_holds is_p is_r (spans_of_abs_le bound small), abs_round_le bound small⟩

theorem mul_unit (hx : x.Within k) (ht : t.InUnit) (small : k ≤ 1023) : (x * t).Within k := by
  obtain ⟨p, is_p, hp⟩ := hx
  exact of_mul_unit is_p.denotes hp ht small

theorem unit_mul (ht : t.InUnit) (hx : x.Within k) (small : k ≤ 1023) : (t * x).Within k := by
  obtain ⟨r, is_r, low, high⟩ := ht
  obtain ⟨p, is_p, hp⟩ := hx
  have bound : |r * p| ≤ twoPow k := by
    rw [abs_mul, abs_of_nonneg low]
    exact (mul_le_of_le_one_left (abs_nonneg p) high).trans hp
  exact ⟨_, mul_holds is_r is_p.denotes (spans_of_abs_le bound small), abs_round_le bound small⟩

theorem of_ofRat (hp : |p| ≤ twoPow k) (small : k ≤ 1023) : (ofRat p : Number A).Within k :=
  ⟨_, nearest_holds (spans_of_abs_le hp small) false, abs_round_le hp small⟩

theorem triple (hx : x.Within k) (small : k + 2 ≤ 1023) : (3 * x).Within (k + 2) := by
  obtain ⟨p, is_p, hp⟩ := hx
  have bound : |3 * p| ≤ twoPow (k + 2 : Nat) := by
    rw [abs_mul, twoPow_succ (k + 1), twoPow_succ k, abs_of_pos (by norm_num : (0 : Rat) < 3)]
    linarith [twoPow_pos k]
  have three : (3 : Number A).Denotes 3 := .finite 3
  exact ⟨_, mul_holds three is_p.denotes (spans_of_abs_le bound small), abs_round_le bound small⟩

theorem one : (1 : Number A).Within 0 := by
  refine ⟨1, holds_one, ?_⟩
  decide +kernel

end Within

section Unit

theorem InUnit.one_sub (ht : t.InUnit) : (1 - t).InUnit := by
  have minus : ∃ r, t.neg.Denotes r ∧ -1 ≤ r ∧ r ≤ 0 := by
    obtain ⟨q, ⟨finite, rfl⟩, low, high⟩ := ht
    cases t with
    | finite q =>
      have unit := round_unit (A := A) low high
      have rounded : (Number.finite q : Number A).neg.Denotes (A.round (-q)) :=
        nearest_denotes (spans_unit low high).neg true
      rw [round_neg] at rounded
      exact ⟨_, rounded, neg_le_neg unit.2, neg_nonpos.mpr unit.1⟩
    | negativeZero => exact ⟨0, ⟨rfl, rfl⟩, by norm_num, le_rfl⟩
    | infinite negative => cases finite
    | nan => cases finite
  obtain ⟨r, is_r, low, high⟩ := minus
  have rest : 0 ≤ 1 + r ∧ 1 + r ≤ 1 := by
    constructor <;> linarith
  exact ⟨_, (add_holds holds_one.denotes is_r (spans_unit rest.1 rest.2)).denotes,
    round_unit rest.1 rest.2⟩

theorem InUnit.middle (hx : x.InUnit) (hy : y.InUnit) : ((x + y) / 2).InUnit := by
  obtain ⟨p, is_p, hp⟩ := hx
  obtain ⟨q, is_q, hq⟩ := hy
  have two : twoPow (1 : Nat) = 2 := by decide +kernel
  have bound : |p + q| ≤ twoPow (1 : Nat) := by
    rw [two, abs_of_nonneg (add_nonneg hp.1 hq.1)]
    linarith
  have sum := (add_holds is_p is_q (spans_of_abs_le bound (by decide))).denotes
  have low := round_mono (A := A) (add_nonneg hp.1 hq.1)
  have high := (abs_le.mp (abs_round_le (A := A) bound (by decide))).2
  rw [round_zero] at low
  rw [two] at high
  have half : 0 ≤ A.round (p + q) / 2 ∧ A.round (p + q) / 2 ≤ 1 := by
    constructor <;> linarith
  have divisor : (2 : Number A).Denotes 2 := .finite 2
  exact ⟨_, (div_holds sum divisor two_ne_zero (spans_unit half.1 half.2)).denotes,
    round_unit half.1 half.2⟩

end Unit

theorem truncatedRemainder_of_finite (hx : x.Denotes p) (hy : y.Denotes q) (ne : q ≠ 0) :
    ∃ negative, truncatedRemainder x y =
      nearest (p - q * (if p / q < 0 then (p / q).ceil else (p / q).floor)) negative := by
  obtain ⟨fx, rfl⟩ := hx
  obtain ⟨fy, rfl⟩ := hy
  cases x <;> cases y <;> simp_all [isFinite, rat, truncatedRemainder, isZero]

section Quotient
variable (hx : x.Holds p) (pos : 0 < y)
include hx pos

theorem truncatedRemainder_bounds (nonneg : 0 ≤ p) :
    ∃ r, (truncatedRemainder x y).Holds r ∧ 0 ≤ r ∧ r ≤ p := by
  rcases pos_cases pos with rfl | ⟨d, rfl, positive⟩
  · refine ⟨p, ?_, nonneg, le_rfl⟩
    have same : truncatedRemainder x (.infinite false) = x := by
      obtain ⟨finite, _⟩ := hx.denotes
      cases x <;> simp_all [truncatedRemainder, Number.isFinite]
    rwa [same]
  · have ratio : 0 ≤ p / d := div_nonneg nonneg positive.le
    have below : d * (p / d).floor ≤ p := by
      have scaled := mul_le_mul_of_nonneg_left (Rat.floor_le (p / d)) positive.le
      rwa [mul_div_cancel₀ p (ne_of_gt positive)] at scaled
    have counted : (0 : Rat) ≤ (p / d).floor := by
      exact_mod_cast Rat.le_floor_iff.mpr (by exact_mod_cast ratio)
    have low : 0 ≤ p - d * (p / d).floor := by linarith
    have high : p - d * (p / d).floor ≤ p := by linarith [mul_nonneg positive.le counted]
    obtain ⟨negative, left⟩ :=
      truncatedRemainder_of_finite hx.denotes (.finite d) (ne_of_gt positive)
    rw [if_neg (not_lt.mpr ratio)] at left
    have spanned := has_zero.spanned.between hx.has.spanned low high
    rw [left]
    refine ⟨_, nearest_holds spanned negative, ?_, ?_⟩
    · have least := round_mono (A := A) low
      rwa [round_zero] at least
    · have most := round_mono (A := A) high
      rwa [hx.has.fixed] at most

theorem quotient_bounds {part : Number A} {r : Rat} (hr : part.Holds r) (low : 0 ≤ r) (high : r ≤ p)
    (fits : (x / y).isFinite) : ∃ v, ((x - part) / y).Holds v ∧ 0 ≤ v := by
  have rest : 0 ≤ p - r := by linarith
  have most : p - r ≤ p := by linarith
  have difference := sub_holds hx.denotes hr (has_zero.spanned.between hx.has.spanned rest most)
  have least := round_mono (A := A) rest
  have upper := round_mono (A := A) most
  rw [round_zero] at least
  rw [hx.has.fixed] at upper
  rcases pos_cases pos with rfl | ⟨d, rfl, positive⟩
  · rw [div_infinite difference.denotes.1]
    exact ⟨_, nearest_holds has_zero.spanned _, by rw [round_zero]⟩
  · have quotient : A.Spans (p / d) := by
      obtain ⟨negative, whole⟩ := div_of_finite hx.denotes (.finite d) (ne_of_gt positive)
      rw [whole] at fits
      exact spans_of_isFinite _ fits
    have start : 0 ≤ A.round (p - r) / d := div_nonneg least positive.le
    have stop : A.round (p - r) / d ≤ p / d := div_le_div_of_nonneg_right upper positive.le
    refine ⟨_, div_holds difference.denotes (.finite d) (ne_of_gt positive)
      (has_zero.spanned.between quotient start stop), ?_⟩
    have reached := round_mono (A := A) start
    rwa [round_zero] at reached

end Quotient

theorem wholeBelow_bounds (hx : x.Holds p) (nonneg : 0 ≤ p) :
    ∃ b, x.wholeBelow.Holds b ∧ 0 ≤ b := by
  obtain ⟨finite, rfl⟩ := hx.denotes
  cases x with
  | finite q =>
    have low : (0 : Rat) ≤ q.floor := by
      exact_mod_cast Rat.le_floor_iff.mpr (by exact_mod_cast nonneg)
    have spanned := has_zero.spanned.between hx.has.spanned low (Rat.floor_le q)
    refine ⟨_, nearest_holds spanned false, ?_⟩
    have least := round_mono (A := A) low
    rwa [round_zero] at least
  | negativeZero => exact ⟨0, hx, le_rfl⟩
  | infinite negative => cases finite
  | nan => cases finite

theorem not_less_zero (hx : x.Denotes p) (nonneg : 0 ≤ p) : x.less 0 = false := by
  rw [less_of_finite hx.1 (y := 0) rfl, hx.2]
  exact decide_eq_false (not_lt.mpr nonneg)

def wholeQuotient (quotient : Number A) (negative : Bool) : Number A :=
  if quotient.isZero then nearest 0 negative
  else if (0.5 : Number A) < quotient - quotient.wholeBelow then quotient.wholeBelow + 1
  else quotient.wholeBelow

theorem floorDivide_isFinite (hx : x.Holds p) (nonneg : 0 ≤ p) (pos : 0 < y)
    (fits : (x / y).isFinite) :
    (x.floorDivide y).2.isFinite ∧ ∃ w, (x.floorDivide y).1.Holds w := by
  obtain ⟨r, is_r, low, high⟩ := truncatedRemainder_bounds hx pos nonneg
  obtain ⟨v, is_v, least⟩ := quotient_bounds hx pos is_r low high fits
  obtain ⟨b, is_b, _⟩ := wholeBelow_bounds is_v least
  have forward : y.less 0 = false := by
    rcases pos_cases pos with rfl | ⟨d, rfl, positive⟩
    · rfl
    · exact not_less_zero (.finite d) positive.le
  have kept := not_less_zero is_r.denotes low
  have zero (negative : Bool) : (nearest 0 negative : Number A).Holds 0 := by
    have rounded := nearest_holds (A := A) has_zero.spanned negative
    rwa [round_zero] at rounded
  have grown := add_holds is_b.denotes holds_one.denotes (is_b.has.spans_near (by rw [abs_one]))
  -- The part keeps its sign, so that only its zero and that of the quotient are told apart.
  have part : (x.floorDivide y).2 =
      if (truncatedRemainder x y).isZero then nearest 0 y.isNegative
      else truncatedRemainder x y := by
    simp only [floorDivide, forward, kept, bne_self_eq_false, Bool.false_eq_true, ↓reduceIte]
    split <;> rfl
  have whole : (x.floorDivide y).1 =
      wholeQuotient ((x - truncatedRemainder x y) / y) (x.isNegative != y.isNegative) := by
    simp only [floorDivide, forward, kept, bne_self_eq_false, Bool.false_eq_true, ↓reduceIte]
    split <;> rfl
  constructor
  · rw [part]
    split
    · exact (zero _).denotes.1
    · exact is_r.denotes.1
  · rw [whole]
    unfold wholeQuotient
    split
    · exact ⟨0, zero _⟩
    · split
      · exact ⟨_, grown⟩
      · exact ⟨_, is_b⟩

end Number

namespace Value
variable {A : Arithmetic} {x : Number A} {q : Rat}

theorem floor_of_finite (h : x.Denotes q) : floor x = .ok q.floor := by
  obtain ⟨finite, rfl⟩ := h
  cases x <;> simp_all [floor, Number.isFinite]

theorem ceiling_of_finite (h : x.Denotes q) : ceiling x = .ok q.ceil := by
  obtain ⟨finite, rfl⟩ := h
  cases x <;> simp_all [ceiling, Number.isFinite]

theorem wholePart_of_finite (h : x.Denotes q) :
    ∃ n : Int, wholePart x = .ok n ∧ |(n : Rat)| ≤ |q| := by
  obtain ⟨finite, rfl⟩ := h
  have cut : wholePart x = .ok (if x.rat < 0 then x.rat.ceil else x.rat.floor) := by
    cases x <;> simp_all [wholePart, Number.isFinite]
  refine ⟨_, cut, ?_⟩
  split
  · rename_i negative
    have above : x.rat ≤ x.rat.ceil := Rat.le_ceil
    have below : (x.rat.ceil : Rat) ≤ 0 := by
      exact_mod_cast Rat.ceil_le_iff.mpr (by exact_mod_cast negative.le)
    rw [abs_of_nonpos below, abs_of_neg negative]
    linarith
  · rename_i forward
    have nonneg := not_lt.mp forward
    have above : (0 : Rat) ≤ x.rat.floor := by
      exact_mod_cast Rat.le_floor_iff.mpr (by exact_mod_cast nonneg)
    rw [abs_of_nonneg above, abs_of_nonneg nonneg]
    exact Rat.floor_le _

theorem numberOfInt_of_finite {n : Int} (finite : (Number.ofInt n : Number A).isFinite) :
    numberOfInt n = .ok (.ofInt n : Number A) := by
  unfold numberOfInt
  generalize (Number.ofInt n : Number A) = x at finite
  cases x with
  | infinite negative => cases finite
  | nan => cases finite
  | _ => rfl

theorem numberOfInt_of_spans {n : Int} (spanned : A.Spans n) :
    numberOfInt n = .ok (.ofInt n : Number A) :=
  numberOfInt_of_finite (Number.nearest_denotes spanned false).1

end Value
end DeclarativeAnimation
