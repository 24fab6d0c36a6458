import DeclarativeAnimation.Proofs.Number.Magnitude
import DeclarativeAnimation.Timing.Easing
import Mathlib.Tactic.Ring
import Mathlib.Tactic.Positivity

/-! The range of a timing curve.  Over the unit interval a curve whose controls lie there is a
    mean of 0, its two ordinates and 1 with Bernstein weights, so it does not leave the interval,
    wherever the search for its parameter stops. -/
namespace DeclarativeAnimation.Curve

open Number (InUnit)

def cubic (p q t : Rat) : Rat :=
  (((1 - 3 * p - (3 * (q - p) - 3 * p)) * t + (3 * (q - p) - 3 * p)) * t + 3 * p) * t

theorem cubic_bernstein (p q t : Rat) :
    cubic p q t = 3 * (1 - t) ^ 2 * t * p + 3 * (1 - t) * t ^ 2 * q + t ^ 3 := by
  unfold cubic
  ring

theorem one_sub_cubic_bernstein (p q t : Rat) :
    1 - cubic p q t =
      (1 - t) ^ 3 + 3 * (1 - t) ^ 2 * t * (1 - p) + 3 * (1 - t) * t ^ 2 * (1 - q) := by
  unfold cubic
  ring

theorem cubic_mem_unit {p q t : Rat} (hp : 0 ≤ p ∧ p ≤ 1) (hq : 0 ≤ q ∧ q ≤ 1)
    (ht : 0 ≤ t ∧ t ≤ 1) : 0 ≤ cubic p q t ∧ cubic p q t ≤ 1 := by
  obtain ⟨hp₀, hp₁⟩ := hp
  obtain ⟨hq₀, hq₁⟩ := hq
  obtain ⟨ht₀, ht₁⟩ := ht
  have rest : 0 ≤ 1 - t := by linarith
  have below_p : 0 ≤ 1 - p := by linarith
  have below_q : 0 ≤ 1 - q := by linarith
  constructor
  · rw [cubic_bernstein]
    positivity
  · have gap : 0 ≤ 1 - cubic p q t := by
      rw [one_sub_cubic_bernstein]
      positivity
    linarith

structure Tame (curve : Curve .exact) : Prop where
  x1 : InUnit curve.x1
  y1 : InUnit curve.y1
  x2 : InUnit curve.x2
  y2 : InUnit curve.y2

instance (curve : Curve .exact) : Decidable curve.Tame :=
  decidable_of_iff (InUnit curve.x1 ∧ InUnit curve.y1 ∧ InUnit curve.x2 ∧ InUnit curve.y2)
    ⟨fun ⟨x1, y1, x2, y2⟩ => ⟨x1, y1, x2, y2⟩, fun ⟨x1, y1, x2, y2⟩ => ⟨x1, y1, x2, y2⟩⟩

theorem sample_denotes {x y t : Number .exact} {p q r : Rat} (hx : x.Denotes p)
    (hy : y.Denotes q) (ht : t.Denotes r) : (sample x y t).Denotes (cubic p q r) := by
  have one : (1 : Number .exact).Denotes 1 := .finite 1
  have three : (3 : Number .exact).Denotes 3 := .finite 3
  have c := three.mul hx
  have b := (three.mul (hy.sub hx)).sub c
  have a := (one.sub c).sub b
  exact ((((a.mul ht).add b).mul ht).add c).mul ht

theorem sample_unit {x y t : Number .exact} (hx : InUnit x) (hy : InUnit y) (ht : InUnit t) :
    InUnit (sample x y t) := by
  obtain ⟨p, is_p, hp⟩ := hx
  obtain ⟨q, is_q, hq⟩ := hy
  obtain ⟨r, is_r, hr⟩ := ht
  exact ⟨_, sample_denotes is_p is_q is_r, cubic_mem_unit hp hq hr⟩

theorem search_unit {A : Arithmetic} (curve : Curve A) (progress : Number A) (fuel : Nat)
    {low high middle : Number A} (hl : InUnit low) (hh : InUnit high) (hm : InUnit middle) :
    InUnit (parameter.go curve progress fuel low high middle) := by
  induction fuel generalizing low high middle with
  | zero => exact hm
  | succ fuel ih =>
    simp only [parameter.go]
    split
    · exact hm
    · split
      · exact ih hm hh (hm.middle hh)
      · exact ih hl hm (hl.middle hm)

theorem ease_zero (curve : Curve .exact) : curve.ease 0 = 0 := by
  have early : (0 : Number .exact) ≤ 0 := by decide +kernel
  simp [ease, early]

theorem ease_one (curve : Curve .exact) : curve.ease 1 = 1 := by
  have late : ¬ (1 : Number .exact) ≤ 0 := by decide +kernel
  have within : (1 : Number .exact) ≤ 1 := by decide +kernel
  simp [ease, late, within]

theorem Tame.ease_unit {curve : Curve .exact} (tame : curve.Tame) {progress : Number .exact}
    (inside : InUnit progress) : InUnit (curve.ease progress) := by
  unfold ease
  split
  · exact .zero
  · split
    · exact .one
    · exact sample_unit tame.y1 tame.y2
        (search_unit curve progress mostSteps .zero .one inside)

end DeclarativeAnimation.Curve
