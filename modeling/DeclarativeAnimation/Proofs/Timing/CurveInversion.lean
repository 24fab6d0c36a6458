import DeclarativeAnimation.Proofs.Timing.CurveRange

/-! Timing curves over a progress.  The abscissa of a curve moves at most three times as fast as
    its parameter, and the search keeps the progress between the abscissas of its bounds.  So
    the parameter it ends with lies on the curve close to the progress, whether the search was
    close enough before or has run out of steps. -/
namespace DeclarativeAnimation.Curve

open Number (Denotes InUnit)

/-- A coordinate, at a parameter, of the Bézier curve from 0 to 1 with two controls. -/
def bezier (p q t : Rat) : Rat := 3 * (1 - t) ^ 2 * t * p + 3 * (1 - t) * t ^ 2 * q + t ^ 3

structure Controls (curve : Curve .exact) (x1 y1 x2 y2 : Rat) : Prop where
  x1 : curve.x1.Denotes x1
  y1 : curve.y1.Denotes y1
  x2 : curve.x2.Denotes x2
  y2 : curve.y2.Denotes y2

section Speed
variable {p q s t : Rat}

/-- The slope of the chord between two parameters. -/
def chord (p q s t : Rat) : Rat :=
  p * (3 - 6 * (s + t) + 3 * (s ^ 2 + s * t + t ^ 2))
    + q * (3 * (s + t) - 3 * (s ^ 2 + s * t + t ^ 2)) + (s ^ 2 + s * t + t ^ 2)

theorem cubic_sub (p q s t : Rat) : cubic p q t - cubic p q s = (t - s) * chord p q s t := by
  unfold cubic chord
  ring

/-- The slope is linear in each control, so it is largest where both are 0 or 1. -/
theorem chord_le (hp : 0 ≤ p ∧ p ≤ 1) (hq : 0 ≤ q ∧ q ≤ 1) (hs : 0 ≤ s ∧ s ≤ 1)
    (ht : 0 ≤ t ∧ t ≤ 1) : chord p q s t ≤ 3 := by
  obtain ⟨hp₀, hp₁⟩ := hp
  obtain ⟨hq₀, hq₁⟩ := hq
  obtain ⟨hs₀, hs₁⟩ := hs
  obtain ⟨ht₀, ht₁⟩ := ht
  have rest_p : 0 ≤ 1 - p := by linarith
  have rest_q : 0 ≤ 1 - q := by linarith
  have rest_s : 0 ≤ 1 - s := by linarith
  have rest_t : 0 ≤ 1 - t := by linarith
  have neither : 0 ≤ 3 - (s ^ 2 + s * t + t ^ 2) := by nlinarith
  have first :
      0 ≤ 4 * (s * (1 - s)) + 4 * (t * (1 - t)) + 2 * (s * (1 - t)) + 2 * (t * (1 - s)) := by
    positivity
  have second : 0 ≤ 3 / 2 * (s + t - 1) ^ 2 + 1 / 2 * (s - t) ^ 2 + 3 / 2 := by positivity
  have both : 0 ≤ 3 - ((1 - s) ^ 2 + (1 - s) * (1 - t) + (1 - t) ^ 2) := by nlinarith
  have corners : 3 - chord p q s t =
      (1 - p) * (1 - q) * (3 - (s ^ 2 + s * t + t ^ 2))
        + p * (1 - q)
          * (4 * (s * (1 - s)) + 4 * (t * (1 - t)) + 2 * (s * (1 - t)) + 2 * (t * (1 - s)))
        + (1 - p) * q * (3 / 2 * (s + t - 1) ^ 2 + 1 / 2 * (s - t) ^ 2 + 3 / 2)
        + p * q * (3 - ((1 - s) ^ 2 + (1 - s) * (1 - t) + (1 - t) ^ 2)) := by
    unfold chord
    ring
  have gap : 0 ≤ 3 - chord p q s t := by
    rw [corners]
    positivity
  linarith

theorem cubic_rise (hp : 0 ≤ p ∧ p ≤ 1) (hq : 0 ≤ q ∧ q ≤ 1) (hs : 0 ≤ s) (order : s ≤ t)
    (ht : t ≤ 1) : cubic p q t - cubic p q s ≤ 3 * (t - s) := by
  have slope := chord_le hp hq ⟨hs, order.trans ht⟩ ⟨hs.trans order, ht⟩
  rw [cubic_sub, mul_comm 3]
  exact mul_le_mul_of_nonneg_left slope (sub_nonneg.mpr order)

end Speed

/-- Two bounds in the unit interval with the wanted abscissa between theirs. -/
structure Brackets (p q x low high : Rat) : Prop where
  zero_le : 0 ≤ low
  ordered : low ≤ high
  le_one : high ≤ 1
  below : cubic p q low ≤ x
  above : x ≤ cubic p q high

namespace Brackets
variable {p q x low high middle : Rat}

theorem middle_between (held : Brackets p q x low high) :
    low ≤ (low + high) / 2 ∧ (low + high) / 2 ≤ high := by
  have ordered := held.ordered
  constructor <;> linarith

theorem middle_unit (held : Brackets p q x low high) :
    0 ≤ (low + high) / 2 ∧ (low + high) / 2 ≤ 1 := by
  obtain ⟨after, before⟩ := held.middle_between
  exact ⟨held.zero_le.trans after, before.trans held.le_one⟩

theorem near (held : Brackets p q x low high) (hp : 0 ≤ p ∧ p ≤ 1) (hq : 0 ≤ q ∧ q ≤ 1) :
    |cubic p q ((low + high) / 2) - x| ≤ 3 * (high - low) / 2 := by
  obtain ⟨after, before⟩ := held.middle_between
  have up := cubic_rise hp hq held.zero_le after held.middle_unit.2
  have down := cubic_rise hp hq held.middle_unit.1 before held.le_one
  have below := held.below
  have above := held.above
  rw [abs_le]
  constructor <;> linarith

theorem upper (held : Brackets p q x low high) (after : low ≤ middle) (before : middle ≤ high)
    (under : cubic p q middle ≤ x) : Brackets p q x middle high :=
  ⟨held.zero_le.trans after, before, held.le_one, under, held.above⟩

theorem lower (held : Brackets p q x low high) (after : low ≤ middle) (before : middle ≤ high)
    (beyond : x ≤ cubic p q middle) : Brackets p q x low middle :=
  ⟨held.zero_le, after, before.trans held.le_one, held.below, beyond⟩

theorem unit (low : 0 ≤ x) (high : x ≤ 1) : Brackets p q x 0 1 := by
  have start : cubic p q 0 = 0 := by
    unfold cubic
    ring
  have stop : cubic p q 1 = 1 := by
    unfold cubic
    ring
  exact ⟨le_refl 0, zero_le_one, le_refl 1, start.le.trans low, high.trans stop.ge⟩

end Brackets

section Search
variable {curve : Curve .exact} {p q x : Rat} {progress : Number .exact}

theorem tolerance_denotes : (tolerance : Number .exact).Denotes (1 / 100000) := by
  refine ⟨rfl, ?_⟩
  decide +kernel

theorem middle_denotes {low high : Number .exact} {l h : Rat} (hl : low.Denotes l)
    (hh : high.Denotes h) : ((low + high) / 2).Denotes ((l + h) / 2) :=
  (hl.add hh).div (.finite 2) (by norm_num)

variable (first : curve.x1.Denotes p) (second : curve.x2.Denotes q)
  (wanted : progress.Denotes x)
include first second wanted

theorem search_step (fuel : Nat) (low high : Number .exact) {middle : Number .exact} {m : Rat}
    (hm : middle.Denotes m) :
    (|cubic p q m - x| < 1 / 100000 ∧
      parameter.go curve progress (fuel + 1) low high middle = middle) ∨
    (cubic p q m ≤ x ∧ parameter.go curve progress (fuel + 1) low high middle =
      parameter.go curve progress fuel middle high ((middle + high) / 2)) ∨
    (x ≤ cubic p q m ∧ parameter.go curve progress (fuel + 1) low high middle =
      parameter.go curve progress fuel low middle ((low + middle) / 2)) := by
  have abscissa : (curve.sampleX middle).Denotes (cubic p q m) := sample_denotes first second hm
  have close := (abscissa.sub wanted).abs.lt_iff tolerance_denotes
  have under := abscissa.lt_iff wanted
  by_cases stops : |cubic p q m - x| < 1 / 100000
  · refine .inl ⟨stops, ?_⟩
    rw [parameter.go, if_pos (close.mpr stops)]
  · rw [parameter.go, if_neg (mt close.mp stops)]
    by_cases less : cubic p q m < x
    · refine .inr (.inl ⟨less.le, ?_⟩)
      rw [if_pos (under.mpr less)]
    · refine .inr (.inr ⟨not_lt.mp less, ?_⟩)
      rw [if_neg (mt under.mp less)]

theorem search_near (hp : 0 ≤ p ∧ p ≤ 1) (hq : 0 ≤ q ∧ q ≤ 1) (fuel : Nat)
    {low high : Number .exact} {l h : Rat} (hl : low.Denotes l) (hh : high.Denotes h)
    (held : Brackets p q x l h) (narrow : 3 * (h - l) < 2 ^ (fuel + 1) * (1 / 100000)) :
    ∃ t, (parameter.go curve progress fuel low high ((low + high) / 2)).Denotes t ∧
      0 ≤ t ∧ t ≤ 1 ∧ |cubic p q t - x| < 1 / 100000 := by
  -- By induction on the steps that are left; each of them halves the distance of the bounds.
  induction fuel generalizing low high l h with
  | zero =>
    have close := held.near hp hq
    exact ⟨(l + h) / 2, middle_denotes hl hh, held.middle_unit.1, held.middle_unit.2, by linarith⟩
  | succ fuel ih =>
    have middle := middle_denotes hl hh
    obtain ⟨after, before⟩ := held.middle_between
    rw [pow_succ] at narrow
    rcases search_step first second wanted fuel low high middle with
      ⟨close, stops⟩ | ⟨under, goes⟩ | ⟨beyond, goes⟩
    · rw [stops]
      exact ⟨(l + h) / 2, middle, held.middle_unit.1, held.middle_unit.2, close⟩
    · rw [goes]
      exact ih middle hh (held.upper after before under) (by linarith)
    · rw [goes]
      exact ih hl middle (held.lower after before beyond) (by linarith)

theorem parameter_near (hp : 0 ≤ p ∧ p ≤ 1) (hq : 0 ≤ q ∧ q ≤ 1) (hx : 0 ≤ x ∧ x ≤ 1) :
    ∃ t, (curve.parameter progress).Denotes t ∧ 0 ≤ t ∧ t ≤ 1 ∧
      |cubic p q t - x| < 1 / 100000 := by
  obtain ⟨low, high⟩ := hx
  have held : Brackets p q x 0 1 := .unit low high
  have narrow : (3 : Rat) * 1 < 2 ^ (23 + 1) * (1 / 100000) := by norm_num
  unfold parameter mostSteps
  rcases search_step first second wanted 23 0 1 wanted with
    ⟨close, stops⟩ | ⟨under, goes⟩ | ⟨beyond, goes⟩
  · rw [stops]
    exact ⟨x, wanted, low, high, close⟩
  · rw [goes]
    exact search_near first second wanted hp hq 23 wanted (.finite 1)
      (held.upper low high under) (by linarith)
  · rw [goes]
    exact search_near first second wanted hp hq 23 .zero wanted
      (held.lower low high beyond) (by linarith)

end Search

theorem ease_of_le_zero (curve : Curve .exact) {progress : Number .exact} (early : progress ≤ 0) :
    curve.ease progress = 0 := by
  rw [ease, if_pos early]

theorem ease_of_one_le (curve : Curve .exact) {progress : Number .exact} (late : 1 ≤ progress) :
    curve.ease progress = 1 := by
  have begun : ¬ progress ≤ 0 := by
    intro early
    cases progress with
    | finite r =>
      have high := ((Denotes.finite 1).le_iff (.finite r)).mp late
      have low := ((Denotes.finite r).le_iff .zero).mp early
      linarith
    | negativeZero => exact absurd late (by decide)
    | infinite negative => cases negative <;> simp_all [LE.le, Number.less, Number.equal]
    | nan => exact absurd late (by decide)
  rw [ease, if_neg begun, if_pos late]

/-- The value of a timing curve over a progress is the ordinate of a point of the curve whose
    abscissa is the progress up to the tolerance.  Before the unit interval it is 0 and after it
    1, and with ordinates of the unit interval it stays there. -/
theorem ease_inverts {curve : Curve .exact} {x1 y1 x2 y2 : Rat}
    (controls : curve.Controls x1 y1 x2 y2) (hx1 : 0 ≤ x1 ∧ x1 ≤ 1) (hx2 : 0 ≤ x2 ∧ x2 ≤ 1) :
    (∀ progress x, progress.Denotes x → 0 < x → x < 1 →
      ∃ t, 0 ≤ t ∧ t ≤ 1 ∧ |bezier x1 x2 t - x| < 1 / 100000 ∧
        (curve.ease progress).Denotes (bezier y1 y2 t)) ∧
    (∀ progress, progress ≤ 0 → curve.ease progress = 0) ∧
    (∀ progress, 1 ≤ progress → curve.ease progress = 1) ∧
    (0 ≤ y1 ∧ y1 ≤ 1 → 0 ≤ y2 ∧ y2 ≤ 1 → ∀ progress x, progress.Denotes x →
      ∃ y, (curve.ease progress).Denotes y ∧ 0 ≤ y ∧ y ≤ 1) := by
  have on_curve : ∀ progress x, progress.Denotes x → 0 < x → x < 1 →
      ∃ t, 0 ≤ t ∧ t ≤ 1 ∧ |bezier x1 x2 t - x| < 1 / 100000 ∧
        (curve.ease progress).Denotes (bezier y1 y2 t) := by
    intro progress x wanted low high
    obtain ⟨t, found, after, before, close⟩ :=
      parameter_near controls.x1 controls.x2 wanted hx1 hx2 ⟨low.le, high.le⟩
    refine ⟨t, after, before, ?_, ?_⟩
    · rwa [cubic_bernstein] at close
    · have begun : ¬ progress ≤ 0 := mt (wanted.le_iff .zero).mp (not_le.mpr low)
      have running : ¬ 1 ≤ progress := mt ((Denotes.finite 1).le_iff wanted).mp (not_le.mpr high)
      rw [ease, if_neg begun, if_neg running]
      have ordinate := sample_denotes controls.y1 controls.y2 found
      rwa [cubic_bernstein] at ordinate
  refine ⟨on_curve, fun progress => ease_of_le_zero curve, fun progress => ease_of_one_le curve, ?_⟩
  intro hy1 hy2 progress x wanted
  by_cases early : progress ≤ 0
  · exact ⟨0, ease_of_le_zero curve early ▸ .zero, le_refl 0, zero_le_one⟩
  by_cases late : 1 ≤ progress
  · exact ⟨1, ease_of_one_le curve late ▸ .finite 1, zero_le_one, le_refl 1⟩
  have low := not_le.mp (mt (wanted.le_iff .zero).mpr early)
  have high := not_le.mp (mt ((Denotes.finite 1).le_iff wanted).mpr late)
  obtain ⟨t, after, before, _, ordinate⟩ := on_curve progress x wanted low high
  have range := cubic_mem_unit hy1 hy2 ⟨after, before⟩
  rw [cubic_bernstein] at range
  exact ⟨_, ordinate, range⟩

def steep : Curve .exact := ⟨.finite 1, .finite 0, .finite 0, .finite 1⟩

theorem steep_over_a_third :
    (∃ t, 0 ≤ t ∧ t ≤ 1 ∧ |bezier 1 0 t - 1 / 3| < 1 / 100000 ∧
      (steep.ease (.finite (1 / 3))).Denotes (bezier 0 1 t)) ∧
    steep.ease (.finite (-1 / 2)) = 0 ∧ steep.ease (.finite (3 / 2)) = 1 ∧
    ∃ y, (steep.ease (.finite (1 / 3))).Denotes y ∧ 0 ≤ y ∧ y ≤ 1 := by
  have controls : steep.Controls 1 0 0 1 := ⟨.finite 1, .finite 0, .finite 0, .finite 1⟩
  obtain ⟨inside, early, late, range⟩ := ease_inverts controls (by norm_num) (by norm_num)
  refine ⟨inside _ _ (.finite (1 / 3)) (by norm_num) (by norm_num), early _ (by decide +kernel),
    late _ (by decide +kernel), ?_⟩
  exact range (by norm_num) (by norm_num) _ _ (.finite (1 / 3))

end DeclarativeAnimation.Curve
