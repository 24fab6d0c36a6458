import DeclarativeAnimation.Proofs.Number.Exact

/-! Sums and products in another order.  In exact arithmetic the order in which numbers are added
    to a number, or multiplied with it, does not matter, infinities and what is no number
    included. -/
namespace DeclarativeAnimation.Number
variable (x y z : Number .exact)

theorem add_comm_exact : x + y = y + x := by
  show x.add y = y.add x
  rcases x with p | _ | (_ | _) | _ <;> rcases y with q | _ | (_ | _) | _ <;>
    simp [add, nearest_exact, rat, add_comm]

theorem add_right_comm_exact : x + y + z = x + z + y := by
  show (x.add y).add z = (x.add z).add y
  rcases x with p | _ | (_ | _) | _ <;> rcases y with q | _ | (_ | _) | _ <;>
    rcases z with r | _ | (_ | _) | _ <;> simp [add, nearest_exact, rat, add_right_comm]
  case negativeZero.finite.finite => exact add_comm q r

def isVoid {A : Arithmetic} (x : Number A) : Bool := x.isNan || x.isZero

variable {x y}

theorem isVoid_of_finite (finite : x.isFinite) : x.isVoid = decide (x.rat = 0) := by
  cases x with
  | finite q => exact (Bool.false_or _).trans (decide_eq_decide.mpr Iff.rfl)
  | negativeZero => rfl
  | _ => cases finite

theorem isNegative_of_finite (finite : x.isFinite) (some_size : x.rat ≠ 0) :
    x.isNegative = decide (x.rat < 0) := by
  cases x with
  | finite q => exact decide_eq_decide.mpr Iff.rfl
  | negativeZero => exact absurd rfl some_size
  | _ => cases finite

theorem mul_of_infinite (unbounded : (x.isFinite && y.isFinite) = false) :
    x * y = if x.isVoid || y.isVoid then .nan else .infinite (x.isNegative != y.isNegative) := by
  show x.mul y = _
  cases x <;> cases y <;> simp_all [mul, isFinite, isVoid, isNan, isZero]

variable (x y)

theorem isFinite_mul : (x * y).isFinite = (x.isFinite && y.isFinite) := by
  cases finite : x.isFinite && y.isFinite with
  | true =>
    rw [Bool.and_eq_true] at finite
    rw [mul_exact finite.1 finite.2]
    rfl
  | false =>
    rw [mul_of_infinite finite]
    split <;> rfl

theorem isVoid_mul : (x * y).isVoid = (x.isVoid || y.isVoid) := by
  cases finite : x.isFinite && y.isFinite with
  | true =>
    rw [Bool.and_eq_true] at finite
    rw [mul_exact finite.1 finite.2, isVoid_of_finite rfl, isVoid_of_finite finite.1,
      isVoid_of_finite finite.2, rat_finite, ← Bool.decide_or]
    exact decide_eq_decide.mpr mul_eq_zero
  | false =>
    rw [mul_of_infinite finite]
    split <;> rename_i void
    · rw [void]
      rfl
    · rw [Bool.eq_false_of_not_eq_true void]
      rfl

variable {x y} in
theorem isNegative_mul (solid : (x.isVoid || y.isVoid) = false) :
    (x * y).isNegative = (x.isNegative != y.isNegative) := by
  cases finite : x.isFinite && y.isFinite with
  | true =>
    rw [Bool.and_eq_true] at finite
    rw [isVoid_of_finite finite.1, isVoid_of_finite finite.2, Bool.or_eq_false_iff,
      decide_eq_false_iff_not, decide_eq_false_iff_not] at solid
    rw [mul_exact finite.1 finite.2, isNegative_of_finite finite.1 solid.1,
      isNegative_of_finite finite.2 solid.2]
    show decide (x.rat * y.rat < 0) = _
    rcases lt_or_gt_of_ne solid.1 with left | left <;>
      rcases lt_or_gt_of_ne solid.2 with right | right
    · rw [decide_eq_false (mul_pos_of_neg_of_neg left right).asymm, decide_eq_true left,
        decide_eq_true right]
      rfl
    · rw [decide_eq_true (mul_neg_of_neg_of_pos left right), decide_eq_true left,
        decide_eq_false right.asymm]
      rfl
    · rw [decide_eq_true (mul_neg_of_pos_of_neg left right), decide_eq_false left.asymm,
        decide_eq_true right]
      rfl
    · rw [decide_eq_false (mul_pos left right).asymm, decide_eq_false left.asymm,
        decide_eq_false right.asymm]
      rfl
  | false =>
    rw [mul_of_infinite finite, solid]
    rfl

theorem mul_right_comm_exact : x * y * z = x * z * y := by
  cases finite : x.isFinite && y.isFinite && z.isFinite with
  | true =>
    simp only [Bool.and_eq_true] at finite
    obtain ⟨⟨is_x, is_y⟩, is_z⟩ := finite
    rw [mul_exact is_x is_y, mul_exact is_x is_z, mul_exact rfl is_z, mul_exact rfl is_y]
    exact congrArg Number.finite (mul_right_comm _ _ _)
  | false =>
    have other : ((x * z).isFinite && y.isFinite) = false := by
      rw [isFinite_mul, Bool.and_right_comm]
      exact finite
    rw [← isFinite_mul] at finite
    rw [mul_of_infinite finite, mul_of_infinite other, isVoid_mul, isVoid_mul, Bool.or_right_comm]
    split
    · rfl
    · rename_i solid
      simp only [Bool.or_eq_true, not_or, Bool.not_eq_true] at solid
      obtain ⟨⟨solid_x, solid_z⟩, solid_y⟩ := solid
      rw [isNegative_mul (by rw [solid_x, solid_y]; rfl),
        isNegative_mul (by rw [solid_x, solid_z]; rfl)]
      cases x.isNegative <;> cases y.isNegative <;> cases z.isNegative <;> rfl

end DeclarativeAnimation.Number
