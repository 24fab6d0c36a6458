import DeclarativeAnimation.Proofs.Number.Positional
import DeclarativeAnimation.Proofs.Number.Range

/-! Literals as numbers.  A literal becomes the number nearest to it, although one far out of the
    range of doubles, or far below the smallest of them, is not expanded for that. -/
namespace DeclarativeAnimation

theorem tenPow_eq (e : Int) : tenPow e = (10 : Rat) ^ e := by
  obtain ⟨k, rfl | rfl⟩ := Int.eq_nat_or_neg e
  · rw [tenPow_natCast, zpow_natCast]
  · rw [tenPow_neg_natCast, zpow_neg, zpow_natCast, one_div]

theorem tenPow_pos (e : Int) : 0 < tenPow e := by
  rw [tenPow_eq]
  positivity

theorem tenPow_le_twoPow {e : Int} (low : e ≤ 0) : tenPow e ≤ twoPow (3 * e) := by
  obtain ⟨k, rfl⟩ := Int.exists_eq_neg_ofNat low
  rw [tenPow_eq, twoPow_eq, zpow_mul, zpow_neg, zpow_neg, zpow_natCast, zpow_natCast]
  exact inv_anti₀ (by positivity) (pow_le_pow_left₀ (by norm_num) (by norm_num) k)

theorem nearestDouble_vanished {q : Rat} (nonneg : 0 ≤ q) (tiny : q ≤ twoPow (-1076)) :
    nearestDouble q = 0 := by
  have least : nearestDouble (twoPow (-1076)) = 0 := by decide +kernel
  exact le_antisymm (least ▸ nearestDouble_mono tiny) (nearestDouble_nonneg nonneg)

namespace Number

theorem nearest_tiny {q : Rat} (pos : 0 < q) (tiny : q ≤ twoPow (-1076)) (negative : Bool) :
    (nearest (if negative then -q else q) negative : Number .binary64) = nearest 0 negative := by
  have vanished := nearestDouble_vanished pos.le tiny
  unfold nearest
  cases negative <;> simp [vanished, nearestDouble_neg, pos.ne', pos, pos.le]

theorem nearest_huge {q : Rat} (huge : twoPow 1024 ≤ q) (negative : Bool) :
    (nearest (if negative then -q else q) negative : Number .binary64) = .infinite negative := by
  have power := twoPow_pos 1024
  have fixed : nearestDouble (twoPow 1024) = twoPow 1024 :=
    nearestDouble_of_onGrid (onGrid_twoPow (by decide))
  have rounded : twoPow 1024 ≤ nearestDouble q := fixed ▸ nearestDouble_mono huge
  have nonzero : q ≠ 0 := (power.trans_le huge).ne'
  have some_size : nearestDouble q ≠ 0 := (power.trans_le rounded).ne'
  have other : ¬ twoPow 1024 ≤ -nearestDouble q := by linarith
  unfold nearest
  cases negative <;> simp [nearestDouble_neg, nonzero, some_size, rounded, other]

end Number

namespace Decimal

open Number Arithmetic

variable {A : Arithmetic} {d : Decimal}

theorem value_signed (d : Decimal) :
    d.value = if d.negative then -(d.digits * tenPow d.exponent) else d.digits * tenPow d.exponent :=
  rfl

theorem value_nonneg (plus : d.negative = false) : 0 ≤ d.value := by
  rw [value_signed, plus, if_neg Bool.false_ne_true]
  exact mul_nonneg (Nat.cast_nonneg _) (tenPow_pos _).le

/-- A literal becomes the number nearest to it. -/
theorem toNumber_nearest (d : Decimal) : (d.toNumber : Number A) = nearest d.value d.negative := by
  cases A with
  | exact => rfl
  | binary64 =>
    unfold toNumber
    dsimp only
    rw [value_signed]
    split
    · rename_i none
      simp [none]
    rename_i some_digit
    have digit : (1 : Rat) ≤ d.digits := by exact_mod_cast Nat.one_le_iff_ne_zero.mpr some_digit
    split
    · rename_i large
      have bound : twoPow 1024 ≤ (10 : Rat) ^ (400 : Int) := by decide +kernel
      have power : (10 : Rat) ^ (400 : Int) ≤ tenPow d.exponent := by
        rw [tenPow_eq]
        exact zpow_le_zpow_right₀ (by norm_num) large
      have huge := bound.trans (power.trans (le_mul_of_one_le_left (tenPow_pos _).le digit))
      exact (nearest_huge huge d.negative).symm
    split
    · rename_i small
      have digits : (d.digits : Rat) ≤ twoPow (d.digits.log2 + 1 : Nat) := by
        rw [twoPow_eq, zpow_natCast]
        exact_mod_cast (Nat.lt_log2_self).le
      have places := tenPow_le_twoPow (e := d.exponent) (by omega)
      have tiny : d.digits * tenPow d.exponent ≤ twoPow (-1076) := by
        calc d.digits * tenPow d.exponent
            ≤ twoPow (d.digits.log2 + 1 : Nat) * twoPow (3 * d.exponent) :=
              mul_le_mul digits places (tenPow_pos _).le (twoPow_pos _).le
          _ = twoPow ((d.digits.log2 + 1 : Nat) + 3 * d.exponent) := by
              rw [twoPow_eq, twoPow_eq, twoPow_eq, zpow_add₀ two_ne_zero]
          _ ≤ twoPow (-1076) := twoPow_mono (by push_cast; omega)
      exact (nearest_tiny (mul_pos (by linarith) (tenPow_pos _)) tiny d.negative).symm
    · rfl

theorem toNumber_denotes (spans : A.Spans d.value) :
    (d.toNumber : Number A).Denotes (A.round d.value) := by
  rw [toNumber_nearest]
  exact nearest_denotes spans d.negative

theorem toNumber_holds (d : Decimal) (finite : (d.toNumber : Number A).isFinite) :
    ∃ q, (d.toNumber : Number A).Holds q := by
  rw [toNumber_nearest] at finite ⊢
  exact ⟨_, holds_of_nearest finite⟩

theorem toNumber_nonneg (finite : (d.toNumber : Number A).isFinite = true)
    (plus : d.negative = false) : 0 ≤ (d.toNumber : Number A).rat := by
  rw [toNumber_nearest] at finite ⊢
  rw [(nearest_denotes (spans_of_isFinite d.negative finite) d.negative).2]
  have least := round_mono (A := A) (value_nonneg plus)
  rwa [round_zero] at least

end Decimal
end DeclarativeAnimation
