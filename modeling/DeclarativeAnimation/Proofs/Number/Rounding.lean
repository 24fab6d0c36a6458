import DeclarativeAnimation.Number.Basic
import Mathlib.Algebra.Order.Field.Power
import Mathlib.Algebra.Order.Ring.Rat
import Mathlib.Tactic.Linarith
import Mathlib.Tactic.Ring

/-! Rounding to doubles.  The doubles around a rational are the multiples of a power of two, its
    spacing, and rounding goes to the nearest of them.  It keeps order and sign, and it leaves
    every rational alone that is on the grid of its own spacing, as all results are. -/
namespace DeclarativeAnimation

theorem twoPow_eq (e : Int) : twoPow e = (2 : Rat) ^ e := by
  unfold twoPow
  split
  · rename_i nonneg
    obtain ⟨n, rfl⟩ := Int.eq_ofNat_of_zero_le nonneg
    simp
  · rename_i negative
    obtain ⟨n, rfl⟩ := Int.exists_eq_neg_ofNat (le_of_not_ge negative)
    simp [Rat.mkRat_eq_div]

theorem twoPow_pos (e : Int) : 0 < twoPow e := by
  rw [twoPow_eq]
  exact zpow_pos two_pos e

theorem twoPow_mono {d e : Int} (le : d ≤ e) : twoPow d ≤ twoPow e := by
  rw [twoPow_eq, twoPow_eq]
  exact zpow_le_zpow_right₀ one_le_two le

theorem twoPow_lt {d e : Int} (lt : d < e) : twoPow d < twoPow e := by
  rw [twoPow_eq, twoPow_eq]
  exact zpow_lt_zpow_right₀ one_lt_two lt

theorem lt_of_twoPow_lt {d e : Int} (lt : twoPow d < twoPow e) : d < e := by
  by_contra ge
  exact absurd (twoPow_mono (not_lt.mp ge)) (not_le.mpr lt)

theorem twoPow_multiple {d e : Int} (le : d ≤ e) : ∃ m : Int, twoPow e = m * twoPow d := by
  obtain ⟨n, rfl⟩ := Int.le.dest le
  refine ⟨2 ^ n, ?_⟩
  rw [twoPow_eq, twoPow_eq, zpow_add₀ two_ne_zero, zpow_natCast]
  push_cast
  ring

theorem nearestEven_bounds (q : Rat) :
    q - 1 / 2 ≤ nearestEven q ∧ (nearestEven q : Rat) ≤ q + 1 / 2 := by
  have low := Rat.floor_le q
  have high := Rat.lt_floor_add_one q
  push_cast at high
  unfold nearestEven
  dsimp only
  split
  · constructor <;> linarith
  split
  · push_cast
    constructor <;> linarith
  · have half : q - q.floor = 1 / 2 := by linarith
    rcases Int.emod_two_eq_zero_or_one q.floor with even | odd
    · rw [even]
      push_cast
      constructor <;> linarith
    · rw [odd]
      push_cast
      constructor <;> linarith

theorem nearestEven_mono {p q : Rat} (le : p ≤ q) : nearestEven p ≤ nearestEven q := by
  by_contra greater
  have apart : (nearestEven q : Rat) + 1 ≤ nearestEven p := by exact_mod_cast not_le.mp greater
  have below := (nearestEven_bounds p).2
  have above := (nearestEven_bounds q).1
  obtain rfl : p = q := by linarith
  exact greater le_rfl

theorem nearestEven_intCast (k : Int) : nearestEven k = k := by
  have low := (nearestEven_bounds k).1
  have high := (nearestEven_bounds k).2
  have after : k - 1 < nearestEven k := by
    exact_mod_cast (by linarith : (k : Rat) - 1 < nearestEven k)
  have before : nearestEven k < k + 1 := by
    exact_mod_cast (by linarith : (nearestEven k : Rat) < k + 1)
  omega

theorem nearestEven_neg (q : Rat) : nearestEven (-q) = -nearestEven q := by
  have low := Rat.floor_le q
  have high := Rat.lt_floor_add_one q
  push_cast at high
  by_cases whole : (q.floor : Rat) = q
  · rw [← whole]
    have minus : -(q.floor : Rat) = ((-q.floor : Int) : Rat) := by push_cast; rfl
    rw [minus, nearestEven_intCast, nearestEven_intCast]
  · have inside : (q.floor : Rat) < q := lt_of_le_of_ne low whole
    have flipped : (-q).floor = -q.floor - 1 := by
      have upper : (-q).floor < -q.floor := by
        rw [Rat.floor_lt_iff]
        push_cast
        linarith
      have lower : -q.floor - 1 ≤ (-q).floor := by
        rw [Rat.le_floor_iff]
        push_cast
        linarith
      omega
    unfold nearestEven
    dsimp only
    rw [flipped]
    push_cast
    rcases lt_trichotomy (q - q.floor) (1 / 2) with less | half | more
    · rw [if_neg (by linarith), if_pos (by linarith), if_pos less]
      ring
    · rw [if_neg (by linarith), if_neg (by linarith), if_neg (by linarith), if_neg (by linarith)]
      omega
    · rw [if_pos (by linarith), if_neg (by linarith), if_pos more]
      ring

theorem binaryExponent_bounds {q : Rat} (pos : 0 < q) :
    twoPow (binaryExponent q) ≤ q ∧ q < twoPow (binaryExponent q + 1) := by
  have num_pos : 0 < q.num := Rat.num_pos.mpr pos
  have den_pos : (0 : Rat) < q.den := by exact_mod_cast q.den_pos
  have num_low : (2 : Rat) ^ q.num.natAbs.log2 ≤ q.num.natAbs := by
    exact_mod_cast Nat.log2_self_le (by omega)
  have num_high : (q.num.natAbs : Rat) < 2 ^ (q.num.natAbs.log2 + 1) := by
    exact_mod_cast Nat.lt_log2_self
  have den_low : (2 : Rat) ^ q.den.log2 ≤ q.den := by
    exact_mod_cast Nat.log2_self_le q.den_ne_zero
  have den_high : (q.den : Rat) < 2 ^ (q.den.log2 + 1) := by exact_mod_cast Nat.lt_log2_self
  have size : q * q.den = q.num.natAbs := by
    rw [Rat.mul_den_eq_num]
    have same : ((q.num.natAbs : Int) : Rat) = q.num := by rw [Int.natAbs_of_nonneg num_pos.le]
    rw [← same, Int.cast_natCast]
  unfold binaryExponent
  dsimp only
  generalize q.num.natAbs.log2 = a at num_low num_high ⊢
  generalize q.den.log2 = b at den_low den_high ⊢
  have low : twoPow ((a : Int) - b - 1) < q := by
    have split : twoPow ((a : Int) - b - 1) * 2 ^ (b + 1) = 2 ^ a := by
      rw [twoPow_eq, ← zpow_natCast, ← zpow_natCast, ← zpow_add₀ two_ne_zero]
      congr 1
      push_cast
      ring
    have grown := mul_lt_mul_of_pos_left den_high (twoPow_pos ((a : Int) - b - 1))
    by_contra ge
    have scaled := mul_le_mul_of_nonneg_right (not_lt.mp ge) den_pos.le
    linarith
  have high : q < twoPow ((a : Int) - b + 1) := by
    have split : twoPow ((a : Int) - b + 1) * 2 ^ b = 2 ^ (a + 1) := by
      rw [twoPow_eq, ← zpow_natCast, ← zpow_natCast, ← zpow_add₀ two_ne_zero]
      congr 1
      push_cast
      ring
    have grown := mul_le_mul_of_nonneg_left den_low (twoPow_pos ((a : Int) - b + 1)).le
    by_contra ge
    have scaled := mul_le_mul_of_nonneg_right (not_lt.mp ge) den_pos.le
    linarith
  split
  · rename_i less
    rw [sub_add_cancel]
    exact ⟨low.le, less⟩
  · rename_i reached
    exact ⟨not_lt.mp reached, high⟩

theorem binaryExponent_mono {p q : Rat} (pos : 0 < p) (le : p ≤ q) :
    binaryExponent p ≤ binaryExponent q := by
  have low := (binaryExponent_bounds pos).1
  have high := (binaryExponent_bounds (lt_of_lt_of_le pos le)).2
  have less := lt_of_twoPow_lt (lt_of_le_of_lt (low.trans le) high)
  omega

theorem spacing_mono {p q : Rat} (pos : 0 < p) (le : p ≤ q) : spacing p ≤ spacing q := by
  have exponents := binaryExponent_mono pos le
  unfold spacing
  omega

def OnGrid (q : Rat) : Prop := ∃ m : Int, q = m * twoPow (spacing |q|)

theorem nearestDouble_of_nonneg {q : Rat} (nonneg : 0 ≤ q) :
    nearestDouble q = nearestEven (q / twoPow (spacing q)) * twoPow (spacing q) := by
  unfold nearestDouble
  rw [if_neg (not_lt.mpr nonneg)]

theorem nearestDouble_neg (q : Rat) : nearestDouble (-q) = -nearestDouble q := by
  have same : (if -q < 0 then -(-q) else -q) = (if q < 0 then -q else q) ∨ q = 0 := by
    rcases lt_trichotomy q 0 with negative | zero | positive
    · left
      rw [if_neg (by linarith), if_pos negative]
    · exact Or.inr zero
    · left
      rw [if_pos (by linarith), if_neg (by linarith), neg_neg]
  rcases same with same | rfl
  · unfold nearestDouble
    dsimp only
    rw [same, neg_div, nearestEven_neg]
    push_cast
    ring
  · decide +kernel

theorem nearestDouble_zero : nearestDouble 0 = 0 := by decide +kernel

section
variable {q r : Rat}

theorem nearestDouble_le {m : Int} (nonneg : 0 ≤ q) (le : q ≤ m * twoPow (spacing q)) :
    nearestDouble q ≤ m * twoPow (spacing q) := by
  have unit := twoPow_pos (spacing q)
  rw [nearestDouble_of_nonneg nonneg]
  have steps : q / twoPow (spacing q) ≤ m := (div_le_iff₀ unit).mpr le
  have rounded := nearestEven_mono steps
  rw [nearestEven_intCast] at rounded
  exact mul_le_mul_of_nonneg_right (by exact_mod_cast rounded) unit.le

theorem le_nearestDouble {m : Int} (nonneg : 0 ≤ q) (ge : m * twoPow (spacing q) ≤ q) :
    m * twoPow (spacing q) ≤ nearestDouble q := by
  have unit := twoPow_pos (spacing q)
  rw [nearestDouble_of_nonneg nonneg]
  have steps : (m : Rat) ≤ q / twoPow (spacing q) := (le_div_iff₀ unit).mpr ge
  have rounded := nearestEven_mono steps
  rw [nearestEven_intCast] at rounded
  exact mul_le_mul_of_nonneg_right (by exact_mod_cast rounded) unit.le

theorem nearestDouble_le_twoPow {k : Int} (nonneg : 0 ≤ q) (coarse : spacing q ≤ k)
    (le : q ≤ twoPow k) : nearestDouble q ≤ twoPow k := by
  obtain ⟨m, multiple⟩ := twoPow_multiple coarse
  rw [multiple] at le ⊢
  exact nearestDouble_le nonneg le

theorem twoPow_le_nearestDouble {k : Int} (nonneg : 0 ≤ q) (coarse : spacing q ≤ k)
    (ge : twoPow k ≤ q) : twoPow k ≤ nearestDouble q := by
  obtain ⟨m, multiple⟩ := twoPow_multiple coarse
  rw [multiple] at ge ⊢
  exact le_nearestDouble nonneg ge

theorem nearestDouble_nonneg (nonneg : 0 ≤ q) : 0 ≤ nearestDouble q := by
  have bound := le_nearestDouble (m := 0) nonneg (by simpa using nonneg)
  simpa using bound

theorem nearestDouble_mono_of_nonneg (nonneg : 0 ≤ q) (le : q ≤ r) :
    nearestDouble q ≤ nearestDouble r := by
  rcases eq_or_lt_of_le nonneg with zero | pos
  · subst zero
    rw [nearestDouble_zero]
    exact nearestDouble_nonneg le
  have far : 0 < r := lt_of_lt_of_le pos le
  rcases eq_or_lt_of_le (spacing_mono pos le) with same | finer
  · rw [nearestDouble_of_nonneg nonneg, nearestDouble_of_nonneg far.le, ← same]
    have unit := twoPow_pos (spacing q)
    have rounded := nearestEven_mono (div_le_div_of_nonneg_right le unit.le)
    exact mul_le_mul_of_nonneg_right (by exact_mod_cast rounded) unit.le
  · have apart : binaryExponent q < binaryExponent r ∧ spacing r ≤ binaryExponent r := by
      unfold spacing at finer ⊢
      omega
    have between : q ≤ twoPow (binaryExponent r) :=
      (binaryExponent_bounds pos).2.le.trans (twoPow_mono (by omega))
    calc nearestDouble q ≤ twoPow (binaryExponent r) :=
          nearestDouble_le_twoPow nonneg (by omega) between
      _ ≤ nearestDouble r :=
          twoPow_le_nearestDouble far.le apart.2 (binaryExponent_bounds far).1

theorem nearestDouble_mono (le : q ≤ r) : nearestDouble q ≤ nearestDouble r := by
  rcases le_total 0 q with nonneg | nonpos
  · exact nearestDouble_mono_of_nonneg nonneg le
  rcases le_total 0 r with above | below
  · have left := nearestDouble_nonneg (neg_nonneg.mpr nonpos)
    rw [nearestDouble_neg] at left
    exact (neg_nonneg.mp left).trans (nearestDouble_nonneg above)
  · have flipped := nearestDouble_mono_of_nonneg (neg_nonneg.mpr below) (neg_le_neg le)
    rw [nearestDouble_neg, nearestDouble_neg] at flipped
    exact neg_le_neg_iff.mp flipped

theorem nearestDouble_of_onGrid (grid : OnGrid q) : nearestDouble q = q := by
  have kept {p : Rat} (nonneg : 0 ≤ p) (m : Int) (multiple : p = m * twoPow (spacing p)) :
      nearestDouble p = p := by
    have unit := twoPow_pos (spacing p)
    have steps : p / twoPow (spacing p) = m := (div_eq_iff (ne_of_gt unit)).mpr multiple
    rw [nearestDouble_of_nonneg nonneg, steps, nearestEven_intCast]
    exact multiple.symm
  obtain ⟨m, multiple⟩ := grid
  rcases le_total 0 q with nonneg | nonpos
  · rw [abs_of_nonneg nonneg] at multiple
    exact kept nonneg m multiple
  · rw [abs_of_nonpos nonpos] at multiple
    have minus := kept (neg_nonneg.mpr nonpos) (-m) (by push_cast; linarith)
    rw [nearestDouble_neg] at minus
    exact neg_inj.mp minus

theorem onGrid_twoPow {k : Int} (normal : -1074 ≤ k) : OnGrid (twoPow k) := by
  have pos := twoPow_pos k
  have within := (binaryExponent_bounds pos).1
  have less := lt_of_twoPow_lt (lt_of_le_of_lt within (twoPow_lt (lt_add_one k)))
  have coarse : spacing |twoPow k| ≤ k := by
    rw [abs_of_pos pos]
    unfold spacing
    omega
  obtain ⟨m, multiple⟩ := twoPow_multiple coarse
  exact ⟨m, multiple⟩

theorem onGrid_nearestDouble (q : Rat) : OnGrid (nearestDouble q) := by
  have placed {p : Rat} (nonneg : 0 ≤ p) : OnGrid (nearestDouble p) := by
    rcases eq_or_lt_of_le (nearestDouble_nonneg nonneg) with zero | some_size
    · rw [← zero]
      exact ⟨0, by simp⟩
    have pos : 0 < p := by
      rcases eq_or_lt_of_le nonneg with zero | pos
      · rw [← zero, nearestDouble_zero] at some_size
        exact absurd some_size (lt_irrefl 0)
      · exact pos
    by_cases fine : spacing (nearestDouble p) ≤ spacing p
    · obtain ⟨m, multiple⟩ := twoPow_multiple fine
      refine ⟨nearestEven (p / twoPow (spacing p)) * m, ?_⟩
      rw [abs_of_pos some_size]
      push_cast
      rw [mul_assoc, ← multiple]
      exact nearestDouble_of_nonneg nonneg
    · have low := (binaryExponent_bounds some_size).1
      have coarse : spacing p ≤ max (binaryExponent p + 1) (-1074) := by
        unfold spacing
        omega
      have above : p ≤ twoPow (max (binaryExponent p + 1) (-1074)) :=
        (binaryExponent_bounds pos).2.le.trans (twoPow_mono (le_max_left _ _))
      have most := nearestDouble_le_twoPow nonneg coarse above
      have reached : max (binaryExponent p + 1) (-1074) ≤ binaryExponent (nearestDouble p) := by
        unfold spacing at fine
        omega
      have exactly : nearestDouble p = twoPow (max (binaryExponent p + 1) (-1074)) :=
        le_antisymm most ((twoPow_mono reached).trans low)
      rw [exactly]
      exact onGrid_twoPow (le_max_right _ _)
  rcases le_total 0 q with nonneg | nonpos
  · exact placed nonneg
  · obtain ⟨m, multiple⟩ := placed (neg_nonneg.mpr nonpos)
    rw [nearestDouble_neg, abs_neg] at multiple
    exact ⟨-m, by push_cast; linarith⟩

theorem nearestDouble_idem (q : Rat) : nearestDouble (nearestDouble q) = nearestDouble q :=
  nearestDouble_of_onGrid (onGrid_nearestDouble q)

end

def largestDouble : Rat := (2 ^ 53 - 1) * twoPow 971

theorem le_largestDouble {q : Rat} (grid : OnGrid q) (bounded : q < twoPow 1024) :
    q ≤ largestDouble := by
  by_cases top : twoPow 1023 ≤ q
  · have pos : 0 < q := lt_of_lt_of_le (twoPow_pos _) top
    have low := lt_of_twoPow_lt (lt_of_le_of_lt top (binaryExponent_bounds pos).2)
    have high := lt_of_twoPow_lt (lt_of_le_of_lt (binaryExponent_bounds pos).1 bounded)
    have unit : spacing |q| = 971 := by
      rw [abs_of_pos pos]
      unfold spacing
      omega
    obtain ⟨m, multiple⟩ := grid
    rw [unit] at multiple
    have whole : twoPow 1024 = ((2 ^ 53 : Int) : Rat) * twoPow 971 := by decide +kernel
    rw [multiple, whole] at bounded
    have count : m < 2 ^ 53 := by
      exact_mod_cast lt_of_mul_lt_mul_right bounded (twoPow_pos 971).le
    rw [multiple]
    unfold largestDouble
    have steps : (m : Rat) ≤ 2 ^ 53 - 1 := by
      have less : m ≤ 2 ^ 53 - 1 := by omega
      exact_mod_cast less
    exact mul_le_mul_of_nonneg_right steps (twoPow_pos 971).le
  · have small : twoPow 1023 ≤ largestDouble := by decide +kernel
    exact (not_le.mp top).le.trans small

end DeclarativeAnimation
