import DeclarativeAnimation.Proofs.Number.Conversion
import DeclarativeAnimation.Proofs.Number.NearestMultiple
import DeclarativeAnimation.Proofs.Number.Spelling

/-! Numbers written with so many digits.  The digits are those of the nearest multiple of a power
    of ten, and whether they stand with an exponent, behind zeros or in front of them, the text is
    a literal of that multiple.  It becomes the number that was written if and only if that number
    is nearest to some literal of so many digits. -/
namespace DeclarativeAnimation

open Text

namespace Number

section Layouts

theorem canonicalDigits_parts {digits : Nat} (pos : 0 < digits) (unit : Int) :
    ∃ k : Nat, (canonicalDigits digits unit).2 =
        unit + k + (canonicalDigits digits unit).1.length - 1 ∧
      AreDigits (canonicalDigits digits unit).1 ∧
      digits = digitsValue (canonicalDigits digits unit).1 * 10 ^ k := by
  obtain ⟨tail, parts, zeros⟩ := trimEndWhile_parts (· = '0') (Nat.toDigits 10 digits)
  have all : tail = List.replicate tail.length '0' :=
    List.eq_replicate_of_mem fun c member => of_decide_eq_true (zeros c member)
  have value : digits = digitsValue (trimEndWhile (· = '0') (Nat.toDigits 10 digits)) *
      10 ^ tail.length := by
    have none : digitsValue tail = 0 := by
      rw [all]
      exact digitsValue_zeros _
    have counted := congrArg digitsValue parts
    rwa [digitsValue_toDigits, digitsValue_append, none, Nat.add_zero] at counted
  have some_digit : trimEndWhile (· = '0') (Nat.toDigits 10 digits) ≠ [] := by
    intro none
    rw [none] at value
    exact pos.ne' (value.trans (Nat.zero_mul _))
  have canonical : canonicalDigits digits unit = (trimEndWhile (· = '0') (Nat.toDigits 10 digits),
      unit + (Nat.toDigits 10 digits).length - 1) := by
    unfold canonicalDigits
    dsimp only
    rw [if_neg]
    · rfl
    · exact fun none => some_digit (List.isEmpty_iff.mp none)
  have length := congrArg List.length parts
  rw [List.length_append] at length
  rw [canonical]
  refine ⟨tail.length, ?_, fun c member => ?_, value⟩
  · dsimp only
    omega
  · refine areDigits_toDigits digits c ?_
    rw [parts]
    exact List.mem_append_left _ member

theorem exponentText_spelled (e : Int) :
    ∃ exponent : Decimal.Exponent, exponentText e = exponent.chars ∧ exponent.power = e := by
  have digits := areDigits_toDigits e.natAbs
  have padded : ∃ text, (if (Nat.toDigits 10 e.natAbs).length < 2 then
        '0' :: Nat.toDigits 10 e.natAbs else Nat.toDigits 10 e.natAbs) = text ∧
      text ≠ [] ∧ AreDigits text ∧ digitsValue text = e.natAbs := by
    split
    · have zero : digitsValue ['0'] = 0 := by decide
      refine ⟨_, rfl, List.cons_ne_nil _ _, List.forall_mem_cons.mpr ⟨by decide, digits⟩, ?_⟩
      rw [← List.singleton_append, digitsValue_append, zero, Nat.zero_mul, Nat.zero_add,
        digitsValue_toDigits]
    · exact ⟨_, rfl, Nat.toDigits_ne_nil, digits, digitsValue_toDigits _⟩
  obtain ⟨text, written, some_digit, digits, value⟩ := padded
  unfold exponentText
  dsimp only
  rw [written]
  by_cases negative : e < 0
  · refine ⟨⟨'e', .minus, text, .inl rfl, some_digit, digits.isDigit⟩, ?_, ?_⟩
    · rw [if_pos negative]
      rfl
    · show -((digitsValue text : Nat) : Int) = e
      omega
  · refine ⟨⟨'e', .plus, text, .inl rfl, some_digit, digits.isDigit⟩, ?_, ?_⟩
    · rw [if_neg negative]
      rfl
    · show ((digitsValue text : Nat) : Int) = e
      omega

/-- A literal without a sign that is written so and denotes this. -/
def Spells (text : List Char) (q : Rat) : Prop :=
  ∃ u : Decimal.Unsigned, text = u.chars ∧ (u.decimal false).value = q

section Spelled
variable {text : List Char} (are_digits : AreDigits text)
include are_digits

theorem spells_scientific {d : Char} {rest : List Char} (parts : text = d :: rest) (e : Int) :
    Spells (d :: (if rest.isEmpty then [] else '.' :: rest) ++ exponentText e)
      (digitsValue text * 10 ^ (e - text.length + 1)) := by
  obtain ⟨exponent, written, power⟩ := exponentText_spelled e
  have places : (if rest.isEmpty then none else some rest).getD [] = rest := by
    split
    · rename_i none
      exact (List.isEmpty_iff.mp none).symm
    · rfl
  have same : [d] ++ (if rest.isEmpty then none else some rest).getD [] = text := by
    rw [places, parts]
    rfl
  refine ⟨⟨[d], if rest.isEmpty then none else some rest, some exponent, by simp, ?_⟩, ?_, ?_⟩
  · rw [same]
    exact are_digits.isDigit
  · rw [written]
    unfold Decimal.Unsigned.chars Decimal.Unsigned.pointed
    split <;> rfl
  · have length : e - text.length + 1 = e - rest.length := by
      rw [parts, List.length_cons]
      push_cast
      ring
    unfold Decimal.Unsigned.decimal Decimal.Unsigned.places
    rw [Decimal.value_signed, length]
    dsimp only
    rw [if_neg Bool.false_ne_true, same, places, tenPow_eq]
    show _ * (10 : Rat) ^ (exponent.power - (rest.length : Int)) = _
    rw [power]

omit are_digits in
theorem spells_positional (t : Positional) :
    Spells t.unsigned
      (digitsValue (t.whole ++ t.fraction) * 10 ^ (-(t.fraction.length : Int))) := by
  refine ⟨t.size, t.size_chars.symm, ?_⟩
  rw [t.size_decimal, Decimal.value_signed]
  dsimp only
  rw [if_neg Bool.false_ne_true, tenPow_eq]
  rfl

theorem spells_small (some_digit : text ≠ []) (zeros : Nat) :
    Spells ('0' :: '.' :: List.replicate zeros '0' ++ text)
      (digitsValue text * 10 ^ (-(zeros + text.length : Int))) := by
  have zero : (List.replicate (zeros + 1) '0') = ['0'] ++ List.replicate zeros '0' :=
    List.replicate_succ
  have spelled := spells_positional {
    negative := false, whole := ['0'], fraction := List.replicate zeros '0' ++ text
    some_digit := by simp
    digits := by
      rw [← List.append_assoc, ← zero]
      refine List.forall_mem_append.mpr ⟨fun c member => ?_, are_digits⟩
      rw [List.eq_of_mem_replicate member]
      decide }
  have value : digitsValue (['0'] ++ (List.replicate zeros '0' ++ text)) = digitsValue text := by
    rw [← List.append_assoc, ← zero, digitsValue_append, digitsValue_zeros, Nat.zero_mul,
      Nat.zero_add]
  have pointed : fractionChars (List.replicate zeros '0' ++ text) =
      '.' :: (List.replicate zeros '0' ++ text) := if_neg (by simp [some_digit])
  unfold Positional.unsigned at spelled
  dsimp only at spelled
  rw [value, pointed, List.length_append, List.length_replicate] at spelled
  push_cast at spelled
  exact spelled

omit are_digits in
theorem spells_whole {whole : List Char} (some_digit : whole ≠ []) (digits : AreDigits whole)
    (pointed : Bool) :
    Spells (if pointed then whole ++ ['.', '0'] else whole) (digitsValue whole) := by
  cases pointed with
  | true =>
    have spelled := spells_positional {
      negative := false, whole := whole, fraction := ['0'], some_digit := some_digit
      digits := List.forall_mem_append.mpr ⟨digits, List.forall_mem_singleton.mpr (by decide)⟩ }
    have zero : digitsValue ['0'] = 0 := by decide
    dsimp only at spelled
    rw [digitsValue_append, zero] at spelled
    simpa [Positional.unsigned, fractionChars] using spelled
  | false =>
    have spelled := spells_positional {
      negative := false, whole := whole, fraction := [], some_digit := some_digit
      digits := by rwa [List.append_nil] }
    simpa [Positional.unsigned, fractionChars] using spelled

theorem spells_plain (some_digit : text ≠ []) {places : Nat} (some_place : 0 < places)
    (pointed : Bool) :
    Spells
      (if (text.drop places).isEmpty then
        if pointed then text.take places ++ List.replicate (places - text.length) '0' ++ ['.', '0']
        else text.take places ++ List.replicate (places - text.length) '0'
      else text.take places ++ List.replicate (places - text.length) '0' ++
        '.' :: text.drop places)
      (digitsValue text * 10 ^ ((places : Int) - text.length)) := by
  split
  · rename_i none
    have short : text.length ≤ places := List.drop_eq_nil_iff.mp (List.isEmpty_iff.mp none)
    have length : ((places : Int) - text.length) = (places - text.length : Nat) := by omega
    have digits : AreDigits (text ++ List.replicate (places - text.length) '0') := by
      refine List.forall_mem_append.mpr ⟨are_digits, fun c member => ?_⟩
      rw [List.eq_of_mem_replicate member]
      decide
    have spelled := spells_whole (List.append_ne_nil_of_left_ne_nil some_digit _) digits pointed
    rw [digitsValue_append, digitsValue_zeros, List.length_replicate, Nat.add_zero] at spelled
    push_cast at spelled
    rw [List.take_of_length_le short, length, zpow_natCast]
    exact spelled
  · rename_i some_left
    have long : places < text.length := by
      by_contra short
      exact some_left (by simpa using short)
    have taken : text.take places ≠ [] := by simp [some_digit, some_place.ne']
    have none : places - text.length = 0 := by omega
    have spelled := spells_positional {
      negative := false, whole := text.take places, fraction := text.drop places
      some_digit := taken, digits := by rwa [List.take_append_drop] }
    have pointed : fractionChars (text.drop places) = '.' :: text.drop places :=
      if_neg fun none => some_left (List.isEmpty_iff.mpr none)
    have length : -((text.length - places : Nat) : Int) = (places : Int) - text.length := by omega
    unfold Positional.unsigned at spelled
    dsimp only at spelled
    rw [List.take_append_drop, pointed, List.length_drop, length] at spelled
    rw [none, List.replicate_zero, List.append_nil]
    exact spelled

end Spelled

theorem write_spells (layout : Layout) {digits : Nat} (pos : 0 < digits) (unit : Int) :
    Spells (layout.write digits unit) (digits * 10 ^ unit) := by
  obtain ⟨k, first, are_digits, value⟩ := canonicalDigits_parts pos unit
  have some_digit := canonicalDigits_some digits unit
  unfold Layout.write
  generalize canonicalDigits digits unit = parts at first are_digits value some_digit
  obtain ⟨text, first'⟩ := parts
  dsimp only at first are_digits value some_digit ⊢
  have size : (digits : Rat) * 10 ^ unit = digitsValue text * 10 ^ (first' - text.length + 1) := by
    have power : first' - text.length + 1 = k + unit := by omega
    rw [power, zpow_add₀ (by norm_num), zpow_natCast, ← mul_assoc]
    congr 1
    exact_mod_cast value
  rw [size]
  split
  · obtain ⟨d, rest, parts⟩ := List.exists_cons_of_ne_nil some_digit
    have spelled := spells_scientific are_digits parts first'
    subst parts
    exact spelled
  · split
    · have spelled := spells_small are_digits some_digit (-first' - 1).toNat
      have power : -((-first' - 1).toNat + text.length : Int) = first' - text.length + 1 := by omega
      rwa [power] at spelled
    · have spelled := spells_plain are_digits some_digit (by omega : 0 < (first' + 1).toNat)
        layout.pointed
      have power : ((first' + 1).toNat : Int) - text.length = first' - text.length + 1 := by omega
      rwa [power] at spelled

end Layouts
section Exponents

theorem decimalLength_bounds {n : Nat} (pos : 0 < n) :
    10 ^ (decimalLength n - 1) ≤ n ∧ n < 10 ^ decimalLength n ∧ 0 < decimalLength n := by
  have some_digit : 0 < decimalLength n := Nat.length_toDigits_pos
  refine ⟨?_, (Nat.length_toDigits_le_iff (by decide) some_digit).mp le_rfl, some_digit⟩
  rcases Nat.eq_zero_or_pos (decimalLength n - 1) with none | more
  · rw [none]
    exact pos
  · by_contra less
    have shorter : decimalLength n ≤ decimalLength n - 1 :=
      (Nat.length_toDigits_le_iff (by decide) more).mpr (not_le.mp less)
    omega

theorem exponent_of_large {q : Rat} (large : 1 ≤ q) {length : Nat}
    (length_eq : length = decimalLength q.floor.toNat) :
    (10 : Rat) ^ (length - 1 : Int) ≤ q ∧ q < 10 ^ (length : Int) := by
  have floor : 1 ≤ q.floor := Rat.le_floor_iff.mpr (by exact_mod_cast large)
  obtain ⟨low, high, some_digit⟩ := decimalLength_bounds (n := q.floor.toNat) (by omega)
  have size : ((q.floor.toNat : Nat) : Rat) = q.floor := by
    exact_mod_cast Int.toNat_of_nonneg (by omega : 0 ≤ q.floor)
  have below := Rat.floor_le q
  have above := Rat.lt_floor_add_one q
  push_cast at above
  rw [← size] at below above
  rw [← length_eq] at low high some_digit
  have power : (length : Int) - 1 = (length - 1 : Nat) := by omega
  rw [power, zpow_natCast, zpow_natCast]
  exact ⟨le_trans (by exact_mod_cast low) below, above.trans_le (by exact_mod_cast high)⟩

theorem exponent_of_small {q : Rat} (pos : 0 < q) (small : q < 1) {length : Nat}
    (length_eq : length = decimalLength ((q.den - 1) / q.num.toNat)) :
    (10 : Rat) ^ (-length : Int) ≤ q ∧ q < 10 ^ (-length + 1 : Int) := by
  obtain ⟨n, num⟩ := Int.eq_ofNat_of_zero_le (Rat.num_pos.mpr pos).le
  have parts : q * q.den = n := by
    have fraction := Rat.mul_den_eq_num q
    rwa [num] at fraction
  have den : (0 : Rat) < q.den := by exact_mod_cast q.den_pos
  have some_size : 0 < n := by
    have size := mul_pos pos den
    rw [parts] at size
    exact_mod_cast size
  have less : n < q.den := by
    have size := mul_lt_mul_of_pos_right small den
    rw [parts, one_mul] at size
    exact_mod_cast size
  rw [num, Int.toNat_natCast] at length_eq
  have quotient : 0 < (q.den - 1) / n := Nat.div_pos (by omega) some_size
  obtain ⟨low, high, some_digit⟩ := decimalLength_bounds quotient
  rw [← length_eq] at low high some_digit
  have whole := Nat.div_mul_le_self (q.den - 1) n
  have rest := Nat.lt_div_mul_add (a := q.den - 1) some_size
  have enough : q.den ≤ n * 10 ^ length := by
    have more : ((q.den - 1) / n + 1) * n ≤ 10 ^ length * n := Nat.mul_le_mul_right n high
    rw [Nat.add_mul, Nat.one_mul] at more
    rw [Nat.mul_comm n]
    omega
  have few : n * 10 ^ (length - 1) < q.den := by
    have fewer : 10 ^ (length - 1) * n ≤ (q.den - 1) / n * n := Nat.mul_le_mul_right n low
    rw [Nat.mul_comm n]
    omega
  have power : -(length : Int) + 1 = -((length - 1 : Nat) : Int) := by omega
  rw [power, zpow_neg, zpow_neg, zpow_natCast, zpow_natCast, ← one_div, ← one_div,
    div_le_iff₀ (by positivity), lt_div_iff₀ (by positivity)]
  constructor
  · refine le_of_mul_le_mul_right ?_ den
    rw [one_mul, mul_right_comm, parts]
    exact_mod_cast enough
  · refine lt_of_mul_lt_mul_right ?_ den.le
    rw [one_mul, mul_right_comm, parts]
    exact_mod_cast few

theorem decimalExponent_bounds {q : Rat} (pos : 0 < q) :
    (10 : Rat) ^ decimalExponent q ≤ q ∧ q < 10 ^ (decimalExponent q + 1) := by
  unfold decimalExponent
  split
  · rename_i large
    rw [sub_add_cancel]
    exact exponent_of_large large rfl
  · rename_i small
    exact exponent_of_small pos (not_le.mp small) rfl

end Exponents

/-- The power of ten that the last of so many digits stands for. -/
def lastUnit (count : Nat) (q : Rat) : Int := decimalExponent q - count + 1

def toSignificant (count : Nat) (q : Rat) : Rat :=
  nearestEven (q / 10 ^ lastUnit count q) * 10 ^ lastUnit count q

section Digits
variable {count : Nat} {q : Rat} (pos : 0 < q) (some_digit : 0 < count)
include pos some_digit

theorem units_bounds : (10 : Rat) ^ (count - 1) ≤ q / 10 ^ lastUnit count q ∧
    q / 10 ^ lastUnit count q < 10 ^ count := by
  obtain ⟨low, high⟩ := decimalExponent_bounds pos
  have first : decimalExponent q = (count - 1 : Nat) + lastUnit count q := by
    unfold lastUnit
    omega
  have next : decimalExponent q + 1 = count + lastUnit count q := by
    unfold lastUnit
    omega
  rw [first, zpow_add₀ (by norm_num), zpow_natCast] at low
  rw [next, zpow_add₀ (by norm_num), zpow_natCast] at high
  exact ⟨(le_div_iff₀ (by positivity)).mpr low, (div_lt_iff₀ (by positivity)).mpr high⟩

theorem digits_bounds : (10 ^ (count - 1) : Nat) ≤ nearestEven (q / 10 ^ lastUnit count q) ∧
    nearestEven (q / 10 ^ lastUnit count q) ≤ (10 ^ count : Nat) := by
  obtain ⟨low, high⟩ := units_bounds pos some_digit
  have least := nearestEven_mono low
  have most := nearestEven_mono high.le
  have whole (k : Nat) : nearestEven (10 ^ k : Rat) = (10 ^ k : Nat) := by
    have fixed := nearestEven_intCast (10 ^ k : Nat)
    push_cast at fixed ⊢
    exact fixed
  rw [whole] at least most
  exact ⟨least, most⟩

theorem significant_spells {A : Arithmetic} {x : Number A} (is_q : x.Denotes q) :
    Spells (x.significant count).toList (toSignificant count q) := by
  obtain ⟨least, -⟩ := digits_bounds pos some_digit
  have some_size : 0 < 10 ^ (count - 1) := by positivity
  have finite : x = .finite q := by
    obtain ⟨bounded, rfl⟩ := is_q
    cases x with
    | finite q => rfl
    | negativeZero => exact absurd pos (lt_irrefl 0)
    | infinite negative => cases bounded
    | nan => cases bounded
  have spelled := write_spells ⟨-4, count, false⟩
    (by omega : 0 < (nearestEven (q / 10 ^ lastUnit count q)).toNat) (lastUnit count q)
  have size : (((nearestEven (q / 10 ^ lastUnit count q)).toNat : Nat) : Rat) =
      nearestEven (q / 10 ^ lastUnit count q) := by
    exact_mod_cast Int.toNat_of_nonneg (by omega : 0 ≤ nearestEven (q / 10 ^ lastUnit count q))
  rw [size] at spelled
  subst finite
  unfold significant withSign
  dsimp only
  rw [if_neg (not_lt.mpr pos.le), if_neg pos.ne', String.toList_ofList, tenPow_eq]
  exact spelled

end Digits

section Doubles
variable {c d unit : Rat}

theorem nearestDouble_half (nonneg : 0 ≤ c) :
    |c - nearestDouble c| ≤ 1 / 2 * twoPow (spacing c) := by
  have power := twoPow_pos (spacing c)
  rw [nearestDouble_of_nonneg nonneg, scaled_distance power]
  exact mul_le_mul_of_nonneg_right (IsNearInteger.nearestEven _).near power.le

/-- With fewer digits than doubles have, a double is off by less than half a unit, unless it is so
    small that doubles are further apart than units. -/
theorem nearestDouble_unit (pos : 0 < c) (few : nearestDouble c < 10 ^ 15 * unit) :
    |c - nearestDouble c| < 1 / 2 * unit ∨ spacing c = -1074 ∧ unit ≤ twoPow (-1074) := by
  have half := nearestDouble_half pos.le
  rcases lt_or_ge (-1074) (binaryExponent c - 52) with normal | tiny
  · left
    have same : spacing c = binaryExponent c - 52 := max_eq_left normal.le
    have power : twoPow (spacing c) = twoPow (binaryExponent c) / 2 ^ 52 := by
      rw [same, twoPow_eq, twoPow_eq, zpow_sub₀ two_ne_zero]
      norm_num
    have low := (binaryExponent_bounds pos).1
    have close := abs_le.mp half
    rw [power] at half close
    linarith
  · have same : spacing c = -1074 := max_eq_right tiny
    rw [same] at half
    rcases lt_or_ge (twoPow (-1074)) unit with coarse | fine
    · exact .inl (by linarith)
    · exact .inr ⟨same, fine⟩

theorem spacing_tiny (pos : 0 < d) (small : d ≤ twoPow (-1022)) : spacing d = -1074 := by
  have low := (binaryExponent_bounds pos).1
  have less := lt_of_twoPow_lt ((low.trans small).trans_lt (twoPow_lt (by decide : -1022 < -1021)))
  exact max_eq_right (by omega)

theorem nearestDouble_of_nearer (pos : 0 < c) (same : spacing c = -1074) (pos' : 0 < d)
    (small : d ≤ twoPow (-1022)) (nearer : |d - nearestDouble c| ≤ |c - nearestDouble c|) :
    nearestDouble d = nearestDouble c := by
  have power := twoPow_pos (-1074)
  have rounded := nearestDouble_of_nonneg pos.le
  rw [same] at rounded
  rw [rounded] at nearer
  have nearest := ((isNearestMultiple_iff power).mpr rfl : IsNearestMultiple _ c _).of_nearer power
    nearer
  rw [nearestDouble_of_nonneg pos'.le, spacing_tiny pos' small,
    ← (isNearestMultiple_iff power).mp nearest, rounded]

end Doubles

theorem round_of_units {A : Arithmetic} {q unit : Rat} {n k : Int} (positive : 0 < q)
    (pos : 0 < unit) (step : IsNearestMultiple unit q n) (some_digit : 0 < n) (few : (n : Rat) ≤ 10 ^ 15)
    (below : q < 10 ^ 15 * unit) (nearest : q = A.round (k * unit)) : A.round (n * unit) = q := by
  have kept (close : |q - k * unit| < 1 / 2 * unit) : A.round (n * unit) = q := by
    rw [scaled_distance pos] at close
    have less := lt_of_mul_lt_mul_right close pos.le
    have near : IsNearInteger (q / unit) k := ⟨less.le, fun half => absurd half less.ne⟩
    rw [(step.near pos).unique near, nearest]
  cases A with
  | exact =>
    apply kept
    rw [show k * unit = q from nearest.symm, sub_self, abs_zero]
    linarith
  | binary64 =>
    change q = nearestDouble (k * unit) at nearest
    have nearer := step.nearest k
    rw [abs_sub_comm q, abs_sub_comm q] at nearer
    have some_size : 0 < n * unit := mul_pos (by exact_mod_cast some_digit) pos
    have multiple : 0 < k * unit := by
      by_contra nonpos
      have vanished := nearestDouble_mono (not_lt.mp nonpos)
      rw [nearestDouble_zero, ← nearest] at vanished
      exact not_le.mpr positive vanished
    rcases nearestDouble_unit multiple (nearest ▸ below) with close | ⟨same, fine⟩
    · rw [← nearest, abs_sub_comm] at close
      exact kept close
    · have small : n * unit ≤ twoPow (-1022) := by
        have bound : (10 : Rat) ^ 15 * twoPow (-1074) ≤ twoPow (-1022) := by decide +kernel
        exact (mul_le_mul few fine pos.le (by norm_num)).trans bound
      rw [nearest] at nearer
      exact (nearestDouble_of_nearer multiple same some_size small nearer).trans nearest.symm

section ReadBack
variable {A : Arithmetic} {count : Nat} {q : Rat} (pos : 0 < q) (some_digit : 0 < count)
  (few : count ≤ 15)
include pos some_digit few

theorem round_toSignificant_of_units {k : Int} (nearest : q = A.round (k * 10 ^ lastUnit count q)) :
    A.round (toSignificant count q) = q := by
  have unit : (0 : Rat) < 10 ^ lastUnit count q := by positivity
  have one : 0 < 10 ^ (count - 1) := by positivity
  have power : (10 : Rat) ^ count ≤ 10 ^ 15 := pow_le_pow_right₀ (by norm_num) few
  obtain ⟨-, below⟩ := units_bounds pos some_digit
  obtain ⟨least, most⟩ := digits_bounds pos some_digit
  have short : (nearestEven (q / 10 ^ lastUnit count q) : Rat) ≤ 10 ^ count := by exact_mod_cast most
  exact round_of_units pos unit ((isNearestMultiple_iff unit).mpr rfl) (by omega)
    (short.trans power)
    (((div_lt_iff₀ unit).mp below).trans_le (mul_le_mul_of_nonneg_right power unit.le)) nearest

/-- The digits denote the number itself if and only if it is nearest to some decimal that has so
    many digits. -/
theorem round_toSignificant_iff (fixed : A.round q = q) :
    A.round (toSignificant count q) = q ↔
      ∃ (m : Nat) (e : Int), m < 10 ^ count ∧ q = A.round (m * 10 ^ e) := by
  have ten : (10 : Rat) ≠ 0 := by norm_num
  constructor
  · intro same
    obtain ⟨least, most⟩ := digits_bounds pos some_digit
    obtain ⟨n, digits⟩ := Int.eq_ofNat_of_zero_le ((Int.natCast_nonneg _).trans least)
    have written : toSignificant count q = n * 10 ^ lastUnit count q := by
      unfold toSignificant
      rw [digits]
      rfl
    rw [written] at same
    rcases eq_or_lt_of_le (show n ≤ 10 ^ count by omega) with full | less
    · refine ⟨1, count + lastUnit count q, Nat.one_lt_pow some_digit.ne' (by decide),
        same.symm.trans (congrArg A.round ?_)⟩
      rw [full, zpow_add₀ ten, zpow_natCast]
      push_cast
      rw [one_mul]
    · exact ⟨n, lastUnit count q, less, same.symm⟩
  · rintro ⟨m, e, less, nearest⟩
    rcases le_or_gt (lastUnit count q) e with coarse | fine
    · obtain ⟨j, rfl⟩ := Int.le.dest coarse
      apply round_toSignificant_of_units pos some_digit few (k := m * 10 ^ j)
      refine nearest.trans (congrArg A.round ?_)
      rw [zpow_add₀ ten, zpow_natCast]
      push_cast
      ring
    · -- The decimal lies below the power of ten that the first digit stands for.
      have first : decimalExponent q = (count - 1 : Nat) + lastUnit count q := by
        unfold lastUnit
        omega
      have low := (decimalExponent_bounds pos).1
      have below : (m : Rat) * 10 ^ e ≤ 10 ^ decimalExponent q := by
        calc (m : Rat) * 10 ^ e
            ≤ 10 ^ count * 10 ^ e := by
              gcongr
              exact_mod_cast less.le
          _ = 10 ^ (count + e) := by rw [zpow_add₀ ten, zpow_natCast]
          _ ≤ 10 ^ decimalExponent q := zpow_le_zpow_right₀ (by norm_num) (by omega)
      have between : A.round (10 ^ decimalExponent q) = q := by
        exact le_antisymm ((Arithmetic.round_mono low).trans fixed.le)
          (nearest.le.trans (Arithmetic.round_mono below))
      apply round_toSignificant_of_units pos some_digit few (k := 10 ^ (count - 1))
      rw [first, zpow_add₀ ten, zpow_natCast] at between
      push_cast
      exact between.symm

end ReadBack

theorem spans_toSignificant {A : Arithmetic} {q : Rat} (has : A.Has q) (pos : 0 < q) :
    A.Spans (toSignificant 6 q) := by
  cases A with
  | exact => exact nofun
  | binary64 =>
    have fixed : nearestDouble q = q := has.fixed
    have range := has.spanned rfl
    rw [fixed, abs_of_pos pos] at range
    have most : Arithmetic.binary64.Spans (179769 * 10 ^ 303) := fun _ => by decide +kernel
    obtain ⟨least, many⟩ := digits_bounds pos (by decide : 0 < 6)
    have nonneg : (0 : Rat) ≤ nearestEven (q / 10 ^ lastUnit 6 q) := by
      exact_mod_cast (Int.natCast_nonneg _).trans least
    refine Arithmetic.has_zero.spanned.between most (mul_nonneg nonneg (by positivity)) ?_
    have low := (decimalExponent_bounds pos).1
    have bound : largestDouble < (10 : Rat) ^ (309 : Int) := by decide +kernel
    have first : decimalExponent q < 309 :=
      (zpow_lt_zpow_iff_right₀ (by norm_num)).mp ((low.trans range).trans_lt bound)
    rcases eq_or_lt_of_le (show lastUnit 6 q ≤ 303 by unfold lastUnit; omega) with last | smaller
    · have digits : nearestEven (q / 10 ^ (303 : Int)) ≤ 179769 := by
        have edge : nearestEven (largestDouble / 10 ^ (303 : Int)) = 179769 := by decide +kernel
        rw [← edge]
        exact nearestEven_mono (div_le_div_of_nonneg_right range (by positivity))
      unfold toSignificant
      rw [last]
      exact mul_le_mul_of_nonneg_right (by exact_mod_cast digits) (by positivity)
    · have digits : (nearestEven (q / 10 ^ lastUnit 6 q) : Rat) ≤ 10 ^ 6 := by exact_mod_cast many
      calc toSignificant 6 q
          ≤ 10 ^ 6 * 10 ^ (302 : Int) :=
            mul_le_mul digits (zpow_le_zpow_right₀ (by norm_num) (by omega)) (by positivity)
              (by norm_num)
        _ ≤ 179769 * 10 ^ 303 := by decide +kernel

end Number
end DeclarativeAnimation
