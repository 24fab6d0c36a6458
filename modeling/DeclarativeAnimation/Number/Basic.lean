/-! Numbers as a timeline computes with them.  A `Number` is an exact rational, a zero that
    remembers a minus sign, an infinity, or no number at all.  Its type names the arithmetic it
    is kept in, so that one text of a formula serves the running program, whose results are
    rounded to doubles, and the theory, whose results are not rounded. -/
namespace DeclarativeAnimation

inductive Arithmetic where
  /-- Every result is rounded once to the nearest double, a tie to the even one. -/
  | binary64
  /-- Every result is the rational it denotes. -/
  | exact
  deriving DecidableEq, Repr

inductive Number (A : Arithmetic) where
  | finite (value : Rat)
  | negativeZero
  | infinite (negative : Bool)
  | nan
  deriving DecidableEq, Repr

namespace Number
variable {A : Arithmetic}

instance : Inhabited (Number A) := ⟨.finite 0⟩

/-- The rational a finite number denotes; the others count as zero. -/
def rat : Number A → Rat
  | .finite q => q
  | _ => 0

def isNan : Number A → Bool
  | .nan => true
  | _ => false

def isFinite : Number A → Bool
  | .finite _ | .negativeZero => true
  | _ => false

def isNegative : Number A → Bool
  | .finite q => q < 0
  | .negativeZero => true
  | .infinite negative => negative
  | .nan => false

def isZero : Number A → Bool
  | .finite q => q = 0
  | .negativeZero => true
  | _ => false

def isInteger : Number A → Bool
  | .finite q => q.den = 1
  | .negativeZero => true
  | _ => false

/-- Order of the extended line; nothing is below or above `nan`. -/
def less : Number A → Number A → Bool
  | .nan, _ => false
  | _, .nan => false
  | .infinite s, .infinite t => s && !t
  | .infinite s, _ => s
  | _, .infinite t => !t
  | x, y => x.rat < y.rat

/-- Equality of values: both zeros are one value, and `nan` equals nothing. -/
def equal : Number A → Number A → Bool
  | .nan, _ => false
  | _, .nan => false
  | .infinite s, .infinite t => s == t
  | .infinite _, _ => false
  | _, .infinite _ => false
  | x, y => x.rat == y.rat

instance : LT (Number A) := ⟨fun x y => x.less y = true⟩
instance : LE (Number A) := ⟨fun x y => (x.less y || x.equal y) = true⟩
instance (x y : Number A) : Decidable (x < y) := inferInstanceAs (Decidable (_ = true))
instance (x y : Number A) : Decidable (x ≤ y) := inferInstanceAs (Decidable (_ = true))

/-- The later argument wins only when it is strictly greater. -/
def larger (x y : Number A) : Number A := if x < y then y else x

def smaller (x y : Number A) : Number A := if y < x then y else x

@[simp] theorem rat_finite (q : Rat) : (Number.finite q : Number A).rat = q := rfl

@[simp] theorem finite_lt_finite (p q : Rat) :
    (Number.finite p : Number A) < .finite q ↔ p < q := by
  show (decide (p < q)) = true ↔ p < q
  exact decide_eq_true_iff

theorem not_nan_lt (x : Number A) : ¬ (Number.nan : Number A) < x := by
  show ¬ (less .nan x = true)
  simp [less]

end Number

def nearestEven (q : Rat) : Int :=
  let k := q.floor
  if q - k < 1 / 2 then k else if 1 / 2 < q - k then k + 1 else k + k % 2

def twoPow (e : Int) : Rat :=
  if 0 ≤ e then (Nat.pow 2 e.toNat : Rat) else mkRat 1 (Nat.pow 2 (-e).toNat)

def tenPow (e : Int) : Rat :=
  if 0 ≤ e then (Nat.pow 10 e.toNat : Rat) else mkRat 1 (Nat.pow 10 (-e).toNat)

def binaryExponent (q : Rat) : Int :=
  let e : Int := (q.num.natAbs.log2 : Int) - q.den.log2
  if q < twoPow e then e - 1 else e

/-- The spacing of doubles around `q`, as a power of two: 53 binary digits, and never below
    the smallest subnormal. -/
def spacing (q : Rat) : Int := max (binaryExponent q - 52) (-1074)

def nearestDouble (q : Rat) : Rat :=
  let unit := twoPow (spacing (if q < 0 then -q else q))
  nearestEven (q / unit) * unit

namespace Number
variable {A : Arithmetic}

/-- The number a computed rational becomes.  A result of zero has no sign of its own and takes
    the one that is given; exact arithmetic has one zero. -/
def nearest (q : Rat) (negative : Bool) : Number A :=
  match A with
  | .exact => .finite q
  | .binary64 =>
    if q = 0 then if negative then .negativeZero else .finite 0
    else
      let r := nearestDouble q
      if r = 0 then if q < 0 then .negativeZero else .finite 0
      else if twoPow 1024 ≤ r then .infinite false
      else if r ≤ -twoPow 1024 then .infinite true
      else .finite r

def ofRat (q : Rat) : Number A := nearest q false

def ofInt (n : Int) : Number A := ofRat n

/-- Numerals of formulas are small enough to be the same in every arithmetic. -/
instance (n : Nat) : OfNat (Number A) n := ⟨.finite n⟩

instance : OfScientific (Number A) :=
  ⟨fun mantissa down exponent => ofRat (OfScientific.ofScientific mantissa down exponent)⟩

@[simp] theorem nearest_exact (q : Rat) (negative : Bool) :
    (nearest q negative : Number .exact) = .finite q := rfl

@[simp] theorem ofRat_exact (q : Rat) : (ofRat q : Number .exact) = .finite q := rfl

end Number
end DeclarativeAnimation
