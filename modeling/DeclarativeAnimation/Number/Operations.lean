import DeclarativeAnimation.Number.Basic

/-! Arithmetic on numbers.  Every operation forms the exact rational first and rounds it once;
    the cases of infinities and signed zeros follow the rules of floating point.  Division by
    zero is the caller's to exclude: here it is no number. -/
namespace DeclarativeAnimation.Number
variable {A : Arithmetic}

def neg : Number A → Number A
  | .nan => .nan
  | .infinite negative => .infinite !negative
  | .negativeZero => .finite 0
  | .finite q => nearest (-q) true

def add : Number A → Number A → Number A
  | .nan, _ => .nan
  | _, .nan => .nan
  | .infinite s, .infinite t => if s = t then .infinite s else .nan
  | .infinite s, _ => .infinite s
  | _, .infinite t => .infinite t
  | .negativeZero, .negativeZero => nearest 0 true
  | x, y => nearest (x.rat + y.rat) false

def sub (x y : Number A) : Number A := add x y.neg

def mul (x y : Number A) : Number A :=
  let negative := x.isNegative != y.isNegative
  match x, y with
  | .nan, _ => .nan
  | _, .nan => .nan
  | .infinite _, y => if y.isZero then .nan else .infinite negative
  | x, .infinite _ => if x.isZero then .nan else .infinite negative
  | x, y => nearest (x.rat * y.rat) negative

def div (x y : Number A) : Number A :=
  let negative := x.isNegative != y.isNegative
  match x, y with
  | .nan, _ => .nan
  | _, .nan => .nan
  | .infinite _, .infinite _ => .nan
  | .infinite _, y => if y.isZero then .nan else .infinite negative
  | _, .infinite _ => nearest 0 negative
  | x, y => if y.isZero then .nan else nearest (x.rat / y.rat) negative

instance : Neg (Number A) := ⟨neg⟩
instance : Add (Number A) := ⟨add⟩
instance : Sub (Number A) := ⟨sub⟩
instance : Mul (Number A) := ⟨mul⟩
instance : Div (Number A) := ⟨div⟩

def abs (x : Number A) : Number A := if x.isNegative then -x else x

def wholeBelow : Number A → Number A
  | .finite q => nearest q.floor false
  | x => x

/-- What is left after taking away the divisor as often as it fits toward zero; it has the sign
    of the dividend and is exact in every arithmetic. -/
def truncatedRemainder (x y : Number A) : Number A :=
  match x, y with
  | .nan, _ => .nan
  | _, .nan => .nan
  | .infinite _, _ => .nan
  | x, .infinite _ => x
  | x, y =>
    if y.isZero then .nan
    else
      let ratio := x.rat / y.rat
      let whole := if ratio < 0 then ratio.ceil else ratio.floor
      nearest (x.rat - y.rat * whole) x.isNegative

/-- Quotient rounded down and the remainder that goes with it, which has the sign of the
    divisor.  The quotient is formed from the exact remainder, then moved to a whole number. -/
def floorDivide (x y : Number A) : Number A × Number A :=
  let part := truncatedRemainder x y
  let quotient := (x - part) / y
  let (part, quotient) :=
    if part.isZero then (nearest 0 y.isNegative, quotient)
    else if y.less 0 != part.less 0 then (part + y, quotient - 1) else (part, quotient)
  let whole :=
    if quotient.isZero then nearest 0 (x.isNegative != y.isNegative)
    else
      let below := quotient.wholeBelow
      if (0.5 : Number A) < quotient - below then below + 1 else below
  (whole, part)

/-- The number moved into the interval from 0 to 1; `nan` stays. -/
def clampUnit (x : Number A) : Number A :=
  if x.isNan then x else
  let above := if (0 : Number A) < x then x else 0
  if above < 1 then above else 1

/-- The square root of a natural number, rounded down: one binary digit of the root for every
    two of the number. -/
def naturalRoot (n : Nat) : Nat :=
  go (n.log2 / 2 + 1) 0
where
  go : Nat → Nat → Nat
    | 0, root => root
    | k + 1, root =>
      let next := root + 2 ^ k
      go k (if next * next ≤ n then next else root)

/-- The root of a rational whose numerator and denominator are squares. -/
def rationalRoot? (q : Rat) : Option Rat :=
  let numerator := naturalRoot q.num.natAbs
  let denominator := naturalRoot q.den
  if numerator * numerator = q.num.natAbs ∧ denominator * denominator = q.den then
    some (mkRat numerator denominator)
  else none

/-- A rational that rounds to the same double as the root of `q`.  A root that is not rational
    lies strictly between two neighbours of a grid much finer than the doubles, and so does the
    middle between them. -/
def rootApproximation (q : Rat) : Rat :=
  match rationalRoot? q with
  | some root => root
  | none =>
    let shift := 70 - binaryExponent q / 2
    let below := naturalRoot (q * twoPow (2 * shift)).floor.toNat
    ((below : Rat) + 1 / 2) * twoPow (-shift)

/-- Square root.  A rational square has its rational root in every arithmetic; the root of any
    other rational is rounded. -/
def sqrt : Number A → Number A
  | .finite q =>
    if q < 0 then .nan
    else nearest (rootApproximation q) false
  | .negativeZero => nearest 0 true
  | .infinite false => .infinite false
  | _ => .nan

end DeclarativeAnimation.Number
