import DeclarativeAnimation.Number.Operations

/-! Numbers as text.  `shortest` writes the fewest digits that read back as the same number,
    `fixed` a given number of places, `significant` a given number of digits.  Where digits are
    cut, the decimal closest to the exact value is taken, a tie going to the even digit. -/
namespace DeclarativeAnimation.Number
variable {A : Arithmetic}

def decimalLength (n : Nat) : Nat := (Nat.toDigits 10 n).length

def decimalExponent (q : Rat) : Int :=
  if 1 ≤ q then (decimalLength q.floor.toNat : Int) - 1
  else -(decimalLength ((q.den - 1) / q.num.toNat) : Int)

/-- Of the two neighbours of `q` on the grid of multiples of `10 ^ unit`, the one that reads
    back as the same number, and the nearer one if both do. -/
def shortestOn? (A : Arithmetic) (q : Rat) (unit : Int) : Option Nat :=
  let scaled := q / tenPow unit
  let below := scaled.floor.toNat
  let readsBack (n : Nat) : Bool :=
    (nearest (n * tenPow unit) false : Number A) = nearest q false
  let first := (nearestEven scaled).toNat
  let second := if first = below then below + 1 else below
  if readsBack first then some first
  else if readsBack second then some second
  else none

/-- The digits of a positive rational and the power of ten they count: the first of the grids
    with 1, 2, … digits that holds a decimal which reads back.  Seventeen digits always suffice
    for a double. -/
def shortestDigits (A : Arithmetic) (q : Rat) : Nat × Int :=
  let exponent := decimalExponent q
  search 16 exponent
where
  search : Nat → Int → Nat × Int
    | 0, unit => ((nearestEven (q / tenPow unit)).toNat, unit)
    | fuel + 1, unit =>
      match shortestOn? A q unit with
      | some n => (n, unit)
      | none => search fuel (unit - 1)

structure Layout where
  /-- The least power of ten of a first digit that is written without an exponent. -/
  lowest : Int
  /-- The least power of ten of a first digit that takes an exponent again. -/
  highest : Int
  /-- Whether a whole number is written with a fraction of `.0`. -/
  pointed : Bool

def canonicalDigits (digits : Nat) (unit : Int) : List Char × Int :=
  let text := Nat.toDigits 10 digits
  let kept := (text.reverse.dropWhile (· = '0')).reverse
  (if kept.isEmpty then ['0'] else kept, unit + text.length - 1)

def exponentText (e : Int) : List Char :=
  let digits := Nat.toDigits 10 e.natAbs
  'e' :: (if e < 0 then '-' else '+') :: (if digits.length < 2 then '0' :: digits else digits)

def Layout.write (layout : Layout) (digits : Nat) (unit : Int) : List Char :=
  let (text, first) := canonicalDigits digits unit
  if first < layout.lowest || layout.highest ≤ first then
    match text with
    | [] => []
    | d :: rest => d :: (if rest.isEmpty then [] else '.' :: rest) ++ exponentText first
  else if first < 0 then
    '0' :: '.' :: List.replicate (-first - 1).toNat '0' ++ text
  else
    let places := (first + 1).toNat
    let whole := text.take places ++ List.replicate (places - text.length) '0'
    let fraction := text.drop places
    if fraction.isEmpty then if layout.pointed then whole ++ ['.', '0'] else whole
    else whole ++ '.' :: fraction

/-- Numbers in answers and messages: exponents below `-4` and from `16` on, and a fraction
    always. -/
def shortestLayout : Layout := ⟨-4, 16, true⟩

def withSign (write : Rat → List Char) : Number A → String
  | .nan => "nan"
  | .infinite negative => if negative then "-inf" else "inf"
  | .negativeZero => String.ofList ('-' :: write 0)
  | .finite q => if q < 0 then String.ofList ('-' :: write (-q)) else String.ofList (write q)

def shortest (x : Number A) : String :=
  x.withSign fun q =>
    if q = 0 then ['0', '.', '0']
    else
      let (digits, unit) := shortestDigits A q
      shortestLayout.write digits unit

def pointedDigits (places n : Nat) : List Char :=
  let text := Nat.toDigits 10 n
  let padded := List.replicate (places + 1 - text.length) '0' ++ text
  if places = 0 then padded
  else padded.take (padded.length - places) ++ '.' :: padded.drop (padded.length - places)

def fixed (places : Nat) (x : Number A) : String :=
  x.withSign fun q => pointedDigits places (nearestEven (q * tenPow places)).toNat

/-- The number rounded to a given number of digits, zeros at the end dropped; an exponent below
    `-4` and from that many digits on. -/
def significant (count : Nat) (x : Number A) : String :=
  x.withSign fun q =>
    if q = 0 then ['0']
    else
      let unit := decimalExponent q - count + 1
      Layout.write ⟨-4, count, false⟩ (nearestEven (q / tenPow unit)).toNat unit

example : shortest (.finite (1 / 10) : Number .exact) = "0.1" := by decide +kernel
example : shortest (0.1 + 0.2 : Number .binary64) = "0.30000000000000004" := by decide +kernel
example : shortest (.finite (10 ^ 22) : Number .binary64) = "1e+22" := by decide +kernel
example : fixed 2 (0.125 : Number .binary64) = "0.12" := by decide +kernel
example : significant 6 (1234567 : Number .binary64) = "1.23457e+06" := by decide +kernel

end DeclarativeAnimation.Number
