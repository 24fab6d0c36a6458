import DeclarativeAnimation.Number.Operations
import DeclarativeAnimation.Text.Pieces
import DeclarativeAnimation.Text.LetterCase

/-! Decimal literals: `-1.25e3` and the like, with digits of any script.  `Decimal.scan?` reads
    the longest literal a text begins with, `Number.ofText?` a whole text, where blanks at the
    ends, single underscores between digits and the names of infinity and of no number are
    allowed too. -/
namespace DeclarativeAnimation

open Text

/-- A sign, the digits without their point, and the power of ten they are scaled by. -/
structure Decimal where
  negative : Bool
  digits : Nat
  exponent : Int
  deriving DecidableEq, Repr

namespace Decimal

def value (d : Decimal) : Rat :=
  let size := d.digits * tenPow d.exponent
  if d.negative then -size else size

/-- The number closest to the literal.  A double is settled without expanding the power of ten
    when that is far outside the range of doubles. -/
def toNumber {A : Arithmetic} (d : Decimal) : Number A :=
  match A with
  | .exact => .finite d.value
  | .binary64 =>
    if d.digits = 0 then Number.nearest 0 d.negative
    else if 400 ≤ d.exponent then .infinite d.negative
    else if 3 * d.exponent + d.digits.log2 + 1 < -1100 then Number.nearest 0 d.negative
    else Number.nearest d.value d.negative

def scanSign : List Char → Bool × List Char
  | '-' :: rest => (true, rest)
  | '+' :: rest => (false, rest)
  | text => (false, text)

/-- An exponent mark with its digits; without digits after it the mark is not read. -/
def scanExponent (text : List Char) : Int × List Char :=
  match text with
  | mark :: rest =>
    if mark = 'e' || mark = 'E' then
      let (negative, rest) := scanSign rest
      let digits := rest.takeWhile isDigit
      if digits.isEmpty then (0, text)
      else
        let size : Int := digitsValue digits
        (if negative then -size else size, rest.dropWhile isDigit)
    else (0, text)
  | [] => (0, [])

def scanUnsigned? (negative : Bool) (text : List Char) : Option (Decimal × List Char) :=
  let whole := text.takeWhile isDigit
  match text.dropWhile isDigit with
  | '.' :: rest =>
    let fraction := rest.takeWhile isDigit
    if whole.isEmpty && fraction.isEmpty then none
    else
      let (exponent, rest) := scanExponent (rest.dropWhile isDigit)
      some (⟨negative, digitsValue (whole ++ fraction), exponent - fraction.length⟩, rest)
  | rest =>
    if whole.isEmpty then none
    else
      let (exponent, rest) := scanExponent rest
      some (⟨negative, digitsValue whole, exponent⟩, rest)

def scan? (text : List Char) : Option (Decimal × List Char) :=
  let (negative, rest) := scanSign text
  scanUnsigned? negative rest

def whole? (text : List Char) : Option Decimal :=
  match scan? text with
  | some (d, []) => some d
  | _ => none

/-- The text without the underscores that stand between two digits; any other is refused. -/
def joinDigits? (afterDigit : Bool) : List Char → Option (List Char)
  | [] => some []
  | '_' :: c :: rest =>
    if afterDigit && isDigit c then (joinDigits? true rest).map (c :: ·) else none
  | c :: rest => if c = '_' then none else (joinDigits? (isDigit c) rest).map (c :: ·)

/-- The blanks that may surround a number: all but the four separators of records. -/
def isMargin (c : Char) : Bool := isBlank c && !(0x1c ≤ c.toNat && c.toNat ≤ 0x1f)

def integer? (text : List Char) : Option (Int × Nat) := do
  let body ← joinDigits? false (trimWhile isMargin text)
  let (negative, digits) := scanSign body
  if digits.isEmpty || !digits.all isDigit then none
  else
    let size : Int := digitsValue digits
    some (if negative then -size else size, digits.length)

end Decimal

def Number.ofText? {A : Arithmetic} (text : List Char) : Option (Number A) := do
  let body ← Decimal.joinDigits? false (trimWhile Decimal.isMargin text)
  let (negative, rest) := Decimal.scanSign body
  let name := lowercase (String.ofList rest)
  if name = "inf" || name = "infinity" then some (.infinite negative)
  else if name = "nan" then some .nan
  else (Decimal.whole? body).map Decimal.toNumber

example : Decimal.scan? "-1.5e3px".toList = some (⟨true, 15, 2⟩, ['p', 'x']) := by decide +kernel
example : Decimal.scan? "1e".toList = some (⟨false, 1, 0⟩, ['e']) := by decide +kernel
example : (Number.ofText? " 1_0 ".toList : Option (Number .binary64)) = some 10 := by decide +kernel

end DeclarativeAnimation
