import DeclarativeAnimation.Animation.Basic

/-! Clock values: a number with an optional unit (`2s`, `500ms`, `1.5`), or hours, minutes and
    seconds between colons (`01:02.5`). -/
namespace DeclarativeAnimation.ClockValue
variable {A : Arithmetic}

open Text

def unitSeconds? (unit : List Char) : Option (Number A) :=
  if unit = [] then some 1
  else if unit = ['m', 's'] then some 0.001
  else if unit = ['s'] then some 1
  else if unit = ['m', 'i', 'n'] then some 60
  else if unit = ['h'] then some 3600
  else none

def offset? (text : List Char) : Option (Number A) := do
  let (decimal, rest) ← Decimal.scan? text
  let unit ← unitSeconds? (rest.dropWhile isBlank)
  return decimal.toNumber * unit

def shortField? (text : List Char) : Option (Number A) :=
  if text.all isDigit && (text.length = 1 || text.length = 2) then
    some (Decimal.toNumber ⟨false, digitsValue text, 0⟩)
  else none

def secondsField? (text : List Char) : Option (Number A) :=
  let whole := text.takeWhile isDigit
  match text.dropWhile isDigit with
  | [] => shortField? text
  | '.' :: fraction =>
    if (whole.length = 1 || whole.length = 2) && !fraction.isEmpty && fraction.all isDigit then
      some (Decimal.toNumber ⟨false, digitsValue (whole ++ fraction), -(fraction.length : Int)⟩)
    else none
  | _ => none

def hoursField? (text : List Char) : Option (Number A) :=
  if !text.isEmpty && text.all isDigit then
    some (Decimal.toNumber ⟨false, digitsValue text, 0⟩)
  else none

def clock? (text : List Char) : Option (Number A) := do
  match pieces (· == ':') text with
  | [minutes, seconds] =>
    let minutes ← shortField? minutes
    let seconds ← secondsField? seconds
    return (0 : Number A) * 3600 + minutes * 60 + seconds
  | [hours, minutes, seconds] =>
    let hours ← hoursField? hours
    let minutes ← shortField? minutes
    let seconds ← secondsField? seconds
    return hours * 3600 + minutes * 60 + seconds
  | _ => none

def ofText? (text : List Char) : Option (Number A) :=
  let text := trim text
  match offset? text with
  | some seconds => if seconds.isFinite then some seconds else none
  | none => clock? text

/-- The seconds that a value denotes; numbers are seconds themselves. -/
def read? (v : Value A) : Except Fault (Option (Number A)) :=
  match v with
  | .int _ | .number _ => do
    let x ← v.toNumber
    return if x.isFinite then some x else none
  | .text s => .ok (ofText? s.toList)
  | _ => .ok none

def seconds (v : Value A) : Except Fault (Number A) := do
  return (← read? v).getD 0

example : (ofText? "500ms".toList : Option (Number .exact)) = some (.finite (1 / 2)) := by
  decide +kernel
example : (ofText? "01:02.5".toList : Option (Number .exact)) = some (.finite (125 / 2)) := by
  decide +kernel

end DeclarativeAnimation.ClockValue
