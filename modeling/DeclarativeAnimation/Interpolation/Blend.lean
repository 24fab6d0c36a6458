import DeclarativeAnimation.Value

/-! What keyframes denote: a number with anything after it, a list of numbers, a color, or the
    components of a transformation.  Then what lies between two keyframes, and which two keyframes
    a progress lies between. -/
namespace DeclarativeAnimation.Keyframe
variable {A : Arithmetic}

open Text

def isSeparator (c : Char) : Bool := isBlank c || c == ','

def leadingNumberOf (text : List Char) : Option (Number A) :=
  match Decimal.scan? (text.dropWhile isBlank) with
  | some (decimal, _) =>
    let x := decimal.toNumber
    if x.isFinite then some x else none
  | none => none

/-- The number that a value begins with.  The text of a list or an object begins with a bracket. -/
def leadingNumber (v : Value A) : Except Fault (Option (Number A)) :=
  match v with
  | .int _ | .number _ => do
    let x ← v.toNumber
    return if x.isFinite then some x else none
  | .text s => .ok (leadingNumberOf s.toList)
  | _ => .ok none

def numbersOf (text : List Char) : Option (List (Number A)) :=
  match words isSeparator (trim text) with
  | [] => none
  | found => found.mapM Number.ofText?

def numbers (v : Value A) : Except Fault (Option (List (Number A))) :=
  match v with
  | .int _ | .number _ => do return some [← v.toNumber]
  | .text s => .ok (numbersOf s.toList)
  | _ => .ok none

structure Color where
  red : Nat
  green : Nat
  blue : Nat
  deriving DecidableEq, Repr

/-- Three hexadecimal digits, each standing for two of its kind, or six; a mark may lead. -/
def colorOf? (text : List Char) : Option Color :=
  let digits := match trim text with
    | '#' :: rest => rest
    | rest => rest
  match digits.mapM hexDigit? with
  | some [r, g, b] => some ⟨17 * r, 17 * g, 17 * b⟩
  | some [r, r', g, g', b, b'] => some ⟨16 * r + r', 16 * g + g', 16 * b + b'⟩
  | _ => none

def color? (v : Value A) : Except Fault (Option Color) :=
  if v.isNull then .ok none else v.spelling (colorOf? v.chars)

def Color.vector (c : Color) : List (Number A) := [.finite c.red, .finite c.green, .finite c.blue]

/-- The point that a text stands for, by which distances between keyframes are measured: a color
    by its channels, else its numbers. -/
def vectorOf (text : List Char) : Option (List (Number A)) :=
  match colorOf? text with
  | some c => some c.vector
  | none => numbersOf text

def vector (v : Value A) : Except Fault (Option (List (Number A))) := do
  match ← color? v with
  | some c => return some c.vector
  | none => numbers v

/-- The components of a transformation: the number each word begins with, words without one
    left out. -/
def components (v : Value A) : Except Fault (List (Number A)) :=
  match v with
  | .null => .ok []
  | .int _ | .number _ => do return [← v.toNumber]
  | _ => v.spelling ((words isSeparator (trim v.chars)).filterMap leadingNumberOf)

example : colorOf? " #0aF ".toList = some ⟨0, 170, 255⟩ := by decide +kernel

end DeclarativeAnimation.Keyframe

namespace DeclarativeAnimation
variable {A : Arithmetic}

def lerp (a b t : Number A) : Number A := a * (1 - t) + b * t

namespace Keyframe

abbrev Blend (A : Arithmetic) := Value A → Value A → Number A → Except Fault (Value A)

def switch {α : Type} (first second : α) (t : Number A) : α := if t < 0.5 then first else second

def roundHalfUp (x : Number A) : Except Fault Int := Value.floor (x + 0.5)

def Color.text (red green blue : Int) : String :=
  "rgb(" ++ Value.intText red ++ ", " ++ Value.intText green ++ ", " ++ Value.intText blue ++ ")"

def blendColor : Blend A := fun first second t => do
  match ← color? first, ← color? second with
  | some a, some b =>
    let channel (x y : Nat) : Except Fault Int := roundHalfUp (lerp (.finite x) (.finite y) t)
    return .text (Color.text (← channel a.red b.red) (← channel a.green b.green)
      (← channel a.blue b.blue))
  | _, _ => return .text (switch first second t).asText

def blendNumber : Blend A := fun first second t => do
  match ← leadingNumber first, ← leadingNumber second with
  | some a, some b => return .number (lerp a b t)
  | _, _ => return switch first second t

def blendSwitch : Blend A := fun first second t => .ok (switch first second t)

/-- The keyframe that a progress has passed last, and the fraction of the way to the next one.
    The last segment holds its right end too. -/
def segment (count : Int) (progress : Number A) : Except Fault (Int × Number A) :=
  if count < 2 then .ok (0, 0)
  else do
    let scaled := progress.clampUnit * .ofInt (count - 1)
    let i := min (max (← Value.floor scaled) 0) (count - 2)
    return (i, (scaled - .ofInt i).clampUnit)

def lastReached (keyTimes : List (Number A)) (progress : Number A) : Nat :=
  (keyTimes.zipIdx.filter fun (time, _) => time ≤ progress).getLast?.elim 0 (·.2)

/-- The keyframe shown at a progress without blending: by key times where there are as many as
    keyframes, else each keyframe has an equal share. -/
def discreteIndex (count : Int) (progress : Number A) (keyTimes : Option (List (Number A))) :
    Except Fault Int :=
  if count ≤ 1 then .ok 0
  else
    let p := progress.clampUnit
    let shares : Except Fault Int := do
      return min (← Value.floor (p * .ofInt count)) (count - 1)
    match keyTimes with
    | some times => if times.length = count then .ok (lastReached times p) else shares
    | none => shares

/-- What a blend makes of the two keyframes that a progress lies between; one keyframe stands for
    both, and without keyframes there is nothing. -/
def along {β : Type} (values : List (Value A)) (progress : Number A)
    (blend : Value A → Value A → Number A → Except Fault β) : Except Fault (Option β) :=
  match values with
  | [] => .ok none
  | [only] => do return some (← blend only only 0)
  | _ => do
    let (i, part) ← segment values.length progress
    return some (← blend (values.getD i.toNat .null) (values.getD (i.toNat + 1) .null) part)

end Keyframe
end DeclarativeAnimation
