import DeclarativeAnimation.Keyed
import DeclarativeAnimation.Value

/-! Reading JSON text.  Beyond the standard the names of infinity and of no number are read, a
    name that an object repeats keeps its first place and its last value, and a number without
    point and exponent is a whole number of any size up to the digit limit. -/
namespace DeclarativeAnimation.Json
variable {A : Arithmetic}

def isSpace (c : Char) : Bool := c = ' ' || c = '\t' || c = '\n' || c = '\r'

def skipSpaces (text : List Char) : List Char := text.dropWhile isSpace

def isAsciiDigit (c : Char) : Bool := '0' ≤ c && c ≤ '9'

def after? (start : List Char) (text : List Char) : Option (List Char) :=
  if start.isPrefixOf text then some (text.drop start.length) else none

def unit? : List Char → Option (Nat × List Char)
  | a :: b :: c :: d :: rest => do
    let high := 16 * (← Text.hexDigit? a) + (← Text.hexDigit? b)
    let n := 256 * high + 16 * (← Text.hexDigit? c) + (← Text.hexDigit? d)
    return (n, rest)
  | _ => none

/-- The character after a backslash and `u`: two units of a pair make one character. -/
def escapedUnit? (text : List Char) : Option (Char × List Char) := do
  let (high, rest) ← unit? text
  if 0xd800 ≤ high && high < 0xdc00 then
    let pair := match rest with
      | '\\' :: 'u' :: more =>
        match unit? more with
        | some (low, last) =>
          if 0xdc00 ≤ low && low < 0xe000 then
            some (Char.ofNat (0x10000 + (high - 0xd800) * 1024 + (low - 0xdc00)), last)
          else none
        | none => none
      | _ => none
    return pair.getD ('\ufffd', rest)
  else if 0xdc00 ≤ high && high < 0xe000 then return ('\ufffd', rest)
  else return (Char.ofNat high, rest)

def shortEscape? : Char → Option Char
  | '"' => some '"'
  | '\\' => some '\\'
  | '/' => some '/'
  | 'b' => some '\x08'
  | 'f' => some '\x0c'
  | 'n' => some '\n'
  | 'r' => some '\r'
  | 't' => some '\t'
  | _ => none

/-- The text up to the closing quote, its opening quote being read; newest character first. -/
def string? : Nat → List Char → List Char → Option (String × List Char)
  | 0, _, _ => none
  | fuel + 1, done, text =>
    match text with
    | '"' :: rest => some (String.ofList done.reverse, rest)
    | '\\' :: 'u' :: rest =>
      match escapedUnit? rest with
      | some (c, rest) => string? fuel (c :: done) rest
      | none => none
    | '\\' :: c :: rest =>
      match shortEscape? c with
      | some d => string? fuel (d :: done) rest
      | none => none
    | c :: rest => if c.toNat < 0x20 || c = '\\' then none else string? fuel (c :: done) rest
    | [] => none

def number? (text : List Char) : Option (Except Fault (Value A) × List Char) := do
  let (negative, body) := match text with
    | '-' :: rest => (true, rest)
    | _ => (false, text)
  let digits := match body.takeWhile isAsciiDigit with
    | '0' :: _ => ['0']
    | digits => digits
  if digits.isEmpty then none
  else
    let rest := body.drop digits.length
    let fraction := match rest with
      | '.' :: more => more.takeWhile isAsciiDigit
      | _ => []
    let rest := if fraction.isEmpty then rest else rest.drop (fraction.length + 1)
    let (mark, exponent) := match rest with
      | c :: more =>
        if c = 'e' || c = 'E' then
          let sign := match more with
            | '+' :: _ => ['+']
            | '-' :: _ => ['-']
            | _ => []
          (c :: sign, (more.drop sign.length).takeWhile isAsciiDigit)
        else ([], [])
      | [] => ([], [])
    let rest := if exponent.isEmpty then rest else rest.drop (mark.length + exponent.length)
    if fraction.isEmpty && exponent.isEmpty then
      let size : Int := Text.digitsValue digits
      let value := if Value.mostDigits < digits.length then .error (.digitLimit digits.length)
        else .ok (.int (if negative then -size else size))
      return (value, rest)
    else
      let power : Int := Text.digitsValue exponent
      let power := if mark.contains '-' then -power else power
      let decimal : Decimal :=
        ⟨negative, Text.digitsValue (digits ++ fraction), power - fraction.length⟩
      return (.ok (.number decimal.toNumber), rest)

def names : List (String × Value A) :=
  [("null", .null), ("true", .bool true), ("false", .bool false), ("NaN", .number .nan),
   ("Infinity", .number (.infinite false)), ("-Infinity", .number (.infinite true))]

def named? (text : List Char) : Option (Value A × List Char) :=
  names.findSome? fun (name, value) => (after? name.toList text).map (value, ·)

mutual

/-- One value and the rest of the text.  Every step reads a character, so the length of the
    text is fuel enough. -/
def value : Nat → List Char → Except Fault (Value A × List Char)
  | 0, _ => .error .malformedText
  | fuel + 1, text =>
    match skipSpaces text with
    | '"' :: rest =>
      match string? (rest.length + 1) [] rest with
      | some (s, rest) => .ok (.text s, rest)
      | none => .error .malformedText
    | '[' :: rest =>
      match skipSpaces rest with
      | ']' :: rest => .ok (.list [], rest)
      | rest => items fuel [] rest
    | '\x7b' :: rest =>
      match skipSpaces rest with
      | '\x7d' :: rest => .ok (.object [], rest)
      | rest => members fuel [] rest
    | rest =>
      match named? rest with
      | some (v, rest) => .ok (v, rest)
      | none =>
        match number? rest with
        | some (.ok v, rest) => .ok (v, rest)
        | some (.error fault, _) => .error fault
        | none => .error .malformedText

def items : Nat → List (Value A) → List Char → Except Fault (Value A × List Char)
  | 0, _, _ => .error .malformedText
  | fuel + 1, done, text =>
    match value fuel text with
    | .error fault => .error fault
    | .ok (v, rest) =>
      match skipSpaces rest with
      | ',' :: rest => items fuel (v :: done) rest
      | ']' :: rest => .ok (.list (v :: done).reverse, rest)
      | _ => .error .malformedText

def members : Nat → List (String × Value A) → List Char → Except Fault (Value A × List Char)
  | 0, _, _ => .error .malformedText
  | fuel + 1, done, text =>
    match skipSpaces text with
    | '"' :: rest =>
      match string? (rest.length + 1) [] rest with
      | none => .error .malformedText
      | some (name, rest) =>
        match skipSpaces rest with
        | ':' :: rest =>
          match value fuel rest with
          | .error fault => .error fault
          | .ok (v, rest) =>
            match skipSpaces rest with
            | ',' :: rest => members fuel ((name, v) :: done) rest
            | '\x7d' :: rest => .ok (.object (Keyed.ofList ((name, v) :: done).reverse), rest)
            | _ => .error .malformedText
        | _ => .error .malformedText
    | _ => .error .malformedText

end

def read (text : String) : Except Fault (Value A) :=
  match value (text.length + 1) text.toList with
  | .error fault => .error fault
  | .ok (v, rest) => if (skipSpaces rest).isEmpty then .ok v else .error .malformedText

end DeclarativeAnimation.Json
