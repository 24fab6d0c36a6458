import DeclarativeAnimation.Value

/-! Writing JSON text in ASCII.  Characters outside the printable range of ASCII are escaped by
    their UTF-16 units.  `pretty` puts every item on a line of its own, indented by two more
    spaces than its container; `compact` writes one line. -/
namespace DeclarativeAnimation.Json
variable {A : Arithmetic}

def unitText (n : Nat) : List Char := '\\' :: 'u' :: Text.hexDigits 4 n

def escapeChar (c : Char) : List Char :=
  if c = '"' || c = '\\' then ['\\', c]
  else if c = '\n' then ['\\', 'n']
  else if c = '\r' then ['\\', 'r']
  else if c = '\t' then ['\\', 't']
  else if c = '\x0c' then ['\\', 'f']
  else if c = '\x08' then ['\\', 'b']
  else if 0x20 ≤ c.toNat && c.toNat < 0x7f then [c]
  else if c.toNat < 0x10000 then unitText c.toNat
  else
    let n := c.toNat - 0x10000
    unitText (0xd800 + n / 1024) ++ unitText (0xdc00 + n % 1024)

def quote (s : String) : String := String.ofList ('"' :: s.toList.flatMap escapeChar ++ ['"'])

def numberText (x : Number A) : String :=
  match x with
  | .nan => "NaN"
  | .infinite negative => if negative then "-Infinity" else "Infinity"
  | x => x.shortest

inductive Style where
  | line
  | indented (depth : Nat)

def Style.deeper : Style → Style
  | .line => .line
  | .indented depth => .indented (depth + 1)

def Style.break : Style → String
  | .line => ""
  | .indented depth => "\n" ++ String.ofList (List.replicate (2 * depth) ' ')

def Style.comma : Style → String
  | .line => ", "
  | .indented _ => ","

def Style.enclose (style : Style) (opening closing : String) (items : List String) : String :=
  if items.isEmpty then opening ++ closing
  else
    opening ++ style.deeper.break ++ (style.comma ++ style.deeper.break).intercalate items
      ++ style.break ++ closing

mutual

def write (style : Style) : Value A → String
  | .null => "null"
  | .bool b => if b then "true" else "false"
  | .int n => Value.intText n
  | .number x => numberText x
  | .text s => quote s
  | .list items => style.enclose "[" "]" (writeItems style.deeper items)
  | .object members => style.enclose "\x7b" "\x7d" (writeMembers style.deeper members)

def writeItems (style : Style) : List (Value A) → List String
  | [] => []
  | v :: rest => write style v :: writeItems style rest

def writeMembers (style : Style) : List (String × Value A) → List String
  | [] => []
  | (name, v) :: rest => (quote name ++ ": " ++ write style v) :: writeMembers style rest

end

def compact (v : Value A) : String := write .line v

def pretty (v : Value A) : String := write (.indented 0) v

def keyName : Value A → String
  | .null => "null"
  | .bool b => if b then "true" else "false"
  | .int n => Value.intText n
  | .number x => numberText x
  | .text s => s
  | v => v.shown

end DeclarativeAnimation.Json
