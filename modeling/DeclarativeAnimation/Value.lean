import DeclarativeAnimation.Fault
import DeclarativeAnimation.Number.Decimal
import DeclarativeAnimation.Number.Printed
import DeclarativeAnimation.Text.Quoted
import DeclarativeAnimation.Keyed

/-! Values as documents hold them: nothing, a truth value, a whole number of any size, a number,
    a text, a list, or an object whose members keep their order.  They are compared, written as
    text, taken apart, and taken as numbers.

    A whole number with more than `mostDigits` digits has no text.  `shown` and `asText` write it
    all the same; who refuses it asks `isSpellable` first, by `written` or `spelling`. -/
namespace DeclarativeAnimation

inductive Value (A : Arithmetic) where
  | null
  | bool (b : Bool)
  | int (n : Int)
  | number (x : Number A)
  | text (s : String)
  | list (items : List (Value A))
  | object (members : List (String × Value A))

namespace Value
variable {A : Arithmetic}

instance : Inhabited (Value A) := ⟨.null⟩

def typeName : Value A → String
  | .null => "NoneType"
  | .bool _ => "bool"
  | .int _ => "int"
  | .number _ => "float"
  | .text _ => "str"
  | .list _ => "list"
  | .object _ => "dict"

def isNull : Value A → Bool
  | .null => true
  | _ => false

def isText : Value A → Bool
  | .text _ => true
  | _ => false

def isNumeric : Value A → Bool
  | .int _ | .number _ => true
  | _ => false

/-- Nothing, `false`, zero and what is empty do not count as present. -/
def isPresent : Value A → Bool
  | .null => false
  | .bool b => b
  | .int n => n ≠ 0
  | .number x => !x.isZero
  | .text s => s ≠ ""
  | .list items => !items.isEmpty
  | .object members => !members.isEmpty

def orElse (first second : Value A) : Value A := if first.isPresent then first else second

def quantity? : Value A → Option (Number A)
  | .bool b => some (if b then 1 else 0)
  | .int n => some (.finite n)
  | .number x => some x
  | _ => none

def isTheText (s : String) : Value A → Bool
  | .text t => t = s
  | _ => false

mutual

/-- Equality of values: numbers by quantity whatever their type, lists item by item, objects by
    their members in any order. -/
def same : Value A → Value A → Bool
  | .null, .null => true
  | .text s, .text t => s = t
  | .list xs, .list ys => sameItems xs ys
  | .object xs, .object ys => xs.length = ys.length && sameMembers xs ys
  | x, y =>
    match x.quantity?, y.quantity? with
    | some p, some q => p.equal q
    | _, _ => false

def sameItems : List (Value A) → List (Value A) → Bool
  | [], [] => true
  | x :: xs, y :: ys => same x y && sameItems xs ys
  | _, _ => false

def sameMembers : List (String × Value A) → List (String × Value A) → Bool
  | [], _ => true
  | (name, x) :: xs, ys =>
    (match ys.lookup name with
    | some y => same x y
    | none => false) && sameMembers xs ys

end

/-- Only values without parts may name a target or key a table. -/
def key (v : Value A) : Except Fault (Value A) :=
  match v with
  | .list _ | .object _ => .error (.notHashable v.typeName)
  | _ => .ok v

def boolText (b : Bool) : String := if b then "True" else "False"

def intText (n : Int) : String := if n < 0 then "-" ++ n.natAbs.repr else n.natAbs.repr

mutual

def shown : Value A → String
  | .null => "None"
  | .bool b => boolText b
  | .int n => intText n
  | .number x => x.shortest
  | .text s => Text.quoted s
  | .list items => "[" ++ ", ".intercalate (shownItems items) ++ "]"
  | .object members => "\x7b" ++ ", ".intercalate (shownMembers members) ++ "\x7d"

def shownItems : List (Value A) → List String
  | [] => []
  | v :: rest => shown v :: shownItems rest

def shownMembers : List (String × Value A) → List String
  | [] => []
  | (name, v) :: rest => (Text.quoted name ++ ": " ++ shown v) :: shownMembers rest

end

def asText : Value A → String
  | .text s => s
  | v => v.shown

def chars (v : Value A) : List Char := v.asText.toList

def mostDigits : Nat := 4300

mutual

/-- Whether no whole number in a value has more digits than a text may hold. -/
def isSpellable : Value A → Bool
  | .int n => (Nat.toDigits 10 n.natAbs).length ≤ mostDigits
  | .list items => areSpellable items
  | .object members => membersSpellable members
  | _ => true

def areSpellable : List (Value A) → Bool
  | [] => true
  | v :: rest => isSpellable v && areSpellable rest

def membersSpellable : List (String × Value A) → Bool
  | [] => true
  | (_, v) :: rest => isSpellable v && membersSpellable rest

end

def spelling {α : Type} (v : Value A) (result : α) : Except Fault α :=
  if v.isSpellable then .ok result else .error .unspellable

@[simp] theorem spelling_text {α : Type} (s : String) (result : α) :
    (text s : Value A).spelling result = .ok result := rfl

def written (v : Value A) : Except Fault String := v.spelling v.asText

def refusal (v : Value A) (fault : Fault) : Fault :=
  if v.isSpellable then fault else .unspellable

example : shown (.list [.int 1, .text "a"] : Value .exact) = "[1, 'a']" := by decide +kernel

instance : BEq (Value A) := ⟨same⟩

def member? (data : Value A) (name : String) : Option (Value A) :=
  match data with
  | .object members => members.lookup name
  | _ => none

def member (data : Value A) (name : String) : Value A := (data.member? name).getD .null

def get (data : Value A) (name : String) (otherwise : Value A) : Except Fault (Value A) :=
  match data with
  | .object members => .ok ((members.lookup name).getD otherwise)
  | _ => .error (.noMember data.typeName "get")

/-- The items of a list, the characters of a text, or the names in an object. -/
def items : Value A → Except Fault (List (Value A))
  | .list items => .ok items
  | .text s => .ok (s.toList.map fun c => .text (String.singleton c))
  | .object members => .ok (members.map fun (name, _) => .text name)
  | v => .error (.notIterable v.typeName)

def entry (position : Nat) (v : Value A) : Except Fault (Value A × Value A) :=
  match v with
  | .text _ | .list _ | .object _ => do
    match ← v.items with
    | [name, value] => return (← name.key, value)
    | parts => throw (.entryLength position parts.length)
  | _ => .error (.entryParts position)

def entries (v : Value A) : Except Fault (List (Value A × Value A)) :=
  match v with
  | .object members => .ok (members.map fun (name, value) => (.text name, value))
  | _ => do return Keyed.ofList (← (← v.items).zipIdx.mapM fun (item, i) => item.entry i)

def textOr (v : Value A) (otherwise : String) : Value A :=
  if v.isPresent then .text v.asText else .text otherwise

/-- A whole number as a number; one beyond the largest double has none. -/
def numberOfInt (n : Int) : Except Fault (Number A) :=
  match Number.ofInt n with
  | .infinite _ => .error .beyondDoubles
  | x => .ok x

def toNumber : Value A → Except Fault (Number A)
  | .bool b => .ok (if b then 1 else 0)
  | .int n => numberOfInt n
  | .number x => .ok x
  | .text s =>
    match Number.ofText? s.toList with
    | some x => .ok x
    | none => .error (.notNumeric (Text.quoted s))
  | v => .error (.notReal v.typeName)

def wholePart : Number A → Except Fault Int
  | .nan => .error .wholeOfNan
  | .infinite _ => .error .wholeOfInfinity
  | x => .ok (if x.rat < 0 then x.rat.ceil else x.rat.floor)

def floor : Number A → Except Fault Int
  | .nan => .error .wholeOfNan
  | .infinite _ => .error .wholeOfInfinity
  | x => .ok x.rat.floor

def ceiling : Number A → Except Fault Int
  | .nan => .error .wholeOfNan
  | .infinite _ => .error .wholeOfInfinity
  | x => .ok x.rat.ceil

def toWhole : Value A → Except Fault Int
  | .bool b => .ok (if b then 1 else 0)
  | .int n => .ok n
  | .number x => wholePart x
  | .text s =>
    match Decimal.integer? s.toList with
    | some (n, digits) => if mostDigits < digits then .error (.digitLimit digits) else .ok n
    | none => .error (.notWhole (Text.quoted s))
  | v => .error (.notIntegral v.typeName)

def sum (x y : Value A) : Except Fault (Value A) :=
  match x, y with
  | .int m, .int n => .ok (.int (m + n))
  | x, y => do return .number ((← x.toNumber) + (← y.toNumber))

def times (count : Int) (x : Value A) : Except Fault (Value A) :=
  match x with
  | .int n => .ok (.int (count * n))
  | x => do return .number ((← numberOfInt count) * (← x.toNumber))

end Value
end DeclarativeAnimation
