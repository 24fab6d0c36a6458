import DeclarativeAnimation.Value

/-! Declarative animations: who is animated, when, along which keyframes, and how the result
    joins what earlier animations wrote.  The fields keep the values they were written with;
    `null` stands for a field that was left out. -/
namespace DeclarativeAnimation

structure Schedule (A : Arithmetic) where
  begin : Value A := .null
  dur : Value A := .null
  finish : Value A := .null
  repeatCount : Value A := .null
  repeatDur : Value A := .null
  fill : Value A := .null

structure Track (A : Arithmetic) where
  start : Value A := .null
  goal : Value A := .null
  values : Value A := .null
  mode : Value A := .null
  keyTimes : Value A := .null
  keySplines : Value A := .null

structure Composition (A : Arithmetic) where
  additive : Value A := .null
  accumulate : Value A := .null

/-- What is animated.  A record without a subject is kept but shows nothing. -/
inductive Subject (A : Arithmetic) where
  | attribute (name : Value A)
  | transform (kind : Value A)
  | motion (path reference rotate keyPoints : Value A)
  | set (name : Value A)
  | none

structure Animation (A : Arithmetic) where
  id : Value A
  target : Value A
  subject : Subject A
  schedule : Schedule A := {}
  track : Track A := {}
  composition : Composition A := {}

variable {A : Arithmetic}

def indefinite : String := "indefinite"

def Value.isIndefinite : Value A → Bool
  | .text s => Text.lowercase (String.ofList (Text.trim s.toList)) = indefinite
  | _ => false

def Subject.typeName : Subject A → String
  | .attribute _ => "attribute-animate"
  | .transform _ => "transform-animate"
  | .motion _ _ _ _ => "motion-animate"
  | .set _ => "set"
  | .none => ""

def Subject.isSet : Subject A → Bool
  | .set _ => true
  | _ => false

def Subject.attributeName : Subject A → Value A
  | .attribute name | .set name => name
  | _ => .null

def Composition.isAdditive (c : Composition A) : Bool := c.additive.isTheText "sum"

def Composition.isAccumulating (c : Composition A) : Bool := c.accumulate.isTheText "sum"

/-- Editor defaults: a frozen end, one run, and two seconds.  A set without a duration keeps
    holding its value. -/
def Animation.withDefaults (animation : Animation A) : Animation A :=
  let s := animation.schedule
  { animation with
    schedule := { s with
      dur := if s.dur.isNull && !animation.subject.isSet then .text "2s" else s.dur
      fill := s.fill.orElse (.text "freeze")
      repeatCount := if s.repeatCount.isNull then .number 1 else s.repeatCount } }

structure Curve (A : Arithmetic) where
  x1 : Number A
  y1 : Number A
  x2 : Number A
  y2 : Number A

namespace Listing

def entriesOf (text : List Char) : List (List Char) :=
  ((Text.pieces (· == ';') text).map Text.trim).filter (!·.isEmpty)

def entries (v : Value A) : List (List Char) := if v.isNull then [] else entriesOf v.chars

/-- Entries that are all numbers; no entry, or one that is not a number, makes no list. -/
def numbers? (v : Value A) : Option (List (Number A)) :=
  match entries v with
  | [] => none
  | found => found.mapM Number.ofText?

/-- Four numbers with blanks or commas between them; what follows a fourth is ignored, and any
    other text stands for the straight line. -/
def curve (entry : List Char) : Curve A :=
  let words := Text.words (fun c => Text.isBlank c || c == ',') entry
  match (words.take 4).mapM Number.ofText? with
  | some [x1, y1, x2, y2] => ⟨x1, y1, x2, y2⟩
  | _ => ⟨0, 0, 1, 1⟩

def curves (v : Value A) : List (Curve A) := (entries v).map curve

def join (items : List (Value A)) : Except Fault String :=
  (Value.list items).spelling (";".intercalate (items.map Value.asText))

end Listing

structure Element (A : Arithmetic) where
  id : Value A
  type : Value A := .text "element"
  data : List (String × Value A) := []

namespace Element

def camelCase (name : String) : String :=
  match Text.pieces (· == '-') name.toList with
  | [] => ""
  | head :: parts =>
    String.ofList (head ++ parts.flatMap fun
      | [] => []
      | c :: rest => Text.capital c ++ rest)

/-- The value of an attribute by its name, or by its name without dashes. -/
def baseValue (element : Element A) (name : Value A) : Except Fault (Value A) := do
  match ← name.key with
  | .text s =>
    match element.data.lookup s with
    | some v => return v
    | none => return (element.data.lookup (camelCase s)).getD .null
  | v => .error (.noMember v.typeName "split")

def ofWire (data : Value A) : Except Fault (Element A) := do
  let id := Text.trim (← (← data.get "id" (.text "")).written).toList
  if id.isEmpty then .error .emptyElementId
  else
    let payload := (← data.get "data" .null).orElse (.object [])
    match payload with
    | .object members =>
      let type ← (← data.get "type" (.text "element")).written
      return ⟨.text (String.ofList id), .text type, members⟩
    | _ => .error (.elementData payload.typeName)

end Element

inductive Elements (A : Arithmetic) where
  | all
  | listed (elements : List (Element A))
  | named (table : List (Value A × Element A))

/-- The elements to show by name, if they are restricted; of two with one name in a list the
    later counts. -/
def Elements.table? {A : Arithmetic} (elements : Elements A) :
    Except Fault (Option (List (Value A × Element A))) :=
  match elements with
  | .all => .ok none
  | .named table => .ok (some table)
  | .listed elements => do
    return some (Keyed.ofList (← elements.mapM fun e => do return ((← e.id.key), e)))

end DeclarativeAnimation
