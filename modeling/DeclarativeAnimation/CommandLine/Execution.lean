import DeclarativeAnimation.CommandLine.Invocation
import DeclarativeAnimation.Json.Reader
import DeclarativeAnimation.Launch
import DeclarativeAnimation.Service

/-! Carrying out commands on the text of a file.  Results go to the one output; log lines, then
    warnings, to the other. -/
namespace DeclarativeAnimation.CommandLine
variable {A : Arithmetic}

structure Report where
  result : Except Fault Nat
  output : List String := []
  errors : List String := []

def levels : List (String × Nat) :=
  [("CRITICAL", 50), ("FATAL", 50), ("ERROR", 40), ("WARN", 30), ("WARNING", 30), ("INFO", 20),
   ("DEBUG", 10), ("NOTSET", 0)]

def severity (level : LogLevel) : Nat := (levels.lookup level.name).getD 0

def threshold (level : String) : Except Fault Nat :=
  let name := Text.uppercase level
  match levels.lookup name with
  | some least => .ok least
  | none => .error (.unknownLevel (Text.quoted name))

def shownLines (least : Nat) (log : List LogLine) : List String :=
  (log.filter fun line => least ≤ severity line.level).map (·.render)

/-- The members of the document in a file; a list stands for its animations. -/
def document (file : String) (content : Option String) :
    Except Fault (List (String × Value A)) := do
  match content with
  | none => throw .fileMissing
  | some text =>
    match ← Json.read text with
    | .list items => return [("animations", .list items)]
    | .object members => return members
    | _ => throw (.fileShape file)

def itemsUnder (members : List (String × Value A)) (name : String) :
    Except Fault (List (Value A)) :=
  (((members.lookup name).getD .null).orElse (.list [])).items

def compile (members : List (String × Value A)) (options : Markup.Options A) :
    Except Fault Markup.Batch × List LogLine :=
  match itemsUnder members "animations" with
  | .error fault => (.error fault, [])
  | .ok items => Markup.compileAll (items.map .wire) options

/-- The scene of a document: animations, chains and elements are read in this order, the
    elements after the chains have been applied. -/
def states (members : List (String × Value A)) (time : Number A) :
    Except Fault (Value A) × List LogLine :=
  match itemsUnder members "animations" with
  | .error fault => (.error fault, [])
  | .ok items =>
    let (read, log) := Animation.listOfWire animationLabel items
    let result := do
      let animations ← read
      let chains ← Chain.listOfWire Chain.label (← itemsUnder members "chains")
      let animations ← Animation.withChains animations chains
      let elements ← match members.lookup "elements" with
        | none => pure .all
        | some elements => do pure (.listed (← (← elements.items).mapM Element.ofWire))
      let states ← allStates animations elements originPlacement time
      return Service.statesToWire time states
    (result, log)

def compileReport (least : Nat) (strict : Bool) (batch : Except Fault Markup.Batch)
    (log : List LogLine) : Report :=
  let lines := shownLines least log
  match batch with
  | .error fault => { result := .error fault, errors := lines }
  | .ok batch => {
      result := .ok (if strict && !batch.warnings.isEmpty then 1 else 0)
      output := batch.elements, errors := lines ++ batch.warnings }

def statesReport (least : Nat) (states : Except Fault (Value A)) (log : List LogLine) : Report :=
  let lines := shownLines least log
  match states with
  | .error fault => { result := .error fault, errors := lines }
  | .ok states =>
    match states.spelling (Json.pretty states) with
    | .error fault => { result := .error fault, errors := lines }
    | .ok text => { result := .ok 0, output := [text], errors := lines }

def perform (least : Nat) (command : Command A) (content : Option String) : Report :=
  match command with
  | .serve host socket =>
    { result := .ok 0, output := [Launch.announcement (.text host) (.int socket : Value A)] }
  | .compile file precision optimize strict =>
    match (document file content : Except Fault (List (String × Value A))) with
    | .error fault => { result := .error fault }
    | .ok members =>
      let (batch, log) := compile members ⟨.int precision, .bool optimize⟩
      compileReport least strict batch log
  | .states file time =>
    match document file content with
    | .error fault => { result := .error fault }
    | .ok members =>
      let (states, log) := states members time
      statesReport least states log

def execute (invocation : Invocation A) (content : Option String) : Report :=
  match threshold invocation.level with
  | .error fault => { result := .error fault }
  | .ok least => perform least invocation.command content

end DeclarativeAnimation.CommandLine
