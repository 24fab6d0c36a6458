import DeclarativeAnimation.Text.Pieces
import DeclarativeAnimation.Value

/-! The grammar of command lines, and what the program can be told to do on one.  Options start with
    a dash, may be shortened to any beginning that only one of them has, and take their value from
    behind an equals sign or from the next word; everything else is an operand.  After a lone pair
    of dashes there are only operands.  A negative number is an operand too. -/
namespace DeclarativeAnimation.CommandLine

structure OptionSpec where
  names : List String
  takesValue : Bool
  deriving DecidableEq, Repr

inductive Misuse where
  | help
  | wrong
  deriving DecidableEq, Repr

inductive Token where
  | operand (word : String)
  | option (spec : OptionSpec) (value : Option String)
  | unknown
  | separator
  deriving DecidableEq, Repr

def splitValue (word : List Char) : List Char × Option (List Char) :=
  match word.dropWhile (· ≠ '=') with
  | [] => (word, none)
  | _ :: value => (word.takeWhile (· ≠ '='), some value)

/-- Whether a word is a negative number: digits after a minus sign, with at most one point, which
    a digit follows. -/
def isNegativeNumber (word : List Char) : Bool :=
  match word with
  | '-' :: digits =>
    let whole := digits.takeWhile Text.isDigit
    match digits.dropWhile Text.isDigit with
    | [] => !whole.isEmpty
    | '.' :: fraction => !fraction.isEmpty && fraction.all Text.isDigit
    | _ => false
  | _ => false

def shortened (specs : List OptionSpec) (word : List Char) :
    List (OptionSpec × Option (List Char)) :=
  let (start, value) := match word with
    | '-' :: '-' :: _ => splitValue word
    | _ => (word, none)
  specs.flatMap fun spec => (spec.names.map String.toList).filterMap fun name =>
    if start.isPrefixOf name then some (spec, value)
    else
      match word with
      | '-' :: c :: rest => if name = ['-', c] && c ≠ '-' then some (spec, some rest) else none
      | _ => none

def spec? (specs : List OptionSpec) (word : String) : Option OptionSpec :=
  specs.find? fun spec => spec.names.contains word

/-- What a word is.  A word that may be short for several options is wrong. -/
def classify (specs : List OptionSpec) (word : String) : Except Misuse Token :=
  let chars := word.toList
  let (start, value) := splitValue chars
  if word = "--" then .ok .separator
  else if chars.head? ≠ some '-' || chars.length = 1 then .ok (.operand word)
  else
    match spec? specs word, value, spec? specs (String.ofList start) with
    | some spec, _, _ => .ok (.option spec none)
    | none, some value, some spec => .ok (.option spec (some (String.ofList value)))
    | _, _, _ =>
      match shortened specs chars with
      | _ :: _ :: _ => .error .wrong
      | [(spec, value)] => .ok (.option spec (value.map String.ofList))
      | [] =>
        if isNegativeNumber chars || chars.contains ' ' then .ok (.operand word)
        else .ok .unknown

structure Arguments where
  options : List (OptionSpec × String) := []
  operands : List String := []
  deriving DecidableEq, Repr

def helpOption : OptionSpec := ⟨["-h", "--help"], false⟩

namespace Arguments

def withOption (spec : OptionSpec) (value : String) (arguments : Arguments) : Arguments :=
  { arguments with options := (spec, value) :: arguments.options }

def withOperand (word : String) (arguments : Arguments) : Arguments :=
  { arguments with operands := word :: arguments.operands }

def values (arguments : Arguments) (spec : OptionSpec) : List String :=
  (arguments.options.filter fun (s, _) => s = spec).map (·.2)

def has (arguments : Arguments) (spec : OptionSpec) : Bool := !(arguments.values spec).isEmpty

/-- Reads words.  `awaiting` is the option that the next word is the value of.  Where a command
    is expected, the first operand is its name, and all words after it belong to it.  A
    separator has to stand next to an operand. -/
def ofWords (specs : List OptionSpec) (command : Bool) (awaiting : Option OptionSpec) :
    List String → Except Misuse Arguments
  | [] => if awaiting.isSome then .error .wrong else .ok {}
  | word :: rest =>
    match classify specs word with
    | .error misuse => .error misuse
    | .ok token =>
      match awaiting, token with
      | some spec, .operand value => (ofWords specs command none rest).map (withOption spec value)
      | none, .option spec value =>
        if spec = helpOption && value.isNone then .error .help
        else
          match spec.takesValue, value with
          | true, none => ofWords specs command (some spec) rest
          | true, some value => (ofWords specs command none rest).map (withOption spec value)
          | false, none => (ofWords specs command none rest).map (withOption spec "")
          | false, some _ => .error .wrong
      | none, .operand name =>
        if command then .ok { operands := name :: rest }
        else if rest = ["--"] then .ok { operands := [name] }
        else (ofWords specs command none rest).map (withOperand name)
      | none, .separator =>
        if command || rest.isEmpty then .error .wrong else .ok { operands := rest }
      | _, _ => .error .wrong

end Arguments
variable {A : Arithmetic}

inductive Command (A : Arithmetic) where
  | serve (host : String) (socket : Int)
  | compile (file : String) (precision : Int) (optimize strict : Bool)
  | states (file : String) (time : Number A)

structure Invocation (A : Arithmetic) where
  /-- The name of the least level at which log lines are shown, as it was written. -/
  level : String := "WARNING"
  command : Command A

def levelOption : OptionSpec := ⟨["--log-level"], true⟩
def hostOption : OptionSpec := ⟨["--host"], true⟩
def socketOption : OptionSpec := ⟨["--port"], true⟩
def precisionOption : OptionSpec := ⟨["--precision"], true⟩
def keepPathsOption : OptionSpec := ⟨["--no-optimize"], false⟩
def strictOption : OptionSpec := ⟨["--strict"], false⟩
def timeOption : OptionSpec := ⟨["--time"], true⟩

/-- The last value of an option, if it was given one; every value has to be of its kind. -/
def lastValue? {α : Type} (arguments : Arguments) (spec : OptionSpec)
    (read : Value A → Except Fault α) : Except Misuse (Option α) :=
  match (arguments.values spec).mapM fun text => read (.text text) with
  | .ok found => .ok found.getLast?
  | .error _ => .error .wrong

namespace Command

def readWords (specs : List OptionSpec) (words : List String) : Except Misuse Arguments :=
  Arguments.ofWords (helpOption :: specs) false none words

def operand (arguments : Arguments) : Except Misuse String :=
  match arguments.operands with
  | [file] => .ok file
  | _ => .error .wrong

/-- The command of a name with its own words. -/
def ofWords (name : String) (words : List String) : Except Misuse (Command A) := do
  match name with
  | "serve" =>
    let arguments ← readWords [hostOption, socketOption] words
    let socket ← lastValue? arguments socketOption (Value.toWhole (A := A))
    if arguments.operands ≠ [] then throw .wrong
    return .serve ((arguments.values hostOption).getLast?.getD "127.0.0.1") (socket.getD 8000)
  | "compile" =>
    let arguments ← readWords [precisionOption, keepPathsOption, strictOption] words
    let precision ← lastValue? arguments precisionOption (Value.toWhole (A := A))
    return .compile (← operand arguments) (precision.getD 4) (!arguments.has keepPathsOption)
      (arguments.has strictOption)
  | "states" =>
    let arguments ← readWords [timeOption] words
    match ← lastValue? arguments timeOption (Value.toNumber (A := A)) with
    | some time => return .states (← operand arguments) time
    | none => throw .wrong
  | _ => throw .wrong

def file? : Command A → Option String
  | .serve _ _ => none
  | .compile file _ _ _ => some file
  | .states file _ => some file

end Command

def Invocation.ofWords (words : List String) : Except Misuse (Invocation A) := do
  let arguments ← Arguments.ofWords [helpOption, levelOption] true none words
  match arguments.operands with
  | [] => throw .wrong
  | name :: words =>
    return ⟨(arguments.values levelOption).getLast?.getD "WARNING", ← Command.ofWords name words⟩

end DeclarativeAnimation.CommandLine
