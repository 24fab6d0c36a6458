/-! Why an operation refuses its input, and what the library tells the people who run it.  A fault is
    a cause with what a message needs to name it; the wording is in `Fault.message`.  Callers that
    recover from faults tell them apart by category only: a fault of compilation or of malformed
    text is also a fault of value. -/
namespace DeclarativeAnimation

inductive Fault where
  -- numbers in text, and whole numbers in numbers
  | notNumeric (shown : String)
  | notWhole (shown : String)
  | wholeOfNan
  | wholeOfInfinity
  | beyondDoubles
  | digitLimit (digits : Nat)
  | unspellable
  | placesNegative
  | placesTooMany
  | divisionByZero
  -- values of a type that an operation does not take
  | notReal (typeName : String)
  | notIntegral (typeName : String)
  | notHashable (typeName : String)
  | noMember (typeName member : String)
  | notIterable (typeName : String)
  | notContainer (typeName : String)
  | textIndex
  | listIndex
  | entryParts (position : Nat)
  | entryLength (position length : Nat)
  | missingKey (shown : String)
  | unknownKey
  | wrongArguments
  | readOnly
  -- animations, elements and chains
  | missingType
  | unsupportedType (shown : String)
  | invalidMember (member shown : String)
  | emptyElementId
  | elementData (typeName : String)
  | invalidTrigger (shown : String)
  | unknownFactory (shown : String)
  -- markup
  | incomplete (tag need : String)
  | untyped (shown : String)
  | uncompilable (cause : Fault)
  -- preferences
  | unsupportedQuality
  | precisionNotInteger (shown : Option String)
  | precisionOutOfRange (largest : Nat)
  | optimizeNotBoolean
  | nothingToUpdate
  -- playback, files and transport
  | disposed
  | nestedTooDeep
  | requestFailed (method path status body : String)
  | unreachable
  | fileMissing
  | fileShape (path : String)
  | malformedText
  | unknownLevel (shown : String)
  deriving DecidableEq, Repr

namespace Fault

inductive Category where
  | value | compile | type | attribute | overflow | key | division | runtime | file | text
  | transport
  deriving DecidableEq, Repr

def category : Fault → Category
  | notNumeric _ | notWhole _ | wholeOfNan | digitLimit _ | unspellable | placesNegative
  | placesTooMany | entryLength _ _ | missingType | unsupportedType _ | invalidMember _ _ | emptyElementId
  | elementData _ | invalidTrigger _ | unknownFactory _ | unsupportedQuality | precisionNotInteger _
  | precisionOutOfRange _ | optimizeNotBoolean | nothingToUpdate | fileShape _
  | unknownLevel _ => .value
  | incomplete _ _ | untyped _ | uncompilable _ => .compile
  | notReal _ | notIntegral _ | notHashable _ | notIterable _ | notContainer _ | textIndex
  | listIndex | entryParts _ | wrongArguments | readOnly => .type
  | noMember _ _ => .attribute
  | wholeOfInfinity | beyondDoubles => .overflow
  | missingKey _ | unknownKey => .key
  | divisionByZero => .division
  | disposed | nestedTooDeep | requestFailed _ _ _ _ => .runtime
  | fileMissing => .file
  | malformedText => .text
  | unreachable => .transport

/-- Faults that a caller recovering from a bad value recovers from. -/
def isOfValue (fault : Fault) : Bool :=
  match fault.category with
  | .value | .compile | .text => true
  | _ => false

def message : Fault → String
  | notNumeric shown => "could not convert string to float: " ++ shown
  | notWhole shown => "invalid literal for int() with base 10: " ++ shown
  | wholeOfNan => "cannot convert float NaN to integer"
  | wholeOfInfinity => "cannot convert float infinity to integer"
  | beyondDoubles => "int too large to convert to float"
  | digitLimit digits =>
    "Exceeds the limit (4300 digits) for integer string conversion: value has " ++ digits.repr
      ++ " digits; use sys.set_int_max_str_digits() to increase the limit"
  | unspellable =>
    "Exceeds the limit (4300 digits) for integer string conversion; "
      ++ "use sys.set_int_max_str_digits() to increase the limit"
  | placesNegative => "Format specifier missing precision"
  | placesTooMany => "precision too big"
  | divisionByZero => "float division by zero"
  | notReal typeName =>
    "float() argument must be a string or a real number, not '" ++ typeName ++ "'"
  | notIntegral typeName =>
    "int() argument must be a string, a bytes-like object or a real number, not '"
      ++ typeName ++ "'"
  | notHashable typeName => "unhashable type: '" ++ typeName ++ "'"
  | noMember typeName member =>
    "'" ++ typeName ++ "' object has no attribute '" ++ member ++ "'"
  | notIterable typeName => "'" ++ typeName ++ "' object is not iterable"
  | notContainer typeName => "argument of type '" ++ typeName ++ "' is not iterable"
  | textIndex => "string indices must be integers, not 'str'"
  | listIndex => "list indices must be integers or slices, not str"
  | entryParts position =>
    "cannot convert dictionary update sequence element #" ++ position.repr ++ " to a sequence"
  | entryLength position length =>
    "dictionary update sequence element #" ++ position.repr ++ " has length " ++ length.repr
      ++ "; 2 is required"
  | missingKey shown => shown
  | unknownKey => "unknown key"
  | wrongArguments => "wrong arguments"
  | readOnly => "the states of a snapshot cannot be changed"
  | missingType => "Missing field: type"
  | unsupportedType shown => "Unsupported animation type: " ++ shown
  | invalidMember member shown => "Invalid " ++ member ++ ": " ++ shown
  | emptyElementId => "element id cannot be empty"
  | elementData typeName => "element data must be an object, got " ++ typeName
  | invalidTrigger shown => "Invalid chain trigger: " ++ shown
  | unknownFactory shown => "Unknown quick-create kind: " ++ shown
  | incomplete tag need => tag ++ " requires " ++ need
  | untyped shown => "Unknown animation type: " ++ shown
  | uncompilable cause => cause.message
  | unsupportedQuality =>
    "Unsupported quality mode. Use 'editing', 'preview' or 'export'."
  | precisionNotInteger none => "precision must be an integer"
  | precisionNotInteger (some shown) => "precision must be an integer, got " ++ shown
  | precisionOutOfRange largest => "precision must be between 0 and " ++ largest.repr
  | optimizeNotBoolean => "optimize must be a boolean"
  | nothingToUpdate => "Nothing to update"
  | disposed => "PlaybackController has been disposed"
  | nestedTooDeep => "maximum recursion depth exceeded"
  | requestFailed method path status body =>
    method ++ " " ++ path ++ " failed: " ++ status ++ " " ++ body
  | unreachable => "connection failed"
  | fileMissing => "No such file"
  | fileShape path => path ++ ": expected a JSON object or list"
  | malformedText => "malformed JSON"
  | unknownLevel shown => "Unknown level: " ++ shown

end Fault

inductive LogLevel where
  | warning
  | error
  deriving DecidableEq, Repr

structure LogLine where
  level : LogLevel
  /-- The part of the program that speaks, under the name that readers of logs filter by. -/
  source : String
  text : String
  deriving DecidableEq, Repr

def LogLevel.name : LogLevel → String
  | .warning => "WARNING"
  | .error => "ERROR"

def LogLine.render (line : LogLine) : String :=
  line.level.name ++ " " ++ line.source ++ ": " ++ line.text

end DeclarativeAnimation
