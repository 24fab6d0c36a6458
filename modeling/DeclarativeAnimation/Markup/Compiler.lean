import DeclarativeAnimation.Markup.Compilation

/-! Checking animations before they are compiled, and a compiler that keeps default options.  The
    check looks at mandatory parts, and at key times and splines that match the number of values.
    A call to the compiler may bring options of its own in place of its defaults, and changes to
    single ones; both hold for that call only. -/
namespace DeclarativeAnimation.Markup
variable {A : Arithmetic}

def entryCount (v : Value A) : Except Fault Nat :=
  match v with
  | .text s => .ok ((Text.pieces (· == ';') s.toList).filter fun e => !(Text.trim e).isEmpty).length
  | _ => .error (.noMember v.typeName "split")

def keyframeComplaints (track : Track A) : Except Fault (List String) := do
  if !track.values.isPresent then return []
  let count : Int := ← entryCount track.values
  let times ← if track.keyTimes.isPresent then do
      if (← entryCount track.keyTimes) ≠ count then
        pure ["keyTimes must have " ++ Value.intText count ++ " entries to match values"]
      else pure []
    else pure []
  let splines ←
    if track.mode.isTheText "spline" && track.keySplines.isPresent then do
      if (← entryCount track.keySplines) ≠ count - 1 then
        pure ["keySplines must have " ++ Value.intText (count - 1) ++ " entries for "
          ++ Value.intText count ++ " values"]
      else pure []
    else pure []
  return times ++ splines

def partComplaints (animation : Animation A) : List String :=
  let track := animation.track
  match animation.subject with
  | .attribute name =>
    (if name.isPresent then [] else ["attributeName is required for animate"])
      ++ (if track.start.isNull && track.goal.isNull && !track.values.isPresent
        then ["Either from/to or values must be specified"] else [])
  | .transform kind =>
    if kind.isPresent then [] else ["transformType is required for animateTransform"]
  | .motion path reference _ _ =>
    if path.isPresent || reference.isPresent then []
    else ["Either path or mpath is required for animateMotion"]
  | .set name =>
    (if name.isPresent then [] else ["attributeName is required for set"])
      ++ (if isWritten track.goal then [] else ["to value is required for set"])
  | .none => ["Unsupported animation type: AnimationBase"]

def animationComplaints (animation : Animation A) : Except Fault (List String) := do
  return partComplaints animation ++ (← keyframeComplaints animation.track)

def targetMissing : String := "Target element ID is required"

def Source.complaints (source : Source A) : Except Fault (List String) :=
  match source with
  | .read animation => do
    let target := if animation.target.isPresent then [] else [targetMissing]
    return target ++ (← animationComplaints animation)
  | .wire data => do
    let type ← data.get "type" .null
    let target := if (data.member "targetElementId").isPresent then [] else [targetMissing]
    if !type.isPresent then return "Animation type is required" :: target
    match Animation.ofWire "" data with
    | .ok animation => return target ++ (← animationComplaints animation)
    | .error fault => if fault.isOfValue then return fault.message :: target else throw fault

def complaintsToWire (complaints : List String) : Value A :=
  .object [("valid", .bool complaints.isEmpty), ("errors", .list (complaints.map .text))]

structure Compiler (A : Arithmetic) where
  defaults : Options A := {}

structure CallOptions (A : Arithmetic) where
  given : Option (Options A) := none
  changes : List (String × Value A) := []

namespace Compiler

def resolve (compiler : Compiler A) (asked : CallOptions A) : Except Fault (Options A) :=
  (asked.given.getD compiler.defaults).changed asked.changes

def setDefaults (compiler : Compiler A) (changes : List (String × Value A)) :
    Except Fault (Compiler A) := do
  return { compiler with defaults := ← compiler.defaults.changed changes }

def compile (compiler : Compiler A) (source : Source A) (asked : CallOptions A) :
    Except Fault String := do
  source.compile (← compiler.resolve asked)

def compileAll (compiler : Compiler A) (sources : List (Source A)) (asked : CallOptions A) :
    Except Fault Batch × List LogLine :=
  match compiler.resolve asked with
  | .ok options => Markup.compileAll sources options
  | .error fault => (.error fault, [])

inductive Call (A : Arithmetic) where
  | setDefaults (changes : List (String × Value A))
  | compile (source : Source A) (asked : CallOptions A)
  | compileAll (sources : List (Source A)) (asked : CallOptions A)
  | validate (source : Source A)

inductive Answer (A : Arithmetic) where
  | options (result : Except Fault (Options A))
  | markup (result : Except Fault String)
  | batch (result : Except Fault Batch) (log : List LogLine)
  | complaints (result : Except Fault (List String))

/-- The answer to a call, and the compiler that is left.  Changes that are refused change
    nothing. -/
def answer (compiler : Compiler A) : Call A → Answer A × Compiler A
  | .setDefaults changes =>
    match compiler.setDefaults changes with
    | .ok changed => (.options (.ok changed.defaults), changed)
    | .error fault => (.options (.error fault), compiler)
  | .compile source asked => (.markup (compiler.compile source asked), compiler)
  | .compileAll sources asked =>
    let (result, log) := compiler.compileAll sources asked
    (.batch result log, compiler)
  | .validate source => (.complaints source.complaints, compiler)

def run (compiler : Compiler A) : List (Call A) → List (Answer A) × Compiler A
  | [] => ([], compiler)
  | call :: rest =>
    let (answer, next) := compiler.answer call
    let (answers, last) := next.run rest
    (answer :: answers, last)

end Compiler

end DeclarativeAnimation.Markup
