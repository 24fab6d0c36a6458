import DeclarativeAnimation.Value
import DeclarativeAnimation.Animation.Wire
import DeclarativeAnimation.Markup.Rounded

/-! Animations as markup: one element for each, with its attributes in a fixed order, those without
    a value left out.  An animation that lacks a mandatory part is refused. -/
namespace DeclarativeAnimation.Markup
variable {A : Arithmetic}

def escapeChar (c : Char) : List Char :=
  if c = '&' then "&amp;".toList
  else if c = '<' then "&lt;".toList
  else if c = '>' then "&gt;".toList
  else if c = '"' then "&quot;".toList
  else [c]

def escapeText (text : List Char) : List Char := text.flatMap escapeChar

def attributeText (v : Value A) : String := String.ofList (escapeText v.chars)

def isWritten (v : Value A) : Bool := !v.isNull && !v.isTheText ""

def writeAttribute (name : String) (v : Value A) : String :=
  name ++ "=\"" ++ attributeText v ++ "\""

def writeElement (tag : String) (attributes : List (String × Value A)) (content : String) :
    String :=
  let written := (attributes.filter fun (_, v) => isWritten v).map fun (name, v) =>
    writeAttribute name v
  let head := " ".intercalate (tag :: written)
  if content = "" then "<" ++ head ++ "/>"
  else "<" ++ head ++ ">" ++ content ++ "</" ++ tag ++ ">"

abbrev Attributes (A : Arithmetic) := List (String × Value A)

def valueAttributes (track : Track A) (precision : Value A) : Except Fault (Attributes A) := do
  if track.values.isPresent then
    return [("values", .text (← formatValues track.values precision))]
  let start ← if track.start.isNull then pure [] else do
    pure [("from", .text (← formatValue track.start precision))]
  let goal ← if track.goal.isNull then pure [] else do
    pure [("to", .text (← formatValue track.goal precision))]
  return start ++ goal

def scalarText (v : Value A) : Value A :=
  match v with
  | .null => .null
  | v => .text (Animation.wireScalar v).asText

/-- The mode, unless it is the one that every element has by itself. -/
def modeAttribute (mode : Value A) : Value A :=
  if mode.isPresent && !mode.isTheText "linear" then mode else .null

def timingAttributes (schedule : Schedule A) (track : Track A) : Attributes A :=
  [("dur", schedule.dur), ("begin", schedule.begin), ("end", schedule.finish),
   ("fill", schedule.fill), ("repeatCount", scalarText schedule.repeatCount),
   ("repeatDur", schedule.repeatDur), ("calcMode", modeAttribute track.mode),
   ("keyTimes", track.keyTimes), ("keySplines", track.keySplines)]

/-- An element, given its attributes and what other values its text has been made of. -/
def spellElement (others : List (Value A)) (tag : String) (attributes : Attributes A)
    (content : String) : Except Fault String :=
  (Value.list (.object attributes :: others)).spelling (writeElement tag attributes content)

def compositionAttributes (c : Composition A) : Attributes A :=
  (if c.isAdditive then [("additive", .text "sum")] else [])
    ++ (if c.isAccumulating then [("accumulate", .text "sum")] else [])

def rotateAttribute (rotate precision : Value A) : Except Fault (Value A) :=
  match rotate with
  | .null | .text _ => .ok rotate
  | _ => do return .text (← formatValue rotate precision)

def ofAnimation (animation : Animation A) (options : Options A) : Except Fault String := do
  let track := animation.track
  let schedule := animation.schedule
  let precision := options.precision
  match animation.subject with
  | .attribute name =>
    if !name.isPresent then throw (.incomplete "animate" "attributeName")
    let values ← valueAttributes track precision
    spellElement [schedule.repeatCount] "animate" ([("attributeName", name)] ++ values
      ++ timingAttributes schedule track ++ compositionAttributes animation.composition) ""
  | .transform kind =>
    if !kind.isPresent then throw (.incomplete "animateTransform" "transformType")
    let values ← valueAttributes track precision
    spellElement [schedule.repeatCount] "animateTransform"
      ([("attributeName", .text "transform"), ("type", kind)] ++ values
        ++ timingAttributes schedule track ++ compositionAttributes animation.composition) ""
  | .motion path reference rotate keyPoints =>
    if !path.isPresent && !reference.isPresent then
      throw (.incomplete "animateMotion" "path or mpath")
    let path ← if path.isPresent && !reference.isPresent then optimizePath path options
      else pure .null
    let rotate ← rotateAttribute rotate precision
    let keyPoints ← if keyPoints.isPresent then do
      pure (.text (← formatKeyPoints keyPoints precision)) else pure .null
    let content := if reference.isPresent
      then "<mpath href=\"#" ++ attributeText reference ++ "\"/>" else ""
    spellElement [schedule.repeatCount, reference] "animateMotion"
      ([("path", path), ("rotate", rotate), ("keyPoints", keyPoints)]
        ++ timingAttributes schedule track) content
  | .set name =>
    if !name.isPresent then throw (.incomplete "set" "attributeName")
    if !isWritten track.goal then throw (.incomplete "set" "a to value")
    spellElement [] "set" [("attributeName", name),
      ("to", .text (← formatValue track.goal precision)), ("begin", schedule.begin),
      ("dur", schedule.dur), ("end", schedule.finish), ("fill", schedule.fill)] ""
  | .none => throw (.untyped (Text.quoted animation.subject.typeName))

inductive Source (A : Arithmetic) where
  | read (animation : Animation A)
  | wire (data : Value A)

namespace Source

/-- The animation; an object that cannot be read cannot be written either.  Markup shows no
    names of animations, so any name will do for an object without one. -/
def animation (source : Source A) : Except Fault (Animation A) :=
  match source with
  | .read animation => .ok animation
  | .wire data =>
    match Animation.ofWire "" data with
    | .ok animation => .ok animation
    | .error fault => .error (if fault.isOfValue then .uncompilable fault else fault)

def compile (source : Source A) (options : Options A) : Except Fault String := do
  ofAnimation (← source.animation) options

def target (source : Source A) : Except Fault (Value A) :=
  match source with
  | .read animation => animation.target.key
  | .wire data => do return .text (← (← data.get "targetElementId" (.text "")).written)

def id (source : Source A) : Except Fault (Value A) :=
  match source with
  | .read animation => .ok animation.id
  | .wire data => data.get "id" .null

def warningText (id : Value A) (fault : Fault) : String :=
  "Failed to compile animation " ++ id.asText ++ ": " ++ fault.message

def warning (source : Source A) (fault : Fault) : Except Fault String := do
  let id ← source.id
  id.spelling (warningText id fault)

end Source

structure Batch where
  elements : List String := []
  warnings : List String := []
  definitions : List String := []
  deriving DecidableEq, Repr

def Batch.toWire (batch : Batch) : Value A :=
  .object [("elements", .list (batch.elements.map .text)),
    ("warnings", .list (batch.warnings.map .text)), ("defs", .list (batch.definitions.map .text))]

def groups (sources : List (Source A)) : Except Fault (List (Value A × List (Source A))) :=
  sources.foldlM (fun groups source => do
    let target ← source.target
    return Keyed.put target ((Keyed.get? target groups).getD [] ++ [source]) groups) []

def warningLine (warning : String) : LogLine := ⟨.warning, "smilkit.compiler", warning⟩

/-- Elements in order.  A source that cannot be compiled gives a warning in place of an element;
    any other fault ends the batch, after the warnings so far have been logged. -/
def compileEach (options : Options A) : List (Source A) → Except Fault Batch × List LogLine
  | [] => (.ok {}, [])
  | source :: rest =>
    match source.compile options with
    | .ok element =>
      let (batch, log) := compileEach options rest
      (batch.map fun b => { b with elements := element :: b.elements }, log)
    | .error fault =>
      if fault.category = .compile then
        match source.warning fault with
        | .error worse => (.error worse, [])
        | .ok warning =>
          let (batch, log) := compileEach options rest
          (batch.map fun b => { b with warnings := warning :: b.warnings },
            warningLine warning :: log)
      else (.error fault, [])

def compileAll (sources : List (Source A)) (options : Options A) :
    Except Fault Batch × List LogLine :=
  match groups sources with
  | .error fault => (.error fault, [])
  | .ok groups => compileEach options (groups.flatMap (·.2))

end DeclarativeAnimation.Markup
