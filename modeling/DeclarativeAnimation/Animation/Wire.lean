import DeclarativeAnimation.Animation.Basic
import DeclarativeAnimation.Fault
import DeclarativeAnimation.Value

/-! Animations as objects of a document.  `toWire` writes the members that are set, whole numbers
    without a fraction; `ofWire` reads them, checking the type, the repeat count and the
    rotation, and leaves every other member as it is. -/
namespace DeclarativeAnimation
variable {A : Arithmetic}

/-- A label with 32 hexadecimal digits; labels of different counts differ. -/
def generatedLabel (start : String) (count : Nat) : String :=
  start ++ String.ofList (Text.hexDigits 32 count)

def animationLabel (count : Nat) : String := generatedLabel "anim-" count

inductive Kind where
  | attribute | transform | motion | set
  deriving DecidableEq, Repr

def Kind.names : List (String × Kind) :=
  [("attribute-animate", .attribute), ("animate", .attribute),
   ("transform-animate", .transform), ("animatetransform", .transform),
   ("motion-animate", .motion), ("animatemotion", .motion), ("set", .set)]

def Kind.name : Kind → String
  | .attribute => "attribute-animate"
  | .transform => "transform-animate"
  | .motion => "motion-animate"
  | .set => "set"

/-- The kind that a value names, by the name of the kind or of the element it is written as;
    letter case, blanks around it and the choice of dash do not matter. -/
def Kind.ofValue (v : Value A) : Except Fault Kind := do
  let spelled := (Text.trim (← v.written).toList).map fun c => if c = '_' then '-' else c
  match names.lookup (Text.lowercase (String.ofList spelled)) with
  | some kind => return kind
  | none => throw (.unsupportedType v.shown)

namespace Animation

def members (a : Animation A) : List (String × Value A) :=
  let subject := match a.subject with
    | .attribute name | .set name => [("attributeName", name)]
    | .transform kind => [("transformType", kind)]
    | .motion path reference rotate keyPoints =>
      [("path", path), ("mpath", reference), ("rotate", rotate), ("keyPoints", keyPoints)]
    | .none => []
  [("id", a.id), ("targetElementId", a.target)] ++ subject ++
  [("from", a.track.start), ("to", a.track.goal), ("values", a.track.values),
   ("begin", a.schedule.begin), ("dur", a.schedule.dur), ("end", a.schedule.finish),
   ("repeatCount", a.schedule.repeatCount), ("repeatDur", a.schedule.repeatDur),
   ("fill", a.schedule.fill), ("calcMode", a.track.mode), ("keyTimes", a.track.keyTimes),
   ("keySplines", a.track.keySplines), ("additive", a.composition.additive),
   ("accumulate", a.composition.accumulate)]

def wireScalar : Value A → Value A
  | .number x => if x.isInteger then .int x.rat.floor else .number x
  | v => v

def toWire (a : Animation A) : Value A :=
  .object (("type", .text a.subject.typeName) ::
    (a.members.filter fun (_, v) => !v.isNull).map fun (name, v) => (name, wireScalar v))

def wireNumber (member : String) (v : Value A) : Except Fault (Value A) :=
  match v with
  | .bool _ => .error (v.refusal (.invalidMember member v.shown))
  | _ =>
    match v.toNumber with
    | .ok x => .ok (.number x)
    | .error .beyondDoubles => .error .beyondDoubles
    | .error _ => .error (v.refusal (.invalidMember member v.shown))

def wireRepeatCount (v : Value A) : Except Fault (Value A) :=
  match v with
  | .null => .ok .null
  | .text s =>
    if s = "" then .ok .null
    else if v.isIndefinite then .ok (.text indefinite)
    else
      match Number.ofText? (Text.trim s.toList) with
      | some x => .ok (.number x)
      | none => .error (.invalidMember "repeatCount" v.shown)
  | _ => wireNumber "repeatCount" v

def wireRotate (v : Value A) : Except Fault (Value A) :=
  match v with
  | .null | .text _ => .ok v
  | _ => wireNumber "rotate" v

def wireType (data : Value A) : Except Fault (Value A) :=
  match data with
  | .object members =>
    match members.lookup "type" with
    | some v => .ok v
    | none => .error .missingType
  | .text s => .error (if Text.occurs "type".toList s.toList then .textIndex else .missingType)
  | .list items => .error (if items.any (·.isTheText "type") then .listIndex else .missingType)
  | _ => .error (.notContainer data.typeName)

/-- The subject that the members of an object describe.  A reference to a path is read from
    either of two names, the first one first. -/
def wireSubject (kind : Kind) (data : Value A) : Except Fault (Subject A) :=
  match kind with
  | .attribute => .ok (.attribute (data.member "attributeName"))
  | .transform => .ok (.transform (data.member "transformType"))
  | .set => .ok (.set (data.member "attributeName"))
  | .motion => do
    let reference := data.member "mpath"
    let second := data.member "motionPathRef"
    let reference := if reference.isNull && second.isPresent then second else reference
    let rotate ← wireRotate (data.member "rotate")
    return .motion (data.member "path") reference rotate (data.member "keyPoints")

/-- The animation that an object describes.  `label` names it when the object does not. -/
def ofWire (label : String) (data : Value A) : Except Fault (Animation A) := do
  let kind ← Kind.ofValue (← wireType data)
  let subject ← wireSubject kind data
  let repeatCount ← wireRepeatCount (data.member "repeatCount")
  let id := data.member "id"
  let target := data.member "targetElementId"
  (Value.list [id, target]).spelling {
    id := id.textOr label
    target := target.textOr ""
    subject := subject
    schedule := {
      begin := data.member "begin", dur := data.member "dur", finish := data.member "end"
      repeatCount := repeatCount, repeatDur := data.member "repeatDur"
      fill := data.member "fill" }
    track := {
      start := data.member "from", goal := data.member "to", values := data.member "values"
      mode := data.member "calcMode", keyTimes := data.member "keyTimes"
      keySplines := data.member "keySplines" }
    composition := {
      additive := data.member "additive", accumulate := data.member "accumulate" } }

/-- The line that tells of an entry that was left out; one that cannot be written is lost. -/
def skippedLine? (id : Value A) (fault : Fault) : Option LogLine :=
  if id.isSpellable then
    some ⟨.warning, "smilkit.core.records",
      "Skipping animation " ++ id.shown ++ ": " ++ fault.message⟩
  else none

/-- Reads a list of objects.  An entry with a bad value is left out with a warning; any other
    fault ends the reading.  `label` gives the entry at a position the name it may need. -/
def listOfWire (label : Nat → String) (items : List (Value A)) :
    Except Fault (List (Animation A)) × List LogLine :=
  go 0 items
where
  go (position : Nat) : List (Value A) → Except Fault (List (Animation A)) × List LogLine
    | [] => (.ok [], [])
    | item :: rest =>
      match ofWire (label position) item with
      | .ok animation =>
        let (read, log) := go (position + 1) rest
        (read.map (animation :: ·), log)
      | .error fault =>
        if fault.isOfValue then
          match item.get "id" .null with
          | .ok id =>
            let (read, log) := go (position + 1) rest
            (read, (skippedLine? id fault).toList ++ log)
          | .error worse => (.error worse, [])
        else (.error fault, [])

end Animation
end DeclarativeAnimation
