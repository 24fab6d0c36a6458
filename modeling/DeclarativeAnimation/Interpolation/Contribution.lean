import DeclarativeAnimation.Animation.Basic
import DeclarativeAnimation.Interpolation.Blend

/-! What one animation writes into the state of its element at a progress.  Numbers and colors
    of style, path data, transformations and placements have slots of their own; everything else
    goes under the name of its attribute. -/
namespace DeclarativeAnimation

inductive StyleProperty where
  | opacity | fillColor | strokeColor | strokeWidth | strokeDashoffset
  deriving DecidableEq, Repr

inductive TransformProperty where
  | translateX | translateY | rotate | scaleX | scaleY | skewX | skewY
  deriving DecidableEq, Repr

structure Placement (A : Arithmetic) where
  x : Number A := 0
  y : Number A := 0
  angle : Number A := 0

inductive Contribution (A : Arithmetic) where
  | style (property : StyleProperty) (value : Value A)
  | attribute (name value : Value A)
  | path (data : String)
  | transform (property : TransformProperty) (amount : Number A)
  | rotationCenter (x y : Number A)
  | motion (placement : Placement A)

variable {A : Arithmetic}

abbrev MotionResolver (A : Arithmetic) :=
  Animation A → Number A → Except Fault (Option (Placement A))

def originPlacement : MotionResolver A := fun animation _ =>
  match animation.subject with
  | .motion path reference _ _ =>
    .ok (if path.isPresent || reference.isPresent then some {} else none)
  | _ => .ok none

inductive Slot where
  | styleNumber (property : StyleProperty)
  | styleColor (property : StyleProperty)
  | path
  | color
  | plain
  deriving DecidableEq, Repr

def Slot.names : List (String × Slot) :=
  [("opacity", .styleNumber .opacity), ("stroke-width", .styleNumber .strokeWidth),
   ("stroke-dashoffset", .styleNumber .strokeDashoffset), ("fill", .styleColor .fillColor),
   ("stroke", .styleColor .strokeColor), ("d", .path), ("stop-color", .color),
   ("flood-color", .color), ("lighting-color", .color), ("color", .color)]

def Slot.ofName (name : Value A) : Except Fault Slot := do
  match ← name.key with
  | .text s => return (names.lookup s).getD .plain
  | _ => return .plain

/-- What stands in for an endpoint that neither the animation nor its element gives. -/
def Slot.endpoints : Slot → Value A × Value A
  | .styleNumber .opacity => (.number 1, .number 0)
  | .styleNumber .strokeWidth => (.number 1, .number 1)
  | .styleColor _ | .color => (.text "#000000", .text "#000000")
  | _ => (.number 0, .number 0)

namespace Track

/-- The keyframes: the listed values, or else the two endpoints, a missing first one being the
    value before any animation where that is known. -/
def keyframes (track : Track A) (base : Value A) (endpoints : Value A × Value A) :
    List (Value A) :=
  match Listing.entries track.values with
  | [] =>
    let start := if !track.start.isNull then track.start
      else if !base.isNull then base else endpoints.1
    [start, if track.goal.isNull then endpoints.2 else track.goal]
  | entries => entries.map fun entry => .text (String.ofList entry)

theorem keyframes_of_entries {track : Track A} (listed : Listing.entries track.values ≠ [])
    (base : Value A) (endpoints : Value A × Value A) :
    track.keyframes base endpoints =
      (Listing.entries track.values).map fun entry => .text (String.ofList entry) := by
  unfold keyframes
  split
  · contradiction
  · rfl

def isDiscrete (track : Track A) : Bool := track.mode.isTheText "discrete"

/-- The fields that keyframes are picked from. -/
def pickFields (track : Track A) : Value A :=
  .list (track.values :: if track.isDiscrete then [track.keyTimes] else [])

def discreteKeyframe (track : Track A) (keyframes : List (Value A)) (progress : Number A) :
    Except Fault (Value A) := do
  let i ← Keyframe.discreteIndex keyframes.length progress (Listing.numbers? track.keyTimes)
  return keyframes.getD i.toNat .null

def pick (track : Track A) (keyframes : List (Value A)) (progress : Number A)
    (blend : Keyframe.Blend A) : Except Fault (Value A) :=
  if track.isDiscrete then track.discreteKeyframe keyframes progress
  else do return (← Keyframe.along keyframes progress blend).getD .null

end Track

/-- Paths switch between their keyframes and are not shown while they are empty.  A style number
    that turns out not to be one goes under the name of its attribute. -/
def Track.attributeContributions (track : Track A) (name base : Value A) (progress : Number A) :
    Except Fault (List (Contribution A)) := do
  if !name.isPresent then return []
  let slot ← Slot.ofName name
  let keyframes ← track.pickFields.spelling (track.keyframes base slot.endpoints)
  match slot with
  | .path =>
    let texts ← (Value.list keyframes).spelling (keyframes.map fun k => .text k.asText)
    let chosen ← track.pick texts progress Keyframe.blendSwitch
    return if chosen.isPresent then [.path chosen.asText] else []
  | .styleColor property =>
    return [.style property (← track.pick keyframes progress Keyframe.blendColor)]
  | .color => return [.attribute name (← track.pick keyframes progress Keyframe.blendColor)]
  | .styleNumber property =>
    let value ← track.pick keyframes progress Keyframe.blendNumber
    match ← Keyframe.leadingNumber value with
    | some x => return [.style property (.number x)]
    | none => return [.attribute name value]
  | .plain => return [.attribute name (← track.pick keyframes progress Keyframe.blendNumber)]

inductive TransformKind where
  | translate | scale | rotate | skewX | skewY
  deriving DecidableEq, Repr

namespace TransformKind

def names : List (String × TransformKind) :=
  [("translate", .translate), ("scale", .scale), ("rotate", .rotate), ("skewX", .skewX),
   ("skewY", .skewY)]

def ofValue? (v : Value A) : Except Fault (Option TransformKind) := do
  match ← v.key with
  | .text s => return names.lookup s
  | _ => return none

def neutral : TransformKind → Number A
  | .scale => 1
  | _ => 0

/-- What two keyframes contribute at a fraction of the way.  A missing second component is zero
    for a shift; a single scale goes for both axes. -/
def blend (kind : TransformKind) (first second : Value A) (t : Number A) :
    Except Fault (List (Contribution A)) := do
  let a ← Keyframe.components first
  let b ← Keyframe.components second
  let a₀ := a.headD kind.neutral
  let b₀ := b.headD kind.neutral
  let leading := lerp a₀ b₀ t
  match kind with
  | .translate =>
    return [.transform .translateX leading,
      .transform .translateY (lerp (a.getD 1 0) (b.getD 1 0) t)]
  | .scale =>
    return [.transform .scaleX leading,
      .transform .scaleY (lerp (a.getD 1 a₀) (b.getD 1 b₀) t)]
  | .rotate => return [.transform .rotate leading]
  | .skewX => return [.transform .skewX leading]
  | .skewY => return [.transform .skewY leading]

end TransformKind

/-- The center of a rotation does not move: it is the one of the first keyframe. -/
def rotationCenter (keyframe : Value A) : Except Fault (List (Contribution A)) := do
  match ← Keyframe.components keyframe with
  | _ :: x :: y :: _ => return [.rotationCenter x y]
  | _ => return []

def Track.transformContributions (track : Track A) (kind : Value A) (progress : Number A) :
    Except Fault (List (Contribution A)) := do
  match ← TransformKind.ofValue? kind with
  | none => return []
  | some kind =>
    let keyframes ← track.pickFields.spelling (track.keyframes .null (.null, .null))
    let moved ←
      if track.isDiscrete then do
        let chosen ← track.discreteKeyframe keyframes progress
        kind.blend chosen chosen 0
      else do pure ((← Keyframe.along keyframes progress kind.blend).getD [])
    if kind = .rotate then return moved ++ (← rotationCenter (keyframes.headD .null))
    else return moved

def Track.setContributions (track : Track A) (name : Value A) :
    Except Fault (List (Contribution A)) := do
  if !name.isPresent || track.goal.isNull then return []
  match ← Slot.ofName name with
  | .styleNumber property =>
    match ← Keyframe.leadingNumber track.goal with
    | some x => return [.style property (.number x)]
    | none => return []
  | .styleColor property => return [.style property track.goal]
  | .path => return [.path (← track.goal.written)]
  | _ => return [.attribute name track.goal]

end DeclarativeAnimation
