import DeclarativeAnimation.Json.Writer
import DeclarativeAnimation.State.Basic
import DeclarativeAnimation.Timing.Easing
import DeclarativeAnimation.Timing.Schedule

/-! Evaluating animations at a time: one animation to its contributions, the animations of one
    element to its state, and all animations to the states of all elements that they target. -/
namespace DeclarativeAnimation
variable {A : Arithmetic}

def Transform.toWire (t : Transform A) : Value A :=
  let center := match t.center with
    | some (x, y) => [("rotateCenter", .list [.number x, .number y])]
    | none => []
  .object ([("translateX", .number t.translateX), ("translateY", .number t.translateY),
    ("rotate", .number t.rotate), ("scaleX", .number t.scaleX), ("scaleY", .number t.scaleY),
    ("skewX", .number t.skewX), ("skewY", .number t.skewY)] ++ center)

def Style.toWire (s : Style A) : Value A :=
  .object ([("opacity", s.opacity), ("fillColor", s.fillColor), ("strokeColor", s.strokeColor),
    ("strokeWidth", s.strokeWidth), ("strokeDashoffset", s.strokeDashoffset)].filter
      fun (_, v) => !v.isNull)

def Placement.toWire (p : Placement A) : Value A :=
  .object [("position", .object [("x", .number p.x), ("y", .number p.y)]),
    ("angle", .number p.angle)]

def ElementState.toWire (state : ElementState A) : Value A :=
  let part (name : String) (v : Option (Value A)) : List (String × Value A) :=
    match v with
    | some v => [(name, v)]
    | none => []
  let attributes := state.attributes.map fun (name, v) => (Json.keyName name, v)
  .object ([("elementId", state.id), ("time", .number state.time)]
    ++ part "transform" (state.transform.map Transform.toWire)
    ++ part "style" (state.style.map Style.toWire)
    ++ (if attributes.isEmpty then [] else [("attributes", .object attributes)])
    ++ part "pathData" (state.path.map .text)
    ++ part "motionPath" (state.motion.map Placement.toWire))

namespace Animation

def progressAt (animation : Animation A) (time : Number A) : Except Fault (Number A) := do
  animation.track.eased (← animation.schedule.resolve time).progress

/-- When a set stops holding its value: after its duration, if it has one, and by its end. -/
def setStop (animation : Animation A) (begin : Number A) : Except Fault (Number A) := do
  let s := animation.schedule
  let stop ← if s.dur.isNull then pure (.infinite false) else do
    pure (begin + (← ClockValue.seconds s.dur))
  match ← ClockValue.read? s.finish with
  | some finish => return stop.smaller finish
  | none => return stop

def isSetActive (animation : Animation A) (time : Number A) : Except Fault Bool := do
  let begin ← animation.schedule.beginSeconds
  let stop ← animation.setStop begin
  return begin ≤ time && time < stop

def contributions (animation : Animation A) (element : Option (Element A))
    (resolver : MotionResolver A) (progress : Number A) :
    Except Fault (List (Contribution A)) := do
  match animation.subject with
  | .attribute name =>
    let base ← match element with
      | some element => if name.isPresent then element.baseValue name else pure .null
      | none => pure .null
    animation.track.attributeContributions name base progress
  | .transform kind => animation.track.transformContributions kind progress
  | .motion _ _ _ _ =>
    match ← resolver animation progress with
    | some placement => return [.motion placement]
    | none => return []
  | _ => return []

def sameSlot (finals : List (Contribution A)) (c : Contribution A) : Value A :=
  let found := finals.filterMap fun f =>
    match f, c with
    | .style p v, .style q _ => if p = q then some v else none
    | .attribute n v, .attribute m _ => if n == m then some v else none
    | .transform p x, .transform q _ => if p = q then some (.number x) else none
    | _, _ => none
  found.getLast?.getD .null

def grown (iteration : Int) (value final : Value A) : Except Fault (Value A) :=
  if value.isNumeric && final.isNumeric then do value.sum (← Value.times iteration final)
  else .ok value

/-- Contributions grown by the values at the end of a run, once for each complete run. -/
def accumulated (iteration : Int) (finals : List (Contribution A)) :
    List (Contribution A) → Except Fault (List (Contribution A)) :=
  List.mapM fun c => do
    let final := sameSlot finals c
    match c with
    | .style property value => return .style property (← grown iteration value final)
    | .attribute name value => return .attribute name (← grown iteration value final)
    | .transform property x =>
      match ← grown iteration (.number x) final with
      | .number y => return .transform property y
      | _ => return c
    | _ => return c

def evaluate (animation : Animation A) (element : Option (Element A))
    (resolver : MotionResolver A) (time : Number A) : Except Fault (List (Contribution A)) := do
  match animation.subject with
  | .set name =>
    if ← animation.isSetActive time then animation.track.setContributions name else return []
  | _ =>
    let moment ← animation.schedule.resolve time
    let progress ← animation.track.eased moment.progress
    let current ← animation.contributions element resolver progress
    if animation.composition.isAccumulating && (moment.phase = .active || moment.phase = .frozen)
        && 0 < moment.iteration && !current.isEmpty then
      let finals ← animation.contributions element resolver 1
      accumulated moment.iteration finals current
    else return current

end Animation

namespace ElementState

def ofAnimations (id : Value A) (animations : List (Animation A)) (element : Option (Element A))
    (resolver : MotionResolver A) (time : Number A) : Except Fault (ElementState A) :=
  (animations.filter fun a => a.target == id).foldlM
    (fun state a => do state.applyAll a element (← a.evaluate element resolver time))
    { id := id, time := time }

end ElementState

def groupedBy (animations : List (Animation A)) :
    Except Fault (List (Value A × List (Animation A))) :=
  animations.foldlM (fun groups a => do
    let target ← a.target.key
    return Keyed.put target ((Keyed.get? target groups).getD [] ++ [a]) groups) []

/-- The element of a target among those to show; `none` where the target is not to be shown. -/
def shownElement (table : Option (List (Value A × Element A))) (target : Value A) :
    Option (Option (Element A)) :=
  match table with
  | none => some none
  | some table => (Keyed.get? target table).map some

/-- The states of all elements that are animated and shown, in the order of their first
    animation. -/
def allStates (animations : List (Animation A)) (elements : Elements A)
    (resolver : MotionResolver A) (time : Number A) :
    Except Fault (List (Value A × ElementState A)) := do
  let table ← elements.table?
  let groups ← groupedBy animations
  let states ← groups.mapM fun (target, group) =>
    match shownElement table target with
    | some element => do
      return some (target, ← ElementState.ofAnimations target group element resolver time)
    | none => return none
  return states.filterMap id

/-- The states at a time that is given as a value.  Without an animation the time is not looked
    at. -/
def allStatesAt (animations : List (Animation A)) (elements : Elements A)
    (resolver : MotionResolver A) (time : Value A) :
    Except Fault (List (Value A × ElementState A)) := do
  match time.toNumber with
  | .ok t => allStates animations elements resolver t
  | .error fault =>
    let table ← elements.table?
    let groups ← groupedBy animations
    if groups.all fun (target, _) => (shownElement table target).isNone then return []
    else throw fault

end DeclarativeAnimation
