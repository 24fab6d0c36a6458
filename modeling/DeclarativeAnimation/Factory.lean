import DeclarativeAnimation.Animation.Wire

/-! Ready-made animations.  Each preset has arguments of its own, which a caller may replace
    one by one; the result has the editor defaults. -/
namespace DeclarativeAnimation
variable {A : Arithmetic}

inductive Preset where
  | fade | rotate | move | scale | pathDraw | fillColor | strokeColor | strokeWidth | set | motion
  deriving DecidableEq, Repr

/-- What a preset can be told; a preset ignores what it does not use. -/
structure PresetArguments (A : Arithmetic) where
  name : Value A := .null
  start : Value A := .null
  goal : Value A := .null
  values : Value A := .null
  dur : Value A := .null
  begin : Value A := .null
  path : Value A := .null
  reference : Value A := .null
  rotate : Value A := .null

namespace Preset

def names : List (String × Preset) :=
  [("fade", .fade), ("rotate", .rotate), ("move", .move), ("scale", .scale),
   ("pathDraw", .pathDraw), ("fillColor", .fillColor), ("strokeColor", .strokeColor),
   ("strokeWidth", .strokeWidth), ("set", .set), ("animateMotion", .motion)]

def sweep (start goal : String) : PresetArguments A :=
  { start := .text start, goal := .text goal, dur := .number 2 }

def defaults : Preset → PresetArguments A
  | .fade => sweep "1" "0"
  | .rotate => sweep "0" "360"
  | .move => sweep "0 0" "50 0"
  | .scale => sweep "1 1" "1.2 1.2"
  | .pathDraw => sweep "1" "0"
  | .strokeWidth => sweep "1" "4"
  | .fillColor => { values := .text "#ff6b6b;#4ecdc4;#ff6b6b", dur := .number 2 }
  | .strokeColor => { values := .text "#111111;#ff9900;#111111", dur := .number 2 }
  | .set => { name := .text "opacity", goal := .text "0", begin := .text "0s" }
  | .motion => { rotate := .text "auto", dur := .number 2 }

def durationDigits : Nat := 6

def durationText (dur : Value A) : Except Fault (Value A) :=
  match dur with
  | .text _ => .ok dur
  | _ => do return .text ((← dur.toNumber).significant durationDigits ++ "s")

def ofAttribute (label : String) (target name : Value A) (track : Track A) (schedule : Schedule A)
    (composition : Composition A) : Except Fault (Animation A) := do
  let dur ← durationText schedule.dur
  return Animation.withDefaults {
    id := .text label, target := target, subject := .attribute name
    schedule := { schedule with dur := dur }, track := track, composition := composition }

def attributeSweep (label : String) (target : Value A) (name : String)
    (arguments : PresetArguments A) : Except Fault (Animation A) :=
  ofAttribute label target (.text name) { start := arguments.start, goal := arguments.goal }
    { dur := arguments.dur } {}

def attributeCycle (label : String) (target : Value A) (name : String)
    (arguments : PresetArguments A) : Except Fault (Animation A) :=
  ofAttribute label target (.text name) { values := arguments.values }
    { dur := arguments.dur, repeatCount := .text indefinite } {}

def transformSweep (label : String) (target : Value A) (kind : String) (additive : Value A)
    (arguments : PresetArguments A) : Except Fault (Animation A) := do
  let dur ← durationText arguments.dur
  return Animation.withDefaults {
    id := .text label, target := target, subject := .transform (.text kind)
    schedule := { dur := dur }, track := { start := arguments.start, goal := arguments.goal }
    composition := { additive := additive } }

def motionAlong (label : String) (target : Value A) (arguments : PresetArguments A) :
    Except Fault (Animation A) := do
  let path := if arguments.reference.isNull && arguments.path.isNull
    then .text "M 0 0 L 100 0" else arguments.path
  let dur ← durationText arguments.dur
  return Animation.withDefaults {
    id := .text label, target := target
    subject := .motion path arguments.reference arguments.rotate .null
    schedule := { dur := dur } }

def create (preset : Preset) (label : String) (target : Value A)
    (arguments : PresetArguments A) : Except Fault (Animation A) :=
  match preset with
  | .fade => attributeSweep label target "opacity" arguments
  | .pathDraw => attributeSweep label target "stroke-dashoffset" arguments
  | .strokeWidth => attributeSweep label target "stroke-width" arguments
  | .fillColor => attributeCycle label target "fill" arguments
  | .strokeColor => attributeCycle label target "stroke" arguments
  | .rotate => transformSweep label target "rotate" (.text "sum") arguments
  | .move => transformSweep label target "translate" (.text "sum") arguments
  | .scale => transformSweep label target "scale" .null arguments
  | .motion => motionAlong label target arguments
  | .set => .ok (Animation.withDefaults {
      id := .text label, target := target, subject := .set arguments.name
      schedule := { begin := arguments.begin }, track := { goal := arguments.goal } })

def quickCreate (label : String) (name target : Value A) : Except Fault (Animation A) := do
  match ← name.key with
  | .text s =>
    match names.lookup s with
    | some preset => preset.create label target preset.defaults
    | none => throw (.unknownFactory name.shown)
  | _ => throw (name.refusal (.unknownFactory name.shown))

end Preset
end DeclarativeAnimation
