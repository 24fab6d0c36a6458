import DeclarativeAnimation.Chain
import DeclarativeAnimation.Markup.Compiler
import DeclarativeAnimation.Settings
import DeclarativeAnimation.State.Evaluation

/-! The service through which other programs preview and export a document.  A request names an
    endpoint and brings an object as its body; the settings are all that lasts from one request
    to the next.  Bodies that cannot be used are rejected. -/
namespace DeclarativeAnimation

inductive Endpoint where
  | health | readSettings | changeSettings | qualities | compile | validate | states
  deriving DecidableEq, Repr

def Endpoint.routes : List ((String × String) × Endpoint) :=
  [(("GET", "/healthz"), .health), (("GET", "/api/settings"), .readSettings),
   (("PATCH", "/api/settings"), .changeSettings), (("GET", "/api/quality"), .qualities),
   (("POST", "/api/compile"), .compile), (("POST", "/api/validate"), .validate),
   (("POST", "/api/states"), .states)]

inductive Rejection where
  | missing (names : String)
  | notList (name : String)
  | notObjects (name : String)
  | notObject (name : String)
  | invalid (fault : Fault)
  deriving DecidableEq, Repr

def Rejection.message : Rejection → String
  | missing names => "Missing field: " ++ names
  | notList name => name ++ " must be a list"
  | notObjects name => name ++ " must be a list of objects"
  | notObject name => name ++ " must be an object"
  | invalid fault => fault.message

inductive Refusal where
  | rejected (rejection : Rejection)
  | failed (fault : Fault)
  deriving DecidableEq, Repr

def Rejection.status : Nat := 400

structure Response (A : Arithmetic) where
  outcome : Except Refusal (Value A)
  settings : Settings
  log : List LogLine := []

namespace Service
variable {A : Arithmetic}

abbrev Body (A : Arithmetic) := List (String × Value A)

def list? (body : Body A) (name : String) : Except Refusal (Option (List (Value A))) :=
  match body.lookup name with
  | none => .ok none
  | some .null => .ok (some [])
  | some (.list items) => .ok (some items)
  | some _ => .error (.rejected (.notList name))

def list (body : Body A) (name : String) : Except Refusal (List (Value A)) := do
  match ← list? body name with
  | some items => return items
  | none => throw (.rejected (.missing name))

/-- The outcome of work on a body, with the faults in a class taken for faults of the body. -/
def refusing {α : Type} (isOfBody : Fault → Bool) (result : Except Fault α) : Except Refusal α :=
  result.mapError fun fault =>
    if isOfBody fault then .rejected (.invalid fault) else .failed fault

def isOfDocument (fault : Fault) : Bool :=
  match fault.category with
  | .value | .compile | .text | .type | .key | .attribute => true
  | _ => false

def changes : List (String × (Settings → Value A → Except Fault Settings)) :=
  [("quality", Settings.setQuality), ("precision", Settings.setPrecision),
   ("optimize", Settings.setOptimize)]

/-- Makes the changes that a body asks for.  The first one that fails ends them; those before it
    stay made. -/
def applyChanges (body : Body A) :
    List (String × (Settings → Value A → Except Fault Settings)) → Settings →
      Except Fault Unit × Settings
  | [], settings => (.ok (), settings)
  | (name, change) :: rest, settings =>
    match body.lookup name with
    | none => applyChanges body rest settings
    | some v =>
      match change settings v with
      | .ok settings => applyChanges body rest settings
      | .error fault => (.error fault, settings)

def changeSettings (settings : Settings) (body : Body A) : Response A :=
  if changes.any fun (name, (_ : Settings → Value A → _)) => (body.lookup name).isSome then
    let (result, settings) := applyChanges body changes settings
    let outcome := (refusing Fault.isOfValue result).map fun _ =>
      Value.object (("ok", .bool true) :: settings.toWire)
    { outcome := outcome, settings := settings }
  else
    { outcome := .error (.rejected (.missing "quality, precision or optimize"))
      settings := settings }

def qualities : Value A :=
  .object (Quality.all.map fun quality => (quality.name, quality.preset.toWire))

def isObject : Value A → Bool
  | .object _ => true
  | _ => false

def compile (settings : Settings) (body : Body A) : Except Refusal (Value A) × List LogLine :=
  match list body "animations" with
  | .error refusal => (.error refusal, [])
  | .ok animations =>
    if animations.all isObject then
      let (batch, log) := Markup.compileAll (animations.map .wire) settings.compileOptions
      ((batch.map Markup.Batch.toWire).mapError .failed, log)
    else (.error (.rejected (.notObjects "animations")), [])

def validate (body : Body A) : Except Refusal (Value A) :=
  let animation := (body.lookup "animation").getD .null
  if isObject animation then
    ((Markup.Source.wire animation).complaints.map Markup.complaintsToWire).mapError .failed
  else .error (.rejected (.notObject "animation"))

structure Scene (A : Arithmetic) where
  time : Number A
  animations : List (Animation A)
  elements : Elements A
  chains : List (Chain A)

/-- The scene of a body.  Its lists are checked first; then time, animations, elements and
    chains are read in this order. -/
def scene (body : Body A) : Except Refusal (Scene A) × List LogLine :=
  let lists := do
    return (← list body "animations", ← list? body "elements", ← list? body "chains")
  match lists with
  | .error refusal => (.error refusal, [])
  | .ok (animations, elements, chains) =>
    match ((body.lookup "time").getD (.number 0)).toNumber with
    | .error fault => (refusing isOfDocument (.error fault), [])
    | .ok time =>
      let (read, log) := Animation.listOfWire animationLabel animations
      let scene := do
        let animations ← read
        let elements ← match elements with
          | some elements => Elements.listed <$> elements.mapM Element.ofWire
          | none => pure .all
        let chains ← Chain.listOfWire Chain.label (chains.getD [])
        return ⟨time, animations, elements, chains⟩
      (refusing isOfDocument scene, log)

def statesToWire (time : Number A) (states : List (Value A × ElementState A)) : Value A :=
  .object [("time", .number time),
    ("states", .object (states.map fun (id, state) => (Json.keyName id, state.toWire)))]

def Scene.states (scene : Scene A) : Except Fault (Value A) := do
  let animations ← Animation.withChains scene.animations scene.chains
  let states ← allStates animations scene.elements originPlacement scene.time
  return statesToWire scene.time states

def states (body : Body A) : Except Refusal (Value A) × List LogLine :=
  let (scene, log) := scene body
  (do (← scene).states.mapError .failed, log)

def handle (settings : Settings) (endpoint : Endpoint) (body : Body A) : Response A :=
  match endpoint with
  | .health => { outcome := .ok (.object [("ok", .bool true)]), settings := settings }
  | .readSettings => { outcome := .ok (.object settings.toWire), settings := settings }
  | .changeSettings => changeSettings settings body
  | .qualities => { outcome := .ok qualities, settings := settings }
  | .compile =>
    let (outcome, log) := compile settings body
    { outcome := outcome, settings := settings, log := log }
  | .validate => { outcome := validate body, settings := settings }
  | .states =>
    let (outcome, log) := states body
    { outcome := outcome, settings := settings, log := log }

end Service
end DeclarativeAnimation
