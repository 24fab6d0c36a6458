import DeclarativeAnimation.Animation.Basic
import DeclarativeAnimation.Json.Writer
import DeclarativeAnimation.Markup.Compilation
import DeclarativeAnimation.Quality

/-! Talking to a service.  A call becomes a request, and the answer to the request becomes the
    result of the call; carrying the one there and the other back is left to the caller. -/
namespace DeclarativeAnimation

structure Client where
  /-- The address of the service, without slashes at its end. -/
  baseUrl : String
  deriving DecidableEq, Repr

structure Request (A : Arithmetic) where
  method : String
  path : String
  body : Value A := .null
  /-- How many seconds to wait for an answer. -/
  timeout : Value A

inductive Answer (A : Arithmetic) where
  | unreachable
  | received (status : Int) (body : Value A) (text : String)

inductive ElementSource (A : Arithmetic) where
  | read (element : Element A)
  | wire (data : Value A)

/-- New settings; `null` leaves a setting as it is. -/
structure SettingsUpdate (A : Arithmetic) where
  quality : Value A := .null
  precision : Value A := .null
  optimize : Value A := .null
  timeout : Value A := .number 10

def trimSlashes (url : List Char) : List Char := Text.trimEndWhile (· == '/') url

def Client.ofUrl (url : String) : Client := ⟨String.ofList (trimSlashes url.toList)⟩

variable {A : Arithmetic}

def objectOfEntries (data : Value A) : Except Fault (Value A) := do
  return .object ((← data.entries).map fun (name, v) => (Json.keyName name, v))

def Markup.Source.payload : Markup.Source A → Except Fault (Value A)
  | .read animation => .ok animation.toWire
  | .wire data => objectOfEntries data

def Element.toWire (element : Element A) : Value A :=
  .object [("id", element.id), ("type", element.type), ("data", .object element.data)]

def ElementSource.payload : ElementSource A → Except Fault (Value A)
  | .read element => .ok element.toWire
  | .wire data => objectOfEntries data

namespace Answer

def failureStatus : Int := 400

def result (answer : Answer A) (request : Request A) : Except Fault (Value A) :=
  match answer with
  | .unreachable => .error .unreachable
  | .received status body text =>
    if failureStatus ≤ status then
      .error (.requestFailed request.method request.path (Value.intText status) text)
    else .ok body

def saysOk (body : Value A) : Except Fault Bool := do
  return (← body.get "ok" .null).isPresent

end Answer

namespace Request

def health : Request A := { method := "GET", path := "/healthz", timeout := .number 1 }

def isHealthy (answer : Answer A) : Except Fault Bool :=
  match answer.result health with
  | .ok body => Answer.saysOk body
  | .error _ => .ok false

def settings : Request A := { method := "GET", path := "/api/settings", timeout := .number 10 }

def present (name : String) (v : Value A) (convert : Value A → Except Fault (Value A)) :
    Except Fault (List (String × Value A)) :=
  if v.isNull then .ok [] else do return [(name, ← convert v)]

def changeSettings (update : SettingsUpdate A) : Except Fault (Request A) := do
  let quality ← present "quality" update.quality fun v => do
    return .text (← Quality.ofValue v).name
  let precision ← present "precision" update.precision fun v => do return .int (← v.toWhole)
  let optimize ← present "optimize" update.optimize fun v => .ok (.bool v.isPresent)
  let members := quality ++ precision ++ optimize
  if members.isEmpty then throw .nothingToUpdate
  return {
    method := "PATCH", path := "/api/settings", body := .object members
    timeout := update.timeout }

def compile (animations : List (Markup.Source A)) : Except Fault (Request A) := do
  let animations ← animations.mapM Markup.Source.payload
  return {
    method := "POST", path := "/api/compile", body := .object [("animations", .list animations)]
    timeout := .number 30 }

def validate (animation : Markup.Source A) : Except Fault (Request A) := do
  return {
    method := "POST", path := "/api/validate"
    body := .object [("animation", ← animation.payload)]
    timeout := .number 10 }

def states (animations : List (Markup.Source A)) (time : Value A)
    (elements : Option (List (ElementSource A))) : Except Fault (Request A) := do
  let animations ← animations.mapM Markup.Source.payload
  let time ← time.toNumber
  let elements ← match elements with
    | none => pure []
    | some elements => do pure [("elements", .list (← elements.mapM ElementSource.payload))]
  return {
    method := "POST", path := "/api/states"
    body := .object ([("animations", .list animations), ("time", .number time)] ++ elements)
    timeout := .number 30 }

end Request
end DeclarativeAnimation
