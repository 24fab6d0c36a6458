import DeclarativeAnimation.Fault
import DeclarativeAnimation.Markup.Rounded
import DeclarativeAnimation.Quality

/-! Preferences for preview and export.  Every change is checked before it is made, so the
    quality is always one of the three modes and the precision within its bounds. -/
namespace DeclarativeAnimation

structure Settings where
  quality : Quality := .editing
  precision : Nat := 4
  optimize : Bool := true
  deriving DecidableEq, Repr

namespace Settings
variable {A : Arithmetic}

def mostPrecision : Nat := 10

def checkedPrecision (v : Value A) : Except Fault Nat :=
  match v with
  | .bool _ => .error (.precisionNotInteger none)
  | _ =>
    match v.toWhole with
    | .error .wholeOfInfinity => .error .wholeOfInfinity
    | .error _ => .error (v.refusal (.precisionNotInteger (some v.shown)))
    | .ok n =>
      match v with
      | .number x =>
        if x.isInteger then inRange n else .error (.precisionNotInteger (some v.shown))
      | _ => inRange n
where
  inRange (n : Int) : Except Fault Nat :=
    if n < 0 || (mostPrecision : Int) < n then .error (.precisionOutOfRange mostPrecision)
    else .ok n.toNat

def setQuality (settings : Settings) (v : Value A) : Except Fault Settings := do
  return { settings with quality := ← Quality.ofValue v }

def setPrecision (settings : Settings) (v : Value A) : Except Fault Settings := do
  return { settings with precision := ← checkedPrecision v }

def setOptimize (settings : Settings) (v : Value A) : Except Fault Settings :=
  match v with
  | .bool b => .ok { settings with optimize := b }
  | _ => .error .optimizeNotBoolean

def ignoredLine (raw : String) : LogLine :=
  ⟨.warning, "smilkit.settings", "Ignoring invalid SMILKIT_PRECISION=" ++ Text.quoted raw⟩

/-- The first settings, with the precision that the environment asks for where that is valid. -/
def initial (environment : String) : Except Fault Settings × List LogLine :=
  let raw := String.ofList (Text.trim environment.toList)
  if raw = "" then (.ok {}, [])
  else
    match checkedPrecision (.text raw : Value .exact) with
    | .ok precision => (.ok { precision := precision }, [])
    | .error fault => if fault.isOfValue then (.ok {}, [ignoredLine raw]) else (.error fault, [])

def compileOptions (settings : Settings) : Markup.Options A :=
  ⟨.int settings.precision, .bool settings.optimize⟩

def toWire (settings : Settings) : List (String × Value A) :=
  [("quality", .text settings.quality.name), ("precision", .int settings.precision),
   ("optimize", .bool settings.optimize)]

end Settings
end DeclarativeAnimation
