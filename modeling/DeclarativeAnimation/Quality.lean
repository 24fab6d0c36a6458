import DeclarativeAnimation.Value

/-! Preview quality: how often listeners hear of a running animation and how well filters are
    drawn.  It never changes the values that an animation has. -/
namespace DeclarativeAnimation

inductive Quality where
  | editing | preview | export
  deriving DecidableEq, Repr

structure QualityPreset (A : Arithmetic) where
  mode : Quality
  filterQuality : String
  /-- Notifications per second at most. -/
  updateRate : Number A
  disableFilters : Bool

namespace Quality
variable {A : Arithmetic}

def name : Quality → String
  | .editing => "editing"
  | .preview => "preview"
  | .export => "export"

def spellings : List (String × Quality) :=
  [("editing", .editing), ("edit", .editing), ("preview", .preview), ("export", .export),
   ("final", .export)]

def ofValue (v : Value A) : Except Fault Quality := do
  let text ← v.written
  match spellings.lookup (Text.lowercase (String.ofList (Text.trim text.toList))) with
  | some quality => return quality
  | none => throw .unsupportedQuality

def all : List Quality := [.editing, .preview, .export]

def preset : Quality → QualityPreset A
  | .editing => ⟨.editing, "low", 30, true⟩
  | .preview => ⟨.preview, "medium", 60, false⟩
  | .export => ⟨.export, "high", 60, false⟩

end Quality

namespace QualityPreset
variable {A : Arithmetic}

def minInterval (preset : QualityPreset A) : Number A := 1 / preset.updateRate

def toWire (preset : QualityPreset A) : Value A :=
  .object [("mode", .text preset.mode.name), ("filterQuality", .text preset.filterQuality),
    ("updateRate", .number preset.updateRate), ("disableFilters", .bool preset.disableFilters)]

end QualityPreset
end DeclarativeAnimation
