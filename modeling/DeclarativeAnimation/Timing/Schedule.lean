import DeclarativeAnimation.Timing.ClockValue

/-! From a schedule and a time to a place in a run.  An animation begins, runs through its
    duration as often as it repeats, and ends by its active duration; what is seen after that
    depends on whether it is frozen. -/
namespace DeclarativeAnimation.Schedule
variable {A : Arithmetic}

def beginSeconds (s : Schedule A) : Except Fault (Number A) :=
  ClockValue.seconds (s.begin.orElse (.text "0s"))

def durSeconds (s : Schedule A) : Except Fault (Number A) :=
  ClockValue.seconds (s.dur.orElse (.text "0s"))

/-- A repeat count without end is infinite; one that is missing, malformed or not positive is
    one run. -/
def repeatTimes (v : Value A) : Except Fault (Number A) := do
  let count ← match v with
    | .null => pure 1
    | .text s =>
      if v.isIndefinite then return .infinite false
      else
        let text := Text.lowercase (String.ofList (Text.trim s.toList))
        pure ((Number.ofText? text.toList).getD 1)
    | v => v.toNumber
  return if !count.isFinite || count ≤ 0 then 1 else count

def repeatSeconds (v : Value A) : Except Fault (Number A) :=
  if v.isIndefinite then .ok (.infinite false)
  else if v.isPresent then ClockValue.seconds v
  else .ok 0

/-- The whole time from begin to end.  A repeat duration counts before a repeat count, and an
    end caps both. -/
def activeDuration (s : Schedule A) : Except Fault (Number A) := do
  let dur ← s.durSeconds
  let times ← repeatTimes s.repeatCount
  let repeated ← repeatSeconds s.repeatDur
  let total := if (0 : Number A) < repeated then repeated else if dur ≤ 0 then 0 else dur * times
  match ← ClockValue.read? s.finish with
  | none => return total
  | some finish => return total.smaller (Number.larger 0 (finish - (← s.beginSeconds)))

inductive Phase where
  | before | active | frozen | removed
  deriving DecidableEq, Repr

def Phase.name : Phase → String
  | .before => "before"
  | .active => "active"
  | .frozen => "frozen"
  | .removed => "removed"

/-- A place in a run: how far the run is, what phase the animation is in, and how many runs are
    complete. -/
structure Moment (A : Arithmetic) where
  progress : Number A
  phase : Phase
  iteration : Int

def Moment.isActive (m : Moment A) : Bool := m.phase = .active

/-- What counting complete runs of a finite animation tolerates. -/
def iterationTolerance : Number A := 1e-9

def lastIteration (dur total : Number A) : Except Fault Int :=
  if (0 : Number A) < dur && (0 : Number A) < total then do
    return max 0 ((← Value.ceiling (total / dur - iterationTolerance)) - 1)
  else .ok 0

def resolve (s : Schedule A) (time : Number A) : Except Fault (Moment A) := do
  let elapsed := time - (← s.beginSeconds)
  if elapsed < 0 then return ⟨0, .before, 0⟩
  let dur ← s.durSeconds
  let total ← s.activeDuration
  if dur ≤ 0 || (total.isFinite && total ≤ elapsed) then
    let iteration ← lastIteration dur total
    if s.fill.isTheText "freeze" then return ⟨1, .frozen, iteration⟩
    else return ⟨0, .removed, iteration⟩
  else
    let (runs, part) := elapsed.floorDivide dur
    let iteration ← Value.wholePart runs
    return ⟨(part / dur).clampUnit, .active, iteration⟩

def endSeconds (s : Schedule A) : Except Fault (Number A) := do
  return (← s.beginSeconds) + (← s.activeDuration)

/-- The end of the last schedule that has one, zero where none has. -/
def timelineDuration (schedules : List (Schedule A)) : Except Fault (Number A) := do
  match (← schedules.mapM endSeconds).filter (·.isFinite) with
  | [] => return 0
  | first :: rest => return rest.foldl Number.larger first

end DeclarativeAnimation.Schedule
