import DeclarativeAnimation.Value

/-! Frames that wait to be run.  A frame is requested with what it will call and gets a handle;
    until it runs it can be cancelled by that handle.  Running takes out all frames that wait,
    so what is requested meanwhile waits for the next run.  A player that nobody drives by hand
    has a timer for each frame instead. -/
namespace DeclarativeAnimation

structure FrameQueue (κ : Type) where
  nextHandle : Nat := 1
  pending : List (Nat × κ) := []
  /-- Whether cancelling has an effect. -/
  cancels : Bool := true

namespace FrameQueue
variable {κ : Type}

def request (queue : FrameQueue κ) (call : κ) : Nat × FrameQueue κ :=
  (queue.nextHandle, { queue with
    nextHandle := queue.nextHandle + 1
    pending := queue.pending ++ [(queue.nextHandle, call)] })

def cancel (queue : FrameQueue κ) (handle : Nat) : FrameQueue κ :=
  if queue.cancels then
    { queue with pending := queue.pending.filter fun (h, _) => h ≠ handle }
  else queue

def takeAll (queue : FrameQueue κ) : List (Nat × κ) × FrameQueue κ :=
  (queue.pending, { queue with pending := [] })

/-- Calls frames in turn; one that fails ends the run. -/
def callEach {σ ε : Type} (call : κ → σ → Except ε Unit × σ) :
    List (Nat × κ) → σ → Except ε Unit × σ
  | [], state => (.ok (), state)
  | (_, k) :: rest, state =>
    match call k state with
    | (.ok (), state) => callEach call rest state
    | (.error e, state) => (.error e, state)

end FrameQueue

structure FrameTimer (A : Arithmetic) where
  /-- Seconds until the frame is called; an interval below zero is over at once. -/
  interval : Number A

namespace FrameTimer
variable {A : Arithmetic}

def ofRate (rate : Value A) : Except Fault (FrameTimer A) := do
  let rate ← rate.toNumber
  if rate.isZero then throw .divisionByZero
  return ⟨1 / rate⟩

/-- The longest interval that can be waited for: 2^63 nanoseconds, in whole seconds. -/
def longest : Number A := 9223372036

def fires (timer : FrameTimer A) : Bool := timer.interval ≤ longest

end FrameTimer
end DeclarativeAnimation
