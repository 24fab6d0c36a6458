import DeclarativeAnimation.Playback.Player

/-! Commands to a player, and listeners that give commands themselves while they are being told
    of a snapshot.  A listener that fails is logged and does not keep the others from hearing.
    How deep notifications nest is bounded. -/
namespace DeclarativeAnimation
variable {A : Arithmetic}

abbrev Notify (A : Arithmetic) := Snapshot A → Player A → Player A

abbrev Perform (A : Arithmetic) := Command A → Player A → Except Fault (Reply A) × Player A

/-- Tells the listeners of the snapshot that an operation took, and closes the player after
    that where the operation asks for it. -/
def Turn.finish (notify : Notify A) (turn : Turn A) : Except Fault (Reply A) × Player A :=
  let p := match turn.evaluation with
    | some (.ok snapshot) => notify snapshot turn.player
    | _ => turn.player
  (turn.result, if turn.closing then p.closed else p)

namespace Player

def perform (notify : Notify A) : Perform A := fun command p => (p.turn command).finish notify

def failureLine (time : Number A) : LogLine :=
  ⟨.error, "smilkit.playback", "Playback listener failed at t=" ++ time.fixed 3⟩

def delivered (p : Player A) (snapshot : Snapshot A) (listener : Listener A) : Player A :=
  { p with deliveries := p.deliveries ++ [⟨listener.name, snapshot⟩] }

def logged (p : Player A) (line : LogLine) : Player A := { p with log := p.log ++ [line] }

def react (perform : Perform A) (snapshot : Snapshot A) : Reaction A → Player A → Player A
  | .done, p => p
  | .fail, p => p.logged (failureLine snapshot.time)
  | .call command next, p =>
    let (result, p) := perform command p
    react perform snapshot (next result) p

def deliver (perform : Perform A) (snapshot : Snapshot A) (p : Player A) (listener : Listener A) :
    Player A :=
  react perform snapshot (listener.reaction p.deliveries.length) (p.delivered snapshot listener)

/-- Tells the listeners that are subscribed at this moment, in the order of subscription. -/
def notifyWith (perform : Perform A) : Notify A :=
  fun snapshot p => (p.listeners.map (·.2)).foldl (deliver perform snapshot) p

def notify : Nat → Notify A
  | 0 => notifyWith fun _ p => (.error .nestedTooDeep, p)
  | depth + 1 => notifyWith (perform (notify depth))

def mostNested : Nat := 200

def run (p : Player A) (command : Command A) : Except Fault (Reply A) × Player A :=
  perform (notify mostNested) command p

def callFrame (notify : Notify A) (p : Player A) : Except Fault Unit × Player A :=
  let (result, p) := p.tick.finish notify
  (result.map fun _ => (), p)

def runFrame (p : Player A) : Except Fault Nat × Player A :=
  let (frames, queue) := p.queue.takeAll
  let (result, p) := FrameQueue.callEach (fun _ => callFrame (notify mostNested)) frames
    { p with queue := queue }
  (result.map fun _ => frames.length, p)

def advance (p : Player A) (time : Number A) : Player A := { p with clock := p.clock + time }

def new (quality : Value A) (resolver : MotionResolver A) (clock : Number A) (cancels : Bool) :
    Except Fault (Player A) := do
  let quality ← Quality.ofValue quality
  return {
    resolver := resolver, clock := clock, queue := { cancels := cancels }
    quality := quality.preset }

end Player
end DeclarativeAnimation
