import DeclarativeAnimation.Chain
import DeclarativeAnimation.Fault
import DeclarativeAnimation.Playback.FrameQueue
import DeclarativeAnimation.Quality
import DeclarativeAnimation.State.Evaluation

/-! The player of a live preview.  It holds the animations of a document, a position on their
    timeline, and a mode.  While it plays, the position follows the clock through an anchor, the
    clock time at which the position would have been zero, and a frame is always waiting.
    Listeners hear of snapshots, each of them the states at one time.  They may give commands
    themselves, so an operation first lets go of the player: it leaves a `Turn`. -/
namespace DeclarativeAnimation

inductive Mode where
  | stopped | playing | paused
  deriving DecidableEq, Repr

def Mode.name : Mode → String
  | .stopped => "stopped"
  | .playing => "playing"
  | .paused => "paused"

structure Snapshot (A : Arithmetic) where
  time : Number A := 0
  states : List (Value A × ElementState A) := []

inductive Reply (A : Arithmetic) where
  | done
  | rate (rate : Number A)
  | quality (preset : QualityPreset A)

mutual

inductive Command (A : Arithmetic) where
  | play | pause | stop | dispose
  | seek (time : Value A)
  | setRate (rate : Value A)
  | setQuality (mode : Value A)
  | setData (animations : List (Animation A)) (elements : Elements A) (chains : List (Chain A))
  | subscribe (name : String) (reaction : Nat → Reaction A)
  | unsubscribe (name : String)

/-- What a listener does when it hears of a snapshot: it gives commands, each one knowing what
    came of the last, until it is done or fails. -/
inductive Reaction (A : Arithmetic) where
  | done
  | fail
  | call (command : Command A) (next : Except Fault (Reply A) → Reaction A)

end

def Reaction.perform {A : Arithmetic} : List (Command A) → Reaction A
  | [] => .done
  | command :: rest => .call command fun result => if result.toBool then perform rest else .fail

/-- A listener reacts to a snapshot by the number of snapshots that were delivered before. -/
structure Listener (A : Arithmetic) where
  name : String
  reaction : Nat → Reaction A

structure Delivery (A : Arithmetic) where
  listener : String
  snapshot : Snapshot A

structure Player (A : Arithmetic) where
  resolver : MotionResolver A
  clock : Number A
  queue : FrameQueue Unit := {}
  quality : QualityPreset A
  mode : Mode := .stopped
  disposed : Bool := false
  anchor : Option (Number A) := none
  position : Number A := 0
  lastBroadcast : Number A := .infinite true
  rate : Number A := 1
  frame : Option Nat := none
  animations : List (Animation A) := []
  elements : Elements A := .all
  duration : Number A := 0
  nextKey : Nat := 1
  listeners : List (Nat × Listener A) := []
  /-- The key of the latest subscription under each name. -/
  keys : List (String × Nat) := []
  snapshot : Snapshot A := {}
  deliveries : List (Delivery A) := []
  log : List LogLine := []

/-- What an operation leaves when it lets go of the player. -/
structure Turn (A : Arithmetic) where
  player : Player A
  result : Except Fault (Reply A) := .ok .done
  /-- What the evaluation gave, where there was one; a snapshot is still to be told of. -/
  evaluation : Option (Except Fault (Snapshot A)) := none
  /-- Whether the player is closed for good when the listeners have heard. -/
  closing : Bool := false

namespace Player
variable {A : Arithmetic}

/-- Starting this close before the end of a timeline starts it over. -/
def restartMargin : Number A := 0.05

def leastRate : Number A := 0.1

def elapsed (p : Player A) : Number A := (p.clock - p.anchor.getD 0) * p.rate

def reanchored (p : Player A) (position : Number A) : Player A :=
  { p with anchor := some (p.clock - position / p.rate) }

def requestFrame (p : Player A) : Player A :=
  let (handle, queue) := p.queue.request ()
  { p with frame := some handle, queue := queue }

def cancelFrame (p : Player A) : Player A :=
  match p.frame with
  | some handle => { p with frame := none, queue := p.queue.cancel handle }
  | none => p

def compute (p : Player A) (time : Number A) : Except Fault (Snapshot A) := do
  return ⟨time, ← allStates p.animations p.elements p.resolver time⟩

def live {α : Type} (p : Player A) (result : α) : Except Fault α :=
  if p.disposed then .error .disposed else .ok result

def refused (p : Player A) (fault : Fault) : Turn A := { player := p, result := .error fault }

/-- Takes the snapshot at a time; with it the player goes on. -/
def take (p : Player A) (time : Number A) (next : Player A → Player A) : Turn A :=
  match p.compute time with
  | .error fault => { player := p, result := .error fault, evaluation := some (.error fault) }
  | .ok snapshot =>
    { player := next { p with snapshot := snapshot }, evaluation := some (.ok snapshot) }

/-- A frame of the loop: moves the position to the clock, asks for the next frame, and takes a
    snapshot when the last one is long enough ago. -/
def tick (p : Player A) : Turn A :=
  let p := { p with frame := none }
  if p.disposed || p.mode ≠ .playing then { player := p }
  else
    let p := { p with position := p.elapsed }
    if p.quality.minInterval ≤ p.clock - p.lastBroadcast then
      p.take p.position fun p => { p with lastBroadcast := p.clock }.requestFrame
    else { player := p.requestFrame }

def ended (p : Player A) : Bool :=
  (0 : Number A) < p.duration && p.duration - restartMargin ≤ p.position

/-- The player at the beginning of a frame loop, from the start when the timeline is over. -/
def started (p : Player A) : Player A :=
  let p := if p.ended then { p with position := 0 } else p
  { p.reanchored p.position with lastBroadcast := .infinite true, mode := .playing }

def play (p : Player A) : Turn A :=
  if p.disposed then p.refused .disposed
  else if p.mode = .playing then { player := p }
  else p.started.tick

def pause (p : Player A) : Turn A :=
  if p.disposed then p.refused .disposed
  else if p.mode ≠ .playing then { player := p }
  else { player := { { p with position := p.elapsed }.cancelFrame with mode := .paused } }

def halted (p : Player A) : Player A :=
  { p.cancelFrame with mode := .stopped, position := 0, anchor := none }

def stop (p : Player A) : Turn A :=
  if p.disposed then p.refused .disposed else p.halted.take 0 id

def moved (p : Player A) (position : Number A) : Player A :=
  let p := { p with position := position }
  if p.mode = .playing then { p.reanchored position with lastBroadcast := p.clock } else p

def seek (p : Player A) (time : Number A) : Turn A :=
  if p.disposed then p.refused .disposed else (p.moved time).take time id

def paced (p : Player A) (rate : Number A) : Player A :=
  if p.mode = .playing then { p with rate := rate }.reanchored p.elapsed else { p with rate := rate }

def setRate (p : Player A) (rate : Number A) : Turn A :=
  let rate := leastRate.larger rate
  if p.disposed then p.refused .disposed
  else { player := p.paced rate, result := .ok (.rate rate) }

def setQuality (p : Player A) (quality : Quality) : Turn A :=
  if p.disposed then p.refused .disposed
  else
    { player := { p with quality := quality.preset }, result := .ok (.quality quality.preset) }

def prepared (animations : List (Animation A)) (elements : Elements A) (chains : List (Chain A)) :
    Except Fault (List (Animation A) × Elements A) := do
  let animations ← Animation.withChains animations chains
  let table ← elements.table?
  return (animations, table.elim .all .named)

def setData (p : Player A) (animations : List (Animation A)) (elements : Elements A)
    (chains : List (Chain A)) : Turn A :=
  match prepared animations elements chains with
  | .error fault => p.refused fault
  | .ok (animations, elements) =>
    if p.disposed then p.refused .disposed
    else
      let p := { p with animations := animations, elements := elements }
      match Schedule.timelineDuration (animations.map (·.schedule)) with
      | .error fault => p.refused fault
      | .ok duration => { player := { p with duration := duration } }

def subscribe (p : Player A) (name : String) (reaction : Nat → Reaction A) : Turn A :=
  if p.disposed then p.refused .disposed
  else
    { player := { p with
        nextKey := p.nextKey + 1
        listeners := p.listeners ++ [(p.nextKey, ⟨name, reaction⟩)]
        keys := Keyed.put name p.nextKey p.keys } }

/-- Removes the latest subscription under a name, if it is still there. -/
def unsubscribe (p : Player A) (name : String) : Turn A :=
  match Keyed.get? name p.keys with
  | none => p.refused .unknownKey
  | some key => { player := { p with listeners := Keyed.erase key p.listeners } }

/-- Stops, and once the listeners have heard of that, closes the player. -/
def dispose (p : Player A) : Turn A :=
  if p.disposed then { player := p }
  else
    let turn := p.stop
    { turn with closing := turn.result.toBool }

def closed (p : Player A) : Player A :=
  { p with disposed := true, listeners := [], animations := [], elements := .all, snapshot := {} }

def turn (p : Player A) (command : Command A) : Turn A :=
  match command with
  | .play => p.play
  | .pause => p.pause
  | .stop => p.stop
  | .dispose => p.dispose
  | .seek time =>
    match time.toNumber with
    | .ok t => p.seek t
    | .error fault => p.refused fault
  | .setRate rate =>
    match rate.toNumber with
    | .ok r => p.setRate r
    | .error fault => p.refused fault
  | .setQuality mode =>
    match Quality.ofValue mode with
    | .ok quality => p.setQuality quality
    | .error fault => p.refused fault
  | .setData animations elements chains => p.setData animations elements chains
  | .subscribe name reaction => p.subscribe name reaction
  | .unsubscribe name => p.unsubscribe name

end Player

inductive Query where
  | quality | duration | rate | position | isPlaying | mode | states | snapshot
  deriving DecidableEq, Repr

inductive Reading (A : Arithmetic) where
  | quality (preset : QualityPreset A)
  | number (x : Number A)
  | flag (holds : Bool)
  | mode (mode : Mode)
  | states (states : List (Value A × ElementState A))
  | snapshot (snapshot : Snapshot A)

namespace Player
variable {A : Arithmetic}

def reading (p : Player A) : Query → Reading A
  | .quality => .quality p.quality
  | .duration => .number p.duration
  | .rate => .number p.rate
  | .position => .number p.position
  | .isPlaying => .flag (p.mode = .playing)
  | .mode => .mode p.mode
  | .states => .states p.snapshot.states
  | .snapshot => .snapshot p.snapshot

def ask (p : Player A) (query : Query) : Except Fault (Reading A) := p.live (p.reading query)

end Player
end DeclarativeAnimation
