import DeclarativeAnimation.Proofs.Playback.Telling

/-! Frames that come one at a time.  A scheduler calls the frames that wait when it likes and in
    the order it likes; where cancelling has no effect a cancelled frame waits on, and comes late
    or is lost.  A run of beats is whatever a player goes through between its user and such a
    scheduler. -/
namespace DeclarativeAnimation
variable {A : Arithmetic}

/-- A command, a move of the clock, the call of one frame that waits, or the loss of one that was
    cancelled. -/
inductive Beat (A : Arithmetic) where
  | command (command : Command A)
  | advance (time : Number A)
  | call (handle : Nat)
  | lose (handle : Nat)

def Beat.Quiet : Beat A → Prop
  | .command given => (Step.command given).Quiet
  | _ => True

def FrameQueue.without {κ : Type} (queue : FrameQueue κ) (handle : Nat) : FrameQueue κ :=
  { queue with pending := queue.pending.filter fun frame => frame.1 ≠ handle }

namespace Player

def Waits (p : Player A) (handle : Nat) : Prop := handle ∈ p.queue.pending.map (·.1)

instance (p : Player A) (handle : Nat) : Decidable (p.Waits handle) :=
  inferInstanceAs (Decidable (_ ∈ _))

def without (p : Player A) (handle : Nat) : Player A :=
  { p with queue := p.queue.without handle }

def onBeat (p : Player A) : Beat A → Player A
  | .command command => (p.run command).2
  | .advance time => p.advance time
  | .call handle =>
    if p.Waits handle then (callFrame (notify mostNested) (p.without handle)).2 else p
  | .lose handle => if p.frame = some handle then p else p.without handle

def beatEvents (p : Player A) : Beat A → List (Event A)
  | .command command => p.stepEvents (.command command)
  | .call handle =>
    if p.Waits handle then (p.without handle).tick.events (notifyEvents mostNested) else []
  | _ => []

def afterBeats (p : Player A) (beats : List (Beat A)) : Player A := beats.foldl onBeat p

def beatTrace (p : Player A) : List (Beat A) → List (Event A)
  | [] => []
  | beat :: rest => p.beatEvents beat ++ (p.onBeat beat).beatTrace rest

def toldAt (p : Player A) (beat : Beat A) : List (Snapshot A) := snapshotsOf (p.beatEvents beat)

variable {p q : Player A}

theorem beatTrace_concat (p : Player A) (before : List (Beat A)) (beat : Beat A) :
    p.beatTrace (before ++ [beat]) = p.beatTrace before ++ (p.afterBeats before).beatEvents beat := by
  induction before generalizing p with
  | nil => simp [beatTrace, afterBeats]
  | cons first rest ih => simp [beatTrace, ih, afterBeats]

/-- How a player moves: all of it but its data, its listeners and what it has told them. -/
structure Transport (A : Arithmetic) where
  mode : Mode
  clock : Number A
  anchor : Option (Number A)
  position : Number A
  rate : Number A
  lastBroadcast : Number A
  quality : QualityPreset A
  frame : Option Nat
  queue : FrameQueue Unit

def transport (p : Player A) : Transport A :=
  ⟨p.mode, p.clock, p.anchor, p.position, p.rate, p.lastBroadcast, p.quality, p.frame, p.queue⟩

theorem take_transport (p : Player A) (time : Number A) :
    (p.take time id).player.transport = p.transport := by
  unfold take
  split <;> rfl

theorem finish_heard (depth : Nat) {turn : Turn A} (quiet : turn.player.Quiet) :
    ∃ q, turn.player.Heard q ∧
      (turn.finish (notify depth)).2 = if turn.closing then q.closed else q := by
  unfold Turn.finish
  split
  · exact ⟨_, notify_quiet depth _ _ quiet, rfl⟩
  · exact ⟨_, .refl _, rfl⟩

theorem finish_transport (depth : Nat) {turn : Turn A} (quiet : turn.player.Quiet) :
    (turn.finish (notify depth)).2.transport = turn.player.transport ∧
      (turn.finish (notify depth)).2.Quiet := by
  obtain ⟨q, ⟨deliveries, log, rfl⟩, finished⟩ := finish_heard depth quiet
  rw [finished]
  split
  · exact ⟨rfl, by simp [Quiet, closed]⟩
  · exact ⟨rfl, quiet⟩

theorem tick_quiet (quiet : p.Quiet) : p.tick.player.Quiet := by
  unfold Quiet
  rw [show p.tick.player.listeners = p.listeners from
    congrArg Staging.listeners p.tick_stages.staging]
  exact quiet

/-- A beat up to the point where the listeners are told. -/
def beatTurn (p : Player A) : Beat A → Turn A
  | .command command => p.turn command
  | .advance time => { player := p.advance time }
  | .call handle => if p.Waits handle then (p.without handle).tick else { player := p }
  | .lose handle => { player := if p.frame = some handle then p else p.without handle }

theorem onBeat_finish (p : Player A) (beat : Beat A) :
    p.onBeat beat = ((p.beatTurn beat).finish (notify mostNested)).2 ∧
      p.beatEvents beat = (p.beatTurn beat).events (notifyEvents mostNested) := by
  cases beat with
  | call handle =>
    simp only [onBeat, beatEvents, beatTurn]
    split <;> exact ⟨rfl, rfl⟩
  | _ => exact ⟨rfl, rfl⟩

theorem beatTurn_quiet (quiet : p.Quiet) (beat : Beat A) (calm : beat.Quiet) :
    (p.beatTurn beat).player.Quiet := by
  cases beat with
  | command command => exact turn_quiet quiet calm
  | advance time => exact quiet
  | call handle =>
    simp only [beatTurn]
    split
    · exact tick_quiet (p := p.without handle) quiet
    · exact quiet
  | lose handle =>
    simp only [beatTurn]
    split <;> exact quiet

theorem onBeat_quiet (quiet : p.Quiet) (beat : Beat A) (calm : beat.Quiet) :
    (p.onBeat beat).transport = (p.beatTurn beat).player.transport ∧ (p.onBeat beat).Quiet := by
  rw [(p.onBeat_finish beat).1]
  exact finish_transport mostNested (beatTurn_quiet quiet beat calm)

end Player
end DeclarativeAnimation
