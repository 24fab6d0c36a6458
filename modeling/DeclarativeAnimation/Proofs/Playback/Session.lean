import DeclarativeAnimation.Playback.Command

/-! Sessions: whatever is done to a player from outside, step after step.  A listener that gives
    no commands leaves nothing but its deliveries and log lines behind. -/
namespace DeclarativeAnimation
variable {A : Arithmetic}

/-- A command, a move of the clock, or a run of the frames that wait. -/
inductive Step (A : Arithmetic) where
  | command (command : Command A)
  | advance (time : Number A)
  | frame

namespace Player

def stepped (p : Player A) : Step A → Player A
  | .command command => (p.run command).2
  | .advance time => p.advance time
  | .frame => p.runFrame.2

def after (p : Player A) (steps : List (Step A)) : Player A := steps.foldl stepped p

def fresh : Player .exact :=
  { resolver := originPlacement, clock := .finite 100, quality := Quality.preview.preset }

end Player

def Reaction.Quiet : Reaction A → Prop
  | .call _ _ => False
  | _ => True

namespace Player

def Quiet (p : Player A) : Prop := ∀ entry ∈ p.listeners, ∀ number, (entry.2.reaction number).Quiet

def Heard (p q : Player A) : Prop :=
  ∃ deliveries log, q = { p with deliveries := deliveries, log := log }

theorem Heard.refl (p : Player A) : p.Heard p := ⟨p.deliveries, p.log, rfl⟩

theorem Heard.trans {p q r : Player A} (first : p.Heard q) (second : q.Heard r) : p.Heard r := by
  obtain ⟨deliveries, log, rfl⟩ := first
  obtain ⟨deliveries', log', rfl⟩ := second
  exact ⟨deliveries', log', rfl⟩

theorem deliver_quiet (perform : Perform A) (snapshot : Snapshot A) (p : Player A)
    (listener : Listener A) (quiet : ∀ number, (listener.reaction number).Quiet) :
    p.Heard (deliver perform snapshot p listener) := by
  have calm := quiet p.deliveries.length
  unfold deliver
  cases reaction : listener.reaction p.deliveries.length with
  | done => exact ⟨_, _, rfl⟩
  | fail => exact ⟨_, _, rfl⟩
  | call command next =>
    rw [reaction] at calm
    exact calm.elim

theorem notifyWith_quiet (perform : Perform A) (snapshot : Snapshot A) (p : Player A)
    (quiet : p.Quiet) : p.Heard (notifyWith perform snapshot p) := by
  have each : ∀ listener ∈ p.listeners.map (·.2), ∀ number, (listener.reaction number).Quiet := by
    intro listener member
    obtain ⟨entry, inside, rfl⟩ := List.mem_map.mp member
    exact quiet entry inside
  unfold notifyWith
  -- The listeners told are those of the start, whatever the player has become meanwhile.
  generalize p.listeners.map (·.2) = told at each
  induction told generalizing p with
  | nil => exact Heard.refl p
  | cons listener rest ih =>
    have first := deliver_quiet perform snapshot p listener (each listener (by simp))
    refine first.trans (ih _ ?_ ?_)
    · obtain ⟨deliveries, log, same⟩ := first
      rw [same]
      exact quiet
    · intro other member
      exact each other (by simp [member])

theorem notify_quiet (depth : Nat) (snapshot : Snapshot A) (p : Player A) (quiet : p.Quiet) :
    p.Heard (notify depth snapshot p) := by
  cases depth with
  | zero => exact notifyWith_quiet _ snapshot p quiet
  | succ depth => exact notifyWith_quiet _ snapshot p quiet

theorem finish_quiet (depth : Nat) (turn : Turn A) (quiet : turn.player.Quiet)
    (staying : turn.closing = false) : turn.player.Heard (turn.finish (notify depth)).2 := by
  simp only [Turn.finish, staying, Bool.false_eq_true, ↓reduceIte]
  split
  · exact notify_quiet depth _ _ quiet
  · exact Heard.refl _

end Player
end DeclarativeAnimation
