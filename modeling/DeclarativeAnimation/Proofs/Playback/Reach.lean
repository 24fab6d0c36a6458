import DeclarativeAnimation.Proofs.Playback.Beat

/-! Where a player can get.  Its user gives commands and moves the clock, a scheduler calls frames
    one at a time or all together, and listeners do what they like; some of that fails.  An
    invariant that every single operation keeps, failed or not, holds wherever this leads. -/
namespace DeclarativeAnimation.Player
variable {A : Arithmetic} {p q : Player A}

inductive Leads (p : Player A) : Player A → Prop where
  | here : Leads p p
  | step {q : Player A} (step : Step A) (before : Leads p q) : Leads p (q.stepped step)
  | beat {q : Player A} (beat : Beat A) (before : Leads p q) : Leads p (q.onBeat beat)

theorem Leads.after (leads : Leads p q) (steps : List (Step A)) : Leads p (q.after steps) := by
  induction steps generalizing q with
  | nil => exact leads
  | cons step rest ih => exact ih (.step step leads)

theorem Leads.afterBeats (leads : Leads p q) (beats : List (Beat A)) :
    Leads p (q.afterBeats beats) := by
  induction beats generalizing q with
  | nil => exact leads
  | cons beat rest ih => exact ih (.beat beat leads)

/-- An invariant that no operation on the player breaks, whether it fails or not, and no listener
    that hears of it. -/
structure Robust (inv : Player A → Prop) : Prop where
  turn : ∀ {p : Player A} (command : Command A), inv p → inv (p.turn command).player
  tick : ∀ {p : Player A}, inv p → inv p.tick.player
  closed : ∀ {p : Player A}, inv p → inv p.closed
  delivered : ∀ {p : Player A} (snapshot : Snapshot A) (listener : Listener A), inv p →
    inv (p.delivered snapshot listener)
  logged : ∀ {p : Player A} (line : LogLine), inv p → inv (p.logged line)

structure Steady (inv : Player A → Prop) : Prop extends Robust inv where
  advance : ∀ {p : Player A} (time : Number A), inv p → inv (p.advance time)
  queued : ∀ {p : Player A} (queue : FrameQueue Unit), inv p → inv { p with queue := queue }

namespace Robust
variable {inv : Player A → Prop} (robust : Robust inv)
include robust

theorem finish {notify : Notify A} (told : ∀ snapshot p, inv p → inv (notify snapshot p))
    {turn : Turn A} (start : inv turn.player) : inv (turn.finish notify).2 := by
  have heard : ∃ q, inv q ∧ (turn.finish notify).2 = if turn.closing then q.closed else q := by
    unfold Turn.finish
    split
    · exact ⟨_, told _ _ start, rfl⟩
    · exact ⟨_, start, rfl⟩
  obtain ⟨q, holds, finished⟩ := heard
  rw [finished]
  split
  · exact robust.closed holds
  · exact holds

/-- By recursion on the reaction, which goes on with what came of its last command. -/
theorem react {perform : Perform A} (kept : ∀ command p, inv p → inv (perform command p).2)
    (snapshot : Snapshot A) : ∀ (reaction : Reaction A) (p : Player A), inv p →
      inv (Player.react perform snapshot reaction p)
  | .done, _, holds => holds
  | .fail, _, holds => robust.logged _ holds
  | .call command next, p, holds =>
    react kept snapshot (next (perform command p).1) _ (kept command p holds)

theorem tell {perform : Perform A} (kept : ∀ command p, inv p → inv (perform command p).2)
    (snapshot : Snapshot A) (p : Player A) (holds : inv p) :
    inv (notifyWith perform snapshot p) := by
  unfold notifyWith
  generalize p.listeners.map (·.2) = listeners
  induction listeners generalizing p with
  | nil => exact holds
  | cons listener rest ih =>
    exact ih _ (robust.react kept snapshot _ _ (robust.delivered snapshot listener holds))

theorem notify (depth : Nat) (snapshot : Snapshot A) (p : Player A) (holds : inv p) :
    inv (Player.notify depth snapshot p) := by
  -- By induction on how deep notifications may nest, as a listener's commands notify one level
  -- below the one that told it.
  induction depth generalizing snapshot p with
  | zero => exact robust.tell (fun _ _ same => same) snapshot p holds
  | succ depth ih =>
    exact robust.tell (fun command _ start => robust.finish ih (robust.turn command start))
      snapshot p holds

theorem run (command : Command A) (holds : inv p) : inv (p.run command).2 :=
  robust.finish (robust.notify mostNested) (robust.turn command holds)

theorem callFrame (holds : inv p) : inv (Player.callFrame (Player.notify mostNested) p).2 :=
  robust.finish (robust.notify mostNested) (robust.tick holds)

end Robust

namespace Steady
variable {inv : Player A → Prop} (steady : Steady inv)
include steady

theorem callEach (frames : List (Nat × Unit)) (holds : inv p) :
    inv (FrameQueue.callEach (fun _ => Player.callFrame (Player.notify mostNested)) frames p).2 := by
  induction frames generalizing p with
  | nil => exact holds
  | cons frame rest ih =>
    have called := steady.callFrame holds
    unfold FrameQueue.callEach
    rcases done : Player.callFrame (Player.notify mostNested) p with ⟨result, q⟩
    rw [done] at called
    cases result with
    | error fault => exact called
    | ok _ => exact ih called

theorem stepped (step : Step A) (holds : inv p) : inv (p.stepped step) := by
  cases step with
  | command command => exact steady.run command holds
  | advance time => exact steady.advance time holds
  | frame => exact steady.callEach _ (steady.queued _ holds)

theorem onBeat (beat : Beat A) (holds : inv p) : inv (p.onBeat beat) := by
  cases beat with
  | command command => exact steady.run command holds
  | advance time => exact steady.advance time holds
  | call handle =>
    simp only [Player.onBeat]
    split
    · exact steady.callFrame (steady.queued _ holds)
    · exact holds
  | lose handle =>
    simp only [Player.onBeat]
    split
    · exact holds
    · exact steady.queued _ holds

theorem leads (start : inv p) (leads : Leads p q) : inv q := by
  induction leads with
  | here => exact start
  | step step _ ih => exact steady.stepped step ih
  | beat beat _ ih => exact steady.onBeat beat ih

end Steady
end DeclarativeAnimation.Player
