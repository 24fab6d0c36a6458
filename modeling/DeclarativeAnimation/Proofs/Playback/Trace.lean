import DeclarativeAnimation.Proofs.Playback.Session
import DeclarativeAnimation.Proofs.Playback.Turn

/-! What comes to pass in a session.  Somebody outside has control of the player between two
    steps, and so has a listener: when it is told of a snapshot, and again after each command
    that it gives.  A trace lists these moments and the evaluations between them, in order.  An
    invariant that every turn keeps holds whenever somebody has control, however deep listeners
    nest their commands. -/
namespace DeclarativeAnimation
variable {A : Arithmetic}

inductive Event (A : Arithmetic) where
  | control (p : Player A)
  | evaluation (outcome : Except Fault (Snapshot A))

abbrev Telling (A : Arithmetic) := Snapshot A → Player A → List (Event A)

def Turn.events (telling : Telling A) (turn : Turn A) : List (Event A) :=
  match turn.evaluation with
  | none => []
  | some (.error fault) => [.evaluation (.error fault)]
  | some (.ok snapshot) => .evaluation (.ok snapshot) :: telling snapshot turn.player

namespace Player

def performEvents (telling : Telling A) (command : Command A) (p : Player A) : List (Event A) :=
  (p.turn command).events telling

def reactEvents (perform : Perform A) (events : Command A → Player A → List (Event A)) :
    Reaction A → Player A → List (Event A)
  | .done, _ => []
  | .fail, _ => []
  | .call command next, p =>
    events command p ++ .control (perform command p).2 ::
      reactEvents perform events (next (perform command p).1) (perform command p).2

def deliverEvents (perform : Perform A) (events : Command A → Player A → List (Event A))
    (snapshot : Snapshot A) (p : Player A) (listener : Listener A) : List (Event A) :=
  .control (p.delivered snapshot listener) ::
    reactEvents perform events (listener.reaction p.deliveries.length)
      (p.delivered snapshot listener)

def tellEvents (perform : Perform A) (events : Command A → Player A → List (Event A))
    (snapshot : Snapshot A) : List (Listener A) → Player A → List (Event A)
  | [], _ => []
  | listener :: rest, p =>
    deliverEvents perform events snapshot p listener ++
      tellEvents perform events snapshot rest (deliver perform snapshot p listener)

def notifyEvents : Nat → Telling A
  | 0, snapshot, p =>
    tellEvents (fun _ p => (.error .nestedTooDeep, p)) (fun _ _ => []) snapshot
      (p.listeners.map (·.2)) p
  | depth + 1, snapshot, p =>
    tellEvents (perform (notify depth)) (performEvents (notifyEvents depth)) snapshot
      (p.listeners.map (·.2)) p

def frameEvents : List (Nat × Unit) → Player A → List (Event A)
  | [], _ => []
  | _ :: rest, p =>
    p.tick.events (notifyEvents mostNested) ++
      match (callFrame (notify mostNested) p).1 with
      | .ok () => frameEvents rest (callFrame (notify mostNested) p).2
      | .error _ => []

def stepEvents (p : Player A) : Step A → List (Event A)
  | .command command => performEvents (notifyEvents mostNested) command p
  | .advance _ => []
  | .frame => frameEvents p.queue.takeAll.1 { p with queue := p.queue.takeAll.2 }

def trace (p : Player A) : List (Step A) → List (Event A)
  | [] => [.control p]
  | step :: rest => .control p :: (p.stepEvents step ++ (p.stepped step).trace rest)

end Player

def Event.failed : Event A → Bool
  | .evaluation (.error _) => true
  | _ => false

def Unfailing (events : List (Event A)) : Prop := ∀ event ∈ events, event.failed = false

instance (events : List (Event A)) : Decidable (Unfailing events) :=
  inferInstanceAs (Decidable (∀ event ∈ events, event.failed = false))

/-- Without a failing evaluation, an invariant holds under control and in the end. -/
def Upholds (inv : Player A → Prop) (events : List (Event A)) (q : Player A) : Prop :=
  Unfailing events → (∀ p, Event.control p ∈ events → inv p) ∧ inv q

def Upholding (inv : Player A → Prop) (perform : Perform A)
    (performed : Command A → Player A → List (Event A)) : Prop :=
  ∀ command p, inv p → Upholds inv (performed command p) (perform command p).2

structure Lasting (inv : Player A → Prop) : Prop where
  turn : ∀ {p : Player A} (command : Command A), inv p → (p.turn command).Evaluated →
    inv (p.turn command).player
  closed : ∀ {p : Player A}, inv p → inv p.closed
  delivered : ∀ {p : Player A} (snapshot : Snapshot A) (listener : Listener A), inv p →
    inv (p.delivered snapshot listener)
  logged : ∀ {p : Player A} (line : LogLine), inv p → inv (p.logged line)

section
variable {inv : Player A → Prop} {p q : Player A} {events later : List (Event A)}

theorem Upholds.none (start : inv p) : Upholds inv [] p := fun _ => ⟨by simp, start⟩

theorem Upholds.append (first : Upholds inv events p) (second : inv p → Upholds inv later q) :
    Upholds inv (events ++ later) q := by
  intro unfailing
  have early : Unfailing events := fun event member =>
    unfailing event (List.mem_append_left later member)
  have late : Unfailing later := fun event member =>
    unfailing event (List.mem_append_right events member)
  obtain ⟨before, between⟩ := first early
  obtain ⟨after, last⟩ := second between late
  refine ⟨?_, last⟩
  intro held member
  rcases List.mem_append.mp member with sooner | afterwards
  · exact before held sooner
  · exact after held afterwards

theorem Upholds.control (holds : inv p) (rest : Upholds inv events q) :
    Upholds inv (.control p :: events) q := by
  have now : Upholds inv [.control p] p := by
    intro _
    refine ⟨?_, holds⟩
    intro held member
    obtain rfl : held = p := by simpa using member
    exact holds
  exact now.append fun _ => rest

namespace Lasting
variable (lasting : Lasting inv)
include lasting

theorem finish {notify : Notify A} {telling : Telling A}
    (heard : ∀ snapshot p, inv p → Upholds inv (telling snapshot p) (notify snapshot p))
    {turn : Turn A} (kept : turn.Evaluated → inv turn.player) :
    Upholds inv (turn.events telling) (turn.finish notify).2 := by
  have closing : ∀ {events q}, Upholds inv events q →
      Upholds inv events (if turn.closing then q.closed else q) := by
    intro events q upheld unfailing
    obtain ⟨controlled, last⟩ := upheld unfailing
    refine ⟨controlled, ?_⟩
    split
    · exact lasting.closed last
    · exact last
  unfold Turn.events Turn.finish
  cases evaluated : turn.evaluation with
  | none => exact closing (.none (kept (by simp [Turn.Evaluated, evaluated])))
  | some outcome =>
    cases outcome with
    | error fault =>
      intro unfailing
      have failed := unfailing (.evaluation (.error fault)) (by simp)
      simp [Event.failed] at failed
    | ok snapshot =>
      have start := kept (by simp [Turn.Evaluated, evaluated])
      have noted : Upholds inv [.evaluation (.ok snapshot)] turn.player :=
        fun _ => ⟨by simp, start⟩
      exact closing (noted.append (heard snapshot turn.player))

/-- By recursion on the reaction, which goes on with what came of its last command. -/
theorem react {perform : Perform A} {performed : Command A → Player A → List (Event A)}
    (kept : Upholding inv perform performed) (snapshot : Snapshot A) (p : Player A)
    (start : inv p) : ∀ reaction : Reaction A,
    Upholds inv (Player.reactEvents perform performed reaction p)
      (Player.react perform snapshot reaction p)
  | .done => .none start
  | .fail => .none (lasting.logged _ start)
  | .call command next =>
    (kept command p start).append fun after =>
      .control after (react kept snapshot _ after (next (perform command p).1))

theorem deliver {perform : Perform A} {performed : Command A → Player A → List (Event A)}
    (kept : Upholding inv perform performed) (snapshot : Snapshot A) (listener : Listener A)
    (start : inv p) :
    Upholds inv (Player.deliverEvents perform performed snapshot p listener)
      (Player.deliver perform snapshot p listener) := by
  have told := lasting.delivered snapshot listener start
  exact .control told (lasting.react kept snapshot _ told _)

theorem tell {perform : Perform A} {performed : Command A → Player A → List (Event A)}
    (kept : Upholding inv perform performed)
    (snapshot : Snapshot A) (listeners : List (Listener A)) (start : inv p) :
    Upholds inv (Player.tellEvents perform performed snapshot listeners p)
      (listeners.foldl (Player.deliver perform snapshot) p) := by
  induction listeners generalizing p with
  | nil => exact .none start
  | cons listener rest ih => exact (lasting.deliver kept snapshot listener start).append ih

theorem notify (depth : Nat) (snapshot : Snapshot A) (p : Player A) (start : inv p) :
    Upholds inv (Player.notifyEvents depth snapshot p) (Player.notify depth snapshot p) := by
  -- By induction on how deep notifications may nest: a listener's commands notify one level below
  -- the one that told it.
  induction depth generalizing snapshot p with
  | zero => exact lasting.tell (fun _ _ holds => .none holds) snapshot _ start
  | succ depth ih =>
    have kept : Upholding inv (Player.perform (Player.notify depth))
        (Player.performEvents (Player.notifyEvents depth)) := by
      intro command p holds
      exact lasting.finish ih (lasting.turn command holds)
    exact lasting.tell kept snapshot _ start

theorem run (command : Command A) (start : inv p) :
    Upholds inv (p.stepEvents (.command command)) (p.run command).2 :=
  lasting.finish (lasting.notify Player.mostNested) (lasting.turn command start)

theorem callFrame (kept : p.tick.Evaluated → inv p.tick.player) :
    Upholds inv (p.tick.events (Player.notifyEvents Player.mostNested))
      (Player.callFrame (Player.notify Player.mostNested) p).2 :=
  lasting.finish (lasting.notify Player.mostNested) kept

/-- A lasting invariant that frames and the clock keep as well holds throughout a session. -/
theorem session
    (advance : ∀ {p : Player A} (time : Number A), inv p → inv (p.advance time))
    (frame : ∀ {p : Player A}, inv p → Upholds inv (p.stepEvents .frame) p.runFrame.2)
    (steps : List (Step A)) (start : inv p) :
    Upholds inv (p.trace steps) (p.after steps) := by
  induction steps generalizing p with
  | nil => exact .control start (.none start)
  | cons step rest ih =>
    have stepped : Upholds inv (p.stepEvents step) (p.stepped step) := by
      cases step with
      | command command => exact lasting.run command start
      | advance time => exact .none (advance time start)
      | frame => exact frame start
    exact .control start (stepped.append ih)

end Lasting
end
end DeclarativeAnimation
