import DeclarativeAnimation.Proofs.Playback.Reach
import DeclarativeAnimation.Proofs.Playback.SharedFrames

/-! A player as one of those who share a queue of frames.  Whatever its listeners do, it has no
    other way to the queue than requests and cancellations, and its frames are run as those of
    everybody: what holds of every shared queue holds of the frames of a player. -/
namespace DeclarativeAnimation

section Becoming
variable {κ σ ε : Type} {first second third : FrameQueue κ}

/-- What requests and cancellations make of a queue. -/
inductive FrameQueue.Becomes (queue : FrameQueue κ) : FrameQueue κ → Prop where
  | same : Becomes queue queue
  | requested {later} (call : κ) (before : Becomes queue later) :
      Becomes queue (later.request call).2
  | cancelled {later} (handle : Nat) (before : Becomes queue later) :
      Becomes queue (later.cancel handle)

theorem FrameQueue.Becomes.trans (sooner : first.Becomes second) (later : second.Becomes third) :
    first.Becomes third := by
  induction later with
  | same => exact sooner
  | requested call _ ih => exact .requested call ih
  | cancelled handle _ ih => exact .cancelled handle ih

theorem FrameQueue.Becomes.work (becomes : first.Becomes second) (rest : Work κ σ ε) :
    ∃ work : Work κ σ ε, work.perform first = rest.perform second := by
  induction becomes generalizing rest with
  | same => exact ⟨rest, rfl⟩
  | requested call _ ih => exact ih (.request call fun _ => rest)
  | cancelled handle _ ih => exact ih (.cancel handle rest)

end Becoming

namespace Player
variable {A : Arithmetic} {p : Player A}

theorem Reframed.becomes {beat : Beat A} {t : Transport A} (reframed : Reframed p beat t) :
    p.queue.Becomes t.queue := by
  rcases reframed with ⟨-, -, queue, -⟩ | ⟨-, -, queue, -⟩ | ⟨-, -, -, ⟨-, queue⟩ | ⟨-, queue⟩, -⟩
  · exact queue ▸ .same
  · rw [queue, cancelFrame]
    split
    · exact .cancelled _ .same
    · exact .same
  · exact queue ▸ .same
  · exact queue ▸ .requested () .same

theorem tick_becomes (p : Player A) : p.queue.Becomes p.tick.player.queue := by
  rcases p.tick_frames.2 with ⟨-, queue⟩ | ⟨-, -, queue⟩
  · exact queue ▸ .same
  · exact queue ▸ .requested () .same

theorem becomes_robust (queue : FrameQueue Unit) :
    Robust fun p : Player A => queue.Becomes p.queue where
  turn command becomes := becomes.trans (turn_transition _ command).reframes.becomes
  tick becomes := becomes.trans (tick_becomes _)
  closed becomes := becomes
  delivered _ _ becomes := becomes
  logged _ becomes := becomes

def ofShared (s : SharedQueue Unit (Player A)) : Player A := { s.world with queue := s.queue }

theorem work_of_becomes {queue : FrameQueue Unit} {q : Player A} (result : Except Fault Unit)
    (becomes : queue.Becomes q.queue) : ∃ work : Work Unit (Player A) Fault,
      work.perform queue = (result, ⟨q.queue, q⟩) := by
  cases result with
  | ok _ => exact becomes.work (.done q)
  | error fault => exact becomes.work (.fail fault q)

/-- The frames of a queue are those of the player that holds it. -/
def Conducts (conduct : Conduct Unit (Player A) Fault) : Prop :=
  ∀ call s, s.call conduct call =
    let (result, q) := callFrame (notify mostNested) (ofShared s)
    (result, ⟨q.queue, q⟩)

theorem exists_conducts : ∃ conduct, Conducts (A := A) conduct := by
  have works (call : Unit) (s : SharedQueue Unit (Player A)) :=
    work_of_becomes (callFrame (notify mostNested) (ofShared s)).1
      ((becomes_robust s.queue).callFrame (p := ofShared s) .same)
  choose conduct works using works
  exact ⟨conduct, works⟩

section Sharing
variable {conduct : Conduct Unit (Player A) Fault} (conducts : Conducts conduct)
  (s : SharedQueue Unit (Player A))
include conducts

theorem callEach_shared (frames : List (Nat × Unit)) :
    ofShared (FrameQueue.callEach (SharedQueue.call conduct) frames s).2 =
      (FrameQueue.callEach (fun _ => callFrame (notify mostNested)) frames (ofShared s)).2 := by
  induction frames generalizing s with
  | nil => rfl
  | cons frame rest ih =>
    simp only [FrameQueue.callEach, conducts frame.2 s]
    rcases callFrame (notify mostNested) (ofShared s) with ⟨_ | _, q⟩
    · rfl
    · exact ih ⟨q.queue, q⟩

theorem stepped_shared (step : Step A) :
    ∃ shared, ofShared (s.stepped conduct shared) = (ofShared s).stepped step := by
  cases step with
  | command command =>
    have becomes := (becomes_robust s.queue).run (p := ofShared s) command .same
    obtain ⟨work, performed⟩ := work_of_becomes (.ok ()) becomes
    refine ⟨.work fun _ => work, ?_⟩
    rw [SharedQueue.stepped, performed]
    rfl
  | advance time => exact ⟨.work fun s => .done (s.world.advance time), rfl⟩
  | frame => exact ⟨.run, callEach_shared conducts s.emptied s.queue.takeAll.1⟩

theorem after_shared (steps : List (Step A)) :
    ∃ shared : List (SharedStep Unit (Player A) Fault), shared.length = steps.length ∧
      ofShared (shared.foldl (SharedQueue.stepped conduct) s) = (ofShared s).after steps := by
  induction steps generalizing s with
  | nil => exact ⟨[], rfl, rfl⟩
  | cons step rest ih =>
    obtain ⟨first, here⟩ := stepped_shared conducts s step
    obtain ⟨later, length, there⟩ := ih (s.stepped conduct first)
    refine ⟨first :: later, congrArg (· + 1) length, ?_⟩
    rw [List.foldl_cons, there, here]
    rfl

end Sharing

/-- Whatever a new player goes through with its user, its clock and its scheduler: its frames have
    the history of a shared queue. -/
theorem frames_shared {quality : Value A} {resolver : MotionResolver A} {clock : Number A}
    (made : new quality resolver clock true = .ok p) (steps : List (Step A)) :
    ∃ (conduct : Conduct Unit (Player A) Fault) (shared : List (SharedStep Unit (Player A) Fault)),
      shared.length = steps.length ∧ Punctual ((SharedQueue.unused p).history conduct shared) ∧
      ofShared (shared.foldl (SharedQueue.stepped conduct) (.unused p)) = p.after steps := by
  obtain ⟨conduct, conducts⟩ := exists_conducts (A := A)
  obtain ⟨shared, length, same⟩ := after_shared conducts (.unused p) steps
  refine ⟨conduct, shared, length, SharedQueue.history_punctual conduct p shared, same.trans ?_⟩
  obtain ⟨_, _, made⟩ := bind_eq_ok made
  cases made
  rfl

end Player
end DeclarativeAnimation
