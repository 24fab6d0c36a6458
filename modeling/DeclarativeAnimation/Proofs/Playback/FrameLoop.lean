import DeclarativeAnimation.Proofs.Playback.Trace

/-! The frame loop of a player whose frames can be cancelled: while it plays exactly one frame
    waits, the one it holds the handle of, and otherwise none does. -/
namespace DeclarativeAnimation.Player
variable {A : Arithmetic} {p : Player A} {command : Command A} {turn : Turn A}

structure FrameLoop (p : Player A) : Prop where
  waiting : p.mode = .playing →
    ∃ handle, p.frame = some handle ∧ p.queue.pending = [(handle, ())]
  idle : p.mode ≠ .playing → p.queue.pending = []
  anchored : p.mode = .playing → p.anchor.isSome

structure Looping (p : Player A) : Prop where
  cancels : p.queue.cancels = true
  loop : p.disposed = false → p.FrameLoop

theorem requestFrame_looping (cancels : p.queue.cancels = true) (playing : p.mode = .playing)
    (empty : p.queue.pending = []) (anchored : p.anchor.isSome) : p.requestFrame.Looping := by
  refine ⟨cancels, fun _ => ⟨fun _ => ⟨p.queue.nextHandle, rfl, ?_⟩, ?_, fun _ => anchored⟩⟩
  · simp [requestFrame, FrameQueue.request, empty]
  · intro resting
    exact absurd playing resting

theorem FrameLoop.cancelled (loop : p.FrameLoop) (cancels : p.queue.cancels = true) :
    p.cancelFrame.queue.cancels = true ∧ p.cancelFrame.queue.pending = [] := by
  by_cases playing : p.mode = .playing
  · obtain ⟨handle, held, pending⟩ := loop.waiting playing
    simp [cancelFrame, held, FrameQueue.cancel, cancels, pending]
  · have empty := loop.idle playing
    unfold cancelFrame
    cases p.frame with
    | none => exact ⟨cancels, empty⟩
    | some handle => simp [FrameQueue.cancel, cancels, empty]

theorem looping_of_idle (cancels : p.queue.cancels = true) (idle : p.mode ≠ .playing)
    (empty : p.queue.pending = []) : p.Looping :=
  ⟨cancels, fun _ => ⟨fun playing => absurd playing idle, fun _ => empty,
    fun playing => absurd playing idle⟩⟩

theorem looping_of_disposed (cancels : p.queue.cancels = true) (disposed : p.disposed = true) :
    p.Looping :=
  ⟨cancels, fun live => absurd disposed (by simp [live])⟩

theorem tick_looping (live : p.disposed = false) (playing : p.mode = .playing)
    (cancels : p.queue.cancels = true) (empty : p.queue.pending = [])
    (anchored : p.anchor.isSome) (ok : p.tick.Evaluated) : p.tick.player.Looping := by
  obtain ⟨snapshot, last, ticked⟩ := tick_playing live playing ok
  rw [ticked]
  exact requestFrame_looping cancels playing empty anchored

theorem Looping.halt (k : p.Looping) (live : p.disposed = false) :
    (p.halted.take 0 id).player.Looping := by
  obtain ⟨cancels, empty⟩ := (k.loop live).cancelled k.cancels
  unfold take
  split <;> exact looping_of_idle cancels (by simp [halted]) empty

theorem Looping.move (k : p.Looping) (live : p.disposed = false) (time : Number A)
    (ok : ((p.moved time).take time id).Evaluated) :
    ((p.moved time).take time id).player.Looping := by
  obtain ⟨snapshot, taken⟩ := take_evaluated ok
  rw [taken]
  simp only [moved]
  split
  · exact ⟨k.cancels, fun _ => { k.loop live with anchored := fun _ => rfl }⟩
  · exact ⟨k.cancels, fun _ => { k.loop live with }⟩

theorem Looping.pace (k : p.Looping) (live : p.disposed = false) (rate : Number A) :
    (p.paced rate).Looping := by
  unfold paced
  split
  · exact ⟨k.cancels, fun _ => { k.loop live with anchored := fun _ => rfl }⟩
  · exact ⟨k.cancels, fun _ => { k.loop live with }⟩

theorem Transition.looping (transition : p.Transition command turn) (k : p.Looping)
    (ok : turn.Evaluated) : turn.player.Looping := by
  cases transition with
  | play live rested =>
    obtain ⟨mode, -, disposed, -, queue, -⟩ := p.started_fields
    refine tick_looping (disposed.trans live) mode ?_ ?_ rfl ok
    · rw [queue]
      exact k.cancels
    · rw [queue]
      exact (k.loop live).idle rested
  | pause live playing =>
    have here : ({ p with position := p.elapsed } : Player A).FrameLoop := { k.loop live with }
    obtain ⟨cancels, empty⟩ := here.cancelled k.cancels
    exact looping_of_idle cancels (by simp [paused]) empty
  | stop live => exact k.halt live
  | dispose live => exact k.halt live
  | seek read live => exact k.move live _ ok
  | setRate read live => exact k.pace live _
  | _ => exact { k with loop := fun live => { k.loop live with } }

theorem looping_lasting : Lasting (Looping (A := A)) where
  turn command k ok := (turn_transition _ command).looping k ok
  closed k := looping_of_disposed k.cancels rfl
  delivered _ _ k := { k with loop := fun live => { k.loop live with } }
  logged _ k := { k with loop := fun live => { k.loop live with } }

theorem frames_after_disposal (frames : List (Nat × Unit)) (disposed : p.disposed = true)
    (cancels : p.queue.cancels = true) :
    Upholds Looping (frameEvents frames p)
      (FrameQueue.callEach (fun _ => callFrame (notify mostNested)) frames p).2 := by
  induction frames generalizing p with
  | nil => exact .none (looping_of_disposed cancels disposed)
  | cons frame rest ih =>
    have resting : p.tick = { player := { p with frame := none } } :=
      tick_resting (Or.inl disposed)
    have called : callFrame (notify mostNested) p = (.ok (), { p with frame := none }) := by
      simp only [callFrame, resting]
      rfl
    simp only [frameEvents, FrameQueue.callEach, called, resting]
    exact ih disposed cancels

/-- A run of the frames calls the one that waits; the frame it requests waits for the next. -/
theorem Looping.runFrame (k : p.Looping) : Upholds Looping (p.stepEvents .frame) p.runFrame.2 := by
  let emptied : Player A := { p with queue := p.queue.takeAll.2 }
  show Upholds Looping (frameEvents p.queue.pending emptied)
    (FrameQueue.callEach (fun _ => callFrame (notify mostNested)) p.queue.pending emptied).2
  cases live : p.disposed with
  | true => exact frames_after_disposal _ live k.cancels
  | false =>
    have loop := k.loop live
    by_cases playing : p.mode = .playing
    · -- The queue is empty by the time its only frame is called.
      obtain ⟨handle, _, pending⟩ := loop.waiting playing
      have ticked : emptied.tick.Evaluated → emptied.tick.player.Looping :=
        tick_looping live playing k.cancels rfl (loop.anchored playing)
      have called := looping_lasting.callFrame ticked
      rw [pending]
      simp only [frameEvents, FrameQueue.callEach]
      rcases done : callFrame (notify mostNested) emptied with ⟨result, q⟩
      rw [done] at called
      cases result <;> simpa using called
    · rw [loop.idle playing]
      exact .none (looping_of_idle k.cancels playing rfl)

theorem new_looping {quality : Value A} {resolver : MotionResolver A} {clock : Number A}
    (made : new quality resolver clock true = .ok p) : p.Looping := by
  unfold Player.new at made
  cases mode : Quality.ofValue quality with
  | error fault => rw [mode] at made; cases made
  | ok mode' =>
    rw [mode] at made
    cases made
    exact looping_of_idle rfl (by rintro ⟨⟩) rfl

/-- Whenever the caller or a listener has control of a player that is not disposed of, its frame
    loop is in order, in every session in which no evaluation fails. -/
theorem frame_loop_under_control {quality : Value A} {resolver : MotionResolver A}
    {clock : Number A} (made : new quality resolver clock true = .ok p) (steps : List (Step A))
    (unfailing : Unfailing (p.trace steps)) (q : Player A)
    (controlled : .control q ∈ p.trace steps) (live : q.disposed = false) : q.FrameLoop := by
  have upheld : Upholds Looping (p.trace steps) (p.after steps) :=
    looping_lasting.session
      (fun time k => { k with loop := fun live => { k.loop live with } })
      (fun k => k.runFrame) steps (new_looping made)
  exact ((upheld unfailing).1 q controlled).loop live

def waveringSession : List (Step .exact) :=
  [.command (.subscribe "panel" fun number =>
      .perform (if number = 0 then [.pause, .play] else [])),
    .command .play, .advance 1, .frame, .command .stop]

def heldMode : Event A → Option Mode
  | .control p => some p.mode
  | .evaluation _ => none

theorem wavering_session_under_control :
    new (.text "preview") originPlacement (.finite 100) true = .ok fresh ∧
    ((fresh.trace waveringSession).filterMap heldMode).take 5 =
      [.stopped, .stopped, .playing, .paused, .playing] ∧
    ∀ q, .control q ∈ fresh.trace waveringSession → q.disposed = false → q.FrameLoop := by
  have made : new (.text "preview") originPlacement (.finite 100) true = .ok fresh := rfl
  have unfailing : Unfailing (fresh.trace waveringSession) := by decide +kernel
  exact ⟨made, by decide +kernel, frame_loop_under_control made waveringSession unfailing⟩

end DeclarativeAnimation.Player
