import DeclarativeAnimation.Proofs.Playback.Turn
import DeclarativeAnimation.Proofs.Playback.Session
import DeclarativeAnimation.Proofs.State.StateRange

/-! What a call that fails leaves behind.  A command checks what it is given before it changes
    anything; but it moves the player before it evaluates, and replaces the data before it measures
    them, and what it has changed by then stays.  A frame that fails in its evaluation does not
    request the next one. -/
namespace DeclarativeAnimation
variable {A : Arithmetic}

/-- Data that the command stages have a timeline that can be measured. -/
def Command.Measured : Command A → Prop
  | .setData animations elements chains =>
    ∀ data, Player.prepared animations elements chains = .ok data →
      ∃ duration, Schedule.timelineDuration (data.1.map (·.schedule)) = .ok duration
  | _ => True

namespace Player
variable {p q : Player A} {fault : Fault} {command : Command A} {turn : Turn A}

/-- How a command fails, and the player that it leaves. -/
inductive Leaves (p : Player A) (fault : Fault) : Command A → Player A → Prop where
  | refused {command : Command A} (refused : p.turn command = p.refused fault) :
      Leaves p fault command p
  | restaged {animations : List (Animation A)} {elements : Elements A} {chains : List (Chain A)}
      {data : List (Animation A) × Elements A}
      (prepared : prepared animations elements chains = .ok data)
      (unmeasured : Schedule.timelineDuration (data.1.map (·.schedule)) = .error fault) :
      Leaves p fault (.setData animations elements chains)
        { p with animations := data.1, elements := data.2 }
  | moved {time : Value A} {t : Number A} (converted : time.toNumber = .ok t)
      (failed : (p.turn (.seek time)).evaluation = some (.error fault)) :
      Leaves p fault (.seek time) (p.moved t)
  | halted {command : Command A} (stops : command = .stop ∨ command = .dispose)
      (failed : (p.turn command).evaluation = some (.error fault)) : Leaves p fault command p.halted
  | started (rested : p.mode ≠ .playing)
      (failed : (p.turn .play).evaluation = some (.error fault)) :
      Leaves p fault .play { p.started with frame := none, position := p.started.elapsed }

structure FailsBy (p : Player A) (fault : Fault) (command : Command A) (turn : Turn A) : Prop where
  leaves : Leaves p fault command turn.player
  untold : ∀ s, turn.evaluation ≠ some (.ok s)
  staying : turn.closing = false

theorem take_fails {time : Number A} {next : Player A → Player A}
    (failed : (p.take time next).result = .error fault) :
    p.take time next =
      { player := p, result := .error fault, evaluation := some (.error fault) } := by
  unfold take at failed ⊢
  cases computed : p.compute time with
  | error other =>
    rw [computed] at failed
    cases failed
    rfl
  | ok snapshot =>
    rw [computed] at failed
    cases failed

theorem tick_fails (failed : p.tick.result = .error fault) :
    p.disposed = false ∧ p.mode = .playing ∧
      p.tick =
        { player := { p with frame := none, position := p.elapsed }
          result := .error fault, evaluation := some (.error fault) } := by
  simp only [tick] at failed ⊢
  split at failed
  · cases failed
  · rename_i going
    rw [if_neg going]
    simp at going
    refine ⟨going.1, going.2, ?_⟩
    split at failed
    · rename_i due
      rw [if_pos due]
      exact take_fails failed
    · cases failed

theorem FailsBy.of_refused {other : Fault} (same : p.turn command = p.refused other)
    (failed : (p.turn command).result = .error fault) :
    FailsBy p fault command (p.turn command) := by
  rw [same] at failed ⊢
  cases failed
  exact ⟨.refused same, by simp [Player.refused], rfl⟩

theorem FailsBy.of_evaluated {left : Player A}
    (leaves : (p.turn command).evaluation = some (.error fault) → Leaves p fault command left)
    (whole : p.turn command =
      { player := left, result := .error fault, evaluation := some (.error fault) }) :
    FailsBy p fault command (p.turn command) := by
  have leaves := leaves (by rw [whole])
  rw [whole]
  exact ⟨leaves, by simp, rfl⟩

theorem turn_fails (failed : (p.turn command).result = .error fault) :
    FailsBy p fault command (p.turn command) := by
  have transition := p.turn_transition command
  generalize same : p.turn command = turn at transition failed
  rw [← same]
  cases transition with
  | mistaken faulty => exact .of_refused same (same ▸ failed)
  | late disposed stays => exact .of_refused same (same ▸ failed)
  | unknown unknown => exact .of_refused same (same ▸ failed)
  | play live rested =>
    obtain ⟨-, -, ticked⟩ := tick_fails failed
    exact .of_evaluated (.started rested) (same.trans ticked)
  | stop live => exact .of_evaluated (.halted (.inl rfl)) (same.trans (take_fails failed))
  | dispose live =>
    refine .of_evaluated (.halted (.inr rfl)) (same.trans ?_)
    rw [take_fails failed]
    rfl
  | seek read live => exact .of_evaluated (.moved read) (same.trans (take_fails failed))
  | unmeasured prepared live unmeasured =>
    cases failed
    rw [same]
    exact ⟨.restaged prepared unmeasured, by simp [Player.refused], rfl⟩
  | _ => cases failed

theorem run_fails (failed : (p.run command).1 = .error fault) :
    Leaves p fault command (p.run command).2 := by
  have fails : FailsBy p fault command (p.turn command) := turn_fails failed
  have left : (p.run command).2 = (p.turn command).player := by
    simp only [run, perform, Turn.finish, fails.staying, Bool.false_eq_true, ↓reduceIte]
    split
    · rename_i snapshot told
      exact absurd told (fails.untold snapshot)
    · rfl
  rw [left]
  exact fails.leaves

/-- Without a failing evaluation, and with data that can be measured, a call that fails changes
    nothing. -/
theorem Leaves.atomic (leaves : Leaves p fault command q) (ok : (p.turn command).Evaluated)
    (measured : command.Measured) : q = p := by
  cases leaves with
  | refused same => rfl
  | restaged prepared unmeasured =>
    obtain ⟨duration, fine⟩ := measured _ prepared
    rw [unmeasured] at fine
    cases fine
  | moved converted failed => exact absurd failed (ok fault)
  | halted stops failed => exact absurd failed (ok fault)
  | started rested failed => exact absurd failed (ok fault)

/-- The players differ at most in how they move and in their data. -/
def Resettled (p q : Player A) : Prop :=
  q = { p with
    mode := q.mode, anchor := q.anchor, position := q.position, lastBroadcast := q.lastBroadcast
    frame := q.frame, queue := q.queue, animations := q.animations, elements := q.elements }

theorem MovesTo.resettled (moves : p.MovesTo q) : p.Resettled q := by
  obtain ⟨_, _, _, _, _, _, rfl⟩ := moves
  rfl

theorem Leaves.resettled (leaves : Leaves p fault command q) : p.Resettled q := by
  cases leaves with
  | refused same => rfl
  | restaged prepared unmeasured => rfl
  | moved converted failed => exact (p.moved_moves _).resettled
  | halted stops failed => exact p.halted_moves.resettled
  | started rested failed =>
    obtain ⟨_, _, _, _, _, _, same⟩ := p.started_moves
    rw [same]
    rfl

/-- A call that fails leaves the player as it was, moved but not evaluated, or with data that
    cannot be measured; the first is so whenever neither the evaluation nor the measuring fails,
    and quality, rate, duration, snapshot and listeners are as they were in any case.  A frame that
    fails moves the position and requests no other frame, though the player still plays; one that
    does not fail while the player plays requests the next one. -/
theorem failed_calls_leave (p : Player A) :
    (∀ command fault, (p.run command).1 = .error fault →
      Leaves p fault command (p.run command).2 ∧ p.Resettled (p.run command).2 ∧
      ((p.turn command).Evaluated → command.Measured → (p.run command).2 = p)) ∧
    (∀ fault, (callFrame (notify mostNested) p).1 = .error fault →
      p.disposed = false ∧ p.mode = .playing ∧ ¬ p.tick.Evaluated ∧
      (callFrame (notify mostNested) p).2 = { p with frame := none, position := p.elapsed }) ∧
    (p.disposed = false → p.mode = .playing → p.tick.Evaluated →
      p.tick.player.mode = .playing ∧ p.tick.player.frame = some p.queue.nextHandle ∧
      (p.queue.nextHandle, ()) ∈ p.tick.player.queue.pending) := by
  refine ⟨fun command fault failed => ?_, fun fault failed => ?_, fun live playing ok => ?_⟩
  · have leaves : Leaves p fault command (p.run command).2 := run_fails failed
    exact ⟨leaves, leaves.resettled, leaves.atomic⟩
  · have result : p.tick.result = .error fault := by
      change p.tick.result.map (fun _ => ()) = .error fault at failed
      cases ticked : p.tick.result with
      | ok reply =>
        rw [ticked] at failed
        cases failed
      | error other =>
        rw [ticked] at failed
        cases failed
        rfl
    obtain ⟨live, playing, ticked⟩ := tick_fails result
    refine ⟨live, playing, fun ok => ok fault (by rw [ticked]), ?_⟩
    simp [callFrame, Turn.finish, ticked]
  · obtain ⟨snapshot, last, ticked⟩ := tick_playing live playing ok
    rw [ticked]
    exact ⟨playing, rfl, by simp [requestFrame, FrameQueue.request]⟩

theorem unknown_quality_refused :
    (fresh.run (.setQuality (.text "loud"))).1 = .error .unsupportedQuality ∧
    (fresh.run (.setQuality (.text "loud"))).2 = fresh := by
  have failed : (fresh.run (.setQuality (.text "loud"))).1 = .error .unsupportedQuality := rfl
  have silent : (fresh.turn (.setQuality (.text "loud"))).evaluation = none := rfl
  obtain ⟨calls, -, -⟩ := failed_calls_leave fresh
  obtain ⟨-, -, atomic⟩ := calls _ _ failed
  exact ⟨failed, atomic (by simp [Turn.Evaluated, silent]) trivial⟩

def bent : Player .binary64 :=
  ({ resolver := originPlacement, clock := .finite 100, quality := Quality.preview.preset :
      Player .binary64 }.run (.setData [brokenCurve] .all [])).2

def endless : Animation .binary64 :=
  { brokenCurve with schedule := { dur := .text "2s", repeatCount := .int (10 ^ 400) } }

/-- A seek that fails moves the player, a play that fails after that leaves it playing without a
    frame, a frame that fails ends the loop, and data that cannot be measured replace the others. -/
theorem failed_calls_move :
    ((bent.run (.seek (.number 1))).1.toBool = false ∧ bent.position = 0 ∧
      (bent.after [.command (.seek (.number 1))]).position = 1) ∧
    (((bent.after [.command (.seek (.number 1))]).run .play).1.toBool = false ∧
      (bent.after [.command (.seek (.number 1)), .command .play]).mode = .playing ∧
      (bent.after [.command (.seek (.number 1)), .command .play]).queue.pending.length = 0) ∧
    ((bent.after [.command .play, .advance 1]).runFrame.1.toBool = false ∧
      (bent.after [.command .play, .advance 1, .frame]).mode = .playing ∧
      (bent.after [.command .play, .advance 1, .frame]).queue.pending.length = 0) ∧
    ((bent.run (.setData [endless, endless] .all [])).1.toBool = false ∧
      bent.animations.length = 1 ∧
      (bent.after [.command (.setData [endless, endless] .all [])]).animations.length = 2) := by
  decide +kernel

end Player
end DeclarativeAnimation
