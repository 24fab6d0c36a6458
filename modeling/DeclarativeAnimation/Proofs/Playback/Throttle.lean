import DeclarativeAnimation.Proofs.Number.Elapsed
import DeclarativeAnimation.Proofs.Playback.Beat

/-! How often listeners hear of a running animation.  A frame tells of a snapshot when the last
    one that a frame or a seek told of in this play is long enough ago by the clock; the stamp
    that the player keeps always shows when that was. -/
namespace DeclarativeAnimation
variable {A : Arithmetic}

theorem Quality.minInterval_isFinite (quality : Quality) :
    (quality.preset : QualityPreset A).minInterval.isFinite := by
  cases A <;> cases quality <;> decide +kernel

/-- Whether the beat is a frame, the first one of a play included, or a seek. -/
def Beat.throttles : Beat A → Bool
  | .call _ | .command .play | .command (.seek _) => true
  | _ => false

/-- A beat of a run: the clock at it, what it made the player tell of, and whether the player
    plays after it. -/
structure PastBeat (A : Arithmetic) where
  beat : Beat A
  clock : Number A
  told : List (Snapshot A)
  playing : Bool

def PastBeat.delivers (m : PastBeat A) : Bool := m.beat.throttles && !m.told.isEmpty

def currentPlay (past : List (PastBeat A)) : List (PastBeat A) := past.takeWhile (·.playing)

/-- The clock when a frame or a seek last told of a snapshot in the current play. -/
def lastTold (past : List (PastBeat A)) : Option (Number A) :=
  ((currentPlay past).find? (·.delivers)).map (·.clock)

theorem lastTold_cons (m : PastBeat A) (past : List (PastBeat A)) : lastTold (m :: past) =
    if m.playing then if m.delivers then some m.clock else lastTold past else none := by
  cases playing : m.playing <;> cases delivers : m.delivers <;>
    simp [lastTold, currentPlay, playing, delivers]

namespace Player
variable {p q : Player A} {past : List (PastBeat A)} {beat : Beat A} {turn : Turn A}

def noted (p : Player A) (beat : Beat A) : PastBeat A :=
  ⟨beat, p.clock, p.toldAt beat, (p.onBeat beat).mode = .playing⟩

def pastAfter (p : Player A) (past : List (PastBeat A)) : List (Beat A) → List (PastBeat A)
  | [] => past
  | beat :: rest => (p.onBeat beat).pastAfter (p.noted beat :: past) rest

def Forward (p : Player A) : List (Beat A) → Prop
  | [] => True
  | beat :: rest => p.clock ≤ (p.onBeat beat).clock ∧ (p.onBeat beat).Forward rest

instance decidableForward :
    (p : Player A) → (beats : List (Beat A)) → Decidable (p.Forward beats)
  | _, [] => isTrue trivial
  | p, beat :: rest =>
    have := decidableForward (p.onBeat beat) rest
    inferInstanceAs (Decidable (_ ∧ _))

/-- Nothing was told of in this play yet, or the last snapshot is long enough ago. -/
def Due (past : List (PastBeat A)) (p : Player A) : Prop :=
  ∀ last, lastTold past = some last → p.quality.minInterval ≤ p.clock - last

def Requests (p q : Player A) : Prop :=
  q.frame = some p.queue.nextHandle ∧ q.Waits p.queue.nextHandle

inductive Throttles (p : Player A) (beat : Beat A) (turn : Turn A) : Prop where
  | silent (none : turn.evaluation = none) (mode : turn.player.mode = p.mode)
      (stamp : turn.player.lastBroadcast = p.lastBroadcast) (staying : turn.closing = false)
  | telling (snapshot : Snapshot A) (taken : turn.evaluation = some (.ok snapshot))
      (source : beat.throttles = true) (mode : turn.player.mode = .playing)
      (stamp : turn.player.lastBroadcast = p.clock) (staying : turn.closing = false)
      (live : p.disposed = false)
  | resting (rests : turn.player.mode ≠ .playing)

def DueByStamp (p : Player A) : Prop := p.quality.minInterval ≤ p.clock - p.lastBroadcast

instance (p : Player A) : Decidable p.DueByStamp := inferInstanceAs (Decidable (_ ≤ _))

/-- A player that has not been disposed or does not play, with a preset for its quality. -/
structure Sound (p : Player A) : Prop where
  quiet : p.Quiet
  clock : p.clock.OnClock
  preset : ∃ quality : Quality, p.quality = quality.preset
  live : p.mode = .playing → p.disposed = false

theorem Sound.finite (sound : p.Sound) : p.quality.minInterval.isFinite := by
  obtain ⟨quality, preset⟩ := sound.preset
  rw [preset]
  exact quality.minInterval_isFinite

def stamped (p : Player A) : Player A := { p with lastBroadcast := p.clock }.requestFrame

theorem tick_taking (live : p.disposed = false) (playing : p.mode = .playing)
    (due : p.DueByStamp) : p.tick =
      ({ p with frame := none, position := p.elapsed } : Player A).take p.elapsed stamped := by
  have go : (p.disposed || decide (p.mode ≠ .playing)) = false := by simp [live, playing]
  simp only [tick, go, Bool.false_eq_true, ↓reduceIte]
  exact if_pos due

theorem tick_due (live : p.disposed = false) (playing : p.mode = .playing) (due : p.DueByStamp)
    (ok : p.tick.Evaluated) : ∃ snapshot, p.tick =
      { player := requestFrame
          { p with position := p.elapsed, snapshot := snapshot, lastBroadcast := p.clock }
        evaluation := some (.ok snapshot) } := by
  rw [tick_taking live playing due] at ok ⊢
  obtain ⟨snapshot, taken⟩ := take_evaluated ok
  exact ⟨snapshot, taken⟩

theorem tick_early (live : p.disposed = false) (playing : p.mode = .playing)
    (early : ¬ p.DueByStamp) :
    p.tick = { player := requestFrame { p with position := p.elapsed } } := by
  have go : (p.disposed || decide (p.mode ≠ .playing)) = false := by simp [live, playing]
  have now : ¬ p.quality.minInterval ≤ p.clock - p.lastBroadcast := early
  simp only [tick, go, Bool.false_eq_true, ↓reduceIte, now]
  rfl

theorem started_tells (sound : p.Sound) (live : p.disposed = false)
    (ok : p.started.tick.Evaluated) : ∃ snapshot,
      p.started.tick.evaluation = some (.ok snapshot) ∧ p.started.tick.player.mode = .playing ∧
      p.started.tick.player.lastBroadcast = p.clock ∧
      p.started.tick.player.position = p.started.elapsed ∧ p.Requests p.started.tick.player := by
  obtain ⟨mode, clock, disposed, quality, queue, stamp⟩ := p.started_fields
  have due : p.started.DueByStamp := by
    unfold DueByStamp
    rw [quality, clock, stamp]
    exact sound.clock.since_never sound.finite
  obtain ⟨snapshot, ticked⟩ := tick_due (disposed.trans live) mode due ok
  rw [ticked]
  refine ⟨snapshot, rfl, mode, clock, rfl, ?_⟩
  simp [Requests, requestFrame, FrameQueue.request, Waits, queue]

theorem tick_throttles (sound : p.Sound) (ok : p.tick.Evaluated) (source : beat.throttles = true) :
    Throttles p beat p.tick := by
  by_cases playing : p.mode = .playing
  · by_cases due : p.DueByStamp
    · obtain ⟨snapshot, ticked⟩ := tick_due (sound.live playing) playing due ok
      rw [ticked]
      exact .telling snapshot rfl source playing rfl rfl (sound.live playing)
    · rw [tick_early (sound.live playing) playing due]
      exact .silent rfl rfl rfl rfl
  · rw [tick_resting (.inr playing)]
    exact .resting playing

theorem halted_rests (p : Player A) : (p.halted.take 0 id).player.mode ≠ .playing := by
  unfold take
  split <;> simp [halted]

theorem moved_throttles (time : Number A) (live : p.disposed = false)
    (ok : ((p.moved time).take time id).Evaluated) (source : beat.throttles = true) :
    Throttles p beat ((p.moved time).take time id) := by
  obtain ⟨snapshot, taken⟩ := take_evaluated ok
  rw [taken]
  by_cases playing : p.mode = .playing
  · refine .telling snapshot rfl source ?_ ?_ rfl live
    · simp [moved, playing, reanchored]
    · simp [moved, playing]
  · exact .resting (by simp [moved, playing])

theorem Transition.throttles {command : Command A} (transition : p.Transition command turn)
    (sound : p.Sound) (ok : turn.Evaluated) : Throttles p (.command command) turn := by
  cases transition with
  | play live rested =>
    obtain ⟨snapshot, taken, mode, stamp, -⟩ := started_tells sound live ok
    exact .telling snapshot taken rfl mode stamp (tick_staying _) live
  | pause live playing => exact .resting (by simp [paused])
  | stop live => exact .resting p.halted_rests
  | dispose live => exact .resting p.halted_rests
  | seek read live => exact moved_throttles _ live ok rfl
  | setRate read live =>
    obtain ⟨anchor, same⟩ := p.paced_anchor _
    rw [same]
    exact .silent rfl rfl rfl rfl
  | _ => exact .silent rfl rfl rfl rfl

theorem Change.preset {command : Command A} (change : p.Change command q)
    (preset : ∃ quality : Quality, p.quality = quality.preset) :
    q.clock = p.clock ∧ ∃ quality : Quality, q.quality = quality.preset := by
  cases change with
  | played goesOn =>
    obtain ⟨_, _, _, _, _, _, _, rfl⟩ := goesOn
    exact ⟨rfl, preset⟩
  | adjusted quality => exact ⟨rfl, quality, rfl⟩
  | _ => exact ⟨rfl, preset⟩

theorem beatTurn_tidy (p : Player A) (beat : Beat A) : p.Tidy (p.beatTurn beat) := by
  cases beat with
  | command command => exact (p.turn_transition command).tidy
  | advance time => exact Stages.tidy (.still rfl rfl)
  | call handle =>
    simp only [beatTurn]
    split
    · exact { (p.without handle).tick_stages.tidy with }
    · exact Stages.tidy (.still rfl rfl)
  | lose handle =>
    simp only [beatTurn]
    split <;> exact Stages.tidy (.still rfl rfl)

theorem beatTurn_throttles (sound : p.Sound) (ok : (p.beatTurn beat).Evaluated) :
    Throttles p beat (p.beatTurn beat) := by
  cases beat with
  | command command => exact (p.turn_transition command).throttles sound ok
  | advance time => exact .silent rfl rfl rfl rfl
  | call handle =>
    simp only [beatTurn] at ok ⊢
    split
    · rename_i waits
      rw [if_pos waits] at ok
      have called : (p.without handle).Sound := { sound with }
      cases tick_throttles called ok (show (Beat.call handle).throttles = true from rfl) with
      | silent none mode stamp staying => exact .silent none mode stamp staying
      | telling snapshot taken source mode stamp staying live =>
        exact .telling snapshot taken source mode stamp staying live
      | resting rests => exact .resting rests
    · exact .silent rfl rfl rfl rfl
  | lose handle =>
    simp only [beatTurn]
    split <;> exact .silent rfl rfl rfl rfl

theorem toldAt_eq (quiet : p.Quiet) (calm : beat.Quiet) : p.toldAt beat =
    match (p.beatTurn beat).evaluation with
    | some (.ok snapshot) => [snapshot]
    | _ => [] := by
  unfold toldAt
  rw [(p.onBeat_finish beat).2, Turn.events]
  cases (p.beatTurn beat).evaluation with
  | none => rfl
  | some outcome =>
    cases outcome with
    | error fault => rfl
    | ok snapshot =>
      exact congrArg (snapshot :: ·) (notifyEvents_quiet (beatTurn_quiet quiet beat calm))

theorem evaluated_of_unfailing (unfailing : Unfailing (p.beatEvents beat)) :
    (p.beatTurn beat).Evaluated := by
  intro fault failed
  rw [(p.onBeat_finish beat).2, Turn.events, failed] at unfailing
  have wrong := unfailing (.evaluation (.error fault)) (by simp)
  simp [Event.failed] at wrong

theorem onBeat_disposed (quiet : p.Quiet) (calm : beat.Quiet)
    (staying : (p.beatTurn beat).closing = false) : (p.onBeat beat).disposed = p.disposed := by
  obtain ⟨_, _, heard⟩ :=
    finish_quiet mostNested (p.beatTurn beat) (beatTurn_quiet quiet beat calm) staying
  rw [(p.onBeat_finish beat).1, heard]
  exact (p.beatTurn_tidy beat).disposed

theorem beatTurn_preset (sound : p.Sound) (beat : Beat A)
    (forward : p.clock ≤ (p.beatTurn beat).player.clock) :
    (p.beatTurn beat).player.clock.OnClock ∧
      ∃ quality : Quality, (p.beatTurn beat).player.quality = quality.preset := by
  cases beat with
  | command command =>
    obtain ⟨clock, preset⟩ := (p.turn_transition command).change.preset sound.preset
    rw [beatTurn, clock]
    exact ⟨sound.clock, preset⟩
  | advance time => exact ⟨sound.clock.later forward, sound.preset⟩
  | call handle =>
    simp only [beatTurn]
    split
    · obtain ⟨_, _, _, _, _, _, _, same⟩ := (p.without handle).tick_goesOn
      rw [same]
      exact ⟨sound.clock, sound.preset⟩
    · exact ⟨sound.clock, sound.preset⟩
  | lose handle =>
    simp only [beatTurn]
    split <;> exact ⟨sound.clock, sound.preset⟩

/-- What a run keeps: while the player plays, its stamp shows when it last told of a snapshot. -/
structure Stamped (past : List (PastBeat A)) (p : Player A) : Prop where
  sound : p.Sound
  times : ∀ m ∈ past, m.clock.OnClock ∧ m.clock ≤ p.clock
  latest : ∀ m ∈ currentPlay past, m.delivers = true →
    ∃ last, lastTold past = some last ∧ last.OnClock ∧ m.clock ≤ last
  stamp : p.mode = .playing → p.lastBroadcast = (lastTold past).getD (.infinite true)

theorem latest_cons {m : PastBeat A} (clock : m.clock.OnClock)
    (times : ∀ n ∈ past, n.clock ≤ m.clock)
    (latest : ∀ n ∈ currentPlay past, n.delivers = true →
      ∃ last, lastTold past = some last ∧ last.OnClock ∧ n.clock ≤ last) :
    ∀ n ∈ currentPlay (m :: past), n.delivers = true →
      ∃ last, lastTold (m :: past) = some last ∧ last.OnClock ∧ n.clock ≤ last := by
  intro n member delivers
  rw [lastTold_cons]
  cases playing : m.playing with
  | false => simp [currentPlay, playing] at member
  | true =>
    simp only [currentPlay, List.takeWhile_cons, playing, ↓reduceIte, List.mem_cons] at member
    cases told : m.delivers with
    | true =>
      refine ⟨m.clock, by simp, clock, ?_⟩
      rcases member with rfl | earlier
      · exact clock.le_self
      · exact times n (List.takeWhile_subset _ earlier)
    | false =>
      rcases member with rfl | earlier
      · rw [told] at delivers
        cases delivers
      · simpa using latest n earlier delivers

theorem Stamped.onBeat (k : Stamped past p) (calm : beat.Quiet)
    (forward : p.clock ≤ (p.onBeat beat).clock) (unfailing : Unfailing (p.beatEvents beat)) :
    Stamped (p.noted beat :: past) (p.onBeat beat) := by
  obtain ⟨moved, quiet⟩ := onBeat_quiet k.sound.quiet beat calm
  have ok := evaluated_of_unfailing unfailing
  have told := toldAt_eq k.sound.quiet calm
  have throttles := beatTurn_throttles k.sound ok
  simp only [transport, Transport.mk.injEq] at moved
  obtain ⟨mode, clock, -, -, -, stamp, quality, -, -⟩ := moved
  rw [clock] at forward
  obtain ⟨ticking, preset⟩ := beatTurn_preset k.sound beat forward
  have live : (p.onBeat beat).mode = .playing → (p.onBeat beat).disposed = false := by
    intro playing
    rw [mode] at playing
    cases throttles with
    | silent none kept _ staying =>
      rw [onBeat_disposed k.sound.quiet calm staying]
      exact k.sound.live (kept.symm.trans playing)
    | telling snapshot taken source _ _ staying live =>
      rw [onBeat_disposed k.sound.quiet calm staying]
      exact live
    | resting rests => exact absurd playing rests
  refine ⟨⟨quiet, clock ▸ ticking, quality ▸ preset, live⟩, ?_, ?_, ?_⟩
  · intro m member
    rw [clock]
    rcases List.mem_cons.mp member with rfl | earlier
    · exact ⟨k.sound.clock, forward⟩
    · obtain ⟨on, before⟩ := k.times m earlier
      exact ⟨on, on.trans k.sound.clock ticking before forward⟩
  · exact latest_cons k.sound.clock (fun m member => (k.times m member).2) k.latest
  · intro playing
    have plays : (p.noted beat).playing = true := decide_eq_true playing
    rw [mode] at playing
    rw [lastTold_cons, plays, stamp]
    cases throttles with
    | silent none kept same _ =>
      have quietly : (p.noted beat).delivers = false := by
        simp [PastBeat.delivers, noted, told, none]
      rw [quietly, same]
      exact k.stamp (kept.symm.trans playing)
    | telling snapshot taken source _ now _ _ =>
      have loudly : (p.noted beat).delivers = true := by
        simp [PastBeat.delivers, noted, told, taken, source]
      rw [loudly, now]
      rfl
    | resting rests => exact absurd playing rests

theorem Stamped.afterBeats {beats : List (Beat A)} (k : Stamped past p)
    (quiet : ∀ beat ∈ beats, beat.Quiet) (forward : p.Forward beats)
    (unfailing : Unfailing (p.beatTrace beats)) :
    Stamped (p.pastAfter past beats) (p.afterBeats beats) := by
  induction beats generalizing p past with
  | nil => exact k
  | cons beat rest ih =>
    obtain ⟨calm, calmer⟩ := List.forall_mem_cons.mp quiet
    have first := k.onBeat calm forward.1 fun event member =>
      unfailing event (List.mem_append_left _ member)
    exact ih first calmer forward.2 fun event member =>
      unfailing event (List.mem_append_right _ member)

theorem new_stamped {quality : Value A} {resolver : MotionResolver A} {clock : Number A}
    {cancels : Bool} (made : new quality resolver clock cancels = .ok p) (starts : clock.OnClock) :
    Stamped [] p := by
  obtain ⟨quality, _, made⟩ := bind_eq_ok made
  cases made
  exact ⟨⟨by simp [Quiet], starts, ⟨quality, rfl⟩, by simp⟩, by simp, by simp [currentPlay], by simp⟩

theorem Stamped.due_iff (k : Stamped past p) (playing : p.mode = .playing) :
    p.DueByStamp ↔ p.Due past := by
  unfold DueByStamp Due
  rw [k.stamp playing]
  cases lastTold past with
  | none => simpa using k.sound.clock.since_never k.sound.finite
  | some last => simp

theorem onBeat_deliveries (quiet : p.Quiet) (calm : beat.Quiet) : (p.onBeat beat).deliveries =
    p.deliveries ++ (p.toldAt beat).flatMap (toldTo (p.listeners.map (·.2))) := by
  obtain ⟨-, deliveries, listeners, -, -⟩ := p.beatTurn_tidy beat
  have closing (q : Player A) :
      (if (p.beatTurn beat).closing then q.closed else q).deliveries = q.deliveries := by
    split <;> rfl
  rw [toldAt_eq quiet calm, (p.onBeat_finish beat).1, Turn.finish, closing]
  have calm := beatTurn_quiet quiet beat calm
  cases evaluated : (p.beatTurn beat).evaluation with
  | none => simp [deliveries]
  | some outcome =>
    cases outcome with
    | error fault => simp [deliveries]
    | ok snapshot =>
      have same := listeners (by simp [evaluated])
      simp [notify_deliveries mostNested snapshot calm, deliveries, same]

structure FramePaced (past : List (PastBeat A)) (p : Player A) (handle : Nat) : Prop where
  due : p.toldAt (.call handle) ≠ [] ↔ p.Due past
  apart : p.toldAt (.call handle) ≠ [] → ∀ m ∈ currentPlay past, m.delivers = true →
    p.quality.minInterval ≤ p.clock - m.clock
  position : (p.onBeat (.call handle)).position = p.elapsed
  next : p.Requests (p.onBeat (.call handle))

structure PlayPaced (p : Player A) : Prop where
  told : p.toldAt (.command .play) ≠ []
  playing : (p.onBeat (.command .play)).mode = .playing
  position : (p.onBeat (.command .play)).position = p.started.elapsed
  next : p.Requests (p.onBeat (.command .play))

theorem Stamped.frame (k : Stamped past p) {handle : Nat} (waits : p.Waits handle)
    (playing : p.mode = .playing) (ok : (p.beatTurn (.call handle)).Evaluated) :
    FramePaced past p handle := by
  have live := k.sound.live playing
  have called : p.beatTurn (.call handle) = (p.without handle).tick := if_pos waits
  have told := toldAt_eq k.sound.quiet (show (Beat.call handle : Beat A).Quiet from trivial)
  obtain ⟨moved, -⟩ := onBeat_quiet k.sound.quiet (.call handle) trivial
  simp only [transport, Transport.mk.injEq] at moved
  obtain ⟨-, -, -, position, -, -, -, frame, queue⟩ := moved
  rw [called] at ok told position frame queue
  -- A frame moves on and requests the next one whether or not it tells of a snapshot.
  have goes {turn : Turn A} {last : Number A} {snapshot : Snapshot A}
      (ticked : (p.without handle).tick = turn) (same : turn.player = requestFrame
        { p.without handle with
          position := p.elapsed, snapshot := snapshot, lastBroadcast := last }) :
      (p.onBeat (.call handle)).position = p.elapsed ∧ p.Requests (p.onBeat (.call handle)) := by
    rw [ticked, same] at position frame queue
    refine ⟨position, frame, ?_⟩
    simp [Waits, queue, requestFrame, FrameQueue.request, without, FrameQueue.without]
  by_cases due : p.DueByStamp
  · obtain ⟨snapshot, ticked⟩ := tick_due (p := p.without handle) live playing due ok
    rw [ticked] at told
    obtain ⟨moves, requests⟩ := goes ticked rfl
    refine ⟨?_, ?_, moves, requests⟩
    · simp [told, ← k.due_iff playing, due]
    · intro _ m member delivers
      obtain ⟨last, is_last, on, before⟩ := k.latest m member delivers
      have since := (k.due_iff playing).mp due last is_last
      have inside : m ∈ past := List.takeWhile_subset _ member
      exact (k.times m inside).1.le_since k.sound.finite on k.sound.clock before since
  · have ticked := tick_early (p := p.without handle) live playing due
    rw [ticked] at told
    obtain ⟨moves, requests⟩ := goes ticked rfl
    refine ⟨?_, fun some => absurd told some, moves, requests⟩
    simp [told, ← k.due_iff playing, due]

theorem Sound.play (sound : p.Sound) (live : p.disposed = false) (rests : p.mode ≠ .playing)
    (ok : p.play.Evaluated) : PlayPaced p := by
  have started : p.beatTurn (.command .play) = p.started.tick := play_resting live rests
  rw [play_resting live rests] at ok
  obtain ⟨snapshot, taken, mode, -, position, frame, waits⟩ := started_tells sound live ok
  have told := toldAt_eq sound.quiet (show (Beat.command .play : Beat A).Quiet from trivial)
  obtain ⟨moved, -⟩ := onBeat_quiet sound.quiet (.command .play) trivial
  simp only [transport, Transport.mk.injEq] at moved
  obtain ⟨mode', -, -, position', -, -, -, frame', queue'⟩ := moved
  rw [started] at told mode' position' frame' queue'
  refine ⟨by simp [told, taken], mode'.trans mode, position'.trans position, frame'.trans frame, ?_⟩
  unfold Waits
  rw [queue']
  exact waits

/-- Whatever a run on a clock that never goes back has done: a frame that is called while the
    player plays tells of a snapshot exactly if none was told of in this play or the last one is
    at least as long ago as the quality asks for by then, and told or not it moves the
    position and requests the next frame; playing begins with a snapshot; and everybody who
    listens hears of what is told. -/
theorem frames_throttled {quality : Value A} {resolver : MotionResolver A} {clock : Number A}
    {cancels : Bool} (made : new quality resolver clock cancels = .ok p) (starts : clock.OnClock)
    (before : List (Beat A)) (beat : Beat A) (quiet : ∀ b ∈ before ++ [beat], b.Quiet)
    (forward : p.Forward before) (unfailing : Unfailing (p.beatTrace (before ++ [beat]))) :
    (∀ handle, beat = .call handle → (p.afterBeats before).Waits handle →
      (p.afterBeats before).mode = .playing →
      FramePaced (p.pastAfter [] before) (p.afterBeats before) handle) ∧
    (beat = .command .play → (p.afterBeats before).disposed = false →
      (p.afterBeats before).mode ≠ .playing → PlayPaced (p.afterBeats before)) ∧
    ((p.afterBeats before).onBeat beat).deliveries = (p.afterBeats before).deliveries ++
      ((p.afterBeats before).toldAt beat).flatMap
        (toldTo ((p.afterBeats before).listeners.map (·.2))) := by
  obtain ⟨calm, last⟩ := List.forall_mem_append.mp quiet
  rw [beatTrace_concat] at unfailing
  have early : Unfailing (p.beatTrace before) := fun event member =>
    unfailing event (List.mem_append_left _ member)
  have late : Unfailing ((p.afterBeats before).beatEvents beat) := fun event member =>
    unfailing event (List.mem_append_right _ member)
  have k := (new_stamped made starts).afterBeats calm forward early
  have ok := evaluated_of_unfailing late
  refine ⟨?_, ?_, onBeat_deliveries k.sound.quiet (last beat (by simp))⟩
  · rintro handle rfl waits playing
    exact k.frame waits playing ok
  · rintro rfl live rests
    exact k.sound.play live rests ok

def earlyFrame : List (Beat .exact) :=
  [.command (.subscribe "panel" fun _ => .done), .command .play, .advance (.finite (1 / 100)),
    .call 1, .advance (.finite (1 / 100))]

theorem second_frame_told :
    (fresh.afterBeats earlyFrame).Due (fresh.pastAfter [] earlyFrame) ∧
    ((fresh.afterBeats earlyFrame).onBeat (.call 2)).deliveries.length = 2 := by
  have made : new (.text "preview") originPlacement (.finite 100) true = .ok fresh := rfl
  have quiet : ∀ beat ∈ earlyFrame ++ [.call 2], beat.Quiet := by
    simp [earlyFrame, Beat.Quiet, Step.Quiet, Reaction.Quiet]
  have forward : fresh.Forward earlyFrame := by decide +kernel
  have unfailing : Unfailing (fresh.beatTrace (earlyFrame ++ [.call 2])) := by decide +kernel
  have told : (fresh.afterBeats earlyFrame).toldAt (.call 2) ≠ [] := by
    rw [← List.length_pos_iff]
    decide +kernel
  have starts : (.finite 100 : Number .exact).OnClock :=
    .inl ⟨100, .finite 100, rfl, by simp [Arithmetic.Spans]⟩
  obtain ⟨frames, -, -⟩ :=
    frames_throttled made starts earlyFrame (.call 2) quiet forward unfailing
  have paced := frames 2 rfl (by decide +kernel) (by decide +kernel)
  exact ⟨paced.due.mp told, by decide +kernel⟩

/-- Playing while the player plays already tells of nothing. -/
theorem second_play_silent :
    (fresh.afterBeats earlyFrame).mode = .playing ∧
    (fresh.afterBeats earlyFrame).disposed = false ∧
    ((fresh.afterBeats earlyFrame).onBeat (.command .play)).deliveries.length =
      (fresh.afterBeats earlyFrame).deliveries.length := by
  decide +kernel

end Player
end DeclarativeAnimation
