import DeclarativeAnimation.Proofs.Playback.Reach
import DeclarativeAnimation.Proofs.Playback.Throttle

/-! Quality sets the pace at which listeners hear of a running animation, and nothing else.  Two
    players that go through the same, but for the qualities they are given, are at the same
    position in the same mode and wait for the same frames all along.  They tell of the same
    snapshots too, except that a frame may be due for one of them and early for the other. -/
namespace DeclarativeAnimation
variable {A : Arithmetic}

theorem Number.since_never_iff {least : Number A} (finite : least.isFinite) (x : Number A) :
    least ≤ x - .infinite true ↔ x - .infinite true = .infinite false := by
  have endless : least ≤ .infinite false := by cases least <;> first | rfl | cases finite
  have unknown : ¬ least ≤ .nan := by intro wrong; cases least <;> cases wrong
  have spoilt {y : Number A} (lost : y = .nan) : least ≤ y ↔ y = .infinite false := by
    rw [lost]
    exact iff_of_false unknown (by simp)
  have passed {y : Number A} (whole : y = .infinite false) : least ≤ y ↔ y = .infinite false := by
    rw [whole]
    exact iff_of_true endless rfl
  cases x with
  | finite q => exact passed rfl
  | negativeZero => exact passed rfl
  | nan => exact spoilt rfl
  | infinite negative =>
    cases negative with
    | false => exact passed rfl
    | true => exact spoilt rfl

def Beat.setsQuality : Beat A → Bool
  | .command (.setQuality mode) => (Quality.ofValue mode).toBool
  | _ => false

theorem Beat.of_setsQuality {beat : Beat A} (sets : beat.setsQuality = true) :
    ∃ mode, beat = .command (.setQuality mode) := by
  unfold Beat.setsQuality at sets
  split at sets
  · exact ⟨_, rfl⟩
  · cases sets

def Beat.isFrame : Beat A → Bool
  | .call _ => true
  | _ => false

inductive Alike : List (Beat A) → List (Beat A) → Prop where
  | nil : Alike [] []
  | here {beat : Beat A} {rest others : List (Beat A)} (sets : beat.setsQuality = true)
      (alike : Alike rest others) : Alike (beat :: rest) others
  | there {beat : Beat A} {rest others : List (Beat A)} (sets : beat.setsQuality = true)
      (alike : Alike rest others) : Alike rest (beat :: others)
  | both {rest others : List (Beat A)} (beat : Beat A) (alike : Alike rest others) :
      Alike (beat :: rest) (beat :: others)

namespace Player
variable {p q r : Player A} {t u : Turn A} {beat : Beat A}

/-- The second player is the first one at another quality, and with other snapshots told. -/
def SamePlay (p q : Player A) : Prop :=
  ∃ quality last snapshot deliveries log, q =
    { p with
      quality := quality, lastBroadcast := last, snapshot := snapshot
      deliveries := deliveries, log := log }

namespace SamePlay

theorem symm (same : p.SamePlay q) : q.SamePlay p := by
  obtain ⟨_, _, _, _, _, rfl⟩ := same
  exact ⟨_, _, _, _, _, rfl⟩

theorem trans (first : p.SamePlay q) (second : q.SamePlay r) : p.SamePlay r := by
  obtain ⟨_, _, _, _, _, rfl⟩ := first
  obtain ⟨_, _, _, _, _, rfl⟩ := second
  exact ⟨_, _, _, _, _, rfl⟩

theorem of_heard (heard : p.Heard q) : p.SamePlay q := by
  obtain ⟨_, _, rfl⟩ := heard
  exact ⟨_, _, _, _, _, rfl⟩

theorem closed (same : p.SamePlay q) : p.closed.SamePlay q.closed := by
  obtain ⟨_, _, _, _, _, rfl⟩ := same
  exact ⟨_, _, _, _, _, rfl⟩

theorem disposed (same : p.SamePlay q) : q.disposed = p.disposed := by
  obtain ⟨_, _, _, _, _, rfl⟩ := same
  rfl

theorem mode (same : p.SamePlay q) : q.mode = p.mode := by
  obtain ⟨_, _, _, _, _, rfl⟩ := same
  rfl

theorem clock (same : p.SamePlay q) : q.clock = p.clock := by
  obtain ⟨_, _, _, _, _, rfl⟩ := same
  rfl

theorem frame (same : p.SamePlay q) : q.frame = p.frame := by
  obtain ⟨_, _, _, _, _, rfl⟩ := same
  rfl

theorem ended (same : p.SamePlay q) : q.ended = p.ended := by
  obtain ⟨_, _, _, _, _, rfl⟩ := same
  rfl

theorem elapsed (same : p.SamePlay q) : q.elapsed = p.elapsed := by
  obtain ⟨_, _, _, _, _, rfl⟩ := same
  rfl

theorem compute (same : p.SamePlay q) (time : Number A) : q.compute time = p.compute time := by
  obtain ⟨_, _, _, _, _, rfl⟩ := same
  rfl

theorem cancelFrame (same : p.SamePlay q) : p.cancelFrame.SamePlay q.cancelFrame := by
  simp only [Player.cancelFrame, same.frame]
  split
  · obtain ⟨_, _, _, _, _, rfl⟩ := same
    exact ⟨_, _, _, _, _, rfl⟩
  · exact same

theorem halted (same : p.SamePlay q) : p.halted.SamePlay q.halted := by
  obtain ⟨_, _, _, _, _, cancelled⟩ := same.cancelFrame
  simp only [Player.halted, cancelled]
  exact ⟨_, _, _, _, _, rfl⟩

theorem started (same : p.SamePlay q) : p.started.SamePlay q.started := by
  simp only [Player.started, same.ended]
  split <;>
  · obtain ⟨_, _, _, _, _, rfl⟩ := same
    exact ⟨_, _, _, _, _, rfl⟩

theorem moved (same : p.SamePlay q) (time : Number A) : (p.moved time).SamePlay (q.moved time) := by
  obtain ⟨_, _, _, _, _, rfl⟩ := same
  simp only [Player.moved]
  split <;> exact ⟨_, _, _, _, _, rfl⟩

theorem paced (same : p.SamePlay q) (rate : Number A) : (p.paced rate).SamePlay (q.paced rate) := by
  obtain ⟨_, _, _, _, _, rfl⟩ := same
  simp only [Player.paced]
  split <;> exact ⟨_, _, _, _, _, rfl⟩

theorem positioned (same : p.SamePlay q) (position : Number A) :
    ({ p with position := position } : Player A).SamePlay { q with position := position } := by
  obtain ⟨_, _, _, _, _, rfl⟩ := same
  exact ⟨_, _, _, _, _, rfl⟩

theorem inMode (same : p.SamePlay q) (mode : Mode) :
    ({ p with mode := mode } : Player A).SamePlay { q with mode := mode } := by
  obtain ⟨_, _, _, _, _, rfl⟩ := same
  exact ⟨_, _, _, _, _, rfl⟩

theorem cleared (same : p.SamePlay q) :
    ({ p with frame := none } : Player A).SamePlay { q with frame := none } := by
  obtain ⟨_, _, _, _, _, rfl⟩ := same
  exact ⟨_, _, _, _, _, rfl⟩

theorem without (same : p.SamePlay q) (handle : Nat) :
    (p.without handle).SamePlay (q.without handle) := by
  obtain ⟨_, _, _, _, _, rfl⟩ := same
  exact ⟨_, _, _, _, _, rfl⟩

end SamePlay

/-- The turns leave players alike, and answer alike; what both tell of is the same. -/
structure Concurs (t u : Turn A) : Prop where
  player : t.player.SamePlay u.player
  result : u.result = t.result
  closing : u.closing = t.closing
  taken : ∀ s s', t.evaluation = some (.ok s) → u.evaluation = some (.ok s') → s' = s

structure Matches (t u : Turn A) : Prop where
  concurs : Concurs t u
  evaluation : u.evaluation = t.evaluation

theorem Matches.of_same (player : t.player.SamePlay u.player) (result : u.result = t.result)
    (closing : u.closing = t.closing) (evaluation : u.evaluation = t.evaluation) : Matches t u := by
  refine ⟨⟨player, result, closing, ?_⟩, evaluation⟩
  intro s s' here there
  rw [evaluation, here] at there
  cases there
  rfl

theorem Matches.still {result : Except Fault (Reply A)} (same : p.SamePlay q) :
    Matches { player := p, result := result } { player := q, result := result } :=
  .of_same same rfl rfl rfl

theorem Concurs.finish (concurs : Concurs t u) (quiet : t.player.Quiet) (calm : u.player.Quiet)
    (depth : Nat) : (t.finish (notify depth)).2.SamePlay (u.finish (notify depth)).2 := by
  obtain ⟨left, heard, finished⟩ := finish_heard depth quiet
  obtain ⟨right, heard', finished'⟩ := finish_heard depth calm
  have same : left.SamePlay right :=
    ((SamePlay.of_heard heard).symm.trans concurs.player).trans (.of_heard heard')
  rw [finished, finished', concurs.closing]
  split
  · exact same.closed
  · exact same

theorem SamePlay.stamped (same : p.SamePlay q) : p.stamped.SamePlay q.stamped := by
  obtain ⟨_, _, _, _, _, rfl⟩ := same
  exact ⟨_, _, _, _, _, rfl⟩

namespace SamePlay
variable (same : p.SamePlay q)
include same

theorem take (time : Number A) {next : Player A → Player A}
    (further : ∀ {l r : Player A}, l.SamePlay r → (next l).SamePlay (next r)) :
    Matches (p.take time next) (q.take time next) := by
  unfold Player.take
  rw [same.compute]
  cases p.compute time with
  | error fault => exact .of_same same rfl rfl rfl
  | ok snapshot =>
    have kept : ({ p with snapshot := snapshot } : Player A).SamePlay
        { q with snapshot := snapshot } := by
      obtain ⟨_, _, _, _, _, rfl⟩ := same
      exact ⟨_, _, _, _, _, rfl⟩
    exact .of_same (further kept) rfl rfl rfl

/-- A frame may be due for one of the players only; the other one moves on without a snapshot. -/
theorem tick (ok : p.tick.Evaluated) (ok' : q.tick.Evaluated) :
    Concurs p.tick q.tick ∧ ((q.DueByStamp ↔ p.DueByStamp) → Matches p.tick q.tick) := by
  by_cases resting : p.disposed = true ∨ p.mode ≠ .playing
  · rw [tick_resting resting, tick_resting (p := q) (by rwa [same.disposed, same.mode])]
    have both : Matches (A := A) { player := { p with frame := none } }
      { player := { q with frame := none } } := .still same.cleared
    exact ⟨both.concurs, fun _ => both⟩
  obtain ⟨live, playing⟩ : p.disposed = false ∧ p.mode = .playing := by simpa using resting
  have live' := same.disposed.trans live
  have playing' := same.mode.trans playing
  have moves {last last' : Number A} {snapshot snapshot' : Snapshot A} : SamePlay
      (Player.requestFrame
        { p with position := p.elapsed, snapshot := snapshot, lastBroadcast := last })
      (Player.requestFrame
        { q with position := q.elapsed, snapshot := snapshot', lastBroadcast := last' }) := by
    rw [same.elapsed]
    obtain ⟨_, _, _, _, _, rfl⟩ := same
    exact ⟨_, _, _, _, _, rfl⟩
  by_cases due : p.DueByStamp
  · by_cases due' : q.DueByStamp
    · rw [tick_taking live playing due, tick_taking live' playing' due', same.elapsed]
      have both := (same.cleared.positioned p.elapsed).take p.elapsed SamePlay.stamped
      exact ⟨both.concurs, fun _ => both⟩
    · obtain ⟨snapshot, ticked⟩ := tick_due live playing due ok
      rw [ticked, tick_early live' playing' due']
      refine ⟨⟨moves, rfl, rfl, by simp⟩, fun iff => ?_⟩
      exact absurd (iff.mpr due) due'
  · by_cases due' : q.DueByStamp
    · obtain ⟨snapshot, ticked⟩ := tick_due live' playing' due' ok'
      rw [ticked, tick_early live playing due]
      refine ⟨⟨moves, rfl, rfl, by simp⟩, fun iff => ?_⟩
      exact absurd (iff.mp due') due
    · rw [tick_early live playing due, tick_early live' playing' due']
      have both : Matches (A := A)
          { player := Player.requestFrame { p with position := p.elapsed } }
          { player := Player.requestFrame { q with position := q.elapsed } } := .still moves
      exact ⟨both.concurs, fun _ => both⟩

/-- Playing begins with a snapshot at any quality, as the time since never is asked for. -/
theorem play (finite : p.quality.minInterval.isFinite) (finite' : q.quality.minInterval.isFinite)
    (ok : p.play.Evaluated) (ok' : q.play.Evaluated) : Matches p.play q.play := by
  have stamps : q.started.DueByStamp ↔ p.started.DueByStamp := by
    obtain ⟨-, clock, -, quality, -, stamp⟩ := p.started_fields
    obtain ⟨-, clock', -, quality', -, stamp'⟩ := q.started_fields
    unfold DueByStamp
    rw [clock, quality, stamp, clock', quality', stamp', same.clock]
    exact (Number.since_never_iff finite' _).trans (Number.since_never_iff finite _).symm
  unfold Player.play at ok ok' ⊢
  rw [same.disposed, same.mode] at ok' ⊢
  split
  · exact .still same
  · rename_i live
    rw [if_neg live] at ok ok'
    split
    · exact .still same
    · rename_i rests
      rw [if_neg rests] at ok ok'
      exact (same.started.tick ok ok').2 stamps

theorem pause : Matches p.pause q.pause := by
  unfold Player.pause
  by_cases disposed : p.disposed = true
  · rw [if_pos disposed, if_pos (same.disposed.trans disposed)]
    exact .still same
  · have live : ¬ q.disposed = true := by rwa [same.disposed]
    rw [if_neg disposed, if_neg live]
    by_cases rests : p.mode ≠ .playing
    · have rests' : q.mode ≠ .playing := by rwa [same.mode]
      rw [if_pos rests, if_pos rests']
      exact .still same
    · have playing : ¬ q.mode ≠ .playing := by rwa [same.mode]
      rw [if_neg rests, if_neg playing, same.elapsed]
      exact .still ((same.positioned p.elapsed).cancelFrame.inMode .paused)

theorem stop : Matches p.stop q.stop := by
  unfold Player.stop
  rw [same.disposed]
  split
  · exact .still same
  · exact same.halted.take 0 id

theorem dispose : Matches p.dispose q.dispose := by
  unfold Player.dispose
  rw [same.disposed]
  split
  · exact .still same
  · have stopped := same.stop
    refine .of_same stopped.concurs.player stopped.concurs.result ?_ stopped.evaluation
    exact congrArg Except.toBool stopped.concurs.result

theorem seek (time : Number A) : Matches (p.seek time) (q.seek time) := by
  unfold Player.seek
  rw [same.disposed]
  split
  · exact .still same
  · exact (same.moved time).take time id

theorem setRate (rate : Number A) : Matches (p.setRate rate) (q.setRate rate) := by
  simp only [Player.setRate]
  rw [same.disposed]
  split
  · exact .still same
  · exact .still (same.paced _)

theorem setQuality (quality : Quality) : Matches (p.setQuality quality) (q.setQuality quality) := by
  unfold Player.setQuality
  rw [same.disposed]
  split
  · exact .still same
  · obtain ⟨_, _, _, _, _, rfl⟩ := same
    exact .still ⟨_, _, _, _, _, rfl⟩

theorem setData (animations : List (Animation A)) (elements : Elements A)
    (chains : List (Chain A)) :
    Matches (p.setData animations elements chains) (q.setData animations elements chains) := by
  simp only [Player.setData]
  rw [same.disposed]
  obtain ⟨_, _, _, _, _, rfl⟩ := same
  repeat' split
  all_goals exact .still ⟨_, _, _, _, _, rfl⟩

theorem subscribe (name : String) (reaction : Nat → Reaction A) :
    Matches (p.subscribe name reaction) (q.subscribe name reaction) := by
  unfold Player.subscribe
  rw [same.disposed]
  obtain ⟨_, _, _, _, _, rfl⟩ := same
  split <;> exact .still ⟨_, _, _, _, _, rfl⟩

theorem unsubscribe (name : String) : Matches (p.unsubscribe name) (q.unsubscribe name) := by
  obtain ⟨_, _, _, _, _, rfl⟩ := same
  simp only [Player.unsubscribe]
  split <;> exact .still ⟨_, _, _, _, _, rfl⟩

theorem turn (command : Command A) (finite : p.quality.minInterval.isFinite)
    (finite' : q.quality.minInterval.isFinite) (ok : (p.turn command).Evaluated)
    (ok' : (q.turn command).Evaluated) : Matches (p.turn command) (q.turn command) := by
  cases command with
  | play => exact same.play finite finite' ok ok'
  | pause => exact same.pause
  | stop => exact same.stop
  | dispose => exact same.dispose
  | seek time =>
    simp only [Player.turn]
    split
    · exact same.seek _
    · exact .still same
  | setRate rate =>
    simp only [Player.turn]
    split
    · exact same.setRate _
    · exact .still same
  | setQuality mode =>
    simp only [Player.turn]
    split
    · exact same.setQuality _
    · exact .still same
  | setData animations elements chains => exact same.setData animations elements chains
  | subscribe name reaction => exact same.subscribe name reaction
  | unsubscribe name => exact same.unsubscribe name

theorem beatTurn (finite : p.quality.minInterval.isFinite)
    (finite' : q.quality.minInterval.isFinite) (ok : (p.beatTurn beat).Evaluated)
    (ok' : (q.beatTurn beat).Evaluated) :
    Concurs (p.beatTurn beat) (q.beatTurn beat) ∧
      (beat.isFrame = false → Matches (p.beatTurn beat) (q.beatTurn beat)) := by
  cases beat with
  | command command =>
    have both := same.turn command finite finite' ok ok'
    exact ⟨both.concurs, fun _ => both⟩
  | advance time =>
    have both : Matches (p.beatTurn (.advance time)) (q.beatTurn (.advance time)) := by
      obtain ⟨_, _, _, _, _, rfl⟩ := same
      exact .still ⟨_, _, _, _, _, rfl⟩
    exact ⟨both.concurs, fun _ => both⟩
  | call handle =>
    have waiting : q.Waits handle ↔ p.Waits handle := by
      obtain ⟨_, _, _, _, _, rfl⟩ := same
      exact .rfl
    simp only [Player.beatTurn, waiting] at ok ok' ⊢
    refine ⟨?_, by simp [Beat.isFrame]⟩
    split
    · rename_i waits
      rw [if_pos waits] at ok ok'
      exact ((same.without handle).tick ok ok').1
    · exact (Matches.still same).concurs
  | lose handle =>
    have both : Matches (p.beatTurn (.lose handle)) (q.beatTurn (.lose handle)) := by
      simp only [Player.beatTurn, same.frame]
      split
      · exact .still same
      · exact .still (same.without handle)
    exact ⟨both.concurs, fun _ => both⟩

end SamePlay

def Preset (p : Player A) : Prop := ∃ quality : Quality, p.quality = quality.preset

theorem Preset.finite (preset : p.Preset) : p.quality.minInterval.isFinite := by
  obtain ⟨quality, known⟩ := preset
  rw [known]
  exact quality.minInterval_isFinite

theorem preset_steady : Steady (A := A) Preset where
  turn := fun command preset => ((turn_transition _ command).change.preset preset).2
  tick := by
    intro p preset
    obtain ⟨_, _, _, _, _, _, _, same⟩ := p.tick_goesOn
    rw [same]
    exact preset
  closed := id
  delivered := fun _ _ preset => preset
  logged := fun _ preset => preset
  advance := fun _ preset => preset
  queued := fun _ preset => preset

structure Paired (p q : Player A) : Prop where
  same : p.SamePlay q
  quiet : p.Quiet
  preset : p.Preset
  preset' : q.Preset

namespace Paired

theorem calm (paired : Paired p q) : q.Quiet := by
  obtain ⟨_, _, _, _, _, rfl⟩ := paired.same
  exact paired.quiet

theorem symm (paired : Paired p q) : Paired q p :=
  ⟨paired.same.symm, paired.calm, paired.preset', paired.preset⟩

theorem turns (paired : Paired p q) (unfailing : Unfailing (p.beatEvents beat))
    (unfailing' : Unfailing (q.beatEvents beat)) :
    Concurs (p.beatTurn beat) (q.beatTurn beat) ∧
      (beat.isFrame = false → Matches (p.beatTurn beat) (q.beatTurn beat)) :=
  paired.same.beatTurn paired.preset.finite paired.preset'.finite
    (evaluated_of_unfailing unfailing) (evaluated_of_unfailing unfailing')

theorem both (paired : Paired p q) (quiet : beat.Quiet) (unfailing : Unfailing (p.beatEvents beat))
    (unfailing' : Unfailing (q.beatEvents beat)) : Paired (p.onBeat beat) (q.onBeat beat) := by
  have concurs := (paired.turns unfailing unfailing').1
  have finished := concurs.finish (beatTurn_quiet paired.quiet beat quiet)
    (beatTurn_quiet paired.calm beat quiet) mostNested
  rw [← (p.onBeat_finish beat).1, ← (q.onBeat_finish beat).1] at finished
  exact ⟨finished, (onBeat_quiet paired.quiet beat quiet).2,
    preset_steady.onBeat beat paired.preset, preset_steady.onBeat beat paired.preset'⟩

theorem here (paired : Paired p q) (sets : beat.setsQuality = true) : Paired (p.onBeat beat) q := by
  obtain ⟨mode, rfl⟩ := Beat.of_setsQuality sets
  have changed : p.SamePlay (p.onBeat (.command (.setQuality mode))) := by
    simp only [onBeat, run, perform, turn, setQuality]
    repeat' split
    all_goals exact ⟨_, _, _, _, _, rfl⟩
  have silent : (Beat.command (.setQuality mode) : Beat A).Quiet := trivial
  exact ⟨changed.symm.trans paired.same, (onBeat_quiet paired.quiet _ silent).2,
    preset_steady.onBeat _ paired.preset, paired.preset'⟩

theorem afterBeats {before before' : List (Beat A)} (alike : Alike before before')
    (paired : Paired p q) (quiet : ∀ beat ∈ before, beat.Quiet)
    (unfailing : Unfailing (p.beatTrace before)) (unfailing' : Unfailing (q.beatTrace before')) :
    Paired (p.afterBeats before) (q.afterBeats before') := by
  induction alike generalizing p q with
  | nil => exact paired
  | here sets _ ih =>
    exact ih (paired.here sets) (List.forall_mem_cons.mp quiet).2
      (List.forall_mem_append.mp unfailing).2 unfailing'
  | there sets _ ih =>
    exact ih (paired.symm.here sets).symm quiet unfailing (List.forall_mem_append.mp unfailing').2
  | both beat _ ih =>
    obtain ⟨calm, calmer⟩ := List.forall_mem_cons.mp quiet
    obtain ⟨now, later⟩ := List.forall_mem_append.mp unfailing
    obtain ⟨now', later'⟩ := List.forall_mem_append.mp unfailing'
    exact ih (paired.both calm now now') calmer later later'

end Paired

theorem new_preset {quality : Value A} {resolver : MotionResolver A} {clock : Number A}
    {cancels : Bool} (made : new quality resolver clock cancels = .ok p) : p.Preset := by
  obtain ⟨quality, _, made⟩ := bind_eq_ok made
  cases made
  exact ⟨quality, rfl⟩

theorem new_paired {quality quality' : Value A} {resolver : MotionResolver A} {clock : Number A}
    {cancels : Bool} (made : new quality resolver clock cancels = .ok p)
    (made' : new quality' resolver clock cancels = .ok q) : Paired p q := by
  refine ⟨?_, ?_, new_preset made, new_preset made'⟩
  · obtain ⟨_, _, made⟩ := bind_eq_ok made
    obtain ⟨_, _, made'⟩ := bind_eq_ok made'
    cases made
    cases made'
    exact ⟨_, _, _, _, _, rfl⟩
  · obtain ⟨_, _, made⟩ := bind_eq_ok made
    cases made
    simp [Quiet]

/-- The players are in step, and go on in step at a beat: what it makes both of them tell of is
    the same, and only a frame can make one of them tell of something and not the other. -/
structure InStep (p q : Player A) (beat : Beat A) : Prop where
  mode : q.mode = p.mode
  position : q.position = p.position
  rate : q.rate = p.rate
  duration : q.duration = p.duration
  frames : q.queue = p.queue
  audience : q.listeners = p.listeners
  told : beat.isFrame = false → q.toldAt beat = p.toldAt beat
  shared : p.toldAt beat ≠ [] → q.toldAt beat ≠ [] → q.toldAt beat = p.toldAt beat
  answer : (q.beatTurn beat).result = (p.beatTurn beat).result
  heard : (p.onBeat beat).deliveries =
    p.deliveries ++ (p.toldAt beat).flatMap (toldTo (p.listeners.map (·.2)))
  heard' : (q.onBeat beat).deliveries =
    q.deliveries ++ (q.toldAt beat).flatMap (toldTo (p.listeners.map (·.2)))

theorem Paired.inStep (paired : Paired p q) (quiet : beat.Quiet)
    (unfailing : Unfailing (p.beatEvents beat)) (unfailing' : Unfailing (q.beatEvents beat)) :
    InStep p q beat := by
  obtain ⟨concurs, exactly⟩ := paired.turns unfailing unfailing'
  have told := toldAt_eq paired.quiet quiet
  have told' := toldAt_eq paired.calm quiet
  have heard := onBeat_deliveries paired.quiet quiet
  have heard' := onBeat_deliveries paired.calm quiet
  have fields : q.mode = p.mode ∧ q.position = p.position ∧ q.rate = p.rate ∧
      q.duration = p.duration ∧ q.queue = p.queue ∧ q.listeners = p.listeners := by
    obtain ⟨_, _, _, _, _, rfl⟩ := paired.same
    exact ⟨rfl, rfl, rfl, rfl, rfl, rfl⟩
  obtain ⟨mode, position, rate, duration, frames, audience⟩ := fields
  rw [audience] at heard'
  refine ⟨mode, position, rate, duration, frames, audience, ?_, ?_, concurs.result, heard, heard'⟩
  · intro other
    rw [told, told', (exactly other).evaluation]
  · intro here there
    rw [told] at here ⊢
    rw [told'] at there ⊢
    split at here
    · rename_i s taken
      split at there
      · rename_i s' taken'
        rw [concurs.taken s s' taken taken']
      · exact absurd rfl there
    · exact absurd rfl here

/-- Whatever two players go through, if it differs in nothing but their qualities, then after it
    they are in step. -/
theorem quality_only_paces {quality quality' : Value A} {resolver : MotionResolver A}
    {clock : Number A} {cancels : Bool} (made : new quality resolver clock cancels = .ok p)
    (made' : new quality' resolver clock cancels = .ok q) {before before' : List (Beat A)}
    (alike : Alike before before') (beat : Beat A) (quiet : ∀ b ∈ before ++ [beat], b.Quiet)
    (unfailing : Unfailing (p.beatTrace (before ++ [beat])))
    (unfailing' : Unfailing (q.beatTrace (before' ++ [beat]))) :
    InStep (p.afterBeats before) (q.afterBeats before') beat := by
  obtain ⟨calm, last⟩ := List.forall_mem_append.mp quiet
  rw [beatTrace_concat] at unfailing unfailing'
  obtain ⟨early, late⟩ := List.forall_mem_append.mp unfailing
  obtain ⟨early', late'⟩ := List.forall_mem_append.mp unfailing'
  have paired := (new_paired made made').afterBeats alike calm early early'
  exact paired.inStep (last beat (by simp)) late late'

def drafting : Player .exact := { fresh with quality := Quality.editing.preset }

def twoFrames : List (Beat .exact) :=
  [.command (.subscribe "panel" fun _ => .done), .command .play, .advance (.finite (1 / 50)),
    .call 1, .advance (.finite (1 / 50))]

def twoFramesRefined : List (Beat .exact) :=
  [.command (.subscribe "panel" fun _ => .done), .command .play, .advance (.finite (1 / 50)),
    .call 1, .command (.setQuality (.text "final")), .advance (.finite (1 / 50))]

/-- The first frame is too early for one of them; the second one both tell of, and alike. -/
theorem second_frame_shared :
    (fresh.afterBeats twoFrames).deliveries.length = 2 ∧
    (drafting.afterBeats twoFramesRefined).deliveries.length = 1 ∧
    (fresh.afterBeats twoFrames).toldAt (.call 2) ≠ [] ∧
    (drafting.afterBeats twoFramesRefined).toldAt (.call 2) =
      (fresh.afterBeats twoFrames).toldAt (.call 2) := by
  have made : new (.text "preview") originPlacement (.finite 100) true = .ok fresh := rfl
  have made' : new (.text "editing") originPlacement (.finite 100) true = .ok drafting := rfl
  have alike : Alike twoFrames twoFramesRefined :=
    .both _ (.both _ (.both _ (.both _ (.there (by decide +kernel) (.both _ .nil)))))
  have quiet : ∀ beat ∈ twoFrames ++ [.call 2], beat.Quiet := by
    simp [twoFrames, Beat.Quiet, Step.Quiet, Reaction.Quiet]
  have unfailing : Unfailing (fresh.beatTrace (twoFrames ++ [.call 2])) := by decide +kernel
  have unfailing' : Unfailing (drafting.beatTrace (twoFramesRefined ++ [.call 2])) := by
    decide +kernel
  have here : (fresh.afterBeats twoFrames).toldAt (.call 2) ≠ [] := by
    rw [← List.length_pos_iff]
    decide +kernel
  have there : (drafting.afterBeats twoFramesRefined).toldAt (.call 2) ≠ [] := by
    rw [← List.length_pos_iff]
    decide +kernel
  have inStep := quality_only_paces made made' alike (.call 2) quiet unfailing unfailing'
  exact ⟨by decide +kernel, by decide +kernel, here, inStep.shared here there⟩

end Player
end DeclarativeAnimation
