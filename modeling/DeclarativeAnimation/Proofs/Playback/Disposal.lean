import DeclarativeAnimation.Playback.Player
import DeclarativeAnimation.Proofs.Playback.Delivery
import DeclarativeAnimation.Proofs.Playback.LateFrames
import DeclarativeAnimation.Proofs.Playback.Reach

/-! Disposal is for good.  A player that has been disposed of has no listeners and takes no
    commands, and nobody can make it a player again: what is left to happen is that the clock moves
    on, and that frames come late which its scheduler would not cancel. -/
namespace DeclarativeAnimation

namespace Player
variable {A : Arithmetic} {p q r s : Player A} {command : Command A}

/-- Some player that has not been disposed of carries the command out. -/
def Acceptable (command : Command A) : Prop :=
  ∃ p : Player A, p.disposed = false ∧ ∃ reply, (p.turn command).result = .ok reply

structure Gone (p : Player A) : Prop where
  disposed : p.disposed = true
  deserted : p.listeners = []

/-- The second player is the first one after the clock has moved on and some frames that waited
    have come or were lost; none was requested. -/
def Fades (p q : Player A) : Prop :=
  ∃ clock frame pending,
    q = { p with clock := clock, frame := frame, queue := { p.queue with pending := pending } } ∧
      (frame = p.frame ∨ frame = none) ∧ pending.Sublist p.queue.pending

theorem Fades.refl (p : Player A) : p.Fades p := ⟨_, _, _, rfl, .inl rfl, .refl _⟩

theorem Fades.trans (first : p.Fades q) (second : q.Fades r) : p.Fades r := by
  obtain ⟨_, frame, _, rfl, cleared, fewer⟩ := first
  obtain ⟨_, _, _, rfl, cleared', fewer'⟩ := second
  refine ⟨_, _, _, rfl, ?_, fewer'.trans fewer⟩
  rcases cleared' with same | none
  · exact same ▸ cleared
  · exact .inr none

theorem Fades.gone (fades : p.Fades q) (gone : p.Gone) : q.Gone := by
  obtain ⟨_, _, _, rfl, -, -⟩ := fades
  exact ⟨gone.disposed, gone.deserted⟩

theorem Fades.silent (fades : p.Fades q) : q.deliveries = p.deliveries ∧ q.log = p.log := by
  obtain ⟨_, _, _, rfl, -, -⟩ := fades
  exact ⟨rfl, rfl⟩

inductive Late (p : Player A) (command : Command A) : Prop where
  | refused (late : p.turn command = p.refused .disposed)
  | leaving (leaves : command.TakesLeave) {result : Except Fault (Reply A)}
      (same : p.turn command = { player := p, result := result })
  | mistaken (fault : Fault) (refused : ∀ l : Player A, l.turn command = l.refused fault)

namespace Gone
variable (gone : p.Gone)
include gone

theorem erase_listeners (key : Nat) : Keyed.erase key p.listeners = p.listeners := by
  rw [gone.deserted]
  rfl

theorem unsubscribe (name : String) :
    p.unsubscribe name =
      if Keyed.get? name p.keys = none then p.refused .unknownKey else { player := p } := by
  unfold Player.unsubscribe
  cases Keyed.get? name p.keys with
  | none => rfl
  | some key => simp [gone.erase_listeners]

theorem late (command : Command A) : Late p command := by
  have disposed := gone.disposed
  have transition := p.turn_transition command
  generalize same : p.turn command = turn at transition
  cases transition with
  | mistaken faulty => exact .mistaken _ (turn_of_hasFault faulty)
  | late disposed stays => exact .refused same
  | unknown unknown => exact .leaving trivial same
  | idle idles =>
    cases idles with
    | disposed disposed => exact .leaving trivial same
    | playing live | resting live => simp [live] at disposed
  | unsubscribe known =>
    rw [gone.erase_listeners] at same
    exact .leaving trivial same
  | play live | pause live | stop live | dispose live | seek _ live | setRate _ live
  | setQuality _ live | setData _ live | unmeasured _ live | subscribe live =>
    simp [live] at disposed

theorem refuses (acceptable : Acceptable command) (other : ¬ command.TakesLeave) :
    p.turn command = p.refused .disposed := by
  cases gone.late command with
  | refused late => exact late
  | leaving leaves same => exact (other leaves).elim
  | mistaken fault refused =>
    obtain ⟨l, -, reply, done⟩ := acceptable
    rw [refused l] at done
    cases done

theorem turn (command : Command A) :
    ∃ result, p.turn command = { player := p, result := result } := by
  cases gone.late command with
  | refused late => exact ⟨_, late⟩
  | leaving leaves same => exact ⟨_, same⟩
  | mistaken fault refused => exact ⟨_, refused p⟩

theorem run (command : Command A) : (p.run command).2 = p := by
  obtain ⟨result, turned⟩ := gone.turn command
  rw [Player.run, perform, turned]
  rfl

theorem tick : p.tick = { player := { p with frame := none } } := tick_resting (.inl gone.disposed)

theorem callFrame (notify : Notify A) :
    Player.callFrame notify p = (.ok (), { p with frame := none }) := by
  rw [Player.callFrame, gone.tick]
  rfl

theorem callEach (notify : Notify A) (frames : List (Nat × Unit)) :
    FrameQueue.callEach (fun _ => Player.callFrame notify) frames p =
      (.ok (), if frames = [] then p else { p with frame := none }) := by
  induction frames generalizing p with
  | nil => rfl
  | cons frame rest ih =>
    have cleared : ({ p with frame := none } : Player A).Gone := ⟨gone.disposed, gone.deserted⟩
    rw [FrameQueue.callEach, gone.callFrame]
    dsimp only
    rw [ih cleared]
    split <;> rfl

theorem runFrame : p.runFrame = (.ok p.queue.pending.length,
    { p with
      frame := if p.queue.pending = [] then p.frame else none
      queue := p.queue.takeAll.2 }) := by
  have emptied : ({ p with queue := p.queue.takeAll.2 } : Player A).Gone :=
    ⟨gone.disposed, gone.deserted⟩
  have called := emptied.callEach (notify mostNested) p.queue.pending
  simp only [FrameQueue.takeAll] at called
  simp only [Player.runFrame, FrameQueue.takeAll, called]
  split <;> rfl

theorem call {handle : Nat} (waits : p.Waits handle) :
    p.onBeat (.call handle) = { p.without handle with frame := none } ∧
      p.beatEvents (.call handle) = [] := by
  have fewer : (p.without handle).Gone := ⟨gone.disposed, gone.deserted⟩
  constructor
  · rw [onBeat, if_pos waits, fewer.callFrame]
  · rw [beatEvents, if_pos waits, fewer.tick]
    rfl

theorem stepped (step : Step A) : p.Fades (p.stepped step) := by
  cases step with
  | command command =>
    rw [Player.stepped, gone.run]
    exact .refl p
  | advance time => exact ⟨_, _, _, rfl, .inl rfl, .refl _⟩
  | frame =>
    rw [Player.stepped, gone.runFrame]
    refine ⟨_, _, _, rfl, ?_, List.nil_sublist _⟩
    split
    · exact .inl rfl
    · exact .inr rfl

theorem onBeat (beat : Beat A) : p.Fades (p.onBeat beat) := by
  cases beat with
  | command command =>
    rw [Player.onBeat, gone.run]
    exact .refl p
  | advance time => exact ⟨_, _, _, rfl, .inl rfl, .refl _⟩
  | call handle =>
    by_cases waits : p.Waits handle
    · rw [(gone.call waits).1]
      exact ⟨_, _, _, rfl, .inr rfl, List.filter_sublist⟩
    · rw [Player.onBeat, if_neg waits]
      exact .refl p
  | lose handle =>
    rw [Player.onBeat]
    split
    · exact .refl p
    · exact ⟨_, _, _, rfl, .inl rfl, List.filter_sublist⟩

theorem leads (leads : p.Leads q) : p.Fades q := by
  induction leads with
  | here => exact .refl p
  | step step _ ih => exact ih.trans ((ih.gone gone).stepped step)
  | beat beat _ ih => exact ih.trans ((ih.gone gone).onBeat beat)

end Gone

theorem deserted_steady : Steady (A := A) Deserted where
  turn := by
    intro p command deserted disposed
    rw [(p.turn_transition command).tidy.disposed] at disposed
    obtain ⟨_, turned⟩ := Gone.turn ⟨disposed, deserted disposed⟩ command
    rw [turned]
    exact deserted disposed
  tick := by
    intro p deserted
    obtain ⟨_, _, _, _, _, _, _, same⟩ := p.tick_goesOn
    rw [same]
    exact deserted
  closed := fun _ _ => rfl
  delivered := fun _ _ deserted => deserted
  logged := fun _ deserted => deserted
  advance := fun _ deserted => deserted
  queued := fun _ deserted => deserted

theorem new_deserted {quality : Value A} {resolver : MotionResolver A} {clock : Number A}
    {cancels : Bool} (made : new quality resolver clock cancels = .ok p) : p.Deserted := by
  obtain ⟨_, _, made⟩ := bind_eq_ok made
  cases made
  exact fun _ => rfl

theorem run_dispose (deserted : p.Deserted) (returned : (p.run .dispose).1 = .ok .done) :
    (p.run .dispose).2.Gone := by
  cases disposed : p.disposed with
  | true =>
    have gone : p.Gone := ⟨disposed, deserted disposed⟩
    rwa [gone.run]
  | false =>
    have stopped : p.turn .dispose = { p.stop with closing := p.stop.result.toBool } := by
      simp [turn, dispose, disposed]
    rw [run, perform, stopped] at returned ⊢
    have closing : p.stop.result.toBool = true := by
      rw [show p.stop.result = .ok .done from returned]
      rfl
    simp only [Turn.finish, closing, ↓reduceIte]
    exact ⟨rfl, rfl⟩

structure Retired (p q : Player A) : Prop where
  /-- It is too late for every command but those that take leave. -/
  refuses : ∀ command, Acceptable command → ¬ command.TakesLeave →
    q.run command = (.error .disposed, q)
  answers : ∀ query, q.ask query = .error .disposed
  again : q.run .dispose = (.ok .done, q)
  unsubscribes : q.listeners = [] ∧
    ∀ name, Keyed.get? name q.keys ≠ none → q.run (.unsubscribe name) = (.ok .done, q)
  silent : q.deliveries = p.deliveries ∧ q.log = p.log
  /-- A frame that is called does nothing, whether or not it still waits. -/
  ticks : q.tick.evaluation = none ∧
    callFrame (notify mostNested) q = (.ok (), { q with frame := none })
  called : ∀ handle, q.Waits handle →
    q.onBeat (.call handle) = { q.without handle with frame := none } ∧
      q.beatEvents (.call handle) = []
  passed : q.runFrame = (.ok q.queue.pending.length,
    { q with
      frame := if q.queue.pending = [] then q.frame else none
      queue := q.queue.takeAll.2 })
  fades : p.Fades q

theorem Gone.retired (gone : p.Gone) (fades : p.Fades q) : Retired p q := by
  have now := fades.gone gone
  refine ⟨?_, ?_, ?_, ⟨now.deserted, ?_⟩, fades.silent, ⟨?_, now.callFrame _⟩,
    fun handle waits => now.call waits, now.runFrame, fades⟩
  · intro command acceptable other
    rw [Player.run, perform, now.refuses acceptable other]
    rfl
  · exact fun query => if_pos now.disposed
  · have same : q.turn .dispose = { player := q } := if_pos now.disposed
    rw [Player.run, perform, same]
    rfl
  · intro name known
    have same : q.turn (.unsubscribe name) = { player := q } := by
      rw [Player.turn, now.unsubscribe, if_neg known]
    rw [Player.run, perform, same]
    rfl
  · rw [now.tick]

/-- Wherever a player has got to, with whatever listeners and whatever frames left over: once it
    has been disposed of, that is final. -/
theorem disposal_is_final {quality : Value A} {resolver : MotionResolver A} {clock : Number A}
    {cancels : Bool} (made : new quality resolver clock cancels = .ok p) (leads : p.Leads q)
    (returned : (q.run .dispose).1 = .ok .done) (more : (q.run .dispose).2.Leads s) :
    Retired (q.run .dispose).2 s := by
  have deserted : q.Deserted := deserted_steady.leads (new_deserted made) leads
  have gone := run_dispose deserted returned
  exact gone.retired (gone.leads more)

def leftRunning : List (Beat .exact) :=
  [.command (.subscribe "panel" fun _ => .done), .command .play, .command .pause, .command .play]

def tooLate : List (Beat .exact) :=
  [.advance (.finite 1), .call 1, .command .play, .command (.unsubscribe "panel")]

theorem late_frame_finds_nobody :
    (((heedless.afterBeats leftRunning).run .dispose).2.afterBeats tooLate).Waits 2 ∧
    (((heedless.afterBeats leftRunning).run .dispose).2.afterBeats tooLate).beatEvents (.call 2) =
      [] ∧
    (((heedless.afterBeats leftRunning).run .dispose).2.afterBeats tooLate).deliveries.length =
      3 := by
  have made : new (.text "preview") originPlacement (.finite 100) false = .ok heedless := rfl
  have returned : ((heedless.afterBeats leftRunning).run .dispose).1 = .ok .done := rfl
  have waits : (((heedless.afterBeats leftRunning).run .dispose).2.afterBeats tooLate).Waits 2 := by
    decide +kernel
  have retired := disposal_is_final made (Leads.here.afterBeats leftRunning) returned
    (Leads.here.afterBeats tooLate)
  refine ⟨waits, (retired.called 2 waits).2, ?_⟩
  rw [retired.silent.1]
  decide +kernel

end Player
end DeclarativeAnimation
