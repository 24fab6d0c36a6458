import DeclarativeAnimation.Playback.Command

/-! What a turn does to the player it was taken on.  What a command can come to is said once, as
    the transitions of a player; what is true of every turn is a matter of these cases. -/
namespace DeclarativeAnimation
variable {A : Arithmetic}

def Turn.Evaluated (turn : Turn A) : Prop := ∀ fault, turn.evaluation ≠ some (.error fault)

/-- What the command is given is at fault, whatever the player. -/
def Command.HasFault (fault : Fault) : Command A → Prop
  | .seek time => time.toNumber = .error fault
  | .setRate rate => rate.toNumber = .error fault
  | .setQuality mode => Quality.ofValue mode = .error fault
  | .setData animations elements chains => Player.prepared animations elements chains = .error fault
  | _ => False

def Command.TakesLeave : Command A → Prop
  | .dispose | .unsubscribe _ => True
  | _ => False

namespace Player
variable {p q r : Player A} {command : Command A} {turn : Turn A}

def joined (p : Player A) (name : String) (reaction : Nat → Reaction A) : Player A :=
  { p with
    nextKey := p.nextKey + 1
    listeners := p.listeners ++ [(p.nextKey, ⟨name, reaction⟩)]
    keys := Keyed.put name p.nextKey p.keys }

def paused (p : Player A) : Player A :=
  { { p with position := p.elapsed }.cancelFrame with mode := .paused }

inductive Idles (p : Player A) : Command A → Prop where
  | playing (live : p.disposed = false) (playing : p.mode = .playing) : Idles p .play
  | resting (live : p.disposed = false) (resting : p.mode ≠ .playing) : Idles p .pause
  | disposed (disposed : p.disposed = true) : Idles p .dispose

/-- Everything that a command can come to before the listeners are told, and what it takes. -/
inductive Transition (p : Player A) : Command A → Turn A → Prop where
  | mistaken {command : Command A} {fault : Fault} (faulty : command.HasFault fault) :
      Transition p command (p.refused fault)
  | late {command : Command A} (disposed : p.disposed = true) (stays : ¬ command.TakesLeave) :
      Transition p command (p.refused .disposed)
  | unknown {name : String} (unknown : Keyed.get? name p.keys = none) :
      Transition p (.unsubscribe name) (p.refused .unknownKey)
  | idle {command : Command A} (idles : p.Idles command) : Transition p command { player := p }
  | play (live : p.disposed = false) (rested : p.mode ≠ .playing) :
      Transition p .play p.started.tick
  | pause (live : p.disposed = false) (playing : p.mode = .playing) :
      Transition p .pause { player := p.paused }
  | stop (live : p.disposed = false) : Transition p .stop (p.halted.take 0 id)
  | dispose (live : p.disposed = false) :
      Transition p .dispose
        { p.halted.take 0 id with closing := (p.halted.take 0 id).result.toBool }
  | seek {value : Value A} {time : Number A} (read : value.toNumber = .ok time)
      (live : p.disposed = false) : Transition p (.seek value) ((p.moved time).take time id)
  | setRate {value : Value A} {rate : Number A} (read : value.toNumber = .ok rate)
      (live : p.disposed = false) :
      Transition p (.setRate value)
        { player := p.paced (leastRate.larger rate)
          result := .ok (.rate (leastRate.larger rate)) }
  | setQuality {value : Value A} {quality : Quality} (named : Quality.ofValue value = .ok quality)
      (live : p.disposed = false) :
      Transition p (.setQuality value)
        { player := { p with quality := quality.preset }, result := .ok (.quality quality.preset) }
  | setData {animations : List (Animation A)} {elements : Elements A} {chains : List (Chain A)}
      {data : List (Animation A) × Elements A} {duration : Number A}
      (prepared : prepared animations elements chains = .ok data) (live : p.disposed = false)
      (measured : Schedule.timelineDuration (data.1.map (·.schedule)) = .ok duration) :
      Transition p (.setData animations elements chains)
        { player := { p with animations := data.1, elements := data.2, duration := duration } }
  | unmeasured {animations : List (Animation A)} {elements : Elements A} {chains : List (Chain A)}
      {data : List (Animation A) × Elements A} {fault : Fault}
      (prepared : prepared animations elements chains = .ok data) (live : p.disposed = false)
      (unmeasured : Schedule.timelineDuration (data.1.map (·.schedule)) = .error fault) :
      Transition p (.setData animations elements chains)
        ({ p with animations := data.1, elements := data.2 }.refused fault)
  | subscribe {name : String} {reaction : Nat → Reaction A} (live : p.disposed = false) :
      Transition p (.subscribe name reaction) { player := p.joined name reaction }
  | unsubscribe {name : String} {key : Nat} (known : Keyed.get? name p.keys = some key) :
      Transition p (.unsubscribe name)
        { player := { p with listeners := Keyed.erase key p.listeners } }

theorem turn_of_hasFault {fault : Fault} (faulty : command.HasFault fault) (p : Player A) :
    p.turn command = p.refused fault := by
  cases command with
  | seek value => simp only [turn, show value.toNumber = .error fault from faulty]
  | setRate value => simp only [turn, show value.toNumber = .error fault from faulty]
  | setQuality value => simp only [turn, show Quality.ofValue value = .error fault from faulty]
  | setData animations elements chains =>
    simp only [turn, setData, show prepared animations elements chains = .error fault from faulty]
  | _ => exact faulty.elim

theorem Transition.guarded (stays : ¬ command.TakesLeave)
    (carried : p.disposed = false → p.Transition command turn) :
    p.Transition command (if p.disposed then p.refused .disposed else turn) := by
  split
  · rename_i disposed
    exact .late disposed stays
  · rename_i live
    exact carried (Bool.eq_false_iff.mpr live)

/-- What a command is given is looked at first, and only then whether it comes too late. -/
theorem turn_transition (p : Player A) (command : Command A) :
    p.Transition command (p.turn command) := by
  cases command with
  | play =>
    refine .guarded not_false fun live => ?_
    split
    · exact .idle (.playing live ‹_›)
    · exact .play live ‹_›
  | pause =>
    refine .guarded not_false fun live => ?_
    split
    · exact .idle (.resting live ‹_›)
    · exact .pause live (Decidable.of_not_not ‹_›)
  | stop => exact .guarded not_false .stop
  | dispose =>
    simp only [turn, dispose, stop]
    split
    · exact .idle (.disposed ‹_›)
    · exact .dispose (Bool.eq_false_iff.mpr ‹_›)
  | seek value =>
    simp only [turn]
    split
    · exact .guarded not_false (.seek ‹_›)
    · exact .mistaken ‹_›
  | setRate value =>
    simp only [turn]
    split
    · exact .guarded not_false (.setRate ‹_›)
    · exact .mistaken ‹_›
  | setQuality value =>
    simp only [turn]
    split
    · exact .guarded not_false (.setQuality ‹_›)
    · exact .mistaken ‹_›
  | setData animations elements chains =>
    simp only [turn, setData]
    split
    · exact .mistaken ‹_›
    · rename_i chained table prepared
      refine .guarded not_false fun live => ?_
      split
      · exact .unmeasured prepared live ‹_›
      · exact .setData prepared live ‹_›
  | subscribe name reaction => exact .guarded not_false .subscribe
  | unsubscribe name =>
    simp only [turn, unsubscribe]
    split
    · exact .unknown ‹_›
    · exact .unsubscribe ‹_›

theorem take_evaluated {time : Number A} {next : Player A → Player A}
    (ok : (p.take time next).Evaluated) :
    ∃ snapshot, p.take time next =
      { player := next { p with snapshot := snapshot }, evaluation := some (.ok snapshot) } := by
  cases computed : p.compute time with
  | error fault =>
    exact absurd (by simp [take, computed]) (ok fault)
  | ok snapshot => exact ⟨snapshot, by simp [take, computed]⟩

theorem take_of_compute {time : Number A} {next : Player A → Player A} {snapshot : Snapshot A}
    (computed : p.compute time = .ok snapshot) : (p.take time next).Evaluated := by
  intro fault
  simp [take, computed]

theorem cancelFrame_frame (p : Player A) :
    ∃ frame queue, p.cancelFrame = { p with frame := frame, queue := queue } := by
  unfold cancelFrame
  split
  · exact ⟨_, _, rfl⟩
  · exact ⟨_, _, rfl⟩

theorem tick_resting (resting : p.disposed = true ∨ p.mode ≠ .playing) :
    p.tick = { player := { p with frame := none } } := by
  have skip : (p.disposed || decide (p.mode ≠ .playing)) = true := by simpa using resting
  simp only [tick, skip, ↓reduceIte]

theorem tick_playing (live : p.disposed = false) (playing : p.mode = .playing)
    (ok : p.tick.Evaluated) :
    ∃ snapshot last, p.tick.player = requestFrame
      { p with position := p.elapsed, snapshot := snapshot, lastBroadcast := last } := by
  have go : (p.disposed || decide (p.mode ≠ .playing)) = false := by simp [live, playing]
  simp only [tick, go, Bool.false_eq_true, ↓reduceIte] at ok ⊢
  split
  · rename_i due
    rw [if_pos due] at ok
    obtain ⟨snapshot, taken⟩ := take_evaluated ok
    rw [taken]
    exact ⟨snapshot, p.clock, rfl⟩
  · exact ⟨p.snapshot, p.lastBroadcast, rfl⟩

theorem tick_evaluated {snapshot : Snapshot A} (computed : p.compute p.elapsed = .ok snapshot) :
    p.tick.Evaluated := by
  intro fault
  let q : Player A := { p with frame := none, position := p.elapsed }
  have there : q.compute q.position = .ok snapshot := computed
  simp only [tick]
  split
  · simp
  · split
    · exact take_of_compute there fault
    · simp

theorem started_fields (p : Player A) : p.started.mode = .playing ∧ p.started.clock = p.clock ∧
    p.started.disposed = p.disposed ∧ p.started.quality = p.quality ∧
    p.started.queue = p.queue ∧ p.started.lastBroadcast = .infinite true := by
  unfold started
  dsimp only
  split <;> exact ⟨rfl, rfl, rfl, rfl, rfl, rfl⟩

theorem tick_succeeds (ok : p.tick.Evaluated) : p.tick.result = .ok .done := by
  simp only [tick] at ok ⊢
  split
  · rfl
  · rename_i go
    rw [if_neg go] at ok
    split
    · rename_i due
      rw [if_pos due] at ok
      obtain ⟨snapshot, taken⟩ := take_evaluated ok
      rw [taken]
    · rfl

theorem play_resting (live : p.disposed = false) (resting : p.mode ≠ .playing) :
    p.play = p.started.tick := by
  simp [play, live, resting]

theorem stop_live (live : p.disposed = false) (ok : p.stop.Evaluated) :
    ∃ snapshot, p.stop.player = { p.halted with snapshot := snapshot } := by
  simp only [stop, live, Bool.false_eq_true, ↓reduceIte] at ok ⊢
  obtain ⟨snapshot, taken⟩ := take_evaluated ok
  exact ⟨snapshot, by rw [taken]; rfl⟩

theorem stop_evaluated {snapshot : Snapshot A} (computed : p.compute 0 = .ok snapshot) :
    p.stop.Evaluated := by
  intro fault
  unfold stop
  split
  · simp [refused]
  · have halted : p.halted.compute 0 = p.compute 0 := by
      obtain ⟨frame, queue, same⟩ := p.cancelFrame_frame
      unfold Player.halted
      rw [same]
      rfl
    exact take_of_compute (halted.trans computed) fault

theorem seek_evaluated {time : Number A} {snapshot : Snapshot A}
    (computed : p.compute time = .ok snapshot) : (p.seek time).Evaluated := by
  intro fault
  unfold seek
  split
  · simp [refused]
  · have moved : (p.moved time).compute time = p.compute time := by
      unfold moved
      dsimp only
      split <;> rfl
    exact take_of_compute (moved.trans computed) fault

theorem seek_live {time : Number A} (live : p.disposed = false) (ok : (p.seek time).Evaluated) :
    ∃ snapshot, (p.seek time).player = { p.moved time with snapshot := snapshot } := by
  simp only [seek, live, Bool.false_eq_true, ↓reduceIte] at ok ⊢
  obtain ⟨snapshot, taken⟩ := take_evaluated ok
  exact ⟨snapshot, by rw [taken]; rfl⟩

theorem take_staying (time : Number A) (next : Player A → Player A) :
    (p.take time next).closing = false := by
  unfold take
  split <;> rfl

theorem tick_staying (p : Player A) : p.tick.closing = false := by
  simp only [tick]
  split
  · rfl
  · split
    · exact take_staying _ _
    · rfl

theorem Transition.staying (transition : p.Transition command turn) (other : command ≠ .dispose) :
    turn.closing = false := by
  cases transition with
  | dispose live => exact absurd rfl other
  | play live rested => exact tick_staying _
  | stop live => exact take_staying _ _
  | seek read live => exact take_staying _ _
  | _ => rfl

/-- The other player differs at most in how it moves. -/
def MovesTo (p q : Player A) : Prop :=
  ∃ mode anchor position last frame queue, q =
    { p with
      mode := mode, anchor := anchor, position := position, lastBroadcast := last
      frame := frame, queue := queue }

theorem MovesTo.refl (p : Player A) : p.MovesTo p := ⟨_, _, _, _, _, _, rfl⟩

theorem MovesTo.trans (first : p.MovesTo q) (second : q.MovesTo r) : p.MovesTo r := by
  obtain ⟨_, _, _, _, _, _, rfl⟩ := first
  obtain ⟨_, _, _, _, _, _, rfl⟩ := second
  exact ⟨_, _, _, _, _, _, rfl⟩

theorem cancelFrame_moves (p : Player A) : p.MovesTo p.cancelFrame := by
  unfold cancelFrame
  split <;> exact ⟨_, _, _, _, _, _, rfl⟩

theorem requestFrame_moves (p : Player A) : p.MovesTo p.requestFrame := ⟨_, _, _, _, _, _, rfl⟩

theorem halted_moves (p : Player A) : p.MovesTo p.halted :=
  p.cancelFrame_moves.trans ⟨_, _, _, _, _, _, rfl⟩

theorem moved_moves (p : Player A) (time : Number A) : p.MovesTo (p.moved time) := by
  simp only [moved]
  split <;> exact ⟨_, _, _, _, _, _, rfl⟩

theorem started_moves (p : Player A) : p.MovesTo p.started := by
  simp only [started]
  split <;> exact ⟨_, _, _, _, _, _, rfl⟩

theorem paused_moves (p : Player A) : p.MovesTo p.paused := by
  have shown : p.MovesTo { p with position := p.elapsed } := ⟨_, _, _, _, _, _, rfl⟩
  exact (shown.trans (cancelFrame_moves _)).trans ⟨_, _, _, _, _, _, rfl⟩

theorem paced_anchor (p : Player A) (rate : Number A) :
    ∃ anchor, p.paced rate = { p with rate := rate, anchor := anchor } := by
  unfold paced
  split <;> exact ⟨_, rfl⟩

/-- The other player differs at most in how it moves and in the snapshot it holds. -/
def GoesOnTo (p q : Player A) : Prop :=
  ∃ mode anchor position last frame queue snapshot, q =
    { p with
      mode := mode, anchor := anchor, position := position, lastBroadcast := last
      frame := frame, queue := queue, snapshot := snapshot }

theorem MovesTo.goesOn (moves : p.MovesTo q) : p.GoesOnTo q := by
  obtain ⟨_, _, _, _, _, _, rfl⟩ := moves
  exact ⟨_, _, _, _, _, _, _, rfl⟩

theorem GoesOnTo.trans (first : p.GoesOnTo q) (second : q.GoesOnTo r) : p.GoesOnTo r := by
  obtain ⟨_, _, _, _, _, _, _, rfl⟩ := first
  obtain ⟨_, _, _, _, _, _, _, rfl⟩ := second
  exact ⟨_, _, _, _, _, _, _, rfl⟩

theorem take_goesOn (p : Player A) (time : Number A) {next : Player A → Player A}
    (further : ∀ r : Player A, r.MovesTo (next r)) : p.GoesOnTo (p.take time next).player := by
  unfold take
  split
  · exact (MovesTo.refl p).goesOn
  · rename_i snapshot _
    have held : p.GoesOnTo { p with snapshot := snapshot } := ⟨_, _, _, _, _, _, _, rfl⟩
    exact held.trans (further _).goesOn

theorem tick_goesOn (p : Player A) : p.GoesOnTo p.tick.player := by
  simp only [tick]
  split
  · exact ⟨_, _, _, _, _, _, _, rfl⟩
  · have shown : p.GoesOnTo { p with frame := none, position := p.elapsed } :=
      ⟨_, _, _, _, _, _, _, rfl⟩
    split
    · exact shown.trans (take_goesOn _ _ fun r => ⟨_, _, _, _, _, _, rfl⟩)
    · exact shown.trans (requestFrame_moves _).goesOn

/-- What becomes of the player itself before the listeners are told of a command. -/
inductive Change (p : Player A) : Command A → Player A → Prop where
  | played {command : Command A} {q : Player A} (goesOn : p.GoesOnTo q) : Change p command q
  | paced {value : Value A} (rate : Number A) (anchor : Option (Number A)) :
      Change p (.setRate value) { p with rate := leastRate.larger rate, anchor := anchor }
  | adjusted {value : Value A} (quality : Quality) :
      Change p (.setQuality value) { p with quality := quality.preset }
  | restaged {animations : List (Animation A)} {elements : Elements A} {chains : List (Chain A)}
      {data : List (Animation A) × Elements A} (duration : Number A)
      (measures : ∀ length, Schedule.timelineDuration (data.1.map (·.schedule)) = .ok length →
        duration = length) :
      Change p (.setData animations elements chains)
        { p with animations := data.1, elements := data.2, duration := duration }
  | joined {name : String} {reaction : Nat → Reaction A} (live : p.disposed = false) :
      Change p (.subscribe name reaction) (p.joined name reaction)
  | left {name : String} (key : Nat) :
      Change p (.unsubscribe name) { p with listeners := Keyed.erase key p.listeners }

theorem Transition.change (transition : p.Transition command turn) :
    p.Change command turn.player := by
  have still : p.Change command p := .played (MovesTo.refl p).goesOn
  have taken {r : Player A} (moves : p.MovesTo r) (time : Number A) :
      p.Change command (r.take time id).player :=
    .played (moves.goesOn.trans (take_goesOn r time .refl))
  cases transition with
  | mistaken faulty => exact still
  | late disposed stays => exact still
  | unknown unknown => exact still
  | idle idles => exact still
  | play live rested => exact .played (p.started_moves.goesOn.trans (tick_goesOn _))
  | pause live playing => exact .played p.paused_moves.goesOn
  | stop live => exact taken p.halted_moves 0
  | dispose live => exact taken p.halted_moves 0
  | seek read live => exact taken (p.moved_moves _) _
  | setRate read live =>
    obtain ⟨anchor, same⟩ := p.paced_anchor _
    exact same ▸ .paced _ anchor
  | setQuality named live => exact .adjusted _
  | setData prepared live measured =>
    exact .restaged _ fun length same => Except.ok.inj (measured.symm.trans same)
  | unmeasured prepared live unmeasured =>
    exact .restaged p.duration fun length same => nomatch unmeasured.symm.trans same
  | subscribe live => exact .joined live
  | unsubscribe known => exact .left _

end Player
end DeclarativeAnimation
