import DeclarativeAnimation.Proofs.Number.Exact
import DeclarativeAnimation.Proofs.Playback.Session
import DeclarativeAnimation.Proofs.Playback.Turn
import DeclarativeAnimation.Proofs.Timing.Timeline
import Mathlib.Tactic.Ring

/-! The clock of a player, as its user knows it: a mode, a position that moves at a rate while
    playing, and the position that was reported last.  A player keeps such a clock through its
    anchor, in exact arithmetic and as long as its animations can be evaluated. -/
namespace DeclarativeAnimation

structure PlaybackClock where
  mode : Mode := .stopped
  position : Rat := 0
  rate : Rat := 1
  /-- The position at the latest report. -/
  reported : Rat := 0
  /-- The length of the timeline. -/
  duration : Rat := 0
  deriving DecidableEq, Repr

namespace PlaybackClock

def reporting (c : PlaybackClock) : PlaybackClock := { c with reported := c.position }

theorem reporting_of_reported {c : PlaybackClock} (done : c.position = c.reported) :
    c.reporting = c := by
  cases c
  cases done
  rfl

def startPosition (c : PlaybackClock) : Rat :=
  if 0 < c.duration ∧ c.duration - 1 / 20 ≤ c.position then 0 else c.position

def withData (c : PlaybackClock) (animations : List (Animation .exact))
    (elements : Elements .exact) (chains : List (Chain .exact)) : PlaybackClock :=
  match Player.prepared animations elements chains with
  | .error _ => c
  | .ok (animations, _) =>
    match Schedule.timelineDuration (animations.map (·.schedule)) with
    | .error _ => c
    | .ok duration => { c with duration := duration.rat }

def stepped (c : PlaybackClock) : Step .exact → PlaybackClock
  | .advance time =>
    if c.mode = .playing then { c with position := c.position + c.rate * time.rat } else c
  | .frame => c.reporting
  | .command .play =>
    if c.mode = .playing then c
    else reporting { c with mode := .playing, position := c.startPosition }
  | .command .pause =>
    reporting { c with mode := if c.mode = .playing then .paused else c.mode }
  | .command .stop => reporting { c with mode := .stopped, position := 0 }
  | .command (.seek time) =>
    match time.toNumber with
    | .ok t => reporting { c with position := t.rat }
    | .error _ => c
  | .command (.setRate rate) =>
    match rate.toNumber with
    | .ok r => { c with rate := max (1 / 10) r.rat }
    | .error _ => c
  | .command (.setData animations elements chains) => c.withData animations elements chains
  | .command _ => c

def after (c : PlaybackClock) (steps : List (Step .exact)) : PlaybackClock :=
  steps.foldl stepped c

end PlaybackClock

def Evaluable (resolver : MotionResolver .exact) (animations : List (Animation .exact))
    (elements : Elements .exact) : Prop :=
  ∀ time : Number .exact, time.isFinite → ∃ states,
    allStates animations elements resolver time = .ok states

/-- Numbers are finite, listeners give no commands, data can be evaluated, and the player is not
    disposed of. -/
def Step.Regular (resolver : MotionResolver .exact) : Step .exact → Prop
  | .advance time => time.isFinite
  | .frame => True
  | .command (.seek value) | .command (.setRate value) =>
    ∀ x, value.toNumber = .ok x → x.isFinite
  | .command (.setData animations elements chains) =>
    ∀ data, Player.prepared animations elements chains = .ok data →
      Evaluable resolver data.1 data.2
  | .command (.subscribe _ reaction) => ∀ number, (reaction number).Quiet
  | .command .dispose => False
  | .command _ => True

namespace Player
variable {resolver : MotionResolver .exact} {p q : Player .exact} {c : PlaybackClock}

def shown (p : Player .exact) : Number .exact := if p.mode = .playing then p.elapsed else p.position

structure Shows (p : Player .exact) (c : PlaybackClock) : Prop where
  mode : p.mode = c.mode
  rate : p.rate.Denotes c.rate
  position : p.shown.Denotes c.position
  reported : p.position.Denotes c.reported

/-- The player and its clock agree, through the anchor while playing. -/
structure Keeps (resolver : MotionResolver .exact) (p : Player .exact) (c : PlaybackClock) :
    Prop where
  live : p.disposed = false
  quiet : p.Quiet
  resolver_eq : p.resolver = resolver
  evaluable : Evaluable resolver p.animations p.elements
  mode : p.mode = c.mode
  clock : p.clock.isFinite
  rate : p.rate.Denotes c.rate
  rate_pos : 0 < c.rate
  duration : p.duration.Denotes c.duration
  reported : p.position.Denotes c.reported
  resting : c.mode ≠ .playing → c.position = c.reported
  anchored : c.mode = .playing → ∃ anchor : Number .exact, p.anchor = some anchor ∧
    anchor.isFinite ∧ (p.clock.rat - anchor.rat) * c.rate = c.position

def Waiting (p : Player .exact) : Prop := p.mode = .playing → p.queue.pending ≠ []

theorem Keeps.heard (k : Keeps resolver p c) (h : p.Heard q) : Keeps resolver q c := by
  obtain ⟨deliveries, log, rfl⟩ := h
  exact { k with }

theorem Waiting.heard (w : p.Waiting) (h : p.Heard q) : q.Waiting := by
  obtain ⟨deliveries, log, rfl⟩ := h
  exact w

theorem Keeps.elapsed (k : Keeps resolver p c) (playing : c.mode = .playing) :
    p.elapsed.Denotes c.position := by
  obtain ⟨anchor, stored, finite, shows⟩ := k.anchored playing
  have distance := (Number.Denotes.of_isFinite k.clock).sub (.of_isFinite finite)
  rw [← shows]
  unfold Player.elapsed
  rw [stored]
  exact distance.mul k.rate

theorem Keeps.compute (k : Keeps resolver p c) {time : Number .exact} (finite : time.isFinite) :
    ∃ snapshot, p.compute time = .ok snapshot := by
  obtain ⟨states, found⟩ := k.evaluable time finite
  exact ⟨⟨time, states⟩, by unfold Player.compute; rw [k.resolver_eq, found]; rfl⟩

theorem Keeps.shows (k : Keeps resolver p c) : p.Shows c := by
  refine ⟨k.mode, k.rate, ?_, k.reported⟩
  unfold shown
  split
  · rename_i playing
    exact k.elapsed (k.mode ▸ playing)
  · rename_i resting
    rw [k.resting (k.mode ▸ resting)]
    exact k.reported

theorem anchor_shows {clock rate position : Number .exact} {r x : Rat} (finite : clock.isFinite)
    (rate_is : rate.Denotes r) (positive : 0 < r) (position_is : position.Denotes x) :
    (clock - position / rate).isFinite ∧
      (clock.rat - (clock - position / rate).rat) * r = x := by
  have quotient := position_is.div rate_is (ne_of_gt positive)
  have difference := (Number.Denotes.of_isFinite finite).sub quotient
  refine ⟨difference.1, ?_⟩
  rw [difference.2, sub_sub_cancel]
  exact div_mul_cancel₀ x (ne_of_gt positive)

theorem Keeps.tick (k : Keeps resolver p c) (playing : c.mode = .playing) :
    Keeps resolver p.tick.player c.reporting ∧ p.tick.player.Waiting := by
  have shown := k.elapsed playing
  obtain ⟨_, computed⟩ := k.compute shown.1
  obtain ⟨snapshot, last, ticked⟩ :=
    tick_playing k.live (k.mode.trans playing) (tick_evaluated computed)
  rw [ticked]
  refine ⟨{ k with reported := shown, resting := fun _ => rfl }, fun _ => ?_⟩
  exact List.append_ne_nil_of_right_ne_nil _ (by simp)

theorem Keeps.startedAt (k : Keeps resolver p c) {start : Number .exact} {x : Rat}
    (here : start.Denotes x) :
    Keeps resolver
      { ({ p with position := start } : Player .exact).reanchored start with
        lastBroadcast := .infinite true, mode := .playing }
      { c with mode := .playing, position := x, reported := x } := by
  obtain ⟨finite, shows⟩ := anchor_shows k.clock k.rate k.rate_pos here
  exact { k with
    mode := rfl
    reported := here
    resting := fun _ => rfl
    anchored := fun _ => ⟨_, rfl, finite, shows⟩ }

theorem Keeps.ended_iff (k : Keeps resolver p c) (resting : c.mode ≠ .playing) :
    p.ended = true ↔ 0 < c.duration ∧ c.duration - 1 / 20 ≤ c.position := by
  have margin : (restartMargin : Number .exact).Denotes (1 / 20) := ⟨rfl, by decide +kernel⟩
  have reported := k.reported
  rw [← k.resting resting] at reported
  have positive := Number.Denotes.zero.lt_iff k.duration
  have late := (k.duration.sub margin).le_iff reported
  simp [Player.ended, positive, late]

theorem Keeps.started (k : Keeps resolver p c) (resting : c.mode ≠ .playing) :
    Keeps resolver p.started
      { c with mode := .playing, position := c.startPosition, reported := c.startPosition } := by
  have ended := k.ended_iff resting
  unfold Player.started PlaybackClock.startPosition
  by_cases late : p.ended = true
  · rw [if_pos late, if_pos (ended.mp late)]
    exact k.startedAt Number.Denotes.zero
  · rw [if_neg late, if_neg (mt ended.mpr late), k.resting resting]
    exact k.startedAt k.reported

theorem Keeps.play (k : Keeps resolver p c) (w : p.Waiting) :
    Keeps resolver p.play.player (c.stepped (.command .play)) ∧ p.play.player.Waiting := by
  by_cases playing : c.mode = .playing
  · have same : p.play = { player := p } := by simp [Player.play, k.live, k.mode, playing]
    rw [same, PlaybackClock.stepped, if_pos playing]
    exact ⟨k, w⟩
  · have resting : p.mode ≠ .playing := by rwa [k.mode]
    rw [play_resting k.live resting, PlaybackClock.stepped, if_neg playing]
    exact (k.started playing).tick rfl

theorem Keeps.pause (k : Keeps resolver p c) :
    Keeps resolver p.pause.player (c.stepped (.command .pause)) ∧ p.pause.player.Waiting := by
  by_cases playing : c.mode = .playing
  · let here : Player .exact := { p with position := p.elapsed }
    have paused : p.pause.player = { here.cancelFrame with mode := .paused } := by
      simp [Player.pause, k.live, k.mode, playing, here]
    obtain ⟨frame, queue, same⟩ := here.cancelFrame_frame
    rw [paused, same, PlaybackClock.stepped, if_pos playing]
    exact ⟨{ k with
      mode := rfl
      reported := k.elapsed playing
      resting := fun _ => rfl
      anchored := by rintro ⟨⟩ }, by rintro ⟨⟩⟩
  · have same : p.pause = { player := p } := by simp [Player.pause, k.live, k.mode, playing]
    rw [same, PlaybackClock.stepped, if_neg playing]
    refine ⟨{ k with reported := ?_, resting := fun _ => rfl }, ?_⟩
    · rw [PlaybackClock.reporting, k.resting playing]
      exact k.reported
    · intro impossible
      exact absurd (k.mode ▸ impossible) playing

theorem Keeps.stop (k : Keeps resolver p c) :
    Keeps resolver p.stop.player (c.stepped (.command .stop)) ∧ p.stop.player.Waiting := by
  obtain ⟨_, computed⟩ := k.compute Number.Denotes.zero.1
  obtain ⟨snapshot, stopped⟩ := stop_live k.live (stop_evaluated computed)
  obtain ⟨frame, queue, same⟩ := p.cancelFrame_frame
  rw [stopped, Player.halted, same]
  exact ⟨{ k with
    mode := rfl
    reported := Number.Denotes.zero
    resting := fun _ => rfl
    anchored := by rintro ⟨⟩ }, by rintro ⟨⟩⟩

theorem Keeps.seek (k : Keeps resolver p c) (w : p.Waiting) {time : Number .exact}
    (finite : time.isFinite) :
    Keeps resolver (p.seek time).player
        ({ c with position := time.rat } : PlaybackClock).reporting ∧
      (p.seek time).player.Waiting := by
  obtain ⟨_, computed⟩ := k.compute finite
  obtain ⟨snapshot, sought⟩ := seek_live k.live (seek_evaluated computed)
  have here := Number.Denotes.of_isFinite finite
  rw [sought]
  by_cases playing : c.mode = .playing
  · have moved : p.moved time = { ({ p with position := time } : Player .exact).reanchored time with
        lastBroadcast := p.clock } := by
      simp [Player.moved, k.mode, playing, Player.reanchored]
    obtain ⟨still, shows⟩ := anchor_shows k.clock k.rate k.rate_pos here
    rw [moved]
    exact ⟨{ k with
      reported := here
      resting := fun _ => rfl
      anchored := fun _ => ⟨_, rfl, still, shows⟩ }, w⟩
  · have moved : p.moved time = { p with position := time } := by
      simp [Player.moved, k.mode, playing]
    rw [moved]
    exact ⟨{ k with
      reported := here
      resting := fun _ => rfl
      anchored := fun impossible => absurd impossible playing }, w⟩

theorem Keeps.setRate (k : Keeps resolver p c) (w : p.Waiting) {rate : Number .exact}
    (finite : rate.isFinite) :
    Keeps resolver (p.setRate rate).player
        { c with rate := max (1 / 10) rate.rat } ∧
      (p.setRate rate).player.Waiting := by
  have least : (leastRate : Number .exact).Denotes (1 / 10) := ⟨rfl, by decide +kernel⟩
  have limited := least.larger (.of_isFinite finite)
  have positive : 0 < max (1 / 10) rate.rat := lt_max_of_lt_left (by norm_num)
  have set : (p.setRate rate).player = p.paced (leastRate.larger rate) := by
    simp [Player.setRate, k.live]
  rw [set]
  by_cases playing : c.mode = .playing
  · have shown := k.elapsed playing
    obtain ⟨still, shows⟩ := anchor_shows k.clock limited positive shown
    have paced : p.paced (leastRate.larger rate) =
        ({ p with rate := leastRate.larger rate } : Player .exact).reanchored p.elapsed := by
      simp [Player.paced, k.mode, playing]
    rw [paced]
    exact ⟨{ k with
      rate := limited
      rate_pos := positive
      anchored := fun _ => ⟨_, rfl, still, shows⟩ }, w⟩
  · have paced : p.paced (leastRate.larger rate) = { p with rate := leastRate.larger rate } := by
      simp [Player.paced, k.mode, playing]
    rw [paced]
    exact ⟨{ k with
      rate := limited
      rate_pos := positive
      anchored := fun impossible => absurd impossible playing }, w⟩

theorem Keeps.setData (k : Keeps resolver p c) (w : p.Waiting)
    {animations : List (Animation .exact)} {elements : Elements .exact}
    {chains : List (Chain .exact)}
    (evaluable : ∀ data, prepared animations elements chains = .ok data →
      Evaluable resolver data.1 data.2) :
    Keeps resolver (p.setData animations elements chains).player
        (c.withData animations elements chains) ∧
      (p.setData animations elements chains).player.Waiting := by
  unfold Player.setData PlaybackClock.withData
  cases ready : prepared animations elements chains with
  | error fault => exact ⟨k, w⟩
  | ok data =>
    have replaced := evaluable data ready
    have isOpen : ¬ p.disposed = true := by simp [k.live]
    dsimp only
    rw [if_neg isOpen]
    cases length : Schedule.timelineDuration (data.1.map (·.schedule)) with
    | error fault => exact ⟨{ k with evaluable := replaced }, w⟩
    | ok duration =>
      have finite := Schedule.timelineDuration_isFinite length
      exact ⟨{ k with evaluable := replaced, duration := .of_isFinite finite }, w⟩

theorem Keeps.turn (k : Keeps resolver p c) (w : p.Waiting) {command : Command .exact}
    (regular : (Step.command command).Regular resolver) :
    Keeps resolver (p.turn command).player (c.stepped (.command command)) ∧
      (p.turn command).player.Waiting := by
  have isOpen : ¬ p.disposed = true := by simp [k.live]
  cases command with
  | play => exact k.play w
  | pause => exact k.pause
  | stop => exact k.stop
  | dispose => exact regular.elim
  | seek time =>
    simp only [Player.turn, PlaybackClock.stepped]
    cases read : time.toNumber with
    | error fault => exact ⟨k, w⟩
    | ok t => exact k.seek w (regular t read)
  | setRate rate =>
    simp only [Player.turn, PlaybackClock.stepped]
    cases read : rate.toNumber with
    | error fault => exact ⟨k, w⟩
    | ok r => exact k.setRate w (regular r read)
  | setQuality mode =>
    simp only [Player.turn, PlaybackClock.stepped]
    cases Quality.ofValue mode with
    | error fault => exact ⟨k, w⟩
    | ok quality =>
      dsimp only [Player.setQuality]
      rw [if_neg isOpen]
      exact ⟨{ k with }, w⟩
  | setData animations elements chains => exact k.setData w regular
  | subscribe name reaction =>
    simp only [Player.turn, PlaybackClock.stepped, Player.subscribe]
    rw [if_neg isOpen]
    refine ⟨{ k with quiet := ?_ }, w⟩
    intro entry member
    rcases List.mem_append.mp member with old | new
    · exact k.quiet entry old
    · rw [List.mem_singleton.mp new]
      exact regular
  | unsubscribe name =>
    simp only [Player.turn, PlaybackClock.stepped, Player.unsubscribe]
    cases Keyed.get? name p.keys with
    | none => exact ⟨k, w⟩
    | some key =>
      exact ⟨{ k with quiet := fun entry member => k.quiet entry (List.mem_filter.mp member).1 }, w⟩

theorem Keeps.run (k : Keeps resolver p c) (w : p.Waiting) {command : Command .exact}
    (regular : (Step.command command).Regular resolver) :
    Keeps resolver (p.run command).2 (c.stepped (.command command)) ∧
      (p.run command).2.Waiting := by
  have staying : command ≠ .dispose := by
    rintro rfl
    exact regular
  obtain ⟨kept, waiting⟩ := k.turn w regular
  have heard := finish_quiet mostNested _ kept.quiet ((p.turn_transition command).staying staying)
  exact ⟨kept.heard heard, waiting.heard heard⟩

theorem Keeps.callFrame (k : Keeps resolver p c) :
    (callFrame (notify mostNested) p).1 = .ok () ∧
      Keeps resolver (callFrame (notify mostNested) p).2 c.reporting ∧
      (callFrame (notify mostNested) p).2.Waiting := by
  have ticked : p.tick.result = .ok .done ∧ Keeps resolver p.tick.player c.reporting ∧
      p.tick.player.Waiting := by
    by_cases playing : c.mode = .playing
    · obtain ⟨_, computed⟩ := k.compute (k.elapsed playing).1
      exact ⟨tick_succeeds (tick_evaluated computed), k.tick playing⟩
    · rw [tick_resting (Or.inr (k.mode ▸ playing))]
      have reported : p.position.Denotes c.position := by
        rw [k.resting playing]
        exact k.reported
      exact ⟨rfl, { k with reported := reported, resting := fun _ => rfl },
        fun impossible => absurd (k.mode ▸ impossible) playing⟩
  obtain ⟨succeeded, kept, waiting⟩ := ticked
  have heard := finish_quiet mostNested _ kept.quiet (tick_staying p)
  refine ⟨?_, kept.heard heard, waiting.heard heard⟩
  simp [Player.callFrame, Turn.finish, succeeded, Except.map]

/-- The frames of one run report one position; without a frame it has to be reported already. -/
theorem Keeps.callEach (frames : List (Nat × Unit)) (k : Keeps resolver p c)
    (due : frames ≠ [] ∨ p.Waiting ∧ c.position = c.reported) :
    Keeps resolver (FrameQueue.callEach (fun _ => Player.callFrame (notify mostNested)) frames p).2
        c.reporting ∧
      (FrameQueue.callEach (fun _ => Player.callFrame (notify mostNested)) frames p).2.Waiting := by
  induction frames generalizing p c with
  | nil =>
    obtain ⟨waiting, done⟩ := due.resolve_left (by simp)
    rw [PlaybackClock.reporting_of_reported done]
    exact ⟨k, waiting⟩
  | cons frame rest ih =>
    obtain ⟨succeeded, kept, waiting⟩ := k.callFrame
    -- For the frames that follow the position has been reported by this one.
    have later := ih kept (Or.inr ⟨waiting, rfl⟩)
    simp only [FrameQueue.callEach]
    rcases called : Player.callFrame (notify mostNested) p with ⟨result, q⟩
    rw [called] at succeeded later
    subst succeeded
    exact later

theorem Keeps.runFrame (k : Keeps resolver p c) (w : p.Waiting) :
    Keeps resolver p.runFrame.2 c.reporting ∧ p.runFrame.2.Waiting := by
  have emptied : Keeps resolver { p with queue := p.queue.takeAll.2 } c := { k with }
  refine emptied.callEach p.queue.pending ?_
  by_cases playing : c.mode = .playing
  · exact Or.inl (w (k.mode.trans playing))
  · exact Or.inr ⟨fun impossible => absurd (k.mode ▸ impossible) playing, k.resting playing⟩

theorem Keeps.advance (k : Keeps resolver p c) {time : Number .exact} (finite : time.isFinite) :
    Keeps resolver (p.advance time) (c.stepped (.advance time)) := by
  have clock := (Number.Denotes.of_isFinite k.clock).add (.of_isFinite finite)
  by_cases playing : c.mode = .playing
  · obtain ⟨anchor, stored, still, shows⟩ := k.anchored playing
    rw [PlaybackClock.stepped, if_pos playing]
    refine { k with
      clock := clock.1
      resting := fun impossible => absurd playing impossible
      anchored := fun _ => ⟨anchor, stored, still, ?_⟩ }
    show ((p.clock + time).rat - anchor.rat) * c.rate = c.position + c.rate * time.rat
    rw [clock.2, ← shows]
    ring
  · rw [PlaybackClock.stepped, if_neg playing]
    exact { k with
      clock := clock.1
      anchored := fun impossible => absurd impossible playing }

theorem Keeps.stepped (k : Keeps resolver p c) (w : p.Waiting) {step : Step .exact}
    (regular : step.Regular resolver) :
    Keeps resolver (p.stepped step) (c.stepped step) ∧ (p.stepped step).Waiting := by
  cases step with
  | command command => exact k.run w regular
  | advance time => exact ⟨k.advance regular, w⟩
  | frame => exact k.runFrame w

theorem Keeps.after (k : Keeps resolver p c) (w : p.Waiting) {steps : List (Step .exact)}
    (regular : ∀ step ∈ steps, step.Regular resolver) :
    Keeps resolver (p.after steps) (c.after steps) := by
  induction steps generalizing p c with
  | nil => exact k
  | cons step rest ih =>
    obtain ⟨kept, waiting⟩ := k.stepped w (regular step (by simp))
    exact ih kept waiting fun other member => regular other (by simp [member])

theorem new_keeps {quality : Value .exact} {resolver : MotionResolver .exact}
    {clock : Number .exact} {cancels : Bool} (finite : clock.isFinite)
    (made : new quality resolver clock cancels = .ok p) : Keeps resolver p {} ∧ p.Waiting := by
  unfold Player.new at made
  cases mode : Quality.ofValue quality with
  | error fault => rw [mode] at made; cases made
  | ok mode' =>
    rw [mode] at made
    cases made
    exact ⟨{
      live := rfl
      quiet := by simp [Player.Quiet]
      resolver_eq := rfl
      evaluable := fun time _ => ⟨[], rfl⟩
      mode := rfl
      clock := finite
      rate := ⟨rfl, rfl⟩
      rate_pos := by norm_num
      duration := Number.Denotes.zero
      reported := Number.Denotes.zero
      resting := fun _ => rfl
      anchored := by rintro ⟨⟩ }, by rintro ⟨⟩⟩

/-- A player is its clock: every session leaves the mode, the rate, the position it moves
    through and the position it reports as the clock has them after the same session. -/
theorem session_follows_clock {quality : Value .exact} {resolver : MotionResolver .exact}
    {clock : Number .exact} {cancels : Bool} (finite : clock.isFinite)
    (made : new quality resolver clock cancels = .ok p) (steps : List (Step .exact))
    (regular : ∀ step ∈ steps, step.Regular resolver) :
    (p.after steps).Shows (PlaybackClock.after {} steps) := by
  obtain ⟨kept, waiting⟩ := new_keeps finite made
  exact (kept.after waiting regular).shows

/-- A second `play` is not a report: the position has moved on since. -/
theorem second_play_reports_nothing :
    new (.text "preview") originPlacement (.finite 100) true = .ok fresh ∧
    (fresh.after [.command .play, .advance 1, .command .play]).position = .finite 0 ∧
    (fresh.after [.command .play, .advance 1, .command .play]).shown = .finite 1 ∧
    (PlaybackClock.after {} [.command .play, .advance 1, .command .play]).position = 1 :=
  ⟨rfl, by decide +kernel, by decide +kernel, by decide +kernel⟩

def curtain : Animation .exact :=
  { id := .text "curtain", target := .text "box", subject := .set (.text "visibility")
    schedule := { dur := .text "2s" }, track := { goal := .text "hidden" } }

theorem curtain_active (time : Number .exact) :
    ∃ active, curtain.isSetActive time = .ok active := by
  have begin : curtain.schedule.beginSeconds = .ok (.finite 0) := by decide +kernel
  have stop : curtain.setStop (.finite 0) = .ok (.finite 2) := by decide +kernel
  unfold Animation.isSetActive
  rw [begin]
  simp only [bind, Except.bind, stop, pure, Except.pure]
  exact ⟨_, rfl⟩

theorem curtain_evaluate (time : Number .exact) :
    ∃ written, curtain.evaluate none originPlacement time = .ok written ∧
      (written = [] ∨ written = [.attribute (.text "visibility") (.text "hidden")]) := by
  obtain ⟨active, known⟩ := curtain_active time
  have unfolded : curtain.evaluate none originPlacement time = (do
      if ← curtain.isSetActive time then curtain.track.setContributions (.text "visibility")
      else return []) := rfl
  rw [unfolded, known]
  cases active with
  | false => exact ⟨_, rfl, Or.inl rfl⟩
  | true => exact ⟨_, rfl, Or.inr rfl⟩

theorem curtain_evaluable : Evaluable originPlacement [curtain] .all := by
  intro time _
  have grouped : groupedBy [curtain] = .ok [(.text "box", [curtain])] := by rfl
  have mine : [curtain].filter (fun a => a.target == .text "box") = [curtain] := by rfl
  have table : (Elements.all : Elements .exact).table? = .ok none := rfl
  obtain ⟨written, evaluated, shape⟩ := curtain_evaluate time
  unfold allStates
  rw [table, grouped]
  simp only [bind, Except.bind, List.mapM_cons, List.mapM_nil, shownElement,
    ElementState.ofAnimations, mine, List.foldlM_cons, List.foldlM_nil, evaluated, pure,
    Except.pure, ElementState.applyAll]
  rcases shape with rfl | rfl
  · exact ⟨_, rfl⟩
  · exact ⟨_, rfl⟩

def curtainSession : List (Step .exact) :=
  [.command (.setData [curtain] .all []), .command (.subscribe "panel" fun _ => .done),
    .command .play, .advance 1, .frame, .command (.setRate (.number 3)), .advance 1,
    .command .pause, .advance 1]

theorem curtain_session_follows_clock :
    new (.text "preview") originPlacement (.finite 100) true = .ok fresh ∧
    (fresh.after curtainSession).Shows ⟨.paused, 4, 3, 4, 2⟩ := by
  have regular : ∀ step ∈ curtainSession, step.Regular originPlacement := by
    simp only [curtainSession, List.forall_mem_cons, List.not_mem_nil, false_implies,
      implies_true, and_true]
    refine ⟨?_, ?_, ?_, ?_, ?_, ?_, ?_, ?_, ?_⟩
    · rintro data ⟨⟩
      exact curtain_evaluable
    · intro number
      trivial
    · trivial
    · rfl
    · trivial
    · rintro x ⟨⟩
      rfl
    · rfl
    · trivial
    · rfl
  have ticked : PlaybackClock.after {} curtainSession = ⟨.paused, 4, 3, 4, 2⟩ := by
    decide +kernel
  have made : new (.text "preview") originPlacement (.finite 100) true = .ok fresh := rfl
  refine ⟨made, ?_⟩
  rw [← ticked]
  exact session_follows_clock rfl made curtainSession regular

end Player
end DeclarativeAnimation
