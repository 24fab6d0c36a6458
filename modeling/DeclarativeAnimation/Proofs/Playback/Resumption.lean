import DeclarativeAnimation.Proofs.Playback.Clock
import DeclarativeAnimation.Proofs.Playback.Reach

/-! Playing after a pause.  Whatever has happened before, a play goes on from the position at which
    the player was paused, unless the last of those animations that have an end is over by then,
    up to a margin: then it starts over, and animations without an end do not keep it from that. -/
namespace DeclarativeAnimation
variable {A : Arithmetic}

/-- Nothing that has an end goes on for longer, and something ends then. -/
structure LastEnd (animations : List (Animation A)) (last : Number A) : Prop where
  ends : ∃ a ∈ animations, a.schedule.endSeconds = .ok last
  finite : last.isFinite
  latest : ∀ a ∈ animations, ∀ stop, a.schedule.endSeconds = .ok stop → stop.isFinite → stop ≤ last

/-- At a position everything that has an end is over, up to the margin of a restart. -/
def Over (animations : List (Animation A)) (position : Number A) : Prop :=
  ∃ last, LastEnd animations last ∧ 0 < last ∧ last - Player.restartMargin ≤ position

theorem Number.eq_finite_of_pos {x : Number A} (finite : x.isFinite) (positive : 0 < x) :
    x = .finite x.rat := by
  cases x with
  | finite value => rfl
  | negativeZero => cases positive
  | infinite negative => cases finite
  | nan => cases finite

theorem LastEnd.unique {animations : List (Animation A)} {x y : Number A} (hx : LastEnd animations x)
    (hy : LastEnd animations y) (px : 0 < x) (py : 0 < y) : x = y := by
  obtain ⟨a, inside, stop⟩ := hx.ends
  obtain ⟨b, inside', stop'⟩ := hy.ends
  have below := (Number.le_iff_rat_le hx.finite hy.finite).mp (hy.latest a inside x stop hx.finite)
  have above := (Number.le_iff_rat_le hy.finite hx.finite).mp (hx.latest b inside' y stop' hy.finite)
  rw [Number.eq_finite_of_pos hx.finite px, Number.eq_finite_of_pos hy.finite py,
    le_antisymm below above]

theorem LastEnd.of_measured {animations : List (Animation A)} {duration : Number A}
    (measured : Schedule.timelineDuration (animations.map (·.schedule)) = .ok duration)
    (positive : 0 < duration) : LastEnd animations duration := by
  have finite := Schedule.timelineDuration_isFinite measured
  refine ⟨?_, finite, ?_⟩
  · rcases Schedule.timelineDuration_ends measured with rfl | ⟨s, listed, stop⟩
    · cases positive
    · obtain ⟨a, inside, rfl⟩ := List.mem_map.mp listed
      exact ⟨a, inside, stop⟩
  · intro a inside stop ends bounded
    have listed := List.mem_map_of_mem (f := (·.schedule)) inside
    rw [Number.le_iff_rat_le bounded finite]
    exact Schedule.le_timelineDuration measured listed ends bounded

theorem LastEnd.pos_of_measured {animations : List (Animation A)} {duration last : Number A}
    (measured : Schedule.timelineDuration (animations.map (·.schedule)) = .ok duration)
    (ends : LastEnd animations last) (positive : 0 < last) : 0 < duration := by
  obtain ⟨a, inside, stop⟩ := ends.ends
  have listed := List.mem_map_of_mem (f := (·.schedule)) inside
  have below := Schedule.le_timelineDuration measured listed stop ends.finite
  have last_pos := (Number.lt_iff_rat_lt rfl ends.finite).mp positive
  have finite := Schedule.timelineDuration_isFinite measured
  exact (Number.lt_iff_rat_lt rfl finite).mpr (lt_of_lt_of_le last_pos below)

namespace Player
variable {p q : Player A}

/-- The player takes its timeline to be over exactly if everything that has an end is. -/
theorem ended_iff_over
    (measured : Schedule.timelineDuration (p.animations.map (·.schedule)) = .ok p.duration) :
    p.ended = true ↔ Over p.animations p.position := by
  simp only [ended, Bool.and_eq_true, decide_eq_true_eq]
  constructor
  · rintro ⟨positive, late⟩
    exact ⟨p.duration, .of_measured measured positive, positive, late⟩
  · rintro ⟨last, ends, positive, late⟩
    have duration := ends.pos_of_measured measured positive
    obtain rfl := ends.unique (.of_measured measured duration) positive duration
    exact ⟨positive, late⟩

structure Score (A : Arithmetic) where
  animations : List (Animation A)
  duration : Number A
  disposed : Bool
  rate : Number A

def score (p : Player A) : Score A := ⟨p.animations, p.duration, p.disposed, p.rate⟩

theorem GoesOnTo.score (goesOn : p.GoesOnTo q) : q.score = p.score := by
  obtain ⟨_, _, _, _, _, _, _, rfl⟩ := goesOn
  rfl

/-- The duration is that of the data, where these can be measured, and the rate is a limited one. -/
structure Timed (p : Player A) : Prop where
  measured : p.disposed = false → ∀ duration,
    Schedule.timelineDuration (p.animations.map (·.schedule)) = .ok duration →
      p.duration = duration
  rate : p.rate = 1 ∨ ∃ r, p.rate = leastRate.larger r

theorem Timed.of_score (timed : p.Timed) (same : q.score = p.score) : q.Timed := by
  simp only [score, Score.mk.injEq] at same
  obtain ⟨animations, duration, disposed, rate⟩ := same
  refine ⟨?_, ?_⟩
  · rw [animations, duration, disposed]
    exact timed.measured
  · rw [rate]
    exact timed.rate

theorem Change.timed {command : Command A} (change : p.Change command q) (timed : p.Timed) :
    q.Timed := by
  cases change with
  | played goesOn => exact timed.of_score goesOn.score
  | paced rate anchor => exact ⟨timed.measured, .inr ⟨rate, rfl⟩⟩
  | restaged duration measures => exact ⟨fun _ => measures, timed.rate⟩
  | _ => exact timed.of_score rfl

theorem timed_steady : Steady (Timed (A := A)) where
  turn command timed := (turn_transition _ command).change.timed timed
  tick timed := timed.of_score (tick_goesOn _).score
  closed timed := ⟨fun live => (nomatch live), timed.rate⟩
  delivered _ _ timed := timed.of_score rfl
  logged _ timed := timed.of_score rfl
  advance _ timed := timed.of_score rfl
  queued _ timed := timed.of_score rfl

theorem new_timed {quality : Value A} {resolver : MotionResolver A} {clock : Number A}
    {cancels : Bool} (made : new quality resolver clock cancels = .ok p) : p.Timed := by
  obtain ⟨_, _, made⟩ := bind_eq_ok made
  cases made
  exact ⟨fun _ duration measured => Except.ok.inj measured, .inl rfl⟩

theorem Timed.rate_pos {p : Player .exact} (timed : p.Timed) (finite : p.rate.isFinite) :
    0 < p.rate.rat := by
  rcases timed.rate with one | ⟨r, limited⟩
  · rw [one]
    exact zero_lt_one
  · have least : (leastRate : Number .exact).Denotes (1 / 10) := ⟨rfl, by decide +kernel⟩
    rw [limited] at finite ⊢
    unfold Number.larger at finite ⊢
    split
    · rename_i above
      rw [if_pos above] at finite
      have bound := (least.lt_iff (.of_isFinite finite)).mp above
      linarith
    · rw [least.2]
      norm_num

def rested (p : Player A) (waits : List (Number A)) : Player A :=
  waits.foldl advance (p.run .pause).2

theorem rested_clock (p : Player A) (waits : List (Number A)) :
    ∃ clock, p.rested waits = { (p.run .pause).2 with clock := clock } := by
  unfold rested
  generalize (p.run .pause).2 = q
  induction waits generalizing q with
  | nil => exact ⟨q.clock, rfl⟩
  | cons time rest ih =>
    obtain ⟨clock, same⟩ := ih (q.advance time)
    exact ⟨clock, same⟩

theorem run_pause (live : p.disposed = false) :
    (p.run .pause).2.mode ≠ .playing ∧ (p.run .pause).2.score = p.score := by
  have paused : (p.run .pause).2 = p.pause.player := by
    simp only [run, perform, turn, pause, live, Bool.false_eq_true, ↓reduceIte]
    split <;> rfl
  have isOpen : ¬ p.disposed = true := by simp [live]
  rw [paused, pause, if_neg isOpen]
  split
  · rename_i rests
    exact ⟨rests, rfl⟩
  · exact ⟨by simp, p.paused_moves.goesOn.score⟩

/-- Playing begins at a position: the anchor is set by it, and the first frame reads it back from
    the anchor and the clock, as the time of its snapshot. -/
structure Begins (p : Player A) (start : Number A) (turn : Turn A) : Prop where
  mode : turn.player.mode = .playing
  anchor : turn.player.anchor = some (p.clock - start / p.rate)
  position : turn.player.position = (p.clock - (p.clock - start / p.rate)) * p.rate
  exactly : A = .exact → p.clock.isFinite → p.rate.isFinite → start.isFinite →
    turn.player.position.Denotes start.rat
  told : ∀ snapshot, turn.evaluation = some (.ok snapshot) →
    snapshot.time = turn.player.position

theorem tick_position (live : p.disposed = false) (playing : p.mode = .playing) :
    p.tick.player.mode = .playing ∧ p.tick.player.anchor = p.anchor ∧
      p.tick.player.position = p.elapsed ∧
      ∀ snapshot, p.tick.evaluation = some (.ok snapshot) → snapshot.time = p.elapsed := by
  have go : (p.disposed || decide (p.mode ≠ .playing)) = false := by simp [live, playing]
  simp only [tick, go, Bool.false_eq_true, ↓reduceIte]
  split
  · unfold take
    split
    · exact ⟨playing, rfl, rfl, by simp⟩
    · rename_i snapshot computed
      refine ⟨playing, rfl, rfl, ?_⟩
      rintro other ⟨⟩
      obtain ⟨states, _, made⟩ := bind_eq_ok computed
      cases made
      rfl
  · exact ⟨playing, rfl, rfl, by simp⟩

theorem Timed.play_begins (timed : p.Timed) (live : p.disposed = false)
    (rests : p.mode ≠ .playing) :
    Begins p (if p.ended then 0 else p.position) (p.turn .play) := by
  have started : p.started.mode = .playing ∧ p.started.disposed = p.disposed ∧
      p.started.anchor = some (p.clock - (if p.ended then 0 else p.position) / p.rate) ∧
      p.started.clock = p.clock ∧ p.started.rate = p.rate := by
    by_cases late : p.ended = true <;> simp [Player.started, late, reanchored]
  obtain ⟨mode, disposed, anchor, clock, rate⟩ := started
  obtain ⟨playing, kept, position, told⟩ := tick_position (disposed.trans live) mode
  have turned : p.turn .play = p.started.tick := play_resting live rests
  have shown : p.started.tick.player.position =
      (p.clock - (p.clock - (if p.ended then 0 else p.position) / p.rate)) * p.rate := by
    rw [position, elapsed, anchor, clock, rate]
    rfl
  rw [turned]
  refine ⟨playing, kept.trans anchor, shown, ?_, fun s taken => (told s taken).trans position.symm⟩
  generalize (if p.ended then 0 else p.position) = start at shown
  rintro rfl still bounded finite
  have positive := timed.rate_pos bounded
  obtain ⟨anchored, same⟩ := anchor_shows still (.of_isFinite bounded) positive (.of_isFinite finite)
  have distance := (Number.Denotes.of_isFinite still).sub (.of_isFinite anchored)
  rw [shown, ← same]
  exact distance.mul (.of_isFinite bounded)

/-- After a pause, and however far the clock moves on meanwhile, playing begins at the paused
    position, unless everything that has an end is over by then: in that case, and in no other,
    it begins at zero. -/
theorem plays_on_in_place {quality : Value A} {resolver : MotionResolver A} {clock : Number A}
    {cancels : Bool} (made : new quality resolver clock cancels = .ok p) (leads : p.Leads q)
    (live : q.disposed = false)
    (measured : ∃ duration,
      Schedule.timelineDuration (q.animations.map (·.schedule)) = .ok duration)
    (waits : List (Number A)) :
    (¬ Over q.animations (q.run .pause).2.position →
      Begins (q.rested waits) (q.run .pause).2.position ((q.rested waits).turn .play)) ∧
    (Over q.animations (q.run .pause).2.position →
      Begins (q.rested waits) 0 ((q.rested waits).turn .play)) := by
  obtain ⟨rests, same⟩ := run_pause live
  obtain ⟨now, waited⟩ := q.rested_clock waits
  have timed : (q.rested waits).Timed := by
    rw [waited]
    exact (timed_steady.leads (new_timed made) leads).of_score same
  simp only [score, Score.mk.injEq] at same
  obtain ⟨animations, duration, disposed, -⟩ := same
  obtain ⟨length, known⟩ := measured
  have kept : (q.rested waits).animations = q.animations ∧ (q.rested waits).disposed = false ∧
      (q.rested waits).mode ≠ .playing ∧
      (q.rested waits).position = (q.run .pause).2.position := by
    rw [waited]
    exact ⟨animations, disposed.trans live, rests, rfl⟩
  obtain ⟨data, isOpen, still, position⟩ := kept
  rw [← data] at known ⊢
  rw [← timed.measured isOpen length known] at known
  have ends := ended_iff_over known
  have begins := timed.play_begins isOpen still
  rw [position] at ends begins
  constructor
  · intro going
    rwa [if_neg (mt ends.mp going)] at begins
  · intro past
    rwa [if_pos (ends.mpr past)] at begins

def fadeAndSpin : List (Animation A) :=
  [{ id := .text "fade", target := .text "lamp", subject := .attribute (.text "opacity")
     schedule := { dur := .text "2s" }, track := { start := .text "0", goal := .text "1" } },
   { id := .text "spin", target := .text "fan", subject := .attribute (.text "angle")
     schedule := { dur := .text "1s", repeatCount := .text "indefinite" }
     track := { start := .text "0", goal := .text "360" } }]

def triplePlay : List (Step .exact) :=
  [.command (.setData fadeAndSpin .all []), .command (.setRate (.number 3)), .command .play,
    .advance (.finite (1 / 2))]

theorem triple_play_goes_on :
    ¬ Over (fresh.after triplePlay).animations (.finite (3 / 2)) ∧
    (((fresh.after triplePlay).rested [7, 1]).turn .play).player.position.Denotes (3 / 2) := by
  have made : new (.text "preview") originPlacement (.finite 100) true = .ok fresh := rfl
  have paused : ((fresh.after triplePlay).run .pause).2.position = .finite (3 / 2) := by
    decide +kernel
  have live : (fresh.after triplePlay).disposed = false := by decide +kernel
  have same : ((fresh.after triplePlay).run .pause).2.animations =
      (fresh.after triplePlay).animations := congrArg Score.animations (run_pause live).2
  have length : Schedule.timelineDuration
      (((fresh.after triplePlay).run .pause).2.animations.map (·.schedule)) =
        .ok ((fresh.after triplePlay).run .pause).2.duration := by decide +kernel
  have ends := ended_iff_over length
  rw [same] at length ends
  have going : ¬ Over (fresh.after triplePlay).animations (.finite (3 / 2)) := by
    rw [← paused]
    exact mt ends.mpr (by decide +kernel)
  have begins := (plays_on_in_place made (Leads.here.after triplePlay) live ⟨_, length⟩ [7, 1]).1
  rw [paused] at begins
  refine ⟨going, (begins going).exactly rfl ?_ ?_ rfl⟩ <;> decide +kernel

def fiveSecondsOn : Player .binary64 :=
  ({ resolver := originPlacement, clock := .finite 100, quality := Quality.preview.preset :
      Player .binary64 }.after
    [.command (.setData fadeAndSpin .all []), .command .play, .advance 5])

/-- What goes on for good does not keep playing from starting over. -/
theorem endless_animation_starts_over :
    fiveSecondsOn.animations.map (·.schedule.activeDuration) = [.ok 2, .ok (.infinite false)] ∧
    (fiveSecondsOn.run .pause).2.position = 5 ∧
    ((fiveSecondsOn.rested [1]).run .play).2.position = 0 := by
  decide +kernel

end Player
end DeclarativeAnimation
