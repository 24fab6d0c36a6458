import DeclarativeAnimation.Proofs.Chain.ShiftedBegin
import DeclarativeAnimation.State.Evaluation

/-! Delays as translations in time.  A delay moves the begin of an animation and leaves its end
    where it is on the timeline.  An animation without an end therefore does a delay later what
    it did before; one with an end does what it would have done with the end earlier. -/
namespace DeclarativeAnimation

open Number

def Number.IsLater (d : Rat) (x y : Number .exact) : Prop :=
  (∃ p, x.Denotes p ∧ y.Denotes (p + d)) ∨ (x.isFinite = false ∧ y = x)

theorem Number.sub_endless {x y : Number .exact} (endless : x.isFinite = false)
    (bounded : y.isFinite) : x - y = x := by
  cases x with
  | finite q => cases endless
  | negativeZero => cases endless
  | infinite negative => cases y <;> trivial
  | nan => rfl

namespace Number.IsLater
variable {d : Rat} {x x' y y' : Number .exact}

theorem add_delay (x : Number .exact) : IsLater d x (x + .finite d) := by
  cases bounded : x.isFinite with
  | true => exact Or.inl ⟨x.rat, .of_isFinite bounded, (Denotes.of_isFinite bounded).add (.finite d)⟩
  | false =>
    right
    constructor
    · exact bounded
    · cases x <;> trivial

theorem lt_iff (hx : IsLater d x x') (hy : IsLater d y y') : x' < y' ↔ x < y := by
  rcases hx with ⟨p, hp, hp'⟩ | ⟨endless, rfl⟩
  · rcases hy with ⟨q, hq, hq'⟩ | ⟨endless, rfl⟩
    · rw [hp'.lt_iff hq', hp.lt_iff hq]
      exact add_lt_add_iff_right d
    · obtain ⟨⟨bounded, -⟩, bounded', -⟩ := And.intro hp hp'
      show x'.less y' = true ↔ x.less y' = true
      cases x <;> cases x' <;> cases y' <;> simp_all [isFinite, less]
  · rcases hy with ⟨q, ⟨bounded, -⟩, bounded', -⟩ | ⟨_, rfl⟩
    · show x'.less y' = true ↔ x'.less y = true
      cases y <;> cases y' <;> cases x' <;> simp_all [isFinite, less]
    · rfl

theorem le_iff (hx : IsLater d x x') (hy : IsLater d y y') : x' ≤ y' ↔ x ≤ y := by
  rcases hx with ⟨p, hp, hp'⟩ | ⟨endless, rfl⟩
  · rcases hy with ⟨q, hq, hq'⟩ | ⟨endless, rfl⟩
    · rw [hp'.le_iff hq', hp.le_iff hq]
      exact add_le_add_iff_right d
    · obtain ⟨⟨bounded, -⟩, bounded', -⟩ := And.intro hp hp'
      show (x'.less y' || x'.equal y') = true ↔ (x.less y' || x.equal y') = true
      cases x <;> cases x' <;> cases y' <;> simp_all [isFinite, less, equal]
  · rcases hy with ⟨q, ⟨bounded, -⟩, bounded', -⟩ | ⟨_, rfl⟩
    · show (x'.less y' || x'.equal y') = true ↔ (x'.less y || x'.equal y) = true
      cases y <;> cases y' <;> cases x' <;> simp_all [isFinite, less, equal]
    · rfl

theorem smaller (hx : IsLater d x x') (hy : IsLater d y y') :
    IsLater d (x.smaller y) (x'.smaller y') := by
  unfold Number.smaller
  by_cases less : y < x
  · rwa [if_pos less, if_pos ((hy.lt_iff hx).mpr less)]
  · rwa [if_neg less, if_neg (mt (hy.lt_iff hx).mp less)]

theorem sub {q : Rat} (hx : IsLater d x x') (hy : y.Denotes q) (hy' : y'.Denotes (q + d)) :
    x' - y' = x - y := by
  rcases hx with ⟨p, hp, hp'⟩ | ⟨endless, rfl⟩
  · rw [sub_exact hp'.1 hy'.1, sub_exact hp.1 hy.1, hp'.2, hy'.2, hp.2, hy.2, add_sub_add_right_eq_sub]
  · rw [sub_endless endless hy'.1, sub_endless endless hy.1]

end Number.IsLater

namespace Schedule

/-- The schedule with its begin, and its end if it has one, moved by a delay. -/
structure IsLater (d : Rat) (s later : Schedule .exact) : Prop where
  begin : ∃ x y q, s.beginSeconds = .ok x ∧ later.beginSeconds = .ok y ∧ x.Denotes q ∧
    y.Denotes (q + d)
  finish : ∃ x y, ClockValue.read? s.finish = .ok x ∧ ClockValue.read? later.finish = .ok y ∧
    Option.Rel (fun x y => ∃ q, x.Denotes q ∧ y.Denotes (q + d)) x y
  dur : later.dur = s.dur
  repeatCount : later.repeatCount = s.repeatCount
  repeatDur : later.repeatDur = s.repeatDur
  fill : later.fill = s.fill

variable {d : Rat} {s later : Schedule .exact}

theorem IsLater.activeDuration (moved : IsLater d s later) :
    later.activeDuration = s.activeDuration := by
  obtain ⟨x, y, q, begins, begins', is_q, is_q'⟩ := moved.begin
  obtain ⟨end?, end?', ends, ends', related⟩ := moved.finish
  unfold Schedule.activeDuration durSeconds
  rw [moved.dur, moved.repeatCount, moved.repeatDur, ends, ends', begins, begins']
  cases related with
  | none => rfl
  | some related =>
    obtain ⟨e, is_e, is_e'⟩ := related
    have same := Number.IsLater.sub (Or.inl ⟨e, is_e, is_e'⟩) is_q is_q'
    simp only [bind, Except.bind, same]

theorem IsLater.resolve (moved : IsLater d s later) (time : Number .exact) :
    later.resolve (time + .finite d) = s.resolve time := by
  obtain ⟨x, y, q, begins, begins', is_q, is_q'⟩ := moved.begin
  have elapsed := (Number.IsLater.add_delay time).sub is_q is_q'
  have lasts : later.durSeconds = s.durSeconds := by
    unfold durSeconds
    rw [moved.dur]
  unfold Schedule.resolve
  rw [begins, begins', moved.activeDuration, lasts, moved.fill]
  dsimp only [bind, Except.bind]
  rw [elapsed]

end Schedule

namespace Animation

/-- The animation with its begin, and its end if it has one, moved by a delay. -/
structure IsLater (d : Rat) (a later : Animation .exact) : Prop where
  subject : later.subject = a.subject
  schedule : a.schedule.IsLater d later.schedule
  track : later.track = a.track
  composition : later.composition = a.composition

variable {d : Rat} {a later : Animation .exact}

theorem IsLater.setStop (moved : IsLater d a later) {x y : Number .exact} {q : Rat}
    (is_q : x.Denotes q) (is_q' : y.Denotes (q + d)) :
    ∃ stop stop', a.setStop x = .ok stop ∧ later.setStop y = .ok stop' ∧ stop.IsLater d stop' := by
  obtain ⟨end?, end?', ends, ends', related⟩ := moved.schedule.finish
  obtain ⟨dur, lasts, bounded⟩ := ClockValue.seconds_exact a.schedule.dur
  have is_dur := Denotes.of_isFinite bounded
  have endless : Number.IsLater d (.infinite false) (.infinite false) := Or.inr ⟨rfl, rfl⟩
  have ending : (x + dur).IsLater d (y + dur) := by
    left
    refine ⟨q + dur.rat, is_q.add is_dur, ?_⟩
    rw [add_right_comm]
    exact is_q'.add is_dur
  unfold Animation.setStop
  dsimp only
  rw [moved.schedule.dur, lasts, ends, ends']
  cases related with
  | none =>
    cases a.schedule.dur.isNull with
    | true => exact ⟨_, _, rfl, rfl, endless⟩
    | false => exact ⟨_, _, rfl, rfl, ending⟩
  | some related =>
    cases a.schedule.dur.isNull with
    | true => exact ⟨_, _, rfl, rfl, endless.smaller (Or.inl related)⟩
    | false => exact ⟨_, _, rfl, rfl, ending.smaller (Or.inl related)⟩

theorem IsLater.isSetActive (moved : IsLater d a later) (time : Number .exact) :
    later.isSetActive (time + .finite d) = a.isSetActive time := by
  obtain ⟨x, y, q, begins, begins', is_q, is_q'⟩ := moved.schedule.begin
  obtain ⟨stop, stop', stops, stops', apart⟩ := moved.setStop is_q is_q'
  have on_time := Number.IsLater.add_delay (d := d) time
  have begun := Number.IsLater.le_iff (Or.inl ⟨q, is_q, is_q'⟩) on_time
  have holding := on_time.lt_iff apart
  unfold Animation.isSetActive
  rw [begins, begins']
  dsimp only [bind, Except.bind]
  rw [stops, stops']
  dsimp only
  rw [decide_eq_decide.mpr begun, decide_eq_decide.mpr holding]

theorem IsLater.contributions (moved : IsLater d a later) (element : Option (Element .exact))
    {resolver : MotionResolver .exact} (alike : resolver later = resolver a)
    (progress : Number .exact) :
    later.contributions element resolver progress = a.contributions element resolver progress := by
  unfold Animation.contributions
  rw [moved.subject, moved.track, alike]

end Animation
end DeclarativeAnimation
