import DeclarativeAnimation.Proofs.Interpolation.ContributionRange
import DeclarativeAnimation.Proofs.Timing.ProgressRange

/-! Evaluation of one animation.  Texts never keep it from an answer.  Whole numbers could: they
    grow without bound where they are added as whole numbers, and one beyond the doubles cannot
    be added to a number any more.  So their sizes are followed through every addition. -/
namespace DeclarativeAnimation
variable {A : Arithmetic} {N : Nat}

open Number Arithmetic

namespace Value

theorem sum_answers {x y : Value A} {M : Nat} (numeric : x.isNumeric) (other : y.isNumeric)
    (hx : x.Bounded N) (hy : y.Bounded M) (small : N ≤ mostWhole) (less : M ≤ mostWhole) :
    Answers (x.sum y) (Bounded (N + M)) := by
  obtain ⟨a, read_a⟩ := toNumber_of_numeric numeric hx small
  obtain ⟨b, read_b⟩ := toNumber_of_numeric other hy less
  have mixed : Answers (do return .number ((← x.toNumber) + (← y.toNumber)) :
      Except Fault (Value A)) (Bounded (N + M)) := by
    rw [read_a, read_b]
    exact .ok (bounded_number _ _)
  cases x with
  | int m =>
    cases y with
    | int n =>
      exact .ok ((Int.natAbs_add_le m n).trans (Nat.add_le_add hx hy))
    | _ => exact mixed
  | _ => exact mixed

theorem times_answers {count : Int} {x : Value A} {M : Nat} (numeric : x.isNumeric)
    (hx : x.Bounded N) (counted : A.Spans count) (few : count.natAbs ≤ M) :
    Answers (times count x) fun v => v.isNumeric ∧ v.Bounded (M * N) := by
  cases x with
  | int n =>
    refine .ok ⟨rfl, ?_⟩
    show (count * n).natAbs ≤ M * N
    rw [Int.natAbs_mul]
    exact Nat.mul_le_mul few hx
  | number x =>
    have read := numberOfInt_of_spans counted
    unfold times
    rw [read]
    exact .ok ⟨rfl, bounded_number _ _⟩
  | _ => cases numeric

end Value

def Element.Bounded (N : Nat) (e : Element A) : Prop := ∀ entry ∈ e.data, entry.2.Bounded N

theorem lookup_bounded {data : List (String × Value A)}
    (bounded : ∀ entry ∈ data, entry.2.Bounded N) {s : String} {v : Value A}
    (found : data.lookup s = some v) : v.Bounded N := by
  obtain ⟨before, after, rfl, _⟩ := List.lookup_eq_some_iff.mp found
  exact bounded (s, v) (List.mem_append_right before List.mem_cons_self)

theorem Element.baseValue_answers {e : Element A} (bounded : e.Bounded N) {name : Value A}
    (plain : name.IsPlain) (present : name.isPresent) :
    Answers (e.baseValue name) (Value.Bounded N) := by
  rcases plain with rfl | ⟨s, rfl⟩
  · cases present
  simp only [baseValue, Value.key, bind, Except.bind]
  split
  · rename_i v found
    exact .ok (lookup_bounded bounded found)
  · refine .ok ?_
    cases found : e.data.lookup (camelCase s) with
    | none => exact Value.bounded_of_isPlain (Or.inl rfl)
    | some v => exact lookup_bounded bounded found

def Subject.IsPlain : Subject A → Prop
  | .attribute name | .set name => name.IsPlain
  | .transform kind => kind.IsPlain
  | _ => True

def MotionResolver.Answers (resolver : MotionResolver A) : Prop :=
  ∀ animation progress, ∃ placed, resolver animation progress = .ok placed

theorem originPlacement_answers : (originPlacement (A := A)).Answers := by
  intro animation progress
  unfold originPlacement
  split
  · exact ⟨_, rfl⟩
  · exact ⟨_, rfl⟩

namespace Animation

/-- Text wherever an animation holds text, and a repeat count as it is read. -/
structure IsAuthored (a : Animation A) : Prop where
  target : ∃ s, a.target = .text s
  subject : a.subject.IsPlain
  schedule : a.schedule.IsPlain
  count : Schedule.IsCount a.schedule.repeatCount

/-- Names that are text, and times and a repeat count that can be read. -/
structure IsReadable (a : Animation A) : Prop where
  target : ∃ s, a.target = .text s
  subject : a.subject.IsPlain
  schedule : a.schedule.Fits
  count : Schedule.IsCount a.schedule.repeatCount

theorem IsAuthored.readable {a : Animation A} (authored : a.IsAuthored) : a.IsReadable :=
  ⟨authored.target, authored.subject, authored.schedule.fits, authored.count⟩

/-- What keeps an animation evaluable at a time: runs that can be counted, a pace that ends in a
    number, and, where runs add up, no more than `M` of them. -/
structure InReach (N M : Nat) (time : Number A) (a : Animation A) : Prop where
  ends : a.track.Ends N
  track : a.track.Moderate
  countable : a.schedule.Countable time
  runs : a.composition.isAccumulating → ∀ m, a.schedule.resolve time = .ok m →
    m.iteration.natAbs ≤ M

variable {a : Animation A} {element : Option (Element A)} {resolver : MotionResolver A}
  {time progress : Number A} {M : Nat}

theorem progressAt_answers (authored : a.IsAuthored) (reach : a.InReach N M time) :
    Answers (a.progressAt time) Number.InUnit :=
  (Schedule.resolve_answers authored.schedule.fits authored.count reach.countable).bind
    fun _ range => by
      rw [reach.track.texts.eased]
      exact .ok (Track.ease_inUnit reach.track range.progress)

section Contributions
variable (plain : a.subject.IsPlain) (ends : a.track.Ends N) (le : N ≤ Value.mostWhole)
include plain ends le

theorem contributions_answers (known : ∀ e ∈ element, e.Bounded N) (resolves : resolver.Answers)
    (moderate : a.track.Moderate) (inside : progress.InUnit) :
    Answers (a.contributions element resolver progress) (Writes N mostContributions) := by
  have none : (Value.null : Value A).Bounded N := Value.isSpellable_null
  unfold contributions
  rcases subject : a.subject with name | kind | ⟨path, reference, rotate, keyPoints⟩ | name | _
  · rw [subject] at plain
    have written : ∀ base : Value A, base.Bounded N →
        Answers (a.track.attributeContributions name base progress)
          (Writes N mostContributions) := fun base hb =>
      Track.attributeContributions_answers ends moderate le inside plain hb
    dsimp only
    cases element with
    | none => exact written .null none
    | some e =>
      dsimp only
      split
      · rename_i present
        exact (Element.baseValue_answers (known e rfl) plain present).bind written
      · exact written .null none
  · rw [subject] at plain
    exact Track.transformContributions_answers ends le moderate inside plain
  · obtain ⟨placed, found⟩ := resolves a progress
    dsimp only
    rw [found]
    cases placed with
    | none => exact .ok writes_nil
    | some placement => exact .ok (writes_one trivial)
  · exact .ok writes_nil
  · exact .ok writes_nil

end Contributions

theorem isSetActive_answers (fits : a.schedule.Fits) (time : Number A) :
    ∃ shown, a.isSetActive time = .ok shown := by
  obtain ⟨begin, begins⟩ := ClockValue.seconds_fits (fits.begin.orElse "0s")
  obtain ⟨dur, lasts⟩ := ClockValue.seconds_fits fits.dur
  obtain ⟨finish, ends⟩ := ClockValue.read?_fits fits.finish
  have begins : a.schedule.beginSeconds = .ok begin := begins
  have stops : ∃ stop, a.setStop begin = .ok stop := by
    unfold setStop
    dsimp only
    rw [lasts, ends]
    split
    · cases finish with
      | none => exact ⟨_, rfl⟩
      | some finish => exact ⟨_, rfl⟩
    · cases finish with
      | none => exact ⟨_, rfl⟩
      | some finish => exact ⟨_, rfl⟩
  obtain ⟨stop, stops⟩ := stops
  unfold isSetActive
  rw [begins]
  show ∃ shown, (a.setStop begin >>= _) = .ok shown
  rw [stops]
  exact ⟨_, rfl⟩

section Accumulation

def grownBound (M N : Nat) : Nat := N + M * N

theorem sameSlot_bounded {finals : List (Contribution A)} (bounded : ∀ c ∈ finals, c.Bounded N)
    (c : Contribution A) : (sameSlot finals c).Bounded N := by
  unfold sameSlot
  dsimp only
  cases last : List.getLast? _ with
  | none => exact Value.bounded_of_isPlain (Or.inl rfl)
  | some v =>
    obtain ⟨f, member, same⟩ := List.mem_filterMap.mp (List.mem_of_getLast? last)
    have own := bounded f member
    split at same
    · split at same
      · cases same
        exact own
      · cases same
    · split at same
      · cases same
        exact own
      · cases same
    · split at same
      · cases same
        exact Value.bounded_number N _
      · cases same
    · cases same

variable {iteration : Int} {value final : Value A}
  (counted : A.Spans iteration) (few : iteration.natAbs ≤ M)
  (room : grownBound M N ≤ Value.mostWhole)
include counted few room

theorem grown_answers (hv : value.Bounded N) (hf : final.Bounded N) :
    Answers (grown iteration value final) (Value.Bounded (grownBound M N)) := by
  unfold grownBound at room ⊢
  unfold grown
  split
  · rename_i both
    obtain ⟨numeric, other⟩ := Bool.and_eq_true_iff.mp both
    refine (Value.times_answers other hf counted few).bind fun product hp => ?_
    exact Value.sum_answers numeric hp.1 hv hp.2 (by omega) (by omega)
  · exact .ok (hv.mono (Nat.le_add_right N _))

theorem accumulated_answers {finals current : List (Contribution A)} {most : Nat}
    (hf : ∀ c ∈ finals, c.Bounded N) (hc : Writes N most current) :
    Answers (accumulated iteration finals current) (Writes (grownBound M N) most) := by
  unfold accumulated
  refine (Answers.mapM _ (R := Contribution.Bounded (grownBound M N)) fun c member => ?_).imp
    fun found all => ⟨all.1 ▸ hc.few, all.2⟩
  have last := sameSlot_bounded hf c
  have own := hc.bounded c member
  rcases c with ⟨property, value⟩ | ⟨name, value⟩ | data | ⟨property, amount⟩ | ⟨x, y⟩ | placement
  · exact (grown_answers counted few room own last).bind fun v hv => .pure hv
  · exact (grown_answers counted few room own last).bind fun v hv => .pure hv
  · exact .ok trivial
  · have number := Value.bounded_number N amount
    refine (grown_answers counted few room number last).bind fun v _ => ?_
    split
    · exact .pure trivial
    · exact .pure trivial
  · exact .ok trivial
  · exact .ok trivial

end Accumulation

theorem evaluate_answers (readable : a.IsReadable) (reach : a.InReach N M time)
    (known : ∀ e ∈ element, e.Bounded N) (resolves : resolver.Answers)
    (room : grownBound M N ≤ Value.mostWhole) :
    Answers (a.evaluate element resolver time) (Writes (grownBound M N) mostContributions) := by
  have below : N ≤ grownBound M N := Nat.le_add_right N _
  have le := below.trans room
  have wider {found : List (Contribution A)} (h : Writes N mostContributions found) :
      Writes (grownBound M N) mostContributions found :=
    ⟨h.few, fun c member => Contribution.Bounded.mono (h.bounded c member) below⟩
  unfold evaluate
  split
  · rename_i name subject
    have plain := readable.subject
    rw [subject] at plain
    obtain ⟨shown, active⟩ := isSetActive_answers readable.schedule time
    rw [active]
    cases shown with
    | true => exact (Track.setContributions_answers reach.ends le plain).imp fun _ => wider
    | false => exact .ok writes_nil
  · obtain ⟨moment, placed, range⟩ :=
      Schedule.resolve_answers readable.schedule readable.count reach.countable
    have writes {progress : Number A} (inside : progress.InUnit) :=
      contributions_answers readable.subject reach.ends le known resolves reach.track inside
    rw [placed]
    dsimp only [bind, Except.bind]
    rw [reach.track.texts.eased]
    refine (writes (Track.ease_inUnit reach.track range.progress)).bind fun current hc => ?_
    split
    · rename_i complete
      have accumulating : a.composition.isAccumulating := by
        simp only [Bool.and_eq_true] at complete
        exact complete.1.1.1
      have few := reach.runs accumulating moment placed
      refine (writes .one).bind fun finals hf => ?_
      exact accumulated_answers range.iteration few room hf.bounded hc
    · exact .pure (wider hc)

end Animation
end DeclarativeAnimation
