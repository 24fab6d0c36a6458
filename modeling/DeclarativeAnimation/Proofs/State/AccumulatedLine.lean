import DeclarativeAnimation.Proofs.Animation.Authored
import DeclarativeAnimation.Proofs.Interpolation.KeyedSegments
import DeclarativeAnimation.Proofs.Timing.Phases
import DeclarativeAnimation.State.Evaluation

/-! Accumulated runs.  An animation that leads from zero to some amounts, and adds up what its
    runs leave behind, moves on a straight line through all of its runs: after each of them it is
    where the next one takes over, and at the end it stops there. -/
namespace DeclarativeAnimation

open Number

namespace Schedule

/-- When the runs of a schedule begin, how long each of them takes, and how many there are; without
    a number of runs there is no end of them.  Nothing else cuts them off. -/
structure Repeats (s : Schedule .exact) (begin dur : Rat) (count : Option Nat) : Prop where
  begins : ∃ x, s.beginSeconds = .ok x ∧ x.Denotes begin
  runs : ∃ x, s.durSeconds = .ok x ∧ x.Denotes dur
  lasting : 0 < dur
  counted : ∃ x, repeatTimes s.repeatCount = .ok x ∧ x.Lasts (count.map fun n : Nat => (n : Rat))
  some_run : ∀ n ∈ count, 1 ≤ n
  unlimited : s.repeatDur.isPresent = false
  unended : ClockValue.read? s.finish = .ok none

def Course.ofRuns (begin dur : Rat) (count : Option Nat) : Course :=
  ⟨begin, dur, count.map fun n : Nat => dur * n⟩

section
variable {s : Schedule .exact} {begin dur t : Rat} {count : Option Nat}

theorem repeatSeconds_of_missing {v : Value .exact} (missing : v.isPresent = false) :
    repeatSeconds v = .ok 0 := by
  have counted : v.isIndefinite = false := by
    cases v with
    | text s =>
      obtain rfl : s = "" := by simpa [Value.isPresent] using missing
      decide +kernel
    | _ => rfl
  rw [repeatSeconds, counted, missing, if_neg Bool.false_ne_true, if_neg Bool.false_ne_true]

theorem Repeats.follows (repeats : s.Repeats begin dur count) :
    s.Follows (.ofRuns begin dur count) := by
  obtain ⟨length, runs, is_dur⟩ := repeats.runs
  obtain ⟨times, counted, lasts⟩ := repeats.counted
  have running : ¬ length ≤ 0 := by
    rw [is_dur.le_iff .zero]
    exact not_le.mpr repeats.lasting
  refine ⟨repeats.begins, ⟨length, runs, is_dur⟩, length * times, ?_, ?_⟩
  · unfold activeDuration
    rw [runs, counted, repeatSeconds_of_missing repeats.unlimited, repeats.unended]
    dsimp only [bind, Except.bind]
    rw [if_neg (by decide), if_neg running]
    rfl
  · cases count with
    | none =>
      obtain rfl : times = .infinite false := lasts
      have positive : (0 : Number .exact) < length :=
        (Denotes.zero.lt_iff is_dur).mpr repeats.lasting
      rcases pos_cases positive with rfl | ⟨q, rfl, above⟩
      · rfl
      · show Number.mul _ _ = _
        simp [Number.mul, isZero, isNegative, above.ne', above.le]
    | some n =>
      obtain ⟨is_n, nonneg⟩ := lasts
      exact ⟨is_dur.mul is_n, mul_nonneg repeats.lasting.le nonneg⟩

theorem Course.lastRun_ofRuns {n : Nat} (lasting : 0 < dur) (some_run : 1 ≤ n) :
    (ofRuns begin dur (some n)).lastRun = n - 1 := by
  have positive : (0 : Rat) < n := by exact_mod_cast some_run
  have ceiling : ((n : Rat) - 1e-9).ceil = n := by
    have enough : ((n : Rat) - 1e-9).ceil ≤ n := by
      rw [Rat.ceil_le_iff]
      push_cast
      linarith
    have needed : (n : Int) - 1 < ((n : Rat) - 1e-9).ceil := by
      rw [Rat.lt_ceil_iff]
      push_cast
      linarith
    omega
  show (if 0 < dur ∧ 0 < dur * n then max 0 ((dur * n / dur - 1e-9).ceil - 1) else 0) =
    (n : Int) - 1
  rw [if_pos ⟨lasting, mul_pos lasting positive⟩, mul_div_cancel_left₀ _ lasting.ne', ceiling]
  omega

namespace Course

theorem isOver_ofRuns (lasting : 0 < dur) :
    (ofRuns begin dur count).IsOver t ↔ ∃ n ∈ count, begin + n * dur ≤ t := by
  have running : ¬ dur ≤ 0 := not_le.mpr lasting
  show (dur ≤ 0 ∨ ∃ q ∈ count.map fun n : Nat => dur * (n : Rat), q ≤ t - begin) ↔ _
  rw [or_iff_right running]
  constructor
  · rintro ⟨q, known, past⟩
    obtain ⟨n, counted, rfl⟩ := Option.mem_map.mp known
    exact ⟨n, counted, by linarith⟩
  · rintro ⟨n, counted, past⟩
    exact ⟨dur * n, Option.mem_map_of_mem _ counted, by linarith⟩

theorem place_finite (c : Course) (frozen : Bool) (t : Rat) :
    ∃ p, (c.place frozen t).progress = .finite p ∧ 0 ≤ p ∧ p ≤ 1 := by
  rcases c.time_cases t with early | ⟨begun, stopped⟩ | ⟨begun, running⟩
  · rw [place_before early]
    exact ⟨0, rfl, le_rfl, zero_le_one⟩
  · rw [place_over begun stopped]
    cases frozen with
    | true => exact ⟨1, rfl, zero_le_one, le_rfl⟩
    | false => exact ⟨0, rfl, le_rfl, zero_le_one⟩
  · rw [place_running begun running]
    exact ⟨_, rfl, Int.fract_nonneg _, (Int.fract_lt_one _).le⟩

end Course

end
end Schedule

namespace Contribution

/-- So many times a contribution, where it is an amount; else the contribution. -/
def scaled (m : Rat) : Contribution .exact → Contribution .exact
  | .attribute name (.number x) => .attribute name (.number (.finite (m * x.rat)))
  | .transform property x => .transform property (.finite (m * x.rat))
  | c => c

/-- Two contributions to one place.  What is no amount is the same. -/
inductive Beside : Contribution .exact → Contribution .exact → Prop
  | attribute (name : Value .exact) (x y : Number .exact) :
      Beside (.attribute name (.number x)) (.attribute name (.number y))
  | transform (property : TransformProperty) (x y : Number .exact) :
      Beside (.transform property x) (.transform property y)
  | center (x y : Number .exact) : Beside (.rotationCenter x y) (.rotationCenter x y)

end Contribution

def ownValue (element : Option (Element .exact)) (name : String) : Except Fault (Value .exact) :=
  match element with
  | some element => element.baseValue (.text name)
  | none => .ok .null

structure Transforms (subject : Subject .exact) (track : Track .exact) (kind : TransformKind)
    (first last : Value .exact) (xs ys : List (Number .exact)) : Prop where
  known : ∃ v, subject = .transform v ∧ TransformKind.ofValue? v = .ok (some kind)
  keyframes : track.keyframes .null (.null, .null) = [first, last]
  starts : Keyframe.components first = .ok xs
  ends : Keyframe.components last = .ok ys

def TransformKind.place? : TransformKind → Option TransformProperty
  | .rotate => some .rotate
  | .skewX => some .skewX
  | .skewY => some .skewY
  | .translate | .scale => none

/-- A run leads from zero to amounts, each at a place of its own.  The place of an attribute is one
    that takes plain numbers; a rotation has its center from where it starts. -/
inductive LeadsTo (subject : Subject .exact) (track : Track .exact)
    (element : Option (Element .exact)) : List (Contribution .exact) → Prop
  | number {name : String} {own first last : Value .exact} {x y : Number .exact}
      (animates : subject = .attribute (.text name)) (some_name : name ≠ "")
      (plain : Slot.names.lookup name = none) (has : ownValue element name = .ok own)
      (keyframes : track.keyframes own Slot.plain.endpoints = [first, last])
      (starts : Keyframe.leadingNumber first = .ok (some x)) (zero : x.Denotes 0)
      (ends : Keyframe.leadingNumber last = .ok (some y)) :
      LeadsTo subject track element [.attribute (.text name) (.number y)]
  | shift {first last : Value .exact} {xs ys : List (Number .exact)}
      (moves : Transforms subject track .translate first last xs ys)
      (zero : (xs.headD 0).Denotes 0) (level : (xs.getD 1 0).Denotes 0)
      (far : (ys.headD 0).isFinite) (high : (ys.getD 1 0).isFinite) :
      LeadsTo subject track element
        [.transform .translateX (ys.headD 0), .transform .translateY (ys.getD 1 0)]
  | turn {kind : TransformKind} {property : TransformProperty} {first last : Value .exact}
      {xs ys : List (Number .exact)} {center : List (Contribution .exact)}
      (single : kind.place? = some property)
      (moves : Transforms subject track kind first last xs ys)
      (zero : (xs.headD 0).Denotes 0) (far : (ys.headD 0).isFinite)
      (centered : (if kind = .rotate then rotationCenter first else .ok []) = .ok center) :
      LeadsTo subject track element (.transform property (ys.headD 0) :: center)

theorem lerp_from_zero {x y : Number .exact} (zero : x.Denotes 0) (far : y.isFinite) (p : Rat) :
    lerp x y (.finite p) = .finite (p * y.rat) := by
  have rest : (1 : Number .exact) - .finite p = .finite (1 - p) := sub_exact rfl rfl
  have start := zero.mul (y := .finite (1 - p)) (.finite _)
  have goal := (Denotes.of_isFinite far).mul (y := .finite p) (.finite _)
  rw [lerp, rest, add_exact start.1 goal.1, start.2, goal.2]
  ring_nf

theorem leadingNumber_isFinite {v : Value .exact} {x : Number .exact}
    (leads : Keyframe.leadingNumber v = .ok (some x)) : x.isFinite := by
  have given {y : Number .exact} (leads : (if y.isFinite then some y else none) = some x) :
      x.isFinite := by
    split at leads
    · rename_i finite
      cases leads
      exact finite
    · cases leads
  have written {text : List Char} (leads : Keyframe.leadingNumberOf text = some x) :
      x.isFinite := by
    unfold Keyframe.leadingNumberOf at leads
    split at leads
    · exact given leads
    · cases leads
  cases v with
  | null => cases leads
  | bool b => cases leads
  | int n => exact given (Except.ok.inj leads)
  | number y => exact given (Except.ok.inj leads)
  | text s => exact written (Except.ok.inj leads)
  | list items => cases leads
  | object members => cases leads

theorem along_pair {β : Type} (first last : Value .exact) {p : Rat} (low : 0 ≤ p) (high : p ≤ 1)
    (blend : Value .exact → Value .exact → Number .exact → Except Fault β) :
    Keyframe.along [first, last] (.finite p) blend =
      (blend first last (.finite p)).map some := by
  have whole : (((0 : Nat) : Rat) + p) / (1 : Nat) = p := by simp
  rcases Keyframe.segment_of_grid (Nat.zero_lt_one) low high with found | ⟨-, more, -⟩
  · rw [whole] at found
    exact @Keyframe.along_segment β [first, last] (.finite p) (.finite p) 0 (le_refl 2) found blend
  · exact absurd more (lt_irrefl 1)

namespace Track

structure IsLinear (track : Track .exact) : Prop where
  texts : track.HasTexts
  blending : track.mode.isTheText "discrete" = false
  unpaced : track.mode.isTheText "paced" = false
  straight : track.mode.isTheText "spline" = false
  untimed : (Listing.numbers? track.keyTimes : Option (List (Number .exact))) = none

theorem IsLinear.ease {track : Track .exact} (linear : track.IsLinear) (p : Number .exact) :
    track.ease p = p := by
  unfold Track.ease
  simp only [linear.blending, linear.unpaced, linear.straight, linear.untimed, Bool.false_eq_true,
    ↓reduceIte, Option.getD_none]
  rfl

end Track

section
variable {subject : Subject .exact} {track : Track .exact} {kind : TransformKind}
  {first last : Value .exact} {xs ys : List (Number .exact)}
  {moved center : List (Contribution .exact)} {p : Rat}

theorem Transforms.contributions {a : Animation .exact}
    (moves : Transforms a.subject a.track kind first last xs ys) (linear : a.track.IsLinear)
    (low : 0 ≤ p) (high : p ≤ 1) (blends : kind.blend first last (.finite p) = .ok moved)
    (centered : (if kind = .rotate then rotationCenter first else .ok []) = .ok center)
    (element : Option (Element .exact)) (resolver : MotionResolver .exact) :
    a.contributions element resolver (.finite p) = .ok (moved ++ center) := by
  obtain ⟨v, animates, known⟩ := moves.known
  have blending : a.track.isDiscrete = false := linear.blending
  have along := along_pair first last low high kind.blend
  rw [blends] at along
  unfold Animation.contributions
  rw [animates]
  unfold Track.transformContributions
  dsimp only
  rw [known]
  dsimp only [bind, Except.bind]
  rw [moves.keyframes, linear.texts.pick]
  dsimp only
  rw [blending, along]
  dsimp only [Except.map]
  by_cases rotates : kind = .rotate
  · rw [if_pos rotates] at centered
    simp [rotates, centered, pure, Except.pure]
  · rw [if_neg rotates] at centered
    cases centered
    simp [rotates, pure, Except.pure]

theorem blend_single {property : TransformProperty} (single : kind.place? = some property)
    (starts : Keyframe.components first = .ok xs) (ends : Keyframe.components last = .ok ys)
    (zero : (xs.headD 0).Denotes 0) (far : (ys.headD 0).isFinite) :
    kind.blend first last (.finite p) =
      .ok [.transform property (.finite (p * (ys.headD 0).rat))] := by
  rw [← lerp_from_zero zero far]
  unfold TransformKind.blend
  rw [starts, ends]
  cases kind <;> cases single <;> rfl

theorem center_cases (centered : (if kind = .rotate then rotationCenter first else .ok []) =
    .ok center) : center = [] ∨ ∃ x y, center = [.rotationCenter x y] := by
  split at centered
  · obtain ⟨parts, -, centered⟩ := bind_eq_ok centered
    split at centered
    · cases centered
      exact .inr ⟨_, _, rfl⟩
    · cases centered
      exact .inl rfl
  · cases centered
    exact .inl rfl

theorem scaled_center (centered : (if kind = .rotate then rotationCenter first else .ok []) =
    .ok center) : center.map (Contribution.scaled p) = center := by
  rcases center_cases centered with rfl | ⟨x, y, rfl⟩ <;> rfl

theorem contributions_ownValue {a : Animation .exact} {element : Option (Element .exact)}
    {name : String} {own : Value .exact} (animates : a.subject = .attribute (.text name))
    (some_name : name ≠ "") (has : ownValue element name = .ok own)
    (resolver : MotionResolver .exact) (progress : Number .exact) :
    a.contributions element resolver progress =
      a.track.attributeContributions (.text name) own progress := by
  have present : (Value.text name : Value .exact).isPresent = true := decide_eq_true some_name
  unfold Animation.contributions
  rw [animates]
  cases element with
  | none =>
    cases has
    rfl
  | some element =>
    have has : element.baseValue (.text name) = .ok own := has
    dsimp only
    rw [if_pos present, has]
    rfl

theorem attributeContributions_plain {name : String} {own shown : Value .exact}
    (some_name : name ≠ "") (plain : Slot.names.lookup name = none) (linear : track.IsLinear)
    (keyframes : track.keyframes own Slot.plain.endpoints = [first, last]) (low : 0 ≤ p)
    (high : p ≤ 1) (blends : Keyframe.blendNumber first last (.finite p) = .ok shown) :
    track.attributeContributions (.text name) own (.finite p) =
      .ok [.attribute (.text name) shown] := by
  have blending : track.isDiscrete = false := linear.blending
  have along := along_pair first last low high Keyframe.blendNumber
  have present : (Value.text name : Value .exact).isPresent = true := decide_eq_true some_name
  have slot : Slot.ofName (.text name : Value .exact) = .ok .plain := by
    show Except.ok ((Slot.names.lookup name).getD .plain) = _
    rw [plain]
    rfl
  have picks : track.pick [first, last] (.finite p) Keyframe.blendNumber = .ok shown := by
    unfold Track.pick
    rw [blending, if_neg Bool.false_ne_true, along, blends]
    rfl
  unfold Track.attributeContributions
  rw [present, slot]
  dsimp only [bind, Except.bind]
  rw [keyframes, linear.texts.pick]
  dsimp only
  rw [picks]
  rfl

theorem LeadsTo.contributions {a : Animation .exact} {element : Option (Element .exact)}
    {goals : List (Contribution .exact)} (leads : LeadsTo a.subject a.track element goals)
    (linear : a.track.IsLinear) (low : 0 ≤ p) (high : p ≤ 1) (resolver : MotionResolver .exact) :
    a.contributions element resolver (.finite p) = .ok (goals.map (.scaled p)) := by
  cases leads with
  | @number name own first last x y animates some_name plain has keyframes starts zero ends =>
    have blends : Keyframe.blendNumber first last (.finite p) =
        .ok (.number (.finite (p * y.rat))) := by
      rw [← lerp_from_zero zero (leadingNumber_isFinite ends)]
      unfold Keyframe.blendNumber
      rw [starts, ends]
      rfl
    rw [contributions_ownValue animates some_name has]
    exact attributeContributions_plain some_name plain linear keyframes low high blends
  | @shift first last xs ys moves zero level far high' =>
    have blends : TransformKind.translate.blend first last (.finite p) =
        .ok [.transform .translateX (.finite (p * (ys.headD 0).rat)),
          .transform .translateY (.finite (p * (ys.getD 1 0).rat))] := by
      rw [← lerp_from_zero zero far, ← lerp_from_zero level high']
      unfold TransformKind.blend
      rw [moves.starts, moves.ends]
      rfl
    exact moves.contributions linear low high blends rfl element resolver
  | turn single moves zero far centered =>
    have blends := blend_single (p := p) single moves.starts moves.ends zero far
    rw [List.map_cons, scaled_center centered]
    exact moves.contributions linear low high blends centered element resolver

theorem grown_number (n : Int) (x y : Rat) :
    Animation.grown n (.number (.finite x)) (.number (.finite y)) =
      .ok (.number (.finite (x + n * y)) : Value .exact) := by
  have product : (.finite n : Number .exact) * .finite y = .finite (n * y) := mul_exact rfl rfl
  have sum : (.finite x : Number .exact) + .finite (n * y) = .finite (x + n * y) :=
    add_exact rfl rfl
  rw [← sum, ← product]
  rfl

theorem scaled_further (n : Int) (x : Number .exact) :
    p * x.rat + n * (1 * x.rat) = (p + n) * x.rat := by ring

theorem accumulated_transform {finals rest grown : List (Contribution .exact)}
    {property : TransformProperty} {n : Int} {x y : Rat}
    (found : Animation.sameSlot finals (.transform property (.finite x)) = .number (.finite y))
    (others : Animation.accumulated n finals rest = .ok grown) :
    Animation.accumulated n finals (.transform property (.finite x) :: rest) =
      .ok (.transform property (.finite (x + n * y)) :: grown) := by
  unfold Animation.accumulated at others ⊢
  rw [List.mapM_cons, others]
  dsimp only [bind, Except.bind]
  rw [found, grown_number]
  rfl

theorem LeadsTo.accumulated {element : Option (Element .exact)}
    {goals : List (Contribution .exact)} (leads : LeadsTo subject track element goals) (n : Int) :
    Animation.accumulated n (goals.map (.scaled 1)) (goals.map (.scaled p)) =
      .ok (goals.map (.scaled (p + n))) := by
  cases leads with
  | @number name own first last x y animates some_name plain has keyframes starts zero ends =>
    have same : ((Value.text name : Value .exact) == .text name) = true := decide_eq_true rfl
    have found : Animation.sameSlot
        [.attribute (.text name) (.number (.finite (1 * y.rat) : Number .exact))]
        (.attribute (.text name) (.number (.finite (p * y.rat)))) =
          .number (.finite (1 * y.rat)) := by
      simp [Animation.sameSlot, same]
    simp only [List.map_cons, List.map_nil, Contribution.scaled]
    unfold Animation.accumulated
    rw [List.mapM_cons]
    dsimp only [bind, Except.bind]
    rw [found, grown_number, scaled_further]
    rfl
  | @shift first last xs ys moves zero level far high =>
    simp only [List.map_cons, List.map_nil, Contribution.scaled]
    rw [accumulated_transform rfl (accumulated_transform rfl rfl), scaled_further, scaled_further]
    rfl
  | @turn kind property first last xs ys center single moves zero far centered =>
    have found (x y : Rat) : Animation.sameSlot (.transform property (.finite y) :: center)
        (.transform property (.finite x)) = .number (.finite y) := by
      rcases center_cases centered with rfl | ⟨_, _, rfl⟩ <;> simp [Animation.sameSlot]
    have others (finals : List (Contribution .exact)) :
        Animation.accumulated n finals center = .ok center := by
      rcases center_cases centered with rfl | ⟨_, _, rfl⟩ <;> rfl
    simp only [List.map_cons, scaled_center centered, Contribution.scaled]
    rw [accumulated_transform (found _ _) (others _), scaled_further]

theorem LeadsTo.beside {element : Option (Element .exact)} {goals : List (Contribution .exact)}
    (leads : LeadsTo subject track element goals) (p q : Rat) :
    List.Forall₂ Contribution.Beside (goals.map (.scaled p)) (goals.map (.scaled q)) := by
  cases leads with
  | number => exact .cons (.attribute _ _ _) .nil
  | shift => exact .cons (.transform _ _ _) (.cons (.transform _ _ _) .nil)
  | turn single moves zero far centered =>
    rw [List.map_cons, List.map_cons, scaled_center centered, scaled_center centered]
    refine .cons (.transform _ _ _) ?_
    rcases center_cases centered with rfl | ⟨x, y, rfl⟩
    · exact .nil
    · exact .cons (.center x y) .nil

theorem not_leadsTo_set {name : Value .exact} {element : Option (Element .exact)}
    {goals : List (Contribution .exact)} : ¬ LeadsTo (.set name) track element goals := by
  intro leads
  cases leads with
  | number animates => cases animates
  | shift moves => obtain ⟨v, animates, -⟩ := moves.known; cases animates
  | turn single moves => obtain ⟨v, animates, -⟩ := moves.known; cases animates

end

namespace Animation
variable {a : Animation .exact} {element : Option (Element .exact)}
  {goals : List (Contribution .exact)} {begin dur t : Rat} {count : Option Nat}

/-- What is shown at a place in a run: what has passed of the run, and for an animation that adds
    up its runs, all of those that are complete. -/
theorem evaluate_of_place (leads : LeadsTo a.subject a.track element goals)
    (linear : a.track.IsLinear) {time : Number .exact} {m : Schedule.Moment .exact} {p : Rat}
    (placed : a.schedule.resolve time = .ok m) (is_p : m.progress = .finite p) (low : 0 ≤ p)
    (high : p ≤ 1) (counted : 0 ≤ m.iteration) (resolver : MotionResolver .exact) :
    a.evaluate element resolver time = .ok (goals.map (.scaled (p +
      if a.composition.isAccumulating ∧ (m.phase = .active ∨ m.phase = .frozen) then
        (m.iteration : Rat) else 0))) := by
  have current := leads.contributions linear low high resolver
  have finals := leads.contributions linear zero_le_one le_rfl resolver
  have some_goal : (goals.map (Contribution.scaled p)).isEmpty = false := by
    cases leads <;> rfl
  unfold evaluate
  split
  · rename_i name is_set
    rw [is_set] at leads
    exact absurd leads not_leadsTo_set
  rw [placed]
  dsimp only [bind, Except.bind]
  rw [is_p, linear.texts.eased, linear.ease]
  dsimp only
  rw [current]
  dsimp only
  split
  · rename_i adds
    simp only [Bool.and_eq_true, Bool.or_eq_true, decide_eq_true_eq] at adds
    rw [if_pos ⟨adds.1.1.1, adds.1.1.2⟩]
    change (a.contributions element resolver (.finite 1) >>= _) = _
    rw [finals]
    exact leads.accumulated m.iteration
  · rename_i rests
    have unmoved : (if a.composition.isAccumulating ∧ (m.phase = .active ∨ m.phase = .frozen) then
        (m.iteration : Rat) else 0) = 0 := by
      split
      · rename_i adds
        have idle : ¬ 0 < m.iteration := by
          intro some_run
          apply rests
          simp [adds.1, adds.2, some_run, some_goal]
        obtain none : m.iteration = 0 := by omega
        rw [none, Int.cast_zero]
      · rfl
    rw [unmoved, add_zero]
    rfl

section Runs
variable {time : Number .exact} (repeats : a.schedule.Repeats begin dur count)
  (leads : LeadsTo a.subject a.track element goals) (linear : a.track.IsLinear)
  (is_t : time.Denotes t) (resolver : MotionResolver .exact)
include repeats is_t

theorem resolve_of_runs : a.schedule.resolve time = .ok
    ((Schedule.Course.ofRuns begin dur count).place (a.schedule.fill.isTheText "freeze") t) :=
  repeats.follows.resolve is_t

include leads linear

theorem evaluate_before (early : t < begin) :
    a.evaluate element resolver time = .ok (goals.map (.scaled 0)) := by
  have place := resolve_of_runs repeats is_t
  rw [Schedule.Course.place_before early] at place
  rw [evaluate_of_place leads linear place rfl le_rfl zero_le_one le_rfl resolver]
  simp

theorem evaluate_running (adds : a.composition.isAccumulating = true) (begun : begin ≤ t)
    (inside : ∀ n ∈ count, t < begin + n * dur) :
    a.evaluate element resolver time = .ok (goals.map (.scaled ((t - begin) / dur))) := by
  have still : ¬ (Schedule.Course.ofRuns begin dur count).IsOver t := by
    rw [Schedule.Course.isOver_ofRuns repeats.lasting]
    rintro ⟨n, counted, past⟩
    exact absurd (inside n counted) (not_lt.mpr past)
  have place := resolve_of_runs repeats is_t
  rw [Schedule.Course.place_running begun still] at place
  have counted : 0 ≤ ⌊(Schedule.Course.ofRuns begin dur count).runs t⌋ :=
    Int.floor_nonneg.mpr (div_nonneg (sub_nonneg.mpr begun) repeats.lasting.le)
  rw [evaluate_of_place leads linear place rfl (Int.fract_nonneg _) (Int.fract_lt_one _).le counted
    resolver, if_pos ⟨adds, .inl rfl⟩, Int.fract_add_floor]
  rfl

theorem evaluate_ended (adds : a.composition.isAccumulating = true) {n : Nat} (last : n ∈ count)
    (past : begin + n * dur ≤ t) : a.evaluate element resolver time =
      .ok (goals.map (.scaled (if a.schedule.fill.isTheText "freeze" then n else 0))) := by
  obtain rfl : count = some n := last
  have some_run := repeats.some_run n rfl
  have lasting := repeats.lasting
  have finished := (Schedule.Course.isOver_ofRuns lasting).mpr ⟨n, rfl, past⟩
  have begun : begin ≤ t := by
    have positive : (0 : Rat) ≤ n * dur := by positivity
    linarith
  have place := resolve_of_runs repeats is_t
  rw [Schedule.Course.place_over begun finished, Schedule.Course.rest,
    Schedule.Course.lastRun_ofRuns lasting some_run] at place
  have counted : (0 : Int) ≤ n - 1 := by omega
  cases frozen : a.schedule.fill.isTheText "freeze" with
  | true =>
    rw [frozen, if_pos rfl] at place
    rw [evaluate_of_place leads linear place rfl zero_le_one le_rfl counted resolver,
      if_pos ⟨adds, .inr rfl⟩, if_pos rfl]
    push_cast
    rw [add_sub_cancel]
  | false =>
    rw [frozen, if_neg Bool.false_ne_true] at place
    rw [evaluate_of_place leads linear place rfl le_rfl zero_le_one counted resolver]
    simp

theorem evaluate_scaled (single : Composition .exact) : ∃ p q,
    { a with composition := single }.evaluate element resolver time =
        .ok (goals.map (.scaled p)) ∧
      a.evaluate element resolver time = .ok (goals.map (.scaled q)) := by
  have place := resolve_of_runs repeats is_t
  obtain ⟨p, is_p, low, high⟩ := Schedule.Course.place_finite
    (.ofRuns begin dur count) (a.schedule.fill.isTheText "freeze") t
  have counted := (Schedule.Course.place_within
    (.ofRuns begin dur count) (a.schedule.fill.isTheText "freeze") t).2
  exact ⟨_, _, evaluate_of_place (a := { a with composition := single }) leads linear place is_p
    low high counted resolver, evaluate_of_place leads linear place is_p low high counted resolver⟩

end Runs

/-- The amounts grow with the time through all runs, on one straight line, and stay where it ends if
    the end is kept.  They are at the places where they are without adding up. -/
structure AddsUp (a : Animation .exact) (element : Option (Element .exact))
    (resolver : MotionResolver .exact) (begin dur : Rat) (count : Option Nat)
    (goals : List (Contribution .exact)) : Prop where
  active : ∀ time t, time.Denotes t → ∃ m, a.schedule.resolve time = .ok m ∧
    (m.phase = .active ↔ begin ≤ t ∧ ∀ n ∈ count, t < begin + n * dur)
  before : ∀ time t, time.Denotes t → t < begin →
    a.evaluate element resolver time = .ok (goals.map (.scaled 0))
  running : ∀ time t, time.Denotes t → begin ≤ t → (∀ n ∈ count, t < begin + n * dur) →
    a.evaluate element resolver time = .ok (goals.map (.scaled ((t - begin) / dur)))
  ended : ∀ time t, time.Denotes t → ∀ n ∈ count, begin + n * dur ≤ t →
    a.evaluate element resolver time =
      .ok (goals.map (.scaled (if a.schedule.fill.isTheText "freeze" then n else 0)))
  places : ∀ time t, time.Denotes t → ∀ single : Composition .exact,
    single.isAccumulating = false → ∃ plain shown,
      { a with composition := single }.evaluate element resolver time = .ok plain ∧
        a.evaluate element resolver time = .ok shown ∧ List.Forall₂ Contribution.Beside plain shown

theorem accumulated_runs_add_up (repeats : a.schedule.Repeats begin dur count)
    (leads : LeadsTo a.subject a.track element goals) (linear : a.track.IsLinear)
    (adds : a.composition.isAccumulating = true) (resolver : MotionResolver .exact) :
    a.AddsUp element resolver begin dur count goals where
  active time t is_t := by
    refine ⟨_, resolve_of_runs repeats is_t, (Schedule.Course.place_phase _ _ t).2.trans ?_⟩
    rw [Schedule.Course.isOver_ofRuns repeats.lasting]
    simp [Schedule.Course.ofRuns]
  before _ _ is_t early := evaluate_before repeats leads linear is_t resolver early
  running _ _ is_t begun inside :=
    evaluate_running repeats leads linear is_t resolver adds begun inside
  ended _ _ is_t _ last past := evaluate_ended repeats leads linear is_t resolver adds last past
  places _ _ is_t single _ := by
    obtain ⟨p, q, plain, shown⟩ := evaluate_scaled repeats leads linear is_t resolver single
    exact ⟨_, _, plain, shown, leads.beside p q⟩

def mill : Animation .exact :=
  { id := .text "turn", target := .text "mill", subject := .transform (.text "rotate")
    schedule := { begin := .text "1s", dur := .text "2s", repeatCount := .int 3,
                  fill := .text "freeze" }
    track := { start := .text "0 10 20", goal := .text "90 10 20", mode := .text "linear" }
    composition := { accumulate := .text "sum" } }

theorem mill_keeps_turning :
    mill.evaluate none originPlacement 6 =
      .ok [.transform .rotate (.finite 225), .rotationCenter (.finite 10) (.finite 20)] ∧
    mill.evaluate none originPlacement 60 =
      .ok [.transform .rotate (.finite 270), .rotationCenter (.finite 10) (.finite 20)] := by
  have repeats : mill.schedule.Repeats 1 2 (some 3) := by
    refine ⟨⟨1, by decide +kernel, .finite 1⟩, ⟨2, by decide +kernel, .finite 2⟩, two_pos,
      ⟨3, rfl, .finite 3, by norm_num⟩, ?_, rfl, rfl⟩
    rintro n ⟨⟩
    decide
  have moves : Transforms mill.subject mill.track .rotate (.text "0 10 20") (.text "90 10 20")
      [.finite 0, .finite 10, .finite 20] [.finite 90, .finite 10, .finite 20] :=
    ⟨⟨_, rfl, rfl⟩, by with_unfolding_all rfl, by decide +kernel, by decide +kernel⟩
  have leads : LeadsTo mill.subject mill.track none
      [.transform .rotate (.finite 90), .rotationCenter (.finite 10) (.finite 20)] :=
    .turn rfl moves .zero rfl (by with_unfolding_all rfl)
  have linear : mill.track.IsLinear := ⟨⟨rfl, rfl, rfl⟩, rfl, rfl, rfl, rfl⟩
  have line := accumulated_runs_add_up repeats leads linear rfl originPlacement
  constructor
  · refine (line.running 6 6 (.finite 6) (by norm_num) ?_).trans ?_
    · rintro n ⟨⟩
      norm_num
    · norm_num [Contribution.scaled]
  · refine (line.ended 60 60 (.finite 60) 3 rfl (by norm_num)).trans ?_
    have frozen : mill.schedule.fill.isTheText "freeze" = true := rfl
    rw [if_pos frozen]
    norm_num [Contribution.scaled]

end Animation

end DeclarativeAnimation
