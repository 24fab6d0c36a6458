import DeclarativeAnimation.Proofs.Animation.RoundTrip
import DeclarativeAnimation.Proofs.Value.Grouping
import DeclarativeAnimation.State.Evaluation

/-! States from animations that were written and read back.  No evaluation tells a zero from a
    negative one, so that the states are the same ones. -/
namespace DeclarativeAnimation

variable {A : Arithmetic} {a : Animation A} {resolver : MotionResolver A}

theorem Schedule.repeatTimes_unsigned (v : Value A) : repeatTimes v.unsigned = repeatTimes v := by
  rcases v.unsigned_cases with same | ⟨rfl, zero⟩
  · rw [same]
  · rw [zero]
    rfl

theorem Schedule.resolve_unsigned (s : Schedule A) (time : Number A) :
    Schedule.resolve { s with repeatCount := s.repeatCount.unsigned } time = s.resolve time := by
  simp only [resolve, activeDuration, repeatTimes_unsigned]
  rfl

namespace Animation

theorem contributions_unsigned (element : Option (Element A)) {progress : Number A}
    (same : resolver a.unsigned progress = resolver a progress) :
    a.unsigned.contributions element resolver progress =
      a.contributions element resolver progress := by
  rcases a with ⟨id, target, subject, schedule, track, composition⟩
  cases subject with
  | motion path reference rotate keyPoints =>
    unfold contributions
    rw [same]
    rfl
  | _ => rfl

theorem evaluate_unsigned (element : Option (Element A)) (time : Number A)
    (same : ∀ progress, resolver a.unsigned progress = resolver a progress) :
    a.unsigned.evaluate element resolver time = a.evaluate element resolver time := by
  have moment : a.unsigned.schedule.resolve time = a.schedule.resolve time :=
    Schedule.resolve_unsigned a.schedule time
  have written (progress : Number A) := contributions_unsigned element (same progress)
  simp only [evaluate, moment, written]
  rcases a with ⟨id, target, subject, schedule, track, composition⟩
  cases subject <;> rfl

theorem applyAll_unsigned (element : Option (Element A)) (state : ElementState A)
    (contributions : List (Contribution A)) :
    state.applyAll a.unsigned element contributions = state.applyAll a element contributions := by
  rcases a with ⟨id, target, subject, schedule, track, composition⟩
  cases subject <;> rfl

end Animation

theorem originPlacement_unsigned (a : Animation A) (progress : Number A) :
    originPlacement a.unsigned progress = originPlacement a progress := by
  rcases a with ⟨id, target, subject, schedule, track, composition⟩
  cases subject <;> rfl

section States
variable {animations : List (Animation A)} {elements : Elements A}

theorem groupedBy_unsigned :
    groupedBy (animations.map Animation.unsigned) =
      (groupedBy animations).map (regroup Animation.unsigned) :=
  grouping_map [] Animation.unsigned fun _ _ => rfl

variable (same : ∀ a ∈ animations, ∀ progress,
  resolver a.unsigned progress = resolver a progress)
include same

theorem ofAnimations_unsigned {id : Value A} (element : Option (Element A)) (time : Number A) :
    ElementState.ofAnimations id (animations.map Animation.unsigned) element resolver time =
      ElementState.ofAnimations id animations element resolver time := by
  unfold ElementState.ofAnimations
  generalize ({ id := id, time := time } : ElementState A) = state
  induction animations generalizing state with
  | nil => rfl
  | cons a rest ih =>
    obtain ⟨here, later⟩ := List.forall_mem_cons.mp same
    have target : a.unsigned.target = a.target := rfl
    rw [List.map_cons, List.filter_cons, List.filter_cons, target]
    split
    · rw [List.foldlM_cons, List.foldlM_cons, Animation.evaluate_unsigned element time here]
      simp only [Animation.applyAll_unsigned, ih later]
    · exact ih later state

/-- The states do not tell a zero from a negative one, where the resolver does not. -/
theorem allStates_unsigned (time : Number A) :
    allStates (animations.map Animation.unsigned) elements resolver time =
      allStates animations elements resolver time := by
  unfold allStates
  rw [groupedBy_unsigned]
  cases elements.table? with
  | error fault => rfl
  | ok table =>
    cases grouped : groupedBy animations with
    | error fault => rfl
    | ok groups =>
      refine congrArg (· >>= fun states => pure (states.filterMap id)) (mapM_regroup ?_)
      intro entry member
      dsimp only
      split
      · have grouped (a : Animation A) (inside : a ∈ entry.2) :=
          same a (mem_of_grouping grouped member inside)
        rw [ofAnimations_unsigned grouped]
      · rfl

theorem allStatesAt_unsigned (time : Value A) :
    allStatesAt (animations.map Animation.unsigned) elements resolver time =
      allStatesAt animations elements resolver time := by
  unfold allStatesAt
  cases time.toNumber with
  | ok t => exact allStates_unsigned same t
  | error fault =>
    dsimp only
    rw [groupedBy_unsigned]
    cases elements.table? with
    | error worse => rfl
    | ok table =>
      cases groupedBy animations with
      | error worse => rfl
      | ok groups =>
        have hidden : ((regroup Animation.unsigned groups).all fun entry =>
            (shownElement table entry.1).isNone) =
            groups.all fun entry => (shownElement table entry.1).isNone := by
          simp [regroup, Function.comp_def]
        show (if (regroup Animation.unsigned groups).all (fun entry =>
            (shownElement table entry.1).isNone) then pure [] else throw fault) = _
        rw [hidden]
        rfl

end States
end DeclarativeAnimation
