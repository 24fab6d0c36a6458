import DeclarativeAnimation.Proofs.Animation.Authored
import DeclarativeAnimation.Proofs.State.ContributionKeys
import DeclarativeAnimation.Proofs.State.Moves
import DeclarativeAnimation.Proofs.Value.Names

/-! The composition law.  A state is built up by one contribution after the other.  What it comes
    to at each place is the last replacement there and the sums since then; of what has no sum,
    the last contribution counts. -/
namespace DeclarativeAnimation
variable {A : Arithmetic}

theorem filterMap_concat {α β : Type} (f : α → Option β) (items : List α) (a : α) :
    (items ++ [a]).filterMap f = items.filterMap f ++ (f a).toList := by
  rw [List.filterMap_append]
  cases found : f a <;> simp [found]

theorem getLast?_filterMap_concat {α β : Type} (f : α → Option β) (items : List α) (a : α) :
    ((items ++ [a]).filterMap f).getLast? = (f a).or (items.filterMap f).getLast? := by
  rw [filterMap_concat]
  cases f a <;> simp

namespace Move

def ofNumber (additive : Bool) (x : Number A) : Move (Number A) (Number A) :=
  if additive then .sum x else .replace x

def ofValue (additive : Bool) (v : Value A) : Move (Value A) (Value.Amount A) :=
  if h : additive = true ∧ v.isNumeric = true then .sum ⟨v, h.2⟩ else .replace v

end Move

namespace Contribution

def amountOf? (p : TransformProperty) : Contribution A → Option (Number A)
  | .transform q x => if q = p then some x else none
  | _ => none

def styleOf? (p : StyleProperty) : Contribution A → Option (Value A)
  | .style q v => if q = p then some v else none
  | _ => none

def attributeOf? (name : String) : Contribution A → Option (Value A)
  | .attribute (.text s) v => if s = name then some v else none
  | _ => none

def center? : Contribution A → Option (Number A × Number A)
  | .rotationCenter x y => some (x, y)
  | _ => none

def path? : Contribution A → Option String
  | .path data => some data
  | _ => none

def placement? : Contribution A → Option (Placement A)
  | .motion placement => some placement
  | _ => none

def isTransform : Contribution A → Bool
  | .transform _ _ | .rotationCenter _ _ => true
  | _ => false

def isStyle : Contribution A → Bool
  | .style _ _ => true
  | _ => false

end Contribution

abbrev Write (A : Arithmetic) := Animation A × Contribution A

namespace Write

def transformMoves (p : TransformProperty) (all : List (Write A)) :
    List (Move (Number A) (Number A)) :=
  all.filterMap fun w => (w.2.amountOf? p).map (Move.ofNumber w.1.composition.isAdditive)

def styleMoves (p : StyleProperty) (all : List (Write A)) :
    List (Move (Value A) (Value.Amount A)) :=
  all.filterMap fun w => (w.2.styleOf? p).map (Move.ofValue w.1.composition.isAdditive)

def attributeMoves (name : String) (all : List (Write A)) :
    List (Move (Value A) (Value.Amount A)) :=
  all.filterMap fun w => (w.2.attributeOf? name).map (Move.ofValue w.1.composition.isAdditive)

section
variable (all : List (Write A)) (w : Write A)

theorem transformMoves_concat (p : TransformProperty) :
    transformMoves p (all ++ [w]) = transformMoves p all ++
      ((w.2.amountOf? p).map (Move.ofNumber w.1.composition.isAdditive)).toList :=
  filterMap_concat _ all w

theorem styleMoves_concat (p : StyleProperty) :
    styleMoves p (all ++ [w]) = styleMoves p all ++
      ((w.2.styleOf? p).map (Move.ofValue w.1.composition.isAdditive)).toList :=
  filterMap_concat _ all w

theorem attributeMoves_concat (name : String) :
    attributeMoves name (all ++ [w]) = attributeMoves name all ++
      ((w.2.attributeOf? name).map (Move.ofValue w.1.composition.isAdditive)).toList :=
  filterMap_concat _ all w

end

def byAnimation (element : Option (Element A)) (resolver : MotionResolver A) (time : Number A)
    (a : Animation A) : Except Fault (List (Write A)) := do
  return (← a.evaluate element resolver time).map fun c => (a, c)

def byTarget (id : Value A) (animations : List (Animation A)) (element : Option (Element A))
    (resolver : MotionResolver A) (time : Number A) : Except Fault (List (Write A)) := do
  return (← (animations.filter fun a => a.target == id).mapM
    (byAnimation element resolver time)).flatten

end Write

def Element.ownNumber (element : Option (Element A)) (name : String) : Option (Number A) :=
  element.bind fun e => (e.baseValue (.text name) >>= Keyframe.leadingNumber).toOption.join

namespace ElementState

/-- A state is what has been written, each place for itself.  A part of it is there just where
    something has been written to that part. -/
structure IsComposed (element : Option (Element A)) (all : List (Write A))
    (state : ElementState A) : Prop where
  transform : ∀ p, (state.transform.getD {}).get p = p.composed (Write.transformMoves p all)
  center : (state.transform.getD {}).center = (all.filterMap (·.2.center?)).getLast?
  transformed : state.transform.isSome = all.any (·.2.isTransform)
  style : ∀ p, (state.style.getD {}).get p =
    Value.composed (Element.ownNumber element p.attributeName) (Write.styleMoves p all)
  styled : state.style.isSome = all.any (·.2.isStyle)
  attributes : ∀ name, Keyed.get? (.text name) state.attributes =
    if (Write.attributeMoves name all).isEmpty then none
    else some (Value.composed (Element.ownNumber element name) (Write.attributeMoves name all))
  texts : ∀ entry ∈ state.attributes, ∃ name, entry.1 = .text name
  path : state.path = (all.filterMap (·.2.path?)).getLast?
  motion : state.motion = (all.filterMap (·.2.placement?)).getLast?

end ElementState

section
variable {element : Option (Element .exact)}

theorem leadingNumber_exact (v : Value .exact) : ∃ r, Keyframe.leadingNumber v = .ok r := by
  cases v <;> exact ⟨_, rfl⟩

theorem baseNumber_exact {a : Animation .exact} {name : String}
    (names : a.subject.attributeName = .text name) (some_name : name ≠ "") :
    baseNumber a element = .ok (Element.ownNumber element name) := by
  have present : (Value.text name : Value .exact).isPresent = true := decide_eq_true some_name
  unfold baseNumber
  rw [names]
  cases element with
  | none => rfl
  | some e =>
    have known : ∃ own, (e.baseValue (.text name) >>= Keyframe.leadingNumber) = .ok own := by
      unfold Element.baseValue
      dsimp only [Value.key, bind, Except.bind]
      cases e.data.lookup name with
      | none => exact leadingNumber_exact _
      | some v => exact leadingNumber_exact _
    obtain ⟨own, known⟩ := known
    have read : Element.ownNumber (some e) name = own := by
      rw [Element.ownNumber, Option.bind_some, known]
      rfl
    dsimp only
    rw [if_pos present, read]
    exact known

theorem compose_exact {a : Animation .exact} {name : String}
    (names : a.subject.attributeName = .text name) (some_name : name ≠ "")
    (previous value : Value .exact) :
    compose a element previous value = .ok (Value.step (Element.ownNumber element name) previous
      (Move.ofValue a.composition.isAdditive value)) := by
  unfold compose Move.ofValue
  by_cases added : a.composition.isAdditive = true ∧ value.isNumeric = true
  · rw [dif_pos added, if_neg (by simp [added.1, added.2]), Value.step, Value.start?]
    have numeric := added.2
    split
    · rename_i written
      exact Value.sum_numeric written numeric
    · rw [baseNumber_exact names some_name]
      cases Element.ownNumber element name with
      | none => rfl
      | some own =>
        have is_own : (Value.number own).isNumeric = true := rfl
        exact Value.sum_numeric is_own numeric
  · rw [dif_neg added, if_pos]
    · rfl
    · cases additive : a.composition.isAdditive <;> cases numeric : value.isNumeric <;>
        simp_all

end

namespace ElementState
variable {element : Option (Element .exact)} {before : List (Write .exact)}
  {state : ElementState .exact}

theorem isComposed_nil (id : Value .exact) (time : Number .exact) :
    IsComposed element [] { id := id, time := time } where
  transform p := rfl
  center := rfl
  transformed := rfl
  style p := by cases p <;> rfl
  styled := rfl
  attributes _ := rfl
  texts := by simp
  path := rfl
  motion := rfl

/-- What a contribution makes of a state, each place for itself. -/
structure Adds (element : Option (Element .exact)) (state : ElementState .exact) (w : Write .exact)
    (next : ElementState .exact) : Prop where
  transform : ∀ p, (next.transform.getD {}).get p =
    ((w.2.amountOf? p).map (Move.ofNumber w.1.composition.isAdditive)).elim
      ((state.transform.getD {}).get p) (p.step ((state.transform.getD {}).get p))
  center : (next.transform.getD {}).center = w.2.center?.or (state.transform.getD {}).center
  transformed : next.transform.isSome = (state.transform.isSome || w.2.isTransform)
  style : ∀ p, (next.style.getD {}).get p =
    ((w.2.styleOf? p).map (Move.ofValue w.1.composition.isAdditive)).elim
      ((state.style.getD {}).get p)
      (Value.step (Element.ownNumber element p.attributeName) ((state.style.getD {}).get p))
  styled : next.style.isSome = (state.style.isSome || w.2.isStyle)
  attributes : ∀ name, Keyed.get? (.text name) next.attributes =
    ((w.2.attributeOf? name).map (Move.ofValue w.1.composition.isAdditive)).elim
      (Keyed.get? (.text name) state.attributes) fun move =>
        some (Value.step (Element.ownNumber element name)
          ((Keyed.get? (.text name) state.attributes).getD .null) move)
  texts : ∀ entry ∈ next.attributes, ∃ name, entry.1 = .text name
  path : next.path = w.2.path?.or state.path
  motion : next.motion = w.2.placement?.or state.motion

theorem IsComposed.add {w : Write .exact} {next : ElementState .exact}
    (composed : state.IsComposed element before) (adds : Adds element state w next) :
    next.IsComposed element (before ++ [w]) where
  transform p := by
    rw [adds.transform, Write.transformMoves_concat]
    cases Option.map _ (w.2.amountOf? p) with
    | none =>
      rw [Option.toList_none, List.append_nil]
      exact composed.transform p
    | some move =>
      rw [Option.toList_some, TransformProperty.composed_concat, Option.elim_some,
        composed.transform p]
  center := by rw [adds.center, composed.center, getLast?_filterMap_concat]
  transformed := by simp [adds.transformed, composed.transformed]
  style p := by
    rw [adds.style, Write.styleMoves_concat]
    cases Option.map _ (w.2.styleOf? p) with
    | none =>
      rw [Option.toList_none, List.append_nil]
      exact composed.style p
    | some move => rw [Option.toList_some, Value.composed_concat, Option.elim_some, composed.style p]
  styled := by simp [adds.styled, composed.styled]
  attributes name := by
    have there : (Keyed.get? (.text name) state.attributes).getD .null =
        Value.composed (Element.ownNumber element name) (Write.attributeMoves name before) := by
      rw [composed.attributes name]
      cases Write.attributeMoves name before <;> rfl
    rw [adds.attributes, there, Write.attributeMoves_concat]
    cases Option.map _ (w.2.attributeOf? name) with
    | none =>
      rw [Option.toList_none, List.append_nil]
      exact composed.attributes name
    | some move =>
      rw [Option.toList_some, Value.composed_concat, Option.elim_some, if_neg (by simp)]
  texts := adds.texts
  path := by rw [adds.path, composed.path, getLast?_filterMap_concat]
  motion := by rw [adds.motion, composed.motion, getLast?_filterMap_concat]

section
variable {a : Animation .exact} (texts : ∀ entry ∈ state.attributes, ∃ name, entry.1 = .text name)
include texts

theorem apply_style {property : StyleProperty} (value : Value .exact)
    (names : a.subject.attributeName = .text property.attributeName) :
    ∃ next, state.apply a element (.style property value) = .ok next ∧
      Adds element state (a, .style property value) next := by
  have some_name : property.attributeName ≠ "" := by cases property <;> decide
  have composes : compose a element ((state.style.getD {}).get property) value = _ :=
    compose_exact names some_name _ value
  generalize made : Value.step _ _ _ = v at composes
  refine ⟨{ state with style := some ((state.style.getD {}).set property v) }, ?_, fun _ => rfl,
    rfl, (Bool.or_false _).symm, fun p => ?_, (Bool.or_true _).symm, fun _ => rfl, texts, rfl, rfl⟩
  · unfold ElementState.apply
    dsimp only
    rw [composes]
    rfl
  · show ((state.style.getD {}).set property v).get p = _
    by_cases here : property = p
    · obtain rfl := here
      rw [Style.get_set_self, ← made, Contribution.styleOf?, if_pos rfl]
      rfl
    · rw [Style.get_set_other _ (Ne.symm here), Contribution.styleOf?, if_neg here]
      rfl

theorem apply_attribute {s : String} (some_name : s ≠ "") (value : Value .exact)
    (names : a.subject.attributeName = .text s) :
    ∃ next, state.apply a element (.attribute (.text s) value) = .ok next ∧
      Adds element state (a, .attribute (.text s) value) next := by
  have keyed : (Value.text s : Value .exact).IsName := rfl
  have keys : ∀ entry ∈ state.attributes, entry.1.IsName := by
    intro entry member
    obtain ⟨name, same⟩ := texts entry member
    rw [same]
    rfl
  have composes : compose a element ((Keyed.get? (.text s) state.attributes).getD .null) value = _ :=
    compose_exact names some_name _ value
  generalize made : Value.step _ _ _ = v at composes
  refine ⟨{ state with attributes := Keyed.put (.text s) v state.attributes }, ?_, fun _ => rfl,
    rfl, (Bool.or_false _).symm, fun _ => rfl, (Bool.or_false _).symm, fun name => ?_, ?_, rfl, rfl⟩
  · unfold ElementState.apply
    dsimp only
    rw [composes]
    rfl
  · show Keyed.get? (.text name) (Keyed.put (.text s) v state.attributes) = _
    rw [Keyed.get?_put keyed keys]
    by_cases here : s = name
    · obtain rfl := here
      have itself : (Value.text s == (Value.text s : Value .exact)) = true := decide_eq_true rfl
      rw [if_pos itself, ← made, Contribution.attributeOf?, if_pos rfl]
      rfl
    · have other : ¬ (Value.text s == (Value.text name : Value .exact)) = true :=
        fun same => here (of_decide_eq_true same)
      rw [if_neg other, Contribution.attributeOf?, if_neg here]
      rfl
  · exact Keyed.forall_keys_put (P := fun key => ∃ name, key = .text name) ⟨s, rfl⟩ texts

theorem apply_transform (property : TransformProperty) (amount : Number .exact) :
    ∃ next, state.apply a element (.transform property amount) = .ok next ∧
      Adds element state (a, .transform property amount) next := by
  refine ⟨_, rfl, fun p => ?_, ?_, (Bool.or_true _).symm, fun _ => rfl, (Bool.or_false _).symm,
    fun _ => rfl, texts, rfl, rfl⟩
  · show ((state.transform.getD {}).set property _).get p = _
    by_cases here : property = p
    · obtain rfl := here
      rw [Transform.get_set_self, Contribution.amountOf?, if_pos rfl, Option.map_some,
        Option.elim_some, Move.ofNumber]
      split <;> rfl
    · rw [Transform.get_set_other _ (Ne.symm here), Contribution.amountOf?, if_neg here]
      rfl
  · show ((state.transform.getD {}).set property _).center = _
    cases property <;> rfl

theorem apply_adds {c : Contribution .exact} (plain : a.subject.attributeName.IsPlain)
    (named : c.IsNamed a.subject.attributeName) :
    ∃ next, state.apply a element c = .ok next ∧ Adds element state (a, c) next := by
  rcases c with ⟨property, value⟩ | ⟨key, value⟩ | data | ⟨property, amount⟩ | ⟨x, y⟩ | placement
  · exact apply_style texts value named
  · obtain ⟨rfl, present⟩ := named
    rcases plain with none | ⟨s, names⟩
    · rw [none] at present
      cases present
    · rw [names] at present ⊢
      exact apply_attribute texts (of_decide_eq_true present) value names
  · exact ⟨_, rfl, fun _ => rfl, rfl, (Bool.or_false _).symm, fun _ => rfl, (Bool.or_false _).symm,
      fun _ => rfl, texts, rfl, rfl⟩
  · exact apply_transform texts property amount
  · refine ⟨_, rfl, fun p => ?_, rfl, (Bool.or_true _).symm, fun _ => rfl, (Bool.or_false _).symm,
      fun _ => rfl, texts, rfl, rfl⟩
    cases p <;> rfl
  · exact ⟨_, rfl, fun _ => rfl, rfl, (Bool.or_false _).symm, fun _ => rfl, (Bool.or_false _).symm,
      fun _ => rfl, texts, rfl, rfl⟩

end

theorem IsComposed.applyAll (composed : state.IsComposed element before) {a : Animation .exact}
    (plain : a.subject.attributeName.IsPlain) (contributions : List (Contribution .exact))
    (named : ∀ c ∈ contributions, c.IsNamed a.subject.attributeName) :
    ∃ next, state.applyAll a element contributions = .ok next ∧
      next.IsComposed element (before ++ contributions.map fun c => (a, c)) := by
  induction contributions generalizing state before with
  | nil => exact ⟨state, rfl, by simpa using composed⟩
  | cons c rest ih =>
    obtain ⟨here, later⟩ := List.forall_mem_cons.mp named
    obtain ⟨next, applied, adds⟩ := apply_adds composed.texts plain here
    obtain ⟨last, done, composes⟩ := ih (composed.add adds) later
    refine ⟨last, ?_, ?_⟩
    · unfold ElementState.applyAll at done ⊢
      rw [List.foldlM_cons, applied]
      exact done
    · rw [List.map_cons, List.append_cons]
      exact composes

section
variable {resolver : MotionResolver .exact} {time : Number .exact}
  {animations : List (Animation .exact)}
  (plain : ∀ a ∈ animations, a.subject.attributeName.IsPlain)
include plain

theorem IsComposed.run (composed : state.IsComposed element before)
    {found : List (List (Write .exact))}
    (writes : animations.mapM (Write.byAnimation element resolver time) = .ok found) :
    ∃ last, animations.foldlM (fun state a => do
        state.applyAll a element (← a.evaluate element resolver time)) state = .ok last ∧
      last.IsComposed element (before ++ found.flatten) := by
  -- By induction on the animations that are left; `before` has been written already.
  induction animations generalizing state before found with
  | nil =>
    cases writes
    exact ⟨state, rfl, by simpa using composed⟩
  | cons a rest ih =>
    obtain ⟨here, later⟩ := List.forall_mem_cons.mp plain
    rw [List.mapM_cons] at writes
    obtain ⟨first, written, writes⟩ := bind_eq_ok writes
    obtain ⟨others, more, writes⟩ := bind_eq_ok writes
    obtain ⟨contributions, evaluated, written⟩ := bind_eq_ok written
    cases writes
    cases written
    obtain ⟨next, applied, composes⟩ :=
      composed.applyAll here contributions (Animation.evaluate_named evaluated)
    obtain ⟨last, done, whole⟩ := ih later composes more
    refine ⟨last, ?_, ?_⟩
    · rw [List.foldlM_cons, evaluated]
      exact (congrArg (· >>= _) applied).trans done
    · rw [List.flatten_cons, ← List.append_assoc]
      exact whole

theorem IsComposed.fails (composed : state.IsComposed element before) {fault : Fault}
    (writes : animations.mapM (Write.byAnimation element resolver time) = .error fault) :
    animations.foldlM (fun state a => do
      state.applyAll a element (← a.evaluate element resolver time)) state = .error fault := by
  induction animations generalizing state before with
  | nil => cases writes
  | cons a rest ih =>
    obtain ⟨here, later⟩ := List.forall_mem_cons.mp plain
    rw [List.mapM_cons] at writes
    rw [List.foldlM_cons]
    rcases bind_eq_error writes with failed | ⟨first, written, writes⟩
    · rcases bind_eq_error failed with failed | ⟨contributions, _, failed⟩
      · rw [failed]
        rfl
      · cases failed
    · obtain ⟨contributions, evaluated, _⟩ := bind_eq_ok written
      rcases bind_eq_error writes with failed | ⟨others, _, failed⟩
      · obtain ⟨next, applied, composes⟩ :=
          composed.applyAll here contributions (Animation.evaluate_named evaluated)
        rw [evaluated]
        exact (congrArg (· >>= _) applied).trans (ih later composes failed)
      · cases failed

end

/-- A state is what the animations of its target write, each place for itself, and there is one
    unless one of them cannot be evaluated.  What a place holds forgets all that was there before
    a replacement, and sums that follow one another may change their order. -/
theorem composition_law {animations : List (Animation .exact)}
    (plain : ∀ a ∈ animations, a.subject.attributeName.IsPlain) (id : Value .exact)
    (element : Option (Element .exact)) (resolver : MotionResolver .exact)
    (time : Number .exact) :
    (∀ fault, Write.byTarget id animations element resolver time = .error fault →
      ofAnimations id animations element resolver time = .error fault) ∧
    (∀ all, Write.byTarget id animations element resolver time = .ok all →
      ∃ state, ofAnimations id animations element resolver time = .ok state ∧
        state.IsComposed element all) ∧
    (∀ p : TransformProperty, Move.IsLawful
      (p.composed : List (Move (Number .exact) (Number .exact)) → Number .exact)) ∧
    ∀ base : Option (Number .exact), Move.IsLawful (Value.composed base) := by
  have targeted : ∀ a ∈ animations.filter fun a => a.target == id,
      a.subject.attributeName.IsPlain := fun a member => plain a (List.mem_of_mem_filter member)
  have start : IsComposed element [] { id := id, time := time } := isComposed_nil id time
  refine ⟨fun fault failed => ?_, fun all written => ?_, TransformProperty.composed_isLawful,
    Value.composed_isLawful⟩
  · rcases bind_eq_error failed with failed | ⟨found, _, failed⟩
    · exact start.fails targeted failed
    · cases failed
  · obtain ⟨found, evaluated, done⟩ := bind_eq_ok written
    cases done
    exact start.run targeted evaluated

def kite : List (Animation .exact) :=
  let wind (target goal additive : String) : Animation .exact :=
    { id := .text "wind", target := .text target, subject := .transform (.text "translate")
      schedule := { dur := .text "2s" }, composition := { additive := .text additive }
      track := { start := .text "0 0", goal := .text goal } }
  let light (start goal additive : String) : Animation .exact :=
    { id := .text "light", target := .text "kite", subject := .attribute (.text "opacity")
      schedule := { dur := .text "2s" }, composition := { additive := .text additive }
      track := { start := .text start, goal := .text goal } }
  [wind "kite" "100 10" "sum", light "none" "none" "replace", wind "kite" "6 8" "replace",
    wind "gull" "50 50" "replace", light "0" "0.5" "sum", wind "kite" "2 -4" "sum"]

/-- The last gust is added to the one before, and the light to what the kite has by itself. -/
theorem kite_flies :
    ∃ state, ofAnimations (.text "kite") kite
        (some { id := .text "kite", data := [("opacity", .number (.finite (1 / 2)))] })
        originPlacement 1 = .ok state ∧
      (state.transform.getD {}).get .translateX = .finite 4 ∧
      (state.transform.getD {}).get .translateY = .finite 2 ∧
      (state.style.getD {}).get .opacity = .number (.finite (3 / 4)) ∧
      state.motion.isSome = false := by
  have plain : ∀ a ∈ kite, a.subject.attributeName.IsPlain := by
    intro a member
    simp only [kite, List.mem_cons, List.not_mem_nil, or_false] at member
    rcases member with rfl | rfl | rfl | rfl | rfl | rfl <;>
      first | exact .inl rfl | exact .inr ⟨_, rfl⟩
  obtain ⟨-, composed, -⟩ := composition_law plain (.text "kite")
    (some { id := .text "kite", data := [("opacity", .number (.finite (1 / 2)))] })
    originPlacement 1
  obtain ⟨state, done, composes⟩ := composed _ (by with_unfolding_all rfl)
  refine ⟨state, done, ?_, ?_, ?_, ?_⟩
  · rw [composes.transform]
    with_unfolding_all rfl
  · rw [composes.transform]
    with_unfolding_all rfl
  · rw [composes.style]
    with_unfolding_all rfl
  · rw [composes.motion]
    with_unfolding_all rfl

end ElementState
end DeclarativeAnimation
