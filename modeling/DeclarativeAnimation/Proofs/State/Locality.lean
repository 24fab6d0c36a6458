import DeclarativeAnimation.Proofs.Value.Grouping
import DeclarativeAnimation.Proofs.Value.Names
import DeclarativeAnimation.State.Evaluation

/-! Locality.  The state of an element is that of the animations that target it, in their order,
    over its own values: what else is animated or shown does not reach it. -/
namespace DeclarativeAnimation
variable {A : Arithmetic}

section Targets
variable {animations : List (Animation A)} {id : Value A}

theorem groupedBy_named {groups : List (Value A × List (Animation A))}
    (grouped : groupedBy animations = .ok groups) : ∀ a ∈ animations, a.target.IsName := by
  unfold groupedBy at grouped
  generalize ([] : List (Value A × List (Animation A))) = table at grouped
  induction animations generalizing table with
  | nil => exact fun a member => by cases member
  | cons first rest ih =>
    rw [List.foldlM_cons] at grouped
    obtain ⟨next, put, later⟩ := bind_eq_ok grouped
    obtain ⟨target, keyed, _⟩ := bind_eq_ok put
    exact List.forall_mem_cons.mpr ⟨(Value.key_eq_ok keyed).2, ih next later⟩

theorem groupedBy_eq (named : ∀ a ∈ animations, a.target.IsName) :
    groupedBy animations = .ok (animations.foldl (joined Animation.target) []) :=
  grouping_joined Animation.target named []

variable (named : ∀ a ∈ animations, a.target.IsName)
include named

theorem joined_targets : (animations.foldl (joined Animation.target) []).map Prod.fst =
    (animations.map (·.target)).eraseDups := by
  induction animations using filterRec with
  | nil => rfl
  | cons a rest ih =>
    obtain ⟨head, tail⟩ := List.forall_mem_cons.mp named
    have others := ih (!a.target == ·.target) fun b member => tail b (List.mem_of_mem_filter member)
    rw [joined_first, List.map_cons, others, List.map_cons, List.eraseDups_cons,
      List.filter_map]
    congr 3
    refine List.filter_congr fun b member => ?_
    exact congrArg (!·) (head.beq_comm b.target)

theorem joined_group : ∀ entry ∈ animations.foldl (joined Animation.target) [],
    (∃ a ∈ animations, a.target = entry.1) ∧
      entry.2.filter (·.target == entry.1) = animations.filter (·.target == entry.1) := by
  induction animations using filterRec with
  | nil => exact fun entry member => by cases member
  | cons a rest ih =>
    obtain ⟨head, tail⟩ := List.forall_mem_cons.mp named
    intro entry member
    rw [joined_first] at member
    rcases List.mem_cons.mp member with rfl | later
    · refine ⟨⟨a, List.mem_cons_self, rfl⟩, ?_⟩
      rw [List.filter_cons, List.filter_cons, List.filter_filter]
      have same : rest.filter (fun b => b.target == a.target && a.target == b.target) =
          rest.filter (·.target == a.target) :=
        List.filter_congr fun b member => by
          rw [head.beq_comm b.target, Bool.and_self]
      rw [same]
    · obtain ⟨⟨b, inside, same⟩, group⟩ := ih (!a.target == ·.target)
        (fun b member => tail b (List.mem_of_mem_filter member)) entry later
      obtain ⟨inside, apart⟩ := List.mem_filter.mp inside
      have different : ¬ (a.target == entry.1) = true := by simpa [same] using apart
      refine ⟨⟨b, List.mem_cons_of_mem a inside, same⟩, ?_⟩
      rw [group, List.filter_filter, List.filter_cons, if_neg different]
      refine List.filter_congr fun c member => ?_
      by_cases hit : (c.target == entry.1) = true
      · have other : ¬ (a.target == c.target) = true := fun equal =>
          different (head.trans equal hit)
        simp [hit, other]
      · simp [hit]

end Targets

namespace Elements
variable {elements : Elements A} {id other : Value A}

/-- The element that is shown under a name; `some none` where everything is shown, and `none`
    where nothing of this name is. -/
def shown (elements : Elements A) (id : Value A) : Option (Option (Element A)) :=
  match elements with
  | .all => some none
  | .named table => (Keyed.get? id table).map some
  | .listed known => (known.reverse.find? (·.id == id)).map some

def Named : Elements A → Prop
  | .listed known => ∀ e ∈ known, e.id.IsName
  | _ => True

theorem named_of_table {table : Option (List (Value A × Element A))}
    (made : elements.table? = .ok table) : elements.Named := by
  cases elements with
  | all => trivial
  | named known => trivial
  | listed known =>
    obtain ⟨entries, keyed, _⟩ := bind_eq_ok made
    intro e member
    have each := forall₂_of_ok keyed
    obtain ⟨entry, _, keyed⟩ := exists_of_forall₂ each member
    obtain ⟨key, named, _⟩ := bind_eq_ok keyed
    exact (Value.key_eq_ok named).2

theorem table_of_named (named : elements.Named) :
    ∃ table, elements.table? = .ok table ∧ ∀ id, shownElement table id = elements.shown id := by
  cases elements with
  | all => exact ⟨none, rfl, fun id => rfl⟩
  | named known => exact ⟨some known, rfl, fun id => rfl⟩
  | listed known =>
    have keyed : known.mapM (fun e => do return ((← e.id.key), e)) =
        Except.ok (known.map fun e => (e.id, e)) := by
      induction known with
      | nil => rfl
      | cons e rest ih =>
        obtain ⟨head, tail⟩ := List.forall_mem_cons.mp named
        rw [List.mapM_cons, show e.id.key = .ok e.id from head, ih tail]
        rfl
    refine ⟨some (Keyed.ofList (known.map fun e => (e.id, e))), ?_, ?_⟩
    · rw [table?, keyed]
      rfl
    · intro id
      rw [shownElement, Keyed.get?_ofList (by simpa [Named] using named), ← List.map_reverse,
        List.find?_map, Option.map_map, Option.map_map]
      rfl

theorem shown_congr (elements : Elements A) (named : id.IsName) (same : (id == other) = true) :
    elements.shown id = elements.shown other := by
  cases elements with
  | all => rfl
  | named table => rw [shown, shown, Keyed.get?_congr named same]
  | listed known =>
    rw [shown, shown]
    congr 2
    funext e
    exact named.congr_beq same e.id

end Elements

section States
variable {animations others : List (Animation A)} {elements collection : Elements A}
  {resolver : MotionResolver A} {time : Number A} {id : Value A}

theorem ofAnimations_congr (element : Option (Element A)) (resolver : MotionResolver A)
    (time : Number A)
    (same : others.filter (·.target == id) = animations.filter (·.target == id)) :
    ElementState.ofAnimations id others element resolver time =
      ElementState.ofAnimations id animations element resolver time := by
  unfold ElementState.ofAnimations
  rw [same]

def stateOf (animations : List (Animation A)) (elements : Elements A)
    (resolver : MotionResolver A) (time : Number A) (id : Value A) :
    Except Fault (ElementState A) :=
  ElementState.ofAnimations id animations (elements.shown id).join resolver time

def shownTargets (animations : List (Animation A)) (elements : Elements A) : List (Value A) :=
  (animations.map (·.target)).eraseDups.filter fun id => (elements.shown id).isSome

theorem states_of_groups {table : Option (List (Value A × Element A))}
    {groups : List (Value A × List (Animation A))}
    (same : ∀ id, shownElement table id = elements.shown id)
    (each : ∀ entry ∈ groups,
      entry.2.filter (·.target == entry.1) = animations.filter (·.target == entry.1)) :
    (do
      let states ← groups.mapM fun (target, group) =>
        match shownElement table target with
        | some element => do
          return some (target, ← ElementState.ofAnimations target group element resolver time)
        | none => return none
      return states.filterMap fun state => state) =
    ((groups.map Prod.fst).filter fun id => (elements.shown id).isSome).mapM fun id => do
      return (id, ← stateOf animations elements resolver time id) := by
  induction groups with
  | nil => rfl
  | cons entry rest ih =>
    obtain ⟨target, group⟩ := entry
    obtain ⟨head, tail⟩ := List.forall_mem_cons.mp each
    have later := ih tail
    have state (element : Option (Element A)) :=
      ofAnimations_congr element resolver time head
    cases visible : elements.shown target with
    | none =>
      rw [List.map_cons, List.filter_cons_of_neg (by simp [visible]), ← later, List.mapM_cons]
      simp only [same, visible, pure_bind, bind_assoc, List.filterMap_cons]
    | some element =>
      rw [List.map_cons, List.filter_cons_of_pos (by simp [visible]), List.mapM_cons,
        List.mapM_cons, ← later]
      simp only [same, visible, state, stateOf, Option.join_some, pure_bind, bind_assoc,
        List.filterMap_cons]

theorem allStates_eq (resolver : MotionResolver A) (time : Number A) (known : elements.Named)
    (named : ∀ a ∈ animations, a.target.IsName) :
    allStates animations elements resolver time =
      (shownTargets animations elements).mapM fun id => do
        return (id, ← stateOf animations elements resolver time id) := by
  obtain ⟨table, made, same⟩ := Elements.table_of_named known
  rw [shownTargets, ← joined_targets named,
    ← states_of_groups same fun entry member => (joined_group named entry member).2]
  unfold allStates
  rw [made, groupedBy_eq named]
  rfl

theorem named_of_states {states : List (Value A × ElementState A)}
    (answered : allStates animations elements resolver time = .ok states) :
    elements.Named ∧ ∀ a ∈ animations, a.target.IsName := by
  obtain ⟨table, made, answered⟩ := bind_eq_ok answered
  obtain ⟨groups, grouped, answered⟩ := bind_eq_ok answered
  exact ⟨Elements.named_of_table made, groupedBy_named grouped⟩

theorem allStates_eq_ok_iff {states : List (Value A × ElementState A)} :
    allStates animations elements resolver time = .ok states ↔
      (elements.Named ∧ ∀ a ∈ animations, a.target.IsName) ∧
      states.map Prod.fst = shownTargets animations elements ∧
      ∀ entry ∈ states, stateOf animations elements resolver time entry.1 = .ok entry.2 := by
  have entries (known : elements.Named) (named : ∀ a ∈ animations, a.target.IsName) :=
    allStates_eq resolver time known named
  constructor
  · intro answered
    obtain ⟨known, named⟩ := named_of_states answered
    rw [entries known named, mapM_eq_ok_iff] at answered
    have each : List.Forall₂ (fun id entry => id = entry.1 ∧
        stateOf animations elements resolver time entry.1 = .ok entry.2)
        (shownTargets animations elements) states := by
      refine answered.imp fun id entry found => ?_
      obtain ⟨state, evaluated, found⟩ := bind_eq_ok found
      cases found
      exact ⟨rfl, evaluated⟩
    refine ⟨⟨known, named⟩, ?_, ?_⟩
    · have names := List.forall₂_map_right_iff.mpr (each.imp fun id entry found => found.1)
      exact (List.forall₂_eq_eq_eq ▸ names).symm
    · intro entry member
      obtain ⟨id, _, _, evaluated⟩ := mem_of_forall₂ each member
      exact evaluated
  · rintro ⟨⟨known, named⟩, names, each⟩
    rw [entries known named, mapM_eq_ok_iff, ← names, List.forall₂_map_left_iff, List.forall₂_same]
    intro entry member
    rw [each entry member]
    rfl

/-- The form in which elements are given does not count. -/
theorem allStates_congr {states : List (Value A × ElementState A)} (known : collection.Named)
    (same : ∀ id, collection.shown id = elements.shown id)
    (answered : allStates animations elements resolver time = .ok states) :
    allStates animations collection resolver time = .ok states := by
  obtain ⟨⟨_, named⟩, names, each⟩ := allStates_eq_ok_iff.mp answered
  refine allStates_eq_ok_iff.mpr ⟨⟨known, named⟩, ?_, ?_⟩
  · rw [names]
    simp only [shownTargets, same]
  · intro entry member
    rw [← each entry member, stateOf, stateOf, same]

theorem get?_answered {κ β : Type} [BEq κ] {table : List (κ × β)} {k : κ}
    {f : κ → Except Fault β} (each : ∀ entry ∈ table, f entry.1 = .ok entry.2) :
    Keyed.get? k table = ((table.map Prod.fst).find? (· == k)).bind fun j => (f j).toOption := by
  induction table with
  | nil => rfl
  | cons first rest ih =>
    obtain ⟨j, b⟩ := first
    obtain ⟨head, tail⟩ := List.forall_mem_cons.mp each
    rw [Keyed.get?, List.map_cons, List.find?_cons]
    by_cases hit : (j == k) = true
    · simp only [hit, ↓reduceIte, Option.bind_some, head]
      rfl
    · simp only [hit, Bool.false_eq_true, ↓reduceIte, ih tail]

theorem find?_eraseDups {names : List (Value A)} (named : ∀ v ∈ names, v.IsName) :
    names.eraseDups.find? (· == id) = names.find? (· == id) := by
  induction names using filterRec with
  | nil => rfl
  | cons v rest ih =>
    obtain ⟨head, tail⟩ := List.forall_mem_cons.mp named
    rw [List.eraseDups_cons, List.find?_cons, List.find?_cons]
    by_cases hit : (v == id) = true
    · rw [hit]
    · rw [Bool.eq_false_iff.mpr hit]
      dsimp only
      rw [ih _ fun w member => tail w (List.mem_of_mem_filter member), List.find?_filter]
      congr 1
      funext w
      by_cases asked : (w == id) = true
      · have apart : ¬ (w == v) = true := by
          intro equal
          rw [← head.beq_comm] at equal
          exact hit (head.trans equal asked)
        simp [asked, apart]
      · simp [asked]

theorem named_targets (named : ∀ a ∈ animations, a.target.IsName) {v : Value A}
    (member : v ∈ (animations.map (·.target)).eraseDups) : v.IsName := by
  obtain ⟨a, inside, rfl⟩ := List.mem_map.mp (mem_of_eraseDups member)
  exact named a inside

theorem find?_shownTargets (named : ∀ a ∈ animations, a.target.IsName) :
    (shownTargets animations elements).find? (· == id) =
      if (elements.shown id).isSome then
        (animations.filter (·.target == id)).head?.map (·.target)
      else none := by
  have first : (animations.map (·.target)).find? (· == id) =
      (animations.filter (·.target == id)).head?.map (·.target) := by
    rw [List.find?_map, List.head?_filter]
    rfl
  have visible : ∀ v ∈ (animations.map (·.target)).eraseDups,
      decide ((elements.shown v).isSome = true ∧ (v == id) = true) =
        ((elements.shown id).isSome && v == id) := by
    intro v member
    by_cases hit : (v == id) = true
    · have same := elements.shown_congr (named_targets named member) hit
      simp [hit, same]
    · simp [hit]
  have targets : ∀ v ∈ animations.map (·.target), v.IsName := by simpa using named
  rw [← first, ← find?_eraseDups targets, shownTargets, List.find?_filter,
    ← List.head?_filter, List.filter_congr visible]
  cases (elements.shown id).isSome <;> simp

/-- What is found of an element is told by its own animations and its own values. -/
theorem found_congr (named : ∀ a ∈ animations, a.target.IsName)
    (namedOthers : ∀ a ∈ others, a.target.IsName)
    (same : others.filter (·.target == id) = animations.filter (·.target == id))
    (shown : collection.shown id = elements.shown id) :
    (((shownTargets others collection).find? (· == id)).bind fun j =>
      (stateOf others collection resolver time j).toOption) =
    ((shownTargets animations elements).find? (· == id)).bind fun j =>
      (stateOf animations elements resolver time j).toOption := by
  have first : (shownTargets others collection).find? (· == id) =
      (shownTargets animations elements).find? (· == id) := by
    rw [find?_shownTargets namedOthers, find?_shownTargets named, same, shown]
  rw [first]
  cases found : (shownTargets animations elements).find? (· == id) with
  | none => rfl
  | some j =>
    have equal : (j == id) = true := by simpa using List.find?_some found
    have name : j.IsName :=
      named_targets named (List.mem_of_mem_filter (List.mem_of_find?_eq_some found))
    have group : others.filter (·.target == j) = animations.filter (·.target == j) := by
      simpa only [name.congr_beq equal] using same
    have element : collection.shown j = elements.shown j := by
      rw [collection.shown_congr name equal, shown, ← elements.shown_congr name equal]
    simp only [Option.bind_some, stateOf, element, ofAnimations_congr _ resolver time group]

end States

/-- The states at a time are those of the targets that are shown, each once and in the order of
    their first animations, and each is the state of its element by itself.  Where two lists of
    animations agree on the animations of an element, and two collections on the element, its
    state is the same. -/
theorem allStates_local (animations : List (Animation A)) (elements : Elements A)
    (resolver : MotionResolver A) (time : Number A) :
    (∀ states, allStates animations elements resolver time = .ok states ↔
      (elements.Named ∧ ∀ a ∈ animations, a.target.IsName) ∧
      states.map Prod.fst = (animations.map (·.target)).eraseDups.filter
        (fun id => (elements.shown id).isSome) ∧
      ∀ entry ∈ states, ElementState.ofAnimations entry.1 animations
        (elements.shown entry.1).join resolver time = .ok entry.2) ∧
    ∀ (others : List (Animation A)) (collection : Elements A) (id : Value A)
      (states found : List (Value A × ElementState A)),
      others.filter (·.target == id) = animations.filter (·.target == id) →
      collection.shown id = elements.shown id →
      allStates animations elements resolver time = .ok states →
      allStates others collection resolver time = .ok found →
      Keyed.get? id found = Keyed.get? id states := by
  refine ⟨fun states => allStates_eq_ok_iff, ?_⟩
  intro others collection id states found same shown answered other
  obtain ⟨⟨_, named⟩, names, each⟩ := allStates_eq_ok_iff.mp answered
  obtain ⟨⟨_, namedOthers⟩, namesOthers, eachOther⟩ := allStates_eq_ok_iff.mp other
  rw [get?_answered eachOther, get?_answered each, names, namesOthers]
  exact found_congr named namedOthers same shown

def aside (target : String) : Animation .exact :=
  { id := .text "aside", target := .text target, subject := .set (.text "x")
    track := { goal := .int 5 } }

def furniture (name : String) : Element .exact := { id := .text name }

def movedAside (name : String) : Value .exact × ElementState .exact :=
  (.text name, { id := .text name, time := 1, attributes := [(.text "x", .int 5)] })

theorem box_moves_alone :
    allStates [aside "lamp", aside "box", aside "door", aside "box"]
      (.listed [furniture "lamp", furniture "box"]) originPlacement 1 =
        .ok [movedAside "lamp", movedAside "box"] ∧
    allStates [aside "box", aside "door", aside "box"]
      (.named [(.text "box", furniture "box"), (.text "door", furniture "door")])
        originPlacement 1 = .ok [movedAside "box", movedAside "door"] ∧
    Keyed.get? (.text "box") [movedAside "box", movedAside "door"] =
      Keyed.get? (.text "box") [movedAside "lamp", movedAside "box"] := by
  have room : allStates [aside "lamp", aside "box", aside "door", aside "box"]
      (.listed [furniture "lamp", furniture "box"]) originPlacement 1 =
        .ok [movedAside "lamp", movedAside "box"] := by with_unfolding_all rfl
  have corner : allStates [aside "box", aside "door", aside "box"]
      (.named [(.text "box", furniture "box"), (.text "door", furniture "door")])
        originPlacement 1 = .ok [movedAside "box", movedAside "door"] := by
    with_unfolding_all rfl
  refine ⟨room, corner, ?_⟩
  apply (allStates_local _ _ originPlacement 1).2 _ _ (.text "box") _ _ _ _ room corner
  · rfl
  · rfl

end DeclarativeAnimation
