import DeclarativeAnimation.Fault
import Mathlib.Data.List.Forall2

/-! Computations that come to an answer.  Where an operation is made of others, it answers
    because each of them does, and what is known of their answers leads to what is known of its
    own. -/
namespace DeclarativeAnimation

/-- The computation ends without a fault, in a result of which `P` holds. -/
def Answers {α : Type} (x : Except Fault α) (P : α → Prop) : Prop := ∃ a, x = .ok a ∧ P a

namespace Answers
variable {α β : Type} {x : Except Fault α} {P Q : α → Prop} {R : β → Prop}

theorem ok {a : α} (h : P a) : Answers (.ok a) P := ⟨a, rfl, h⟩

theorem pure {a : α} (h : P a) : Answers (Pure.pure a) P := ⟨a, rfl, h⟩

theorem imp (h : Answers x P) (implies : ∀ a, P a → Q a) : Answers x Q := by
  obtain ⟨a, rfl, holds⟩ := h
  exact ⟨a, rfl, implies a holds⟩

theorem bind {f : α → Except Fault β} (h : Answers x P) (next : ∀ a, P a → Answers (f a) R) :
    Answers (x >>= f) R := by
  obtain ⟨a, rfl, holds⟩ := h
  exact next a holds

theorem mapM {f : α → Except Fault β} (items : List α) (each : ∀ a ∈ items, Answers (f a) R) :
    Answers (items.mapM f) fun found => found.length = items.length ∧ ∀ b ∈ found, R b := by
  induction items with
  | nil =>
    rw [List.mapM_nil]
    exact .pure ⟨rfl, fun b member => by cases member⟩
  | cons a rest ih =>
    rw [List.mapM_cons]
    refine (each a List.mem_cons_self).bind fun b holds => ?_
    refine (ih fun c member => each c (List.mem_cons_of_mem a member)).bind fun found all => ?_
    refine .pure ⟨congrArg (· + 1) all.1, fun c member => ?_⟩
    rcases List.mem_cons.mp member with rfl | later
    · exact holds
    · exact all.2 c later

theorem mapM_each {f : α → Except Fault β} {T : α → β → Prop} (items : List α)
    (each : ∀ a ∈ items, Answers (f a) (T a)) : Answers (items.mapM f) (List.Forall₂ T items) := by
  induction items with
  | nil =>
    rw [List.mapM_nil]
    exact .pure .nil
  | cons a rest ih =>
    rw [List.mapM_cons]
    obtain ⟨here, later⟩ := List.forall_mem_cons.mp each
    exact here.bind fun b first => (ih later).bind fun found others => .pure (.cons first others)

/-- An invariant that counts the steps it is carried through. -/
theorem foldlM {f : β → α → Except Fault β} (items : List α) {I : Nat → β → Prop} {k : Nat}
    {b : β} (start : I k b)
    (step : ∀ i a b, a ∈ items → i < k + items.length → I i b →
      Answers (f b a) (I (i + 1))) :
    Answers (items.foldlM f b) (I (k + items.length)) := by
  induction items generalizing k b with
  | nil => exact .pure start
  | cons a rest ih =>
    rw [List.foldlM_cons]
    have first := step k a b List.mem_cons_self (by simp) start
    refine first.bind fun next holds => ?_
    have later := ih holds fun i c d member below kept =>
      step i c d (List.mem_cons_of_mem a member) (by rw [List.length_cons]; omega) kept
    rw [List.length_cons, Nat.add_comm rest.length 1, ← Nat.add_assoc]
    exact later

end Answers

theorem bind_eq_ok {α β ε : Type} {first : Except ε α} {next : α → Except ε β} {result : β}
    (done : (first >>= next) = .ok result) : ∃ a, first = .ok a ∧ next a = .ok result := by
  cases first with
  | error fault => cases done
  | ok a => exact ⟨a, rfl, done⟩

theorem bind_eq_error {α β : Type} {first : Except Fault α} {next : α → Except Fault β}
    {fault : Fault} (failed : (first >>= next) = .error fault) :
    first = .error fault ∨ ∃ a, first = .ok a ∧ next a = .error fault := by
  cases first with
  | error other =>
    cases failed
    exact Or.inl rfl
  | ok a => exact Or.inr ⟨a, rfl, failed⟩

theorem mapError_eq_ok {α ε ε' : Type} {f : ε → ε'} {result : Except ε α} {a : α}
    (mapped : result.mapError f = .ok a) : result = .ok a := by
  cases result with
  | error fault => cases mapped
  | ok b =>
    cases mapped
    rfl

theorem forall₂_of_ok {α β : Type} {f : α → Except Fault β} {items : List α} {found : List β}
    (mapped : items.mapM f = .ok found) : List.Forall₂ (fun a b => f a = .ok b) items found := by
  induction items generalizing found with
  | nil =>
    rw [List.mapM_nil] at mapped
    cases mapped
    exact .nil
  | cons a rest ih =>
    rw [List.mapM_cons] at mapped
    obtain ⟨b, first, mapped⟩ := bind_eq_ok mapped
    obtain ⟨others, later, mapped⟩ := bind_eq_ok mapped
    cases mapped
    exact .cons first (ih later)

theorem mapM_eq_ok_iff {α β : Type} {f : α → Except Fault β} {items : List α} {found : List β} :
    items.mapM f = .ok found ↔ List.Forall₂ (fun a b => f a = .ok b) items found := by
  refine ⟨forall₂_of_ok, fun each => ?_⟩
  induction each with
  | nil => rfl
  | cons first _ ih =>
    rw [List.mapM_cons, first, ih]
    rfl

theorem exists_of_mapM_error {α β : Type} {f : α → Except Fault β} {items : List α} {fault : Fault}
    (failed : items.mapM f = .error fault) : ∃ a ∈ items, f a = .error fault := by
  induction items with
  | nil => cases failed
  | cons a rest ih =>
    rw [List.mapM_cons] at failed
    rcases bind_eq_error failed with here | ⟨b, _, failed⟩
    · exact ⟨a, List.mem_cons_self, here⟩
    · rcases bind_eq_error failed with later | ⟨found, _, failed⟩
      · obtain ⟨c, member, failed⟩ := ih later
        exact ⟨c, List.mem_cons_of_mem a member, failed⟩
      · cases failed

theorem mapM_of_map {α β γ : Type} {f : α → Except Fault β} {g : α → Except Fault γ} {h : β → γ}
    {items : List α} (each : ∀ a ∈ items, g a = (f a).map h) :
    items.mapM g = (items.mapM f).map (List.map h) := by
  induction items with
  | nil => rfl
  | cons a rest ih =>
    obtain ⟨here, later⟩ := List.forall_mem_cons.mp each
    rw [List.mapM_cons, List.mapM_cons, here, ih later]
    cases f a with
    | error fault => rfl
    | ok b =>
      cases rest.mapM f with
      | error fault => rfl
      | ok found => rfl

theorem found_of_map {α β γ : Type} {f : α → Except Fault (Option β)}
    {g : α → Except Fault (Option γ)} {h : β → γ} {items : List α}
    (each : ∀ a ∈ items, g a = (f a).map (Option.map h)) :
    (do return (← items.mapM g).filterMap id) =
      (do return (← items.mapM f).filterMap id : Except Fault (List β)).map (List.map h) := by
  rw [mapM_of_map each]
  cases items.mapM f with
  | error fault => rfl
  | ok found =>
    show Except.ok ((found.map (Option.map h)).filterMap id) =
      Except.ok ((found.filterMap id).map h)
    rw [List.filterMap_map, List.map_filterMap]
    rfl

theorem foldlM_of_map {α β : Type} {f g : β → α → Except Fault β} {h : β → β} {items : List α}
    (each : ∀ b, ∀ a ∈ items, g (h b) a = (f b a).map h) (b : β) :
    items.foldlM g (h b) = (items.foldlM f b).map h := by
  induction items generalizing b with
  | nil => rfl
  | cons a rest ih =>
    rw [List.foldlM_cons, List.foldlM_cons, each b a List.mem_cons_self]
    cases f b a with
    | error fault => rfl
    | ok c => exact ih (fun b a member => each b a (List.mem_cons_of_mem _ member)) c

theorem forall₂_of_mapM {α β : Type} {f : α → Option β} {items : List α} {found : List β}
    (mapped : items.mapM f = some found) : List.Forall₂ (fun a b => f a = some b) items found := by
  induction items generalizing found with
  | nil =>
    rw [List.mapM_nil] at mapped
    cases mapped
    exact .nil
  | cons a rest ih =>
    rw [List.mapM_cons] at mapped
    obtain ⟨b, first, mapped⟩ := Option.bind_eq_some_iff.mp mapped
    obtain ⟨others, later, mapped⟩ := Option.bind_eq_some_iff.mp mapped
    cases mapped
    exact .cons first (ih later)

theorem mem_of_forall₂ {α β : Type} {R : α → β → Prop} {items : List α} {found : List β}
    (each : List.Forall₂ R items found) {b : β} (member : b ∈ found) : ∃ a ∈ items, R a b := by
  induction each with
  | nil => cases member
  | @cons a c rest others first _ ih =>
    rcases List.mem_cons.mp member with rfl | later
    · exact ⟨a, List.mem_cons_self, first⟩
    · obtain ⟨d, inside, same⟩ := ih later
      exact ⟨d, List.mem_cons_of_mem a inside, same⟩

theorem exists_of_forall₂ {α β : Type} {R : α → β → Prop} {items : List α} {found : List β}
    (each : List.Forall₂ R items found) {a : α} (member : a ∈ items) : ∃ b ∈ found, R a b := by
  induction each with
  | nil => cases member
  | @cons b c rest others first _ ih =>
    rcases List.mem_cons.mp member with rfl | later
    · exact ⟨c, List.mem_cons_self, first⟩
    · obtain ⟨d, inside, same⟩ := ih later
      exact ⟨d, List.mem_cons_of_mem c inside, same⟩

theorem mem_of_mapM {α β : Type} {f : α → Option β} {items : List α} {found : List β}
    (mapped : items.mapM f = some found) {b : β} (member : b ∈ found) :
    ∃ a ∈ items, f a = some b :=
  mem_of_forall₂ (forall₂_of_mapM mapped) member

end DeclarativeAnimation
