import DeclarativeAnimation.Keyed
import DeclarativeAnimation.Proofs.Outcome

/-! Items in groups, each under the name that its key gives.  The groups hold all items, and items
    that are replaced by others of the same names fall into the same groups. -/
namespace DeclarativeAnimation

/-- Induction over a list whose head sends some of the later items away. -/
@[elab_as_elim]
theorem filterRec {α : Type} {motive : List α → Prop} (nil : motive [])
    (cons : ∀ a rest, (∀ p : α → Bool, motive (rest.filter p)) → motive (a :: rest)) :
    ∀ items, motive items
  | [] => nil
  | a :: rest => cons a rest fun p => filterRec nil cons (rest.filter p)
termination_by items => items.length
decreasing_by exact Nat.lt_succ_of_le (List.length_filter_le p rest)

theorem mem_of_eraseDups {κ : Type} [BEq κ] {names : List κ} {k : κ}
    (member : k ∈ names.eraseDups) : k ∈ names := by
  induction names using filterRec with
  | nil => exact member
  | cons j rest ih =>
    rw [List.eraseDups_cons] at member
    rcases List.mem_cons.mp member with rfl | later
    · exact List.mem_cons_self
    · exact List.mem_cons_of_mem j (List.mem_of_mem_filter (ih _ later))

section Grouping
variable {κ α β : Type} [BEq κ] {key : α → Except Fault κ} {items : List α}
  {table groups : List (κ × List α)}

def grouping (key : α → Except Fault κ) (items : List α) (table : List (κ × List α)) :
    Except Fault (List (κ × List α)) :=
  items.foldlM (fun groups a => do
    let name ← key a
    return Keyed.put name ((Keyed.get? name groups).getD [] ++ [a]) groups) table

def regroup (f : α → β) (table : List (κ × List α)) : List (κ × List β) :=
  table.map fun (name, group) => (name, group.map f)

omit [BEq κ] in
theorem regroup_items (f : α → β) (table : List (κ × List α)) :
    (regroup f table).flatMap (·.2) = (table.flatMap (·.2)).map f := by
  rw [regroup, List.flatMap_map, List.map_flatMap]

theorem get?_regroup (f : α → β) (name : κ) (table : List (κ × List α)) :
    Keyed.get? name (regroup f table) = (Keyed.get? name table).map (List.map f) := by
  induction table with
  | nil => rfl
  | cons entry rest ih =>
    obtain ⟨other, group⟩ := entry
    show (if other == name then some (group.map f) else Keyed.get? name (regroup f rest)) = _
    rw [Keyed.get?, ih]
    split <;> rfl

theorem put_regroup (f : α → β) (name : κ) (group : List α) (table : List (κ × List α)) :
    Keyed.put name (group.map f) (regroup f table) = regroup f (Keyed.put name group table) := by
  induction table with
  | nil => rfl
  | cons entry rest ih =>
    obtain ⟨other, old⟩ := entry
    show (if other == name then (other, group.map f) :: regroup f rest
      else (other, old.map f) :: Keyed.put name (group.map f) (regroup f rest)) = _
    rw [Keyed.put, ih]
    split <;> rfl

theorem grouping_map (table : List (κ × List α)) (f : α → β) {key' : β → Except Fault κ}
    (same : ∀ a ∈ items, key' (f a) = key a) :
    grouping key' (items.map f) (regroup f table) = (grouping key items table).map (regroup f) := by
  induction items generalizing table with
  | nil => rfl
  | cons a rest ih =>
    obtain ⟨here, later⟩ := List.forall_mem_cons.mp same
    unfold grouping at ih ⊢
    rw [List.map_cons, List.foldlM_cons, List.foldlM_cons, here]
    cases key a with
    | error fault => rfl
    | ok name =>
      have put : Keyed.put name ((Keyed.get? name (regroup f table)).getD [] ++ [f a])
          (regroup f table) =
          regroup f (Keyed.put name ((Keyed.get? name table).getD [] ++ [a]) table) := by
        rw [← put_regroup, get?_regroup]
        cases Keyed.get? name table <;> simp
      show (List.foldlM _ (Keyed.put name ((Keyed.get? name (regroup f table)).getD [] ++ [f a])
          (regroup f table)) (rest.map f)) = _
      rw [put]
      exact ih _ later

omit [BEq κ] in
theorem mapM_regroup {γ : Type} {h : α → β} {f : κ × List β → Except Fault γ}
    {f' : κ × List α → Except Fault γ}
    (same : ∀ entry ∈ groups, f (entry.1, entry.2.map h) = f' entry) :
    (regroup h groups).mapM f = groups.mapM f' := by
  induction groups with
  | nil => rfl
  | cons entry rest ih =>
    obtain ⟨here, later⟩ := List.forall_mem_cons.mp same
    have tail := ih later
    unfold regroup at tail ⊢
    rw [List.map_cons, List.mapM_cons, List.mapM_cons, here, tail]

theorem put_group_perm (name : κ) (a : α) (table : List (κ × List α)) :
    ((Keyed.put name ((Keyed.get? name table).getD [] ++ [a]) table).flatMap (·.2)).Perm
      (table.flatMap (·.2) ++ [a]) := by
  induction table with
  | nil => exact .refl _
  | cons entry rest ih =>
    obtain ⟨other, group⟩ := entry
    unfold Keyed.put Keyed.get?
    by_cases same : (other == name) = true
    · rw [if_pos same, if_pos same]
      simp only [Option.getD_some, List.flatMap_cons, List.append_assoc]
      exact List.Perm.append_left group List.perm_append_comm
    · rw [if_neg same, if_neg same]
      simp only [List.flatMap_cons, List.append_assoc]
      exact List.Perm.append_left group ih

theorem grouping_onto (grouped : grouping key items table = .ok groups) :
    (groups.flatMap (·.2)).Perm (table.flatMap (·.2) ++ items) := by
  induction items generalizing table with
  | nil =>
    cases grouped
    rw [List.append_nil]
  | cons a rest ih =>
    unfold grouping at grouped ih
    rw [List.foldlM_cons] at grouped
    obtain ⟨next, put, grouped⟩ := bind_eq_ok grouped
    obtain ⟨name, _, put⟩ := bind_eq_ok put
    cases put
    have first := (put_group_perm name a table).append_right rest
    rw [List.append_assoc] at first
    exact (ih grouped).trans first

theorem grouping_perm (grouped : grouping key items [] = .ok groups) :
    (groups.flatMap (·.2)).Perm items := grouping_onto grouped

theorem mem_of_grouping (grouped : grouping key items [] = .ok groups) {entry : κ × List α}
    (listed : entry ∈ groups) {a : α} (member : a ∈ entry.2) : a ∈ items :=
  (grouping_perm grouped).mem_iff.mp (List.mem_flatMap.mpr ⟨entry, listed, member⟩)

theorem grouping_answers (table : List (κ × List α))
    (named : ∀ a ∈ items, ∃ name, key a = .ok name) :
    ∃ groups, grouping key items table = .ok groups := by
  induction items generalizing table with
  | nil => exact ⟨table, rfl⟩
  | cons a rest ih =>
    obtain ⟨⟨name, here⟩, later⟩ := List.forall_mem_cons.mp named
    unfold grouping at ih ⊢
    rw [List.foldlM_cons, here]
    exact ih _ later

end Grouping

section Joined
variable {κ α : Type} [BEq κ] (name : α → κ) {items : List α}

/-- A table with one more item, at the end of the group of its name. -/
def joined (table : List (κ × List α)) (a : α) : List (κ × List α) :=
  Keyed.put (name a) ((Keyed.get? (name a) table).getD [] ++ [a]) table

theorem joined_cons (k : κ) (group : List α) (table : List (κ × List α)) (a : α) :
    joined name ((k, group) :: table) a =
      if k == name a then (k, group ++ [a]) :: table else (k, group) :: joined name table a := by
  simp only [joined, Keyed.put, Keyed.get?]
  split <;> rfl

theorem joined_run (items : List α) (k : κ) (group : List α) (table : List (κ × List α)) :
    items.foldl (joined name) ((k, group) :: table) =
      (k, group ++ items.filter (k == name ·)) ::
        (items.filter (!k == name ·)).foldl (joined name) table := by
  induction items generalizing group table with
  | nil => simp
  | cons a rest ih =>
    rw [List.foldl_cons, joined_cons]
    by_cases hit : (k == name a) = true
    · rw [if_pos hit, ih]
      simp [hit]
    · rw [if_neg hit, ih]
      simp [hit]

theorem joined_first (a : α) (rest : List α) :
    (a :: rest).foldl (joined name) [] =
      (name a, a :: rest.filter (name a == name ·)) ::
        (rest.filter (!name a == name ·)).foldl (joined name) [] :=
  joined_run name rest (name a) [a] []

theorem grouping_joined {key : α → Except Fault κ} (keyed : ∀ a ∈ items, key a = .ok (name a))
    (table : List (κ × List α)) :
    grouping key items table = .ok (items.foldl (joined name) table) := by
  induction items generalizing table with
  | nil => rfl
  | cons a rest ih =>
    obtain ⟨here, later⟩ := List.forall_mem_cons.mp keyed
    unfold grouping at ih ⊢
    rw [List.foldlM_cons, here]
    exact ih later (joined name table a)

theorem joined_perm : ((items.foldl (joined name) []).flatMap (·.2)).Perm items :=
  grouping_perm (grouping_joined name (fun _ _ => rfl) [])

theorem joined_items_congr {κ' : Type} [BEq κ'] {name' : α → κ'}
    (same : ∀ a ∈ items, ∀ b ∈ items, (name a == name b) = (name' a == name' b)) :
    (items.foldl (joined name) []).flatMap (·.2) =
      (items.foldl (joined name') []).flatMap (·.2) := by
  induction items using filterRec with
  | nil => rfl
  | cons a rest ih =>
    have apart : ∀ b ∈ rest, (name a == name b) = (name' a == name' b) := fun b member =>
      same a List.mem_cons_self b (List.mem_cons_of_mem a member)
    have others : rest.filter (!name a == name ·) = rest.filter (!name' a == name' ·) :=
      List.filter_congr fun b member => congrArg (!·) (apart b member)
    have later := ih (!name' a == name' ·) fun b first c second =>
      same b (List.mem_cons_of_mem a (List.mem_of_mem_filter first))
        c (List.mem_cons_of_mem a (List.mem_of_mem_filter second))
    rw [joined_first, joined_first, List.flatMap_cons, List.flatMap_cons, others, later,
      List.filter_congr apart]

/-- Where names are equal when they are the same, there is a group for each of them, in the order
    in which they first occur, and in it the items of that name in their order. -/
theorem joined_eq
    (lawful : ∀ a ∈ items, ∀ b ∈ items, (name a == name b) = true ↔ name a = name b) :
    items.foldl (joined name) [] =
      (items.map name).eraseDups.map fun k => (k, items.filter (name · == k)) := by
  induction items using filterRec with
  | nil => rfl
  | cons a rest ih =>
    have inside {b : α} (member : b ∈ rest) : b ∈ a :: rest := List.mem_cons_of_mem a member
    have here : (name a == name a) = true :=
      (lawful a List.mem_cons_self a List.mem_cons_self).mpr rfl
    have comm : ∀ b ∈ rest, (name a == name b) = (name b == name a) := by
      intro b member
      rw [Bool.eq_iff_iff, lawful a List.mem_cons_self b (inside member),
        lawful b (inside member) a List.mem_cons_self]
      exact eq_comm
    have later := ih (!name · == name a) fun b first c second =>
      lawful b (inside (List.mem_of_mem_filter first)) c (inside (List.mem_of_mem_filter second))
    have others : rest.filter (!name a == name ·) = rest.filter (!name · == name a) :=
      List.filter_congr fun b member => congrArg (!·) (comm b member)
    have first : (a :: rest).filter (name · == name a) = a :: rest.filter (name · == name a) :=
      List.filter_cons_of_pos here
    rw [joined_first, others, later, List.filter_congr comm, List.map_cons, List.eraseDups_cons,
      List.map_cons, first, List.filter_map]
    refine congrArg (_ :: ·) (List.map_congr_left fun k listed => ?_)
    obtain ⟨b, member, rfl⟩ := List.mem_map.mp (mem_of_eraseDups listed)
    obtain ⟨member, different⟩ := List.mem_filter.mp member
    have skipped : (a :: rest).filter (name · == name b) = rest.filter (name · == name b) := by
      refine List.filter_cons_of_neg ?_
      rw [comm b member]
      simpa using different
    rw [skipped, List.filter_filter]
    refine congrArg (name b, ·) (List.filter_congr fun c listed => ?_)
    by_cases hit : (name c == name b) = true
    · have same := (lawful c (inside listed) b (inside member)).mp hit
      have fresh : (!name c == name a) = true := by
        rw [same]
        exact different
      rw [hit, fresh]
      rfl
    · rw [Bool.eq_false_iff.mpr hit]
      rfl

end Joined

end DeclarativeAnimation
