import DeclarativeAnimation.Value

/-! Values that name things.  Numbers of one size and truth values name the same thing, whatever
    their type; a number that is none does not even name itself. -/
namespace DeclarativeAnimation
variable {A : Arithmetic}

namespace Number
variable {x y z : Number A}

theorem equal_comm (x y : Number A) : x.equal y = y.equal x := by
  cases x <;> cases y <;> simp [equal, Bool.beq_comm]

theorem equal_trans (first : x.equal y = true) (second : y.equal z = true) :
    x.equal z = true := by
  cases x <;> cases y <;> cases z <;> simp_all [equal]

end Number

namespace Value
variable {u v w : Value A}

/-- A value that may name something: one without parts. -/
def IsName (v : Value A) : Prop := v.key = .ok v

theorem IsName.beq_iff (named : v.IsName) : (v == w) = true ↔
    v = .null ∧ w = .null ∨ (∃ s, v = .text s ∧ w = .text s) ∨
      ∃ p q, v.quantity? = some p ∧ w.quantity? = some q ∧ p.equal q = true := by
  show same v w = true ↔ _
  cases v <;> cases w <;> simp_all [same, quantity?, IsName, key]
  exact eq_comm

theorem key_eq_ok (keyed : v.key = .ok w) : w = v ∧ v.IsName := by
  cases v <;> cases keyed <;> exact ⟨rfl, rfl⟩

theorem isName_of_quantity {p : Number A} (known : v.quantity? = some p) : v.IsName := by
  cases v <;> simp_all [quantity?, IsName, key]

theorem IsName.of_beq (named : v.IsName) (same : (v == w) = true) : w.IsName := by
  rcases named.beq_iff.mp same with ⟨_, rfl⟩ | ⟨s, _, rfl⟩ | ⟨p, q, _, known, _⟩
  · rfl
  · rfl
  · exact isName_of_quantity known

theorem IsName.symm (named : v.IsName) (same : (v == w) = true) : (w == v) = true := by
  refine (named.of_beq same).beq_iff.mpr ?_
  rcases named.beq_iff.mp same with ⟨null, other⟩ | ⟨s, text, other⟩ | ⟨p, q, left, right, equal⟩
  · exact Or.inl ⟨other, null⟩
  · exact Or.inr (Or.inl ⟨s, other, text⟩)
  · exact Or.inr (Or.inr ⟨q, p, right, left, by rw [Number.equal_comm, equal]⟩)

theorem IsName.trans (named : u.IsName) (first : (u == v) = true) (second : (v == w) = true) :
    (u == w) = true := by
  refine named.beq_iff.mpr ?_
  have middle := (named.of_beq first).beq_iff.mp second
  rcases named.beq_iff.mp first with ⟨rfl, rfl⟩ | ⟨s, rfl, rfl⟩ | ⟨p, q, left, right, equal⟩
  · simpa [quantity?] using middle
  · simpa [quantity?] using middle
  · rcases middle with ⟨rfl, _⟩ | ⟨s, rfl, _⟩ | ⟨q', r, again, last, equal'⟩
    · cases right
    · cases right
    · obtain rfl : q = q' := Option.some.inj (right.symm.trans again)
      exact Or.inr (Or.inr ⟨p, r, left, last, Number.equal_trans equal equal'⟩)

theorem IsName.of_beq_left (named : w.IsName) (same : (v == w) = true) : v.IsName := by
  replace same : Value.same v w = true := same
  cases v <;> cases w <;> simp_all [Value.same, quantity?, IsName, key]

theorem IsName.beq_comm (named : v.IsName) (w : Value A) : (v == w) = (w == v) :=
  Bool.eq_iff_iff.mpr ⟨named.symm, fun same => (named.of_beq_left same).symm same⟩

theorem IsName.beq_congr (named : u.IsName) (same : (u == v) = true) (w : Value A) :
    (u == w) = (v == w) := by
  have other := named.of_beq same
  exact Bool.eq_iff_iff.mpr ⟨other.trans (named.symm same), named.trans same⟩

theorem IsName.congr_beq (named : u.IsName) (same : (u == v) = true) (w : Value A) :
    (w == u) = (w == v) := by
  rw [← named.beq_comm, named.beq_congr same, (named.of_beq same).beq_comm]

end Value

namespace Keyed
variable {α : Type} {j k : Value A} {v : α} {table entries : List (Value A × α)}

theorem forall_keys_put {P : Value A → Prop} (written : P j) (keys : ∀ entry ∈ table, P entry.1) :
    ∀ entry ∈ put j v table, P entry.1 := by
  induction table with
  | nil =>
    intro entry member
    cases List.mem_singleton.mp member
    exact written
  | cons first rest ih =>
    obtain ⟨i, w⟩ := first
    obtain ⟨head, tail⟩ := List.forall_mem_cons.mp keys
    unfold put
    split
    · exact List.forall_mem_cons.mpr ⟨head, tail⟩
    · exact List.forall_mem_cons.mpr ⟨head, ih tail⟩

theorem named_put (named : j.IsName) (keys : ∀ entry ∈ table, entry.1.IsName) :
    ∀ entry ∈ put j v table, entry.1.IsName := forall_keys_put named keys

theorem get?_put (named : j.IsName) (keys : ∀ entry ∈ table, entry.1.IsName) :
    get? k (put j v table) = if j == k then some v else get? k table := by
  induction table with
  | nil => simp [put, get?]
  | cons first rest ih =>
    obtain ⟨i, w⟩ := first
    obtain ⟨head, tail⟩ := List.forall_mem_cons.mp keys
    unfold put
    by_cases hit : (i == j) = true
    · have same : (i == k) = (j == k) := Value.IsName.beq_congr head hit k
      by_cases asked : (j == k) = true <;> simp [hit, get?, same, asked]
    · by_cases asked : (i == k) = true
      · have other : ¬ (j == k) = true := by
          intro also
          exact hit (Value.IsName.trans head asked (named.symm also))
        simp [hit, get?, asked, other]
      · simp [hit, get?, asked, ih tail]

theorem get?_ofList (named : ∀ entry ∈ entries, entry.1.IsName) :
    get? k (ofList entries) = (entries.reverse.find? (·.1 == k)).map Prod.snd := by
  suffices onto : ∀ table : List (Value A × α), (∀ entry ∈ table, entry.1.IsName) →
      get? k (entries.foldl (fun table e => put e.1 e.2 table) table) =
        ((entries.reverse.find? (·.1 == k)).map Prod.snd).or (get? k table) by
    rw [ofList, onto [] (by simp), get?, Option.or_none]
  induction entries with
  | nil => simp
  | cons first rest ih =>
    intro table keys
    obtain ⟨head, tail⟩ := List.forall_mem_cons.mp named
    rw [List.foldl_cons, ih tail _ (named_put head keys), get?_put head keys,
      List.reverse_cons, List.find?_append]
    by_cases asked : (first.1 == k) = true
    · cases rest.reverse.find? (·.1 == k) <;> simp [asked]
    · cases rest.reverse.find? (·.1 == k) <;> simp [asked]

theorem get?_congr (named : j.IsName) (same : (j == k) = true) : get? j table = get? k table := by
  induction table with
  | nil => rfl
  | cons first rest ih =>
    rw [get?, get?, named.congr_beq same, ih]

end Keyed
end DeclarativeAnimation
