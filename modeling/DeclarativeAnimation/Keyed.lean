/-! Tables that keep the order in which their keys came.  A key written again keeps its place
    and takes the new value. -/
namespace DeclarativeAnimation.Keyed
variable {κ α : Type} [BEq κ]

def put (k : κ) (v : α) : List (κ × α) → List (κ × α)
  | [] => [(k, v)]
  | (j, w) :: rest => if j == k then (j, v) :: rest else (j, w) :: put k v rest

def ofList (entries : List (κ × α)) : List (κ × α) :=
  entries.foldl (fun table (k, v) => put k v table) []

def get? (k : κ) : List (κ × α) → Option α
  | [] => none
  | (j, v) :: rest => if j == k then some v else get? k rest

def erase (k : κ) (table : List (κ × α)) : List (κ × α) := table.filter fun (j, _) => !(j == k)

theorem get?_put_self [LawfulBEq κ] (k : κ) (v : α) (table : List (κ × α)) :
    get? k (put k v table) = some v := by
  induction table with
  | nil => simp [put, get?]
  | cons entry rest ih =>
    obtain ⟨j, w⟩ := entry
    simp only [put]
    split
    · rename_i hit; simp [get?, hit]
    · rename_i miss; simp [get?, miss, ih]

theorem get?_put_other [LawfulBEq κ] {j k : κ} (ne : j ≠ k) (v : α) (table : List (κ × α)) :
    get? j (put k v table) = get? j table := by
  induction table with
  | nil => simp [put, get?, Ne.symm ne]
  | cons entry rest ih =>
    obtain ⟨i, w⟩ := entry
    simp only [put]
    split
    · rename_i hit
      have := eq_of_beq hit
      subst this
      simp [get?, Ne.symm ne]
    · simp [get?, ih]

end DeclarativeAnimation.Keyed
