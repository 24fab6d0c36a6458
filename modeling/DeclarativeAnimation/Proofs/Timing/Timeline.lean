import DeclarativeAnimation.Proofs.Number.Exact
import DeclarativeAnimation.Proofs.Outcome
import DeclarativeAnimation.Timing.Schedule

/-! The end of a timeline.  It is the largest of the finite ends, so it is finite itself. -/
namespace DeclarativeAnimation.Schedule
variable {A : Arithmetic}

theorem larger_isFinite {x y : Number A} (hx : x.isFinite) (hy : y.isFinite) :
    (x.larger y).isFinite := by
  unfold Number.larger
  split
  · exact hy
  · exact hx

theorem foldl_larger_isFinite {first : Number A} {rest : List (Number A)}
    (head : first.isFinite) (tail : ∀ x ∈ rest, x.isFinite) :
    (rest.foldl Number.larger first).isFinite := by
  induction rest generalizing first with
  | nil => exact head
  | cons x rest ih =>
    have step := larger_isFinite head (tail x (by simp))
    exact ih step fun y member => tail y (by simp [member])

theorem timelineDuration_isFinite {schedules : List (Schedule A)} {duration : Number A}
    (found : timelineDuration schedules = .ok duration) : duration.isFinite := by
  unfold timelineDuration at found
  cases ends : schedules.mapM endSeconds with
  | error fault => rw [ends] at found; cases found
  | ok ends' =>
    rw [ends] at found
    dsimp only [bind, Except.bind] at found
    have finite : ∀ x ∈ ends'.filter (·.isFinite), x.isFinite := by
      intro x member
      exact (List.mem_filter.mp member).2
    split at found
    · cases found
      rfl
    · rename_i first rest kept
      cases found
      rw [kept] at finite
      exact foldl_larger_isFinite (finite first (by simp)) fun x member =>
        finite x (by simp [member])

theorem foldl_larger_mem (first : Number A) (rest : List (Number A)) :
    rest.foldl Number.larger first = first ∨ rest.foldl Number.larger first ∈ rest := by
  induction rest generalizing first with
  | nil => exact .inl rfl
  | cons x rest ih =>
    rcases ih (first.larger x) with kept | later
    · rw [List.foldl_cons, kept]
      unfold Number.larger
      split
      · exact .inr List.mem_cons_self
      · exact .inl rfl
    · exact .inr (List.mem_cons_of_mem x later)

theorem timelineDuration_ends {schedules : List (Schedule A)} {duration : Number A}
    (found : timelineDuration schedules = .ok duration) :
    duration = 0 ∨ ∃ s ∈ schedules, s.endSeconds = .ok duration := by
  obtain ⟨stops, all, found⟩ := bind_eq_ok found
  split at found
  · cases found
    exact .inl rfl
  · rename_i first rest listed
    have member : duration ∈ stops.filter (·.isFinite) := by
      rw [listed]
      cases found
      exact List.mem_cons.mpr (foldl_larger_mem first rest)
    exact .inr (mem_of_forall₂ (forall₂_of_ok all) (List.mem_of_mem_filter member))

theorem le_foldl_larger {first : Number A} {rest : List (Number A)} (head : first.isFinite)
    (tail : ∀ x ∈ rest, x.isFinite) :
    first.rat ≤ (rest.foldl Number.larger first).rat ∧
      ∀ x ∈ rest, x.rat ≤ (rest.foldl Number.larger first).rat := by
  induction rest generalizing first with
  | nil => simp
  | cons y rest ih =>
    obtain ⟨here, later⟩ := List.forall_mem_cons.mp tail
    obtain ⟨bounded, size⟩ :=
      (Number.Denotes.of_isFinite head).larger (Number.Denotes.of_isFinite here)
    obtain ⟨low, each⟩ := ih bounded later
    rw [size] at low
    rw [List.foldl_cons]
    constructor
    · exact (le_max_left _ _).trans low
    · intro x member
      rcases List.mem_cons.mp member with rfl | inside
      · exact (le_max_right _ _).trans low
      · exact each x inside

/-- No schedule with an end goes on after the end of the timeline. -/
theorem le_timelineDuration {schedules : List (Schedule A)} {duration stop : Number A}
    {s : Schedule A} (found : timelineDuration schedules = .ok duration) (member : s ∈ schedules)
    (ends : s.endSeconds = .ok stop) (bounded : stop.isFinite) : stop.rat ≤ duration.rat := by
  obtain ⟨stops, all, found⟩ := bind_eq_ok found
  obtain ⟨x, inside, same⟩ := exists_of_forall₂ (forall₂_of_ok all) member
  rw [ends] at same
  cases same
  have kept : stop ∈ stops.filter (·.isFinite) := List.mem_filter.mpr ⟨inside, bounded⟩
  have finite : ∀ x ∈ stops.filter (·.isFinite), x.isFinite := by
    intro x member
    exact (List.mem_filter.mp member).2
  split at found
  · rename_i none
    rw [none] at kept
    cases kept
  · rename_i first rest listed
    rw [listed] at kept finite
    cases found
    obtain ⟨head, tail⟩ := List.forall_mem_cons.mp finite
    obtain ⟨low, each⟩ := le_foldl_larger head tail
    rcases List.mem_cons.mp kept with rfl | later
    · exact low
    · exact each stop later

end DeclarativeAnimation.Schedule
