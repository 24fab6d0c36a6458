import DeclarativeAnimation.Proofs.Number.Range

/-! Time on a clock.  A clock shows numbers of its arithmetic and never goes back; at worst it runs
    past all of them.  The time between two moments is rounded, and still what has passed since a
    moment has passed since every earlier one. -/
namespace DeclarativeAnimation
variable {A : Arithmetic}

namespace Number
variable {x y z least : Number A} {p q : Rat}

/-- What a clock can show: a number of its arithmetic, or that it has run past all of them. -/
def OnClock (x : Number A) : Prop := (∃ q, x.Holds q) ∨ x = .infinite false

theorem OnClock.later (clock : x.OnClock) (forward : x ≤ x + y) : (x + y).OnClock := by
  by_cases finite : (x + y).isFinite
  · exact .inl (add_of_isFinite finite).2.2
  · right
    generalize x + y = z at forward finite
    cases z with
    | finite r => exact absurd rfl finite
    | negativeZero => exact absurd rfl finite
    | nan => cases x <;> cases forward
    | infinite negative =>
      cases negative with
      | false => rfl
      | true =>
        rcases clock with ⟨r, is_r⟩ | rfl
        · have bounded := is_r.denotes.1
          cases x <;> first | cases forward | cases bounded
        · cases forward

theorem OnClock.le_self (clock : x.OnClock) : x ≤ x := by
  rcases clock with ⟨q, is_q⟩ | rfl
  · exact (is_q.denotes.le_iff is_q.denotes).mpr le_rfl
  · rfl

theorem OnClock.trans (hx : x.OnClock) (hy : y.OnClock) (hz : z.OnClock) (first : x ≤ y)
    (second : y ≤ z) : x ≤ z := by
  rcases hz with ⟨r, is_r⟩ | rfl
  · rcases hy with ⟨q, is_q⟩ | rfl
    · rcases hx with ⟨p, is_p⟩ | rfl
      · rw [is_p.denotes.le_iff is_q.denotes] at first
        rw [is_q.denotes.le_iff is_r.denotes] at second
        rw [is_p.denotes.le_iff is_r.denotes]
        exact first.trans second
      · have bounded := is_q.denotes.1
        cases y <;> first | cases first | cases bounded
    · have bounded := is_r.denotes.1
      cases z <;> first | cases second | cases bounded
  · rcases hx with ⟨p, is_p⟩ | rfl
    · have bounded := is_p.denotes.1
      cases x <;> first | rfl | cases bounded
    · rfl

theorem nearest_vanished (vanished : nearestDouble q = 0) (minus : Bool) :
    (nearest q minus : Number .binary64).Denotes 0 := by
  unfold nearest
  dsimp only
  split
  · split <;> exact ⟨rfl, rfl⟩
  · split <;> exact ⟨rfl, rfl⟩

theorem le_nearest_iff {least : Number .binary64} (finite : least.isFinite) (minus : Bool) :
    least ≤ nearest q minus ↔ -twoPow 1024 < nearestDouble q ∧
      (least.rat ≤ nearestDouble q ∨ twoPow 1024 ≤ nearestDouble q) := by
  have is_least := Denotes.of_isFinite finite
  have large := twoPow_pos 1024
  by_cases vanished : nearestDouble q = 0
  · rw [is_least.le_iff (nearest_vanished vanished minus), vanished]
    exact ⟨fun le => ⟨by linarith, .inl le⟩, fun either => either.2.resolve_right (by linarith)⟩
  have nonzero : q ≠ 0 := by
    rintro rfl
    exact vanished nearestDouble_zero
  unfold nearest
  dsimp only
  rw [if_neg nonzero, if_neg vanished]
  split
  · rename_i above
    have endless : least ≤ .infinite false := by cases least <;> first | rfl | cases finite
    exact ⟨fun _ => ⟨by linarith, .inr above⟩, fun _ => endless⟩
  · rename_i above
    split
    · rename_i under
      have endless : ¬ least ≤ .infinite true := by
        intro wrong
        cases least <;> first | cases wrong | cases finite
      exact ⟨fun wrong => absurd wrong endless, fun either => absurd under (not_le.mpr either.1)⟩
    · rename_i under
      rw [is_least.le_iff (.finite _)]
      exact ⟨fun le => ⟨not_le.mp under, .inl le⟩, fun either => either.2.resolve_right above⟩

/-- What lies below a rounded rational lies below the larger ones too, rounded. -/
theorem le_nearest_mono (finite : least.isFinite) (le : p ≤ q) {minus minus' : Bool}
    (below : least ≤ nearest p minus) : least ≤ nearest q minus' := by
  cases A with
  | exact =>
    rw [nearest_exact, (Denotes.of_isFinite finite).le_iff (.finite _)] at below ⊢
    exact below.trans le
  | binary64 =>
    rw [le_nearest_iff finite] at below ⊢
    obtain ⟨bounded, either⟩ := below
    have rounded := nearestDouble_mono le
    exact ⟨by linarith, either.imp (fun le => le.trans rounded) fun le => le.trans rounded⟩

theorem OnClock.not_since_end (finite : least.isFinite) (hz : z.OnClock) :
    ¬ least ≤ z - .infinite false := by
  intro since
  rcases hz with ⟨r, is_r⟩ | rfl
  · have before : z - .infinite false = .infinite true := by
      have bounded := is_r.denotes.1
      cases z <;> first | rfl | cases bounded
    rw [before] at since
    cases least <;> first | cases since | cases finite
  · have lost : (.infinite false : Number A) - .infinite false = .nan := rfl
    rw [lost] at since
    cases least <;> cases since

theorem OnClock.le_since (finite : least.isFinite) (hx : x.OnClock) (hy : y.OnClock)
    (hz : z.OnClock) (earlier : x ≤ y) (since : least ≤ z - y) : least ≤ z - x := by
  rcases hy with ⟨q, is_q⟩ | rfl
  · rcases hx with ⟨p, is_p⟩ | rfl
    · rcases hz with ⟨r, is_r⟩ | rfl
      · have order := (is_p.denotes.le_iff is_q.denotes).mp earlier
        obtain ⟨_, sooner⟩ := add_of_finite is_r.denotes (neg_holds is_p).denotes
        obtain ⟨_, later⟩ := add_of_finite is_r.denotes (neg_holds is_q).denotes
        change least ≤ z + y.neg at since
        show least ≤ z + x.neg
        rw [later] at since
        rw [sooner]
        exact le_nearest_mono finite (by linarith) since
      · have bounded := (neg_holds is_p).denotes.1
        have endless : (.infinite false : Number A) - x = .infinite false := by
          show Number.add _ x.neg = _
          cases negated : x.neg <;> rw [negated] at bounded <;> first | rfl | cases bounded
        rw [endless]
        cases least <;> first | rfl | cases finite
    · have bounded := is_q.denotes.1
      cases y <;> first | cases earlier | cases bounded
  · exact absurd since (hz.not_since_end finite)

theorem OnClock.since_never (finite : least.isFinite) (hx : x.OnClock) :
    least ≤ x - .infinite true := by
  have endless : x - .infinite true = .infinite false := by
    rcases hx with ⟨p, is_p⟩ | rfl
    · have bounded := is_p.denotes.1
      cases x <;> first | rfl | cases bounded
    · rfl
  rw [endless]
  cases least <;> first | rfl | cases finite

end Number

end DeclarativeAnimation
