import DeclarativeAnimation.Proofs.Timing.CurveRange

/-! Key times lay a progress onto an even grid of segments.  Over strictly increasing key times
    the place in the grid is the one that the segment around the progress says.  A progress on a
    key time belongs to two segments, which agree: it is the whole of one and nothing of the
    other, and a curve leaves both as they are. -/
namespace DeclarativeAnimation

def Curve.bent {A : Arithmetic} (curve : Option (Curve A)) (fraction : Number A) : Number A :=
  curve.elim fraction (·.ease fraction)

theorem Curve.bent_zero (curve : Option (Curve .exact)) : bent curve 0 = 0 := by
  cases curve with
  | none => rfl
  | some curve => exact curve.ease_zero

theorem Curve.bent_one (curve : Option (Curve .exact)) : bent curve 1 = 1 := by
  cases curve with
  | none => rfl
  | some curve => exact curve.ease_one

theorem Curve.bent_inUnit {curve : Option (Curve .exact)} (tame : ∀ c ∈ curve, c.Tame)
    {fraction : Number .exact} (inside : fraction.InUnit) : (bent curve fraction).InUnit := by
  cases curve with
  | none => exact inside
  | some curve => exact (tame curve rfl).ease_unit inside

namespace Pace

def fraction (start stop p : Rat) : Number .exact := .finite ((p - start) / (stop - start))

theorem fraction_start (start stop : Rat) : fraction start stop start = 0 := by
  simp only [fraction, sub_self, zero_div]
  rfl

theorem fraction_stop {start stop : Rat} (wide : start < stop) :
    fraction start stop stop = 1 := by
  have span : stop - start ≠ 0 := by linarith
  simp only [fraction, div_self span]
  rfl

theorem fraction_inUnit {start stop p : Rat} (wide : start < stop) (after : start ≤ p)
    (before : p ≤ stop) : (fraction start stop p).InUnit := by
  have span : 0 < stop - start := by linarith
  refine ⟨_, .finite _, div_nonneg (by linarith) span.le, ?_⟩
  rw [div_le_one span]
  linarith

section
variable {all : List (Number .exact)} {p start stop s : Rat} {n : Nat}
  {rest : List (Number .exact)} {curves : List (Curve .exact)}

theorem go_here (wide : start < stop) (after : start ≤ p) (before : p ≤ stop)
    (bent : (Curve.bent curves.head? (fraction start stop p)).Denotes s)
    (parted : alongSegments.segments all ≠ 0) :
    alongSegments.go all (.finite p) n (.finite start :: .finite stop :: rest) curves =
      .finite ((n + s) / alongSegments.segments all) := by
  have here : (Number.finite p : Number .exact) ≤ .finite stop :=
    ((Number.Denotes.finite p).le_iff (.finite stop)).mpr before
  have span : ((.finite stop : Number .exact) - .finite start) = .finite (stop - start) :=
    Number.sub_exact rfl rfl
  have passed : ((.finite p : Number .exact) - .finite start) = .finite (p - start) :=
    Number.sub_exact rfl rfl
  have width : 0 < stop - start := by linarith
  have positive : (0 : Number .exact) < .finite (stop - start) :=
    (Number.Denotes.zero.lt_iff (.finite _)).mpr width
  have part : (.finite (p - start) : Number .exact) / .finite (stop - start) =
      fraction start stop p := Number.div_exact rfl rfl (ne_of_gt width)
  have clamped : (fraction start stop p).clampUnit = fraction start stop p :=
    Number.clampUnit_finite (div_nonneg (by linarith) width.le)
      (by rw [div_le_one width]; linarith)
  have places : (alongSegments.segments all : Rat) ≠ 0 := by exact_mod_cast parted
  have placed : (Number.ofInt n + Curve.bent curves.head? (fraction start stop p)) /
      Number.ofInt (alongSegments.segments all) =
        .finite ((n + s) / alongSegments.segments all) := by
    have sum := Number.add_exact (x := Number.ofInt n) rfl bent.1
    rw [sum, bent.2]
    exact Number.div_exact (y := Number.ofInt (alongSegments.segments all)) rfl rfl places
  rw [← placed]
  simp only [alongSegments.go, here, decide_true, Bool.true_or, ↓reduceIte, span, passed,
    positive, part, clamped]
  cases curves <;> rfl

theorem go_later (after : stop < p) (more : rest ≠ []) :
    alongSegments.go all (.finite p) n (.finite start :: .finite stop :: rest) curves =
      alongSegments.go all (.finite p) (n + 1) (.finite stop :: rest) curves.tail := by
  have later : ¬ (Number.finite p : Number .exact) ≤ .finite stop := by
    rw [(Number.Denotes.finite p).le_iff (.finite stop)]
    exact not_le.mpr after
  have unfinished : rest.isEmpty = false := by simpa using more
  simp [alongSegments.go, later, unfinished]

/-- The only later segment that a progress in the first one can touch begins where that ends. -/
theorem reached_stop {times : List Rat} (increasing : (stop :: times).Pairwise (· < ·)) {j : Nat}
    (inside : j < (stop :: times).length) (after : (stop :: times)[j] ≤ p) (reached : p ≤ stop) :
    j = 0 ∧ p = stop := by
  obtain ⟨later, _⟩ := List.pairwise_cons.mp increasing
  cases j with
  | zero => exact ⟨rfl, le_antisymm reached after⟩
  | succ k =>
    have inner : k < times.length := by simpa using inside
    have beyond := later times[k] (List.getElem_mem inner)
    simp only [List.getElem_cons_succ] at after
    linarith

theorem go_segment (all : List (Number .exact)) (times : List Rat)
    (increasing : times.Pairwise (· < ·)) (n i : Nat) (curves : List (Curve .exact))
    (inside : i + 1 < times.length)
    (after : times[i] ≤ p) (before : p ≤ times[i + 1])
    (bent : (Curve.bent curves[i]? (fraction times[i] times[i + 1] p)).Denotes s)
    (parted : alongSegments.segments all ≠ 0) :
    alongSegments.go all (.finite p) n (times.map .finite) curves =
      .finite ((n + i + s) / alongSegments.segments all) := by
  -- By induction on the key times; `n` of them are passed already.
  induction times generalizing n i curves with
  | nil => simp at inside
  | cons start rest ih =>
    obtain _ | ⟨stop, rest⟩ := rest
    · simp at inside
    · obtain ⟨least, increasing⟩ := List.pairwise_cons.mp increasing
      have wide : start < stop := least stop (by simp)
      cases i with
      | zero =>
        simp only [List.getElem_cons_zero, List.getElem_cons_succ, ← List.head?_eq_getElem?]
          at after before bent
        simpa using go_here (n := n) wide after before bent parted
      | succ j =>
        simp only [List.getElem_cons_succ] at after before bent
        have inner : j + 1 < (stop :: rest).length := by simpa using inside
        by_cases reached : p ≤ stop
        · obtain ⟨rfl, rfl⟩ :=
            reached_stop increasing (Nat.lt_of_succ_lt inner) after reached
          have whole : (Curve.bent curves.head? (fraction start p p)).Denotes 1 := by
            rw [fraction_stop wide, Curve.bent_one]
            exact .finite 1
          have nothing : s = 0 := by
            simp only [List.getElem_cons_zero, fraction_start, Curve.bent_zero] at bent
            exact bent.2.symm
          have here : alongSegments.go all (.finite p) n
              (.finite start :: .finite p :: rest.map .finite) curves = _ :=
            go_here wide wide.le le_rfl whole parted
          simpa [nothing] using here
        · have more : rest.map Number.finite ≠ ([] : List (Number .exact)) := by
            intro none
            rw [List.map_eq_nil_iff] at none
            simp [none] at inner
          have passed : alongSegments.go all (.finite p) n
              (.finite start :: .finite stop :: rest.map .finite) curves = _ :=
            go_later (not_le.mp reached) more
          have found := ih increasing (n + 1) j curves.tail inner after before
            (by simpa using bent)
          simp only [List.map_cons] at passed found ⊢
          rw [passed, found]
          push_cast
          ring_nf

end
end Pace
end DeclarativeAnimation
