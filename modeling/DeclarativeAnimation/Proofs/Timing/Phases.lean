import DeclarativeAnimation.Proofs.Timing.ExactTimes
import DeclarativeAnimation.Proofs.Timing.ProgressRange
import Mathlib.Algebra.Order.Floor.Ring
import Mathlib.Data.Rat.Floor
import Mathlib.Tactic.FieldSimp
import Mathlib.Tactic.Ring

/-! The phases of an animation over all time.  In exact arithmetic the times of a schedule are
    rationals, and the place in a run is a function of those and of the time.  It goes through
    the phases in one direction, counts the runs as the time passes them, and where the end is
    kept it is left no earlier than the last run has got, but for the tolerance. -/
namespace DeclarativeAnimation

namespace Number

theorem floorDivide_exact {x y : Number .exact} {p q : Rat} (hx : x.Denotes p)
    (hy : y.Denotes q) (nonneg : 0 ≤ p) (positive : 0 < q) :
    x.floorDivide y = (.finite ⌊p / q⌋, .finite (p - q * ⌊p / q⌋)) := by
  have ratio : 0 ≤ p / q := div_nonneg nonneg positive.le
  have below : q * ⌊p / q⌋ ≤ p := by
    have scaled := mul_le_mul_of_nonneg_left (Int.floor_le (p / q)) positive.le
    rwa [mul_div_cancel₀ p positive.ne'] at scaled
  have left : truncatedRemainder x y = .finite (p - q * ⌊p / q⌋) := by
    obtain ⟨negative, left⟩ := truncatedRemainder_of_finite hx hy positive.ne'
    rw [left, if_neg (not_lt.mpr ratio)]
    rfl
  have quotient : (x - .finite (p - q * ⌊p / q⌋)) / y = .finite ⌊p / q⌋ := by
    have difference := sub_exact hx.1 (y := .finite (p - q * ⌊p / q⌋)) rfl
    rw [difference, div_exact rfl hy.1 (hy.2 ▸ positive.ne'), hy.2, hx.2]
    congr 1
    simp only [rat_finite]
    field_simp
    ring
  have forward := not_less_zero hy positive.le
  have kept := not_less_zero (A := .exact) (.finite (p - q * ⌊p / q⌋)) (by linarith)
  have whole (negative : Bool) :
      wholeQuotient (.finite ⌊p / q⌋ : Number .exact) negative = .finite ⌊p / q⌋ := by
    have below : (Number.finite ⌊p / q⌋ : Number .exact).wholeBelow = .finite ⌊p / q⌋ := by
      show Number.finite ((⌊p / q⌋ : Rat).floor : Rat) = _
      rw [Rat.floor_intCast]
    have near : ¬ (0.5 : Number .exact) < .finite ⌊p / q⌋ - .finite ⌊p / q⌋ := by
      rw [sub_exact rfl rfl, sub_self]
      decide +kernel
    unfold wholeQuotient
    rw [below, if_neg near]
    by_cases none : (⌊p / q⌋ : Rat) = 0 <;> simp [isZero, none]
  have parts : x.floorDivide y = (wholeQuotient (.finite ⌊p / q⌋) (x.isNegative != y.isNegative),
      if (Number.finite (p - q * ⌊p / q⌋) : Number .exact).isZero then .finite 0
      else .finite (p - q * ⌊p / q⌋)) := by
    simp only [floorDivide, left, forward, kept, bne_self_eq_false, Bool.false_eq_true, ↓reduceIte]
    split <;> simp only [quotient] <;> rfl
  rw [parts, whole]
  by_cases exact_fit : p - q * ⌊p / q⌋ = 0 <;> simp [isZero, exact_fit]

def Lasts (x : Number .exact) : Option Rat → Prop
  | none => x = .infinite false
  | some q => x.Denotes q ∧ 0 ≤ q

end Number

namespace Schedule

open Number

theorem repeatSeconds_exact {v : Value .exact} {repeated : Number .exact}
    (repeats : repeatSeconds v = .ok repeated) :
    repeated = .infinite false ∨ repeated.isFinite := by
  unfold repeatSeconds at repeats
  split at repeats
  · cases repeats
    exact .inl rfl
  · split at repeats
    · obtain ⟨x, read, bounded⟩ := ClockValue.seconds_exact v
      rw [read] at repeats
      cases repeats
      exact .inr bounded
    · cases repeats
      exact .inr rfl

theorem span_exact {s : Schedule .exact} {dur times repeated : Number .exact}
    (lasts : s.durSeconds = .ok dur) (counts : repeatTimes s.repeatCount = .ok times)
    (repeats : repeatSeconds s.repeatDur = .ok repeated) :
    span dur times repeated = .infinite false ∨ (span dur times repeated).isFinite := by
  obtain ⟨x, p, lasts', is_p⟩ := s.durSeconds_exact
  rw [lasts] at lasts'
  cases lasts'
  unfold span
  split
  · exact repeatSeconds_exact repeats
  split
  · exact .inr rfl
  rename_i lasting
  have positive : 0 < dur := by
    rw [Denotes.zero.lt_iff is_p]
    exact not_le.mp (mt (is_p.le_iff .zero).mpr lasting)
  rcases repeatTimes_pos counts with rfl | ⟨n, is_n, _⟩
  · left
    rcases pos_cases positive with rfl | ⟨q, rfl, above⟩
    · rfl
    · show Number.mul _ _ = _
      simp [Number.mul, isZero, isNegative, above.ne', above.le]
  · exact .inr (is_p.mul is_n).1

theorem activeDuration_exact {s : Schedule .exact} (plain : s.IsPlain)
    (count : s.repeatCount.IsPlain) :
    ∃ x total, s.activeDuration = .ok x ∧ x.Lasts total := by
  obtain ⟨_, _, x, _, _, active⟩ := times_answer plain.fits (.inl count)
  obtain ⟨dur, times, repeated, lasts, counts, repeats, made⟩ := activeDuration_parts active
  have uncut := span_exact lasts counts repeats
  have ended : x = .infinite false ∨ x.isFinite := by
    rcases made with ⟨_, rfl⟩ | ⟨finish, begin, ends, begins, rfl⟩
    · exact uncut
    · have left := (ClockValue.read?_denotes ends).sub (beginSeconds_denotes begins)
      unfold Number.smaller
      split
      · exact .inr (Denotes.zero.larger left).1
      · exact uncut
  rcases ended with rfl | bounded
  · exact ⟨_, none, active, rfl⟩
  · exact ⟨x, some x.rat, active, .of_isFinite bounded,
      activeDuration_nonneg active (.of_isFinite bounded)⟩

/-- When a schedule begins, how long one run of it takes, and how long all of them take if they
    end. -/
structure Course where
  begin : Rat
  dur : Rat
  total : Option Rat

structure Follows (s : Schedule .exact) (c : Course) : Prop where
  begin : ∃ x, s.beginSeconds = .ok x ∧ x.Denotes c.begin
  dur : ∃ x, s.durSeconds = .ok x ∧ x.Denotes c.dur
  total : ∃ x, s.activeDuration = .ok x ∧ x.Lasts c.total

theorem follows_course {s : Schedule .exact} (plain : s.IsPlain) (count : s.repeatCount.IsPlain) :
    ∃ c, s.Follows c := by
  obtain ⟨x, begin, begins⟩ := s.beginSeconds_exact
  obtain ⟨y, dur, runs⟩ := s.durSeconds_exact
  obtain ⟨z, total, lasts⟩ := activeDuration_exact plain count
  exact ⟨⟨begin, dur, total⟩, ⟨x, begins⟩, ⟨y, runs⟩, ⟨z, lasts⟩⟩

namespace Course

/-- How many runs have passed at a time, the last one in part. -/
def runs (c : Course) (t : Rat) : Rat := (t - c.begin) / c.dur

def IsOver (c : Course) (t : Rat) : Prop := c.dur ≤ 0 ∨ ∃ q ∈ c.total, q ≤ t - c.begin

instance (c : Course) (t : Rat) : Decidable (c.IsOver t) := inferInstanceAs (Decidable (_ ∨ _))

/-- The last run of a course that ends. -/
def lastRun (c : Course) : Int :=
  match c.total with
  | some q => if 0 < c.dur ∧ 0 < q then max 0 ((q / c.dur - 1e-9).ceil - 1) else 0
  | none => 0

def rest (c : Course) (frozen : Bool) : Moment .exact :=
  if frozen then ⟨1, .frozen, c.lastRun⟩ else ⟨0, .removed, c.lastRun⟩

def place (c : Course) (frozen : Bool) (t : Rat) : Moment .exact :=
  if t < c.begin then ⟨0, .before, 0⟩
  else if c.IsOver t then c.rest frozen
  else ⟨.finite (Int.fract (c.runs t)), .active, ⌊c.runs t⌋⟩

end Course

theorem lastIteration_exact {c : Course} {dur total : Number .exact} (is_dur : dur.Denotes c.dur)
    (ends : total.Lasts c.total) (stopped : c.dur ≤ 0 ∨ ∃ q, c.total = some q) :
    lastIteration dur total = .ok c.lastRun := by
  have some_dur : (0 : Number .exact) < dur ↔ 0 < c.dur := Denotes.zero.lt_iff is_dur
  unfold lastIteration Course.lastRun
  simp only [some_dur]
  cases known : c.total with
  | none =>
    have idle : ¬ 0 < c.dur := by
      rcases stopped with idle | ⟨q, ends⟩
      · exact not_lt.mpr idle
      · rw [known] at ends
        cases ends
    rw [decide_eq_false idle, Bool.false_and, if_neg Bool.false_ne_true]
  | some q =>
    rw [known] at ends
    obtain ⟨is_q, _⟩ := ends
    have some_total : (0 : Number .exact) < total ↔ 0 < q := Denotes.zero.lt_iff is_q
    simp only [some_total, Bool.and_eq_true, decide_eq_true_eq]
    split
    · rename_i both
      have runs := (is_q.div is_dur both.1.ne').sub (y := iterationTolerance) (.finite 1e-9)
      rw [Value.ceiling_of_finite runs]
      rfl
    · rfl

theorem Follows.resolve {s : Schedule .exact} {c : Course} (follows : s.Follows c)
    {time : Number .exact} {t : Rat} (is_t : time.Denotes t) :
    s.resolve time = .ok (c.place (s.fill.isTheText "freeze") t) := by
  obtain ⟨begin, begins, is_begin⟩ := follows.begin
  obtain ⟨dur, runs, is_dur⟩ := follows.dur
  obtain ⟨total, lasts, ends⟩ := follows.total
  have elapsed : time - begin = .finite (t - c.begin) := by
    rw [sub_exact is_t.1 is_begin.1, is_t.2, is_begin.2]
  have early : (.finite (t - c.begin) : Number .exact) < 0 ↔ t < c.begin := by
    rw [(Denotes.finite _).lt_iff .zero, sub_neg]
  have stopped : (dur ≤ 0 || (total.isFinite && total ≤ .finite (t - c.begin))) =
      decide (c.IsOver t) := by
    rw [Bool.eq_iff_iff, Bool.or_eq_true, decide_eq_true_eq, decide_eq_true_eq, is_dur.le_iff .zero]
    refine or_congr_right ?_
    cases known : c.total with
    | none =>
      rw [known] at ends
      cases ends
      simp [isFinite]
    | some q =>
      rw [known] at ends
      simp [ends.1.1, ends.1.le_iff (.finite _)]
  unfold Schedule.resolve Course.place
  rw [begins, runs, lasts]
  dsimp only [bind, Except.bind]
  rw [elapsed, stopped]
  by_cases before : t < c.begin
  · rw [if_pos (early.mpr before), if_pos before]
    rfl
  rw [if_neg (mt early.mp before), if_neg before]
  by_cases past : c.IsOver t
  · rw [decide_eq_true past, if_pos rfl, if_pos past]
    have stops : c.dur ≤ 0 ∨ ∃ q, c.total = some q :=
      past.imp_right (Exists.imp fun _ => And.left)
    rw [lastIteration_exact is_dur ends stops]
    cases s.fill.isTheText "freeze" <;> rfl
  · rw [decide_eq_false past, if_neg Bool.false_ne_true, if_neg past]
    have lasting : 0 < c.dur := not_le.mp fun idle => past (.inl idle)
    have begun : 0 ≤ t - c.begin := by linarith
    have nonneg : (0 : Rat) ≤ ⌊c.runs t⌋ := by
      exact_mod_cast Int.floor_nonneg.mpr (div_nonneg begun lasting.le)
    have counted : Value.wholePart (.finite ⌊c.runs t⌋ : Number .exact) = .ok ⌊c.runs t⌋ := by
      show Except.ok (if (⌊c.runs t⌋ : Rat) < 0 then _ else (⌊c.runs t⌋ : Rat).floor) = _
      rw [if_neg (not_lt.mpr nonneg), Rat.floor_intCast]
    have part : ((.finite (t - c.begin - c.dur * ⌊c.runs t⌋) : Number .exact) / dur).clampUnit =
        .finite (Int.fract (c.runs t)) := by
      have same : (t - c.begin - c.dur * ⌊c.runs t⌋) / c.dur = Int.fract (c.runs t) := by
        rw [sub_div, mul_div_cancel_left₀ _ lasting.ne']
        rfl
      rw [div_exact rfl is_dur.1 (is_dur.2 ▸ lasting.ne'), is_dur.2, rat_finite, same]
      exact clampUnit_finite (Int.fract_nonneg _) (Int.fract_lt_one _).le
    rw [floorDivide_exact (.finite _) is_dur begun lasting]
    dsimp only
    rw [show (t - c.begin) / c.dur = c.runs t from rfl, counted, part]
    rfl

def Phase.rank : Phase → Nat
  | .before => 0
  | .active => 1
  | .frozen | .removed => 2

def Moment.passed {A : Arithmetic} (m : Moment A) : Rat := m.iteration + m.progress.rat

/-- What the places in a run over all time have to do with each other and with the time. -/
structure IsCoherent (c : Course) (frozen : Bool) (place : Rat → Moment .exact) : Prop where
  before : ∀ t, (place t).phase = .before ↔ t < c.begin
  active : ∀ t, (place t).phase = .active ↔ c.begin ≤ t ∧ ¬ c.IsOver t
  forward : ∀ t u, t ≤ u → (place t).phase.rank ≤ (place u).phase.rank
  stays : ∀ t u, t ≤ u → (place t).phase.rank = 2 → place u = place t
  within : ∀ t, (place t).progress.InUnit ∧ 0 ≤ (place t).iteration
  running : ∀ t, (place t).phase = .active →
    (place t).progress.rat < 1 ∧ c.begin + (place t).passed * c.dur = t
  periodic : ∀ t (k : Nat), (place t).phase = .active →
    (place (t + k * c.dur)).phase = .active →
      (place (t + k * c.dur)).progress = (place t).progress ∧
        (place (t + k * c.dur)).iteration = (place t).iteration + k
  rising : frozen = true → ∀ t u, t ≤ u → (place t).passed ≤ (place u).passed + 1e-9

namespace Course
variable {c : Course} {frozen : Bool} {t u : Rat}

theorem IsOver.later (stopped : c.IsOver t) (le : t ≤ u) : c.IsOver u := by
  rcases stopped with idle | ⟨q, ends, past⟩
  · exact .inl idle
  · exact .inr ⟨q, ends, by linarith⟩

theorem dur_pos (running : ¬ c.IsOver t) : 0 < c.dur := not_le.mp fun idle => running (.inl idle)

theorem place_before (early : t < c.begin) : c.place frozen t = ⟨0, .before, 0⟩ := if_pos early

theorem place_over (begun : c.begin ≤ t) (stopped : c.IsOver t) :
    c.place frozen t = c.rest frozen := by
  rw [place, if_neg (not_lt.mpr begun), if_pos stopped]

theorem place_running (begun : c.begin ≤ t) (running : ¬ c.IsOver t) :
    c.place frozen t = ⟨.finite (Int.fract (c.runs t)), .active, ⌊c.runs t⌋⟩ := by
  rw [place, if_neg (not_lt.mpr begun), if_neg running]

theorem rest_rank : (c.rest frozen).phase.rank = 2 := by cases frozen <;> rfl

theorem time_cases (c : Course) (t : Rat) :
    t < c.begin ∨ (c.begin ≤ t ∧ c.IsOver t) ∨ (c.begin ≤ t ∧ ¬ c.IsOver t) := by
  rcases lt_or_ge t c.begin with early | begun
  · exact .inl early
  · exact .inr ((em (c.IsOver t)).imp (⟨begun, ·⟩) (⟨begun, ·⟩))

theorem place_phase (c : Course) (frozen : Bool) (t : Rat) :
    ((c.place frozen t).phase = .before ↔ t < c.begin) ∧
      ((c.place frozen t).phase = .active ↔ c.begin ≤ t ∧ ¬ c.IsOver t) := by
  rcases c.time_cases t with early | ⟨begun, stopped⟩ | ⟨begun, running⟩
  · simp [place_before early, early]
  · rw [place_over begun stopped]
    cases frozen <;> simp [rest, begun, stopped]
  · simp [place_running begun running, begun, running]

theorem place_passed (begun : c.begin ≤ t) (running : ¬ c.IsOver t) :
    (c.place frozen t).passed = c.runs t := by
  rw [place_running begun running]
  exact Int.floor_add_fract (c.runs t)

theorem lastRun_nonneg (c : Course) : 0 ≤ c.lastRun := by
  unfold lastRun
  split
  · split
    · exact le_max_left 0 _
    · exact le_rfl
  · exact le_rfl

/-- The last run is counted so that it does not end before a time at which there was a run, but
    for the tolerance. -/
theorem runs_le_lastRun (begun : c.begin ≤ t) (running : ¬ c.IsOver t) (stopped : c.IsOver u) :
    c.runs t ≤ c.lastRun + 1 + 1e-9 := by
  have lasting := dur_pos running
  rcases stopped with idle | ⟨q, ends, _⟩
  · exact absurd idle (not_le.mpr lasting)
  have inside : t - c.begin < q := not_le.mp fun past => running (.inr ⟨q, ends, past⟩)
  have some_total : 0 < q := by linarith
  have least : ((q / c.dur - 1e-9).ceil - 1 : Int) ≤ c.lastRun := by
    have known : c.total = some q := ends
    unfold lastRun
    rw [known]
    dsimp only
    rw [if_pos ⟨lasting, some_total⟩]
    exact le_max_right 0 _
  have counted : ((q / c.dur - 1e-9).ceil : Rat) - 1 ≤ c.lastRun := by exact_mod_cast least
  calc c.runs t
      ≤ q / c.dur := div_le_div_of_nonneg_right inside.le lasting.le
    _ ≤ (q / c.dur - 1e-9).ceil + 1e-9 := by linarith [Rat.le_ceil (x := q / c.dur - 1e-9)]
    _ ≤ c.lastRun + 1 + 1e-9 := by linarith

theorem place_within (c : Course) (frozen : Bool) (t : Rat) :
    (c.place frozen t).progress.InUnit ∧ 0 ≤ (c.place frozen t).iteration := by
  rcases c.time_cases t with early | ⟨begun, stopped⟩ | ⟨begun, running⟩
  · rw [place_before early]
    exact ⟨.zero, le_rfl⟩
  · rw [place_over begun stopped]
    cases frozen with
    | true => exact ⟨.one, c.lastRun_nonneg⟩
    | false => exact ⟨.zero, c.lastRun_nonneg⟩
  · rw [place_running begun running]
    refine ⟨⟨_, .finite _, Int.fract_nonneg _, (Int.fract_lt_one _).le⟩, Int.floor_nonneg.mpr ?_⟩
    exact div_nonneg (sub_nonneg.mpr begun) (dur_pos running).le

theorem passed_nonneg (c : Course) (frozen : Bool) (t : Rat) : 0 ≤ (c.place frozen t).passed := by
  obtain ⟨⟨p, is_p, low, _⟩, counted⟩ := c.place_within frozen t
  have whole : (0 : Rat) ≤ (c.place frozen t).iteration := by exact_mod_cast counted
  rw [Moment.passed, is_p.2]
  linarith

theorem place_rising (kept : frozen = true) (le : t ≤ u) :
    (c.place frozen t).passed ≤ (c.place frozen u).passed + 1e-9 := by
  rcases c.time_cases t with early | ⟨begun, stopped⟩ | ⟨begun, running⟩
  · rw [place_before early]
    show (0 : Rat) + 0 ≤ _
    linarith [c.passed_nonneg frozen u]
  · rw [place_over begun stopped, place_over (begun.trans le) (stopped.later le)]
    linarith
  · rw [place_passed begun running]
    by_cases stopped : c.IsOver u
    · rw [place_over (begun.trans le) stopped, kept]
      exact runs_le_lastRun begun running stopped
    · rw [place_passed (begun.trans le) stopped]
      have further : c.runs t ≤ c.runs u :=
        div_le_div_of_nonneg_right (by linarith) (dur_pos running).le
      linarith

theorem place_coherent (c : Course) (frozen : Bool) :
    IsCoherent c frozen (c.place frozen) where
  before t := (c.place_phase frozen t).1
  active t := (c.place_phase frozen t).2
  forward t u le := by
    rcases c.time_cases t with early | ⟨begun, stopped⟩ | ⟨begun, running⟩
    · rw [place_before early]
      exact Nat.zero_le _
    · rw [place_over begun stopped, place_over (begun.trans le) (stopped.later le)]
    · rw [place_running begun running]
      by_cases stopped : c.IsOver u
      · rw [place_over (begun.trans le) stopped, rest_rank]
        exact Nat.le_succ 1
      · rw [place_running (begun.trans le) stopped]
  stays t u le rank := by
    rcases c.time_cases t with early | ⟨begun, stopped⟩ | ⟨begun, running⟩
    · rw [place_before early] at rank
      cases rank
    · rw [place_over begun stopped, place_over (begun.trans le) (stopped.later le)]
    · rw [place_running begun running] at rank
      cases rank
  within := c.place_within frozen
  running t active := by
    obtain ⟨begun, running⟩ := (c.place_phase frozen t).2.mp active
    constructor
    · rw [place_running begun running]
      exact Int.fract_lt_one _
    · rw [place_passed begun running, runs, div_mul_cancel₀ _ (dur_pos running).ne']
      ring
  periodic t k active later := by
    obtain ⟨begun, running⟩ := (c.place_phase frozen t).2.mp active
    obtain ⟨begun', running'⟩ := (c.place_phase frozen _).2.mp later
    have further : c.runs (t + k * c.dur) = c.runs t + k := by
      have lasting := (dur_pos running).ne'
      unfold runs
      field_simp
      ring
    rw [place_running begun running, place_running begun' running', further]
    dsimp only
    rw [Int.fract_add_natCast, Int.floor_add_natCast]
    exact ⟨rfl, rfl⟩
  rising kept t u le := place_rising kept le

end Course

/-- The places of a schedule in its runs are coherent over all time. -/
theorem timing_is_coherent {s : Schedule .exact} (plain : s.IsPlain)
    (count : s.repeatCount.IsPlain) :
    ∃ c place, s.Follows c ∧ (∀ time t, time.Denotes t → s.resolve time = .ok (place t)) ∧
      IsCoherent c (s.fill.isTheText "freeze") place := by
  obtain ⟨c, follows⟩ := follows_course plain count
  exact ⟨c, c.place _, follows, fun _ _ is_t => follows.resolve is_t, c.place_coherent _⟩

def dance : Schedule .exact :=
  { begin := .text "1s", dur := .text "2s", repeatCount := .text "2.5", fill := .text "freeze" }

theorem dance_is_coherent :
    ∃ m n, dance.resolve (.finite (11 / 2)) = .ok m ∧ dance.resolve (.finite 6) = .ok n ∧
      m.phase = .active ∧ n.phase = .frozen ∧ m.phase.rank ≤ n.phase.rank ∧
      m.passed ≤ n.passed + 1e-9 := by
  have plain : dance.IsPlain :=
    ⟨.inr ⟨_, rfl⟩, .inr ⟨_, rfl⟩, .inl rfl, .inl rfl, .inr ⟨_, rfl⟩⟩
  obtain ⟨c, place, follows, places, coherent⟩ := timing_is_coherent plain (.inr ⟨_, rfl⟩)
  have running : dance.resolve (.finite (11 / 2)) = .ok ⟨.finite (1 / 4), .active, 2⟩ := by
    with_unfolding_all rfl
  have ended : dance.resolve (.finite 6) = .ok ⟨1, .frozen, 2⟩ := by with_unfolding_all rfl
  have forward := coherent.forward (11 / 2) 6 (by norm_num)
  have rising := coherent.rising rfl (11 / 2) 6 (by norm_num)
  have first := Except.ok.inj ((places _ _ (.finite (11 / 2))).symm.trans running)
  have second := Except.ok.inj ((places _ _ (.finite 6)).symm.trans ended)
  rw [first, second] at forward rising
  exact ⟨_, _, running, ended, rfl, rfl, forward, rising⟩

end Schedule
end DeclarativeAnimation
