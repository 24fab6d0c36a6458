import DeclarativeAnimation.Proofs.Number.Exact
import DeclarativeAnimation.Proofs.Outcome
import DeclarativeAnimation.Timing.Schedule

/-! Clock values in exact arithmetic.  Every value denotes a time there, as no whole number is
    too large and no sum or product of rationals is anything but a rational. -/
namespace DeclarativeAnimation
variable {A : Arithmetic}

open Number

namespace ClockValue

theorem shortField?_isFinite {text : List Char} {x : Number .exact}
    (read : shortField? text = some x) : x.isFinite := by
  unfold shortField? at read
  split at read
  · cases read
    rfl
  · cases read

theorem secondsField?_isFinite {text : List Char} {x : Number .exact}
    (read : secondsField? text = some x) : x.isFinite := by
  unfold secondsField? at read
  dsimp only at read
  split at read
  · exact shortField?_isFinite read
  · split at read
    · cases read
      rfl
    · cases read
  · cases read

theorem hoursField?_isFinite {text : List Char} {x : Number .exact}
    (read : hoursField? text = some x) : x.isFinite := by
  unfold hoursField? at read
  split at read
  · cases read
    rfl
  · cases read

theorem fields_isFinite {hours minutes seconds : Number .exact} (hh : hours.isFinite)
    (hm : minutes.isFinite) (hs : seconds.isFinite) :
    (hours * 3600 + minutes * 60 + seconds).isFinite := by
  have first := (Denotes.of_isFinite hh).mul (.finite 3600)
  have second := (Denotes.of_isFinite hm).mul (.finite 60)
  exact ((first.add second).add (.of_isFinite hs)).1

theorem clock?_isFinite {text : List Char} {x : Number .exact} (read : clock? text = some x) :
    x.isFinite := by
  unfold clock? at read
  split at read
  · obtain ⟨minutes, hm, read⟩ := Option.bind_eq_some_iff.mp read
    obtain ⟨seconds, hs, read⟩ := Option.bind_eq_some_iff.mp read
    cases read
    exact fields_isFinite rfl (shortField?_isFinite hm) (secondsField?_isFinite hs)
  · obtain ⟨hours, hh, read⟩ := Option.bind_eq_some_iff.mp read
    obtain ⟨minutes, hm, read⟩ := Option.bind_eq_some_iff.mp read
    obtain ⟨seconds, hs, read⟩ := Option.bind_eq_some_iff.mp read
    cases read
    exact fields_isFinite (hoursField?_isFinite hh) (shortField?_isFinite hm)
      (secondsField?_isFinite hs)
  · cases read

theorem ofText?_isFinite {text : List Char} {x : Number .exact} (read : ofText? text = some x) :
    x.isFinite := by
  unfold ofText? at read
  dsimp only at read
  split at read
  · split at read
    · rename_i bounded
      cases read
      exact bounded
    · cases read
  · exact clock?_isFinite read

theorem read?_exact (v : Value .exact) : Answers (read? v) fun x => ∀ s ∈ x, s.isFinite := by
  have kept (x : Number .exact) :
      Answers (read? (.number x)) fun x => ∀ s ∈ x, s.isFinite := by
    by_cases bounded : x.isFinite
    · exact ⟨some x, congrArg Except.ok (if_pos bounded), by simpa using bounded⟩
    · exact ⟨none, congrArg Except.ok (if_neg bounded), by simp⟩
  cases v with
  | null => exact .ok (by simp)
  | bool b => exact .ok (by simp)
  | int n => exact kept (.finite n)
  | number x => exact kept x
  | text s => exact .ok fun _ read => ofText?_isFinite read
  | list items => exact .ok (by simp)
  | object members => exact .ok (by simp)

theorem read?_denotes {v : Value .exact} {x : Number .exact} (read : read? v = .ok (some x)) :
    x.Denotes x.rat := by
  obtain ⟨found, read', bounded⟩ := read?_exact v
  rw [read] at read'
  cases read'
  exact .of_isFinite (bounded x rfl)

theorem seconds_exact (v : Value .exact) : Answers (seconds v) fun x => x.isFinite := by
  apply (read?_exact v).bind
  intro x bounded
  cases x with
  | none => exact .ok rfl
  | some s => exact .ok (bounded s rfl)

end ClockValue

namespace Schedule

theorem beginSeconds_exact (s : Schedule .exact) : ∃ x q, s.beginSeconds = .ok x ∧ x.Denotes q := by
  obtain ⟨x, read, bounded⟩ := ClockValue.seconds_exact (s.begin.orElse (.text "0s"))
  exact ⟨x, x.rat, read, .of_isFinite bounded⟩

theorem beginSeconds_denotes {s : Schedule .exact} {x : Number .exact}
    (begins : s.beginSeconds = .ok x) : x.Denotes x.rat := by
  obtain ⟨y, q, begins', is_q⟩ := s.beginSeconds_exact
  rw [begins] at begins'
  cases begins'
  exact .of_isFinite is_q.1

theorem durSeconds_exact (s : Schedule .exact) : ∃ x q, s.durSeconds = .ok x ∧ x.Denotes q := by
  obtain ⟨x, read, bounded⟩ := ClockValue.seconds_exact (s.dur.orElse (.text "0s"))
  exact ⟨x, x.rat, read, .of_isFinite bounded⟩

theorem repeatTimes_pos {v : Value .exact} {times : Number .exact}
    (counts : repeatTimes v = .ok times) :
    times = .infinite false ∨ ∃ q, times.Denotes q ∧ 0 < q := by
  have settled (count : Except Fault (Number .exact))
      (done : (count >>= fun count => pure (if !count.isFinite || count ≤ 0 then 1 else count)) =
        .ok times) : ∃ q, times.Denotes q ∧ 0 < q := by
    obtain ⟨count, -, done⟩ := bind_eq_ok done
    cases done
    split
    · exact ⟨1, .finite 1, zero_lt_one⟩
    · rename_i usual
      simp only [Bool.or_eq_true, Bool.not_eq_eq_eq_not, Bool.not_true, decide_eq_true_eq, not_or,
        Bool.not_eq_false] at usual
      have denotes := Denotes.of_isFinite usual.1
      exact ⟨count.rat, denotes, not_le.mp (mt (denotes.le_iff .zero).mpr usual.2)⟩
  cases v with
  | null => exact Or.inr (settled (pure 1) counts)
  | text s =>
    unfold repeatTimes at counts
    dsimp only at counts
    split at counts
    · left
      cases counts
      rfl
    · exact Or.inr (settled (pure _) counts)
  | bool b => exact Or.inr (settled (Value.toNumber (.bool b)) counts)
  | int n => exact Or.inr (settled (Value.toNumber (.int n)) counts)
  | number x => exact Or.inr (settled (Value.toNumber (.number x)) counts)
  | list items => exact Or.inr (settled (Value.toNumber (.list items)) counts)
  | object members => exact Or.inr (settled (Value.toNumber (.object members)) counts)

/-- How long an animation goes on where no end cuts it off. -/
def span (dur times repeated : Number A) : Number A :=
  if 0 < repeated then repeated else if dur ≤ 0 then 0 else dur * times

theorem activeDuration_parts {s : Schedule A} {total : Number A}
    (active : s.activeDuration = .ok total) :
    ∃ dur times repeated, s.durSeconds = .ok dur ∧ repeatTimes s.repeatCount = .ok times ∧
      repeatSeconds s.repeatDur = .ok repeated ∧
      ((ClockValue.read? s.finish = .ok none ∧ total = span dur times repeated) ∨
        ∃ finish begin, ClockValue.read? s.finish = .ok (some finish) ∧
          s.beginSeconds = .ok begin ∧
          total = (span dur times repeated).smaller (Number.larger 0 (finish - begin))) := by
  unfold activeDuration at active
  obtain ⟨dur, lasts, active⟩ := bind_eq_ok active
  obtain ⟨times, counts, active⟩ := bind_eq_ok active
  obtain ⟨repeated, repeats, active⟩ := bind_eq_ok active
  obtain ⟨finish, ends, active⟩ := bind_eq_ok active
  refine ⟨dur, times, repeated, lasts, counts, repeats, ?_⟩
  cases finish with
  | none =>
    left
    cases active
    exact ⟨ends, rfl⟩
  | some finish =>
    right
    obtain ⟨begin, begins, active⟩ := bind_eq_ok active
    cases active
    exact ⟨finish, begin, ends, begins, rfl⟩

theorem span_nonneg {s : Schedule .exact} {dur times repeated : Number .exact} {q : Rat}
    (lasts : s.durSeconds = .ok dur) (counts : repeatTimes s.repeatCount = .ok times)
    (is_q : (span dur times repeated).Denotes q) : 0 ≤ q := by
  obtain ⟨x, p, lasts', is_p⟩ := s.durSeconds_exact
  rw [lasts] at lasts'
  cases lasts'
  unfold span at is_q
  split at is_q
  · rename_i some_time
    exact ((Denotes.zero.lt_iff is_q).mp some_time).le
  · split at is_q
    · exact is_q.2.symm.ge
    · rename_i lasting
      have positive : 0 < p := not_le.mp (mt (is_p.le_iff .zero).mpr lasting)
      rcases repeatTimes_pos counts with rfl | ⟨n, is_n, some_run⟩
      · have endless : dur * .infinite false = .infinite false := by
          show dur.mul (.infinite false) = _
          cases dur with
          | finite r =>
            have size : r = p := is_p.2
            subst size
            simp [mul, isZero, isNegative, positive.ne', positive.le]
          | negativeZero => exact absurd is_p.2 positive.ne
          | infinite negative => cases is_p.1
          | nan => cases is_p.1
        rw [endless] at is_q
        cases is_q.1
      · rw [← is_q.2, (is_p.mul is_n).2]
        exact (mul_pos positive some_run).le

theorem activeDuration_nonneg {s : Schedule .exact} {total : Number .exact} {q : Rat}
    (active : s.activeDuration = .ok total) (is_q : total.Denotes q) : 0 ≤ q := by
  obtain ⟨dur, times, repeated, lasts, counts, -, parts⟩ := activeDuration_parts active
  rcases parts with ⟨-, rfl⟩ | ⟨finish, begin, ends, begins, rfl⟩
  · exact span_nonneg lasts counts is_q
  · unfold Number.smaller at is_q
    split at is_q
    · have left := (ClockValue.read?_denotes ends).sub (beginSeconds_denotes begins)
      have rest := Denotes.zero.larger left
      rw [← is_q.2, rest.2]
      exact le_max_left 0 _
    · exact span_nonneg lasts counts is_q

end Schedule
end DeclarativeAnimation
