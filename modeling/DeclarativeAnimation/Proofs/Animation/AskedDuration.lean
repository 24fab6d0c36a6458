import DeclarativeAnimation.Factory
import DeclarativeAnimation.Proofs.Number.SignificantDigits
import DeclarativeAnimation.Proofs.Timing.ClockGrammar
import DeclarativeAnimation.Timing.Schedule

/-! How long a preset lasts that was asked for so many seconds.  It is written down with six
    digits, and lasts what is read from them: the nearest seconds with six digits, which are those
    that were asked for where these have no more digits than that. -/
namespace DeclarativeAnimation
variable {A : Arithmetic}

/-- Seconds that are asked for, and those that are nearest with six digits. -/
structure SixDigits (q : Rat) (y : Number A) : Prop where
  finite : y.isFinite = true
  nearest : ∃ n unit : Int, 10 ^ 5 * 10 ^ unit ≤ q ∧ q < 10 ^ 6 * 10 ^ unit ∧
    IsNearestMultiple (10 ^ unit) q n ∧ y.rat = A.round (n * 10 ^ unit)
  /-- They are the same where those are nearest to a decimal with six digits at most. -/
  same_iff : y.rat = q ↔ ∃ (m : Nat) (e : Int), m < 10 ^ 6 ∧ q = A.round (m * 10 ^ e)

namespace Number

theorem sixDigits_of_denotes {q : Rat} (fixed : A.round q = q) (pos : 0 < q) {y : Number A}
    (denotes : y.Denotes (A.round (toSignificant 6 q))) : SixDigits q y := by
  have unit : (0 : Rat) < 10 ^ lastUnit 6 q := by positivity
  obtain ⟨low, high⟩ := units_bounds pos (by decide : 0 < 6)
  refine ⟨denotes.1, ⟨_, lastUnit 6 q, (le_div_iff₀ unit).mp low, (div_lt_iff₀ unit).mp high,
    (isNearestMultiple_iff unit).mpr rfl, denotes.2⟩, ?_⟩
  rw [denotes.2]
  exact round_toSignificant_iff pos (by decide) (by decide) fixed

end Number

namespace Preset

open Number

section Written
variable {x : Number A} {q : Rat} (holds : x.Holds q) (pos : 0 < q)
include holds pos

theorem durSeconds_of_written {s : Schedule A}
    (written : s.dur = .text (x.significant durationDigits ++ "s")) :
    Answers s.durSeconds (SixDigits q) := by
  obtain ⟨u, spelled, value⟩ := significant_spells pos (by decide : 0 < 6) holds.denotes
  have spans := spans_toSignificant holds.has pos
  rw [← value] at spans
  obtain ⟨y, read, denotes⟩ := ClockValue.seconds_denote (l := ⟨.none, u⟩) spans
  change y.Denotes (A.round (u.decimal false).value) at denotes
  rw [value] at denotes
  have chars : (x.significant durationDigits ++ "s").toList = u.chars ++ ['s'] := by
    rw [String.toList_append]
    exact congrArg (· ++ ['s']) spelled
  have present : (Value.text (x.significant durationDigits ++ "s") : Value A).isPresent = true := by
    refine decide_eq_true fun empty => ?_
    rw [empty] at chars
    exact absurd chars (by simp)
  have seconds : ClockValue.read? (s.dur.orElse (.text "0s")) = .ok (some y) := by
    rw [written, Value.orElse, if_pos present]
    show Except.ok (ClockValue.ofText? (x.significant durationDigits ++ "s").toList) = _
    rw [chars]
    exact congrArg Except.ok read
  refine ⟨y, ?_, sixDigits_of_denotes holds.has.fixed pos denotes⟩
  rw [Schedule.durSeconds, ClockValue.seconds, seconds]
  rfl

omit holds pos in
theorem durationText_number {v : Value A} (untold : ∀ s, v ≠ .text s)
    (number : v.toNumber = .ok x) :
    durationText v = .ok (.text (x.significant durationDigits ++ "s")) := by
  unfold durationText
  split
  · exact absurd rfl (untold _)
  · rw [number]
    rfl

/-- Whatever is made of a written duration, with the editor defaults around it. -/
theorem made_lasts {v : Value A} (untold : ∀ s, v ≠ .text s) (number : v.toNumber = .ok x)
    (make : Value A → Animation A) (keeps : ∀ dur, (make dur).schedule.dur = dur) :
    Answers (do let dur ← durationText v; return (make dur).withDefaults) fun a =>
      Answers a.schedule.durSeconds (SixDigits q) := by
  rw [durationText_number untold number]
  refine .ok (durSeconds_of_written holds pos ?_)
  unfold Animation.withDefaults
  dsimp only
  rw [keeps]
  rfl

end Written

/-- Whoever makes an animation of an attribute, a transformation or a motion and asks for a
    duration in seconds gets the nearest duration with six digits, and the one that was asked for
    if and only if that is nearest to a decimal with six digits at most. -/
theorem asked_duration_to_six_digits {v : Value A} {x : Number A} {q : Rat}
    (untold : ∀ s, v ≠ .text s) (number : v.toNumber = .ok x) (holds : x.Holds q) (pos : 0 < q) :
    (∀ (preset : Preset) (label : String) (target : Value A) (arguments : PresetArguments A),
      preset ≠ .set →
      Answers (preset.create label target { arguments with dur := v }) fun a =>
        Answers a.schedule.durSeconds (SixDigits q)) ∧
    ∀ (label : String) (target name : Value A) (track : Track A) (schedule : Schedule A)
      (composition : Composition A),
      Answers (ofAttribute label target name track { schedule with dur := v } composition) fun a =>
        Answers a.schedule.durSeconds (SixDigits q) := by
  have made (label : String) (target name : Value A) (track : Track A) (schedule : Schedule A)
      (composition : Composition A) :
      Answers (ofAttribute label target name track { schedule with dur := v } composition) fun a =>
        Answers a.schedule.durSeconds (SixDigits q) :=
    made_lasts holds pos untold number _ fun _ => rfl
  refine ⟨fun preset label target arguments timed => ?_, made⟩
  cases preset with
  | set => exact absurd rfl timed
  | fade | pathDraw | strokeWidth => exact made _ _ _ _ {} _
  | fillColor | strokeColor => exact made _ _ _ _ { repeatCount := .text indefinite } _
  | rotate | move | scale | motion => exact made_lasts holds pos untold number _ fun _ => rfl

section Instance

def fadeIn (seconds : Number .binary64) : Except Fault (Animation .binary64) :=
  fade.create "fade" (.text "lamp") { defaults fade with dur := .number seconds }

/-- Three seconds have fewer digits than six. -/
theorem three_seconds_kept :
    Answers (fadeIn (.finite 3)) fun a =>
      Answers a.schedule.durSeconds fun y => SixDigits 3 y ∧ y.rat = 3 := by
  have whole : Arithmetic.binary64.Has 3 := Arithmetic.has_natCast (n := 3) (by decide)
  have holds : (.finite 3 : Number .binary64).Holds 3 := ⟨.finite 3, whole⟩
  have lasts := asked_duration_to_six_digits (v := .number (.finite 3)) nofun rfl holds (by norm_num)
  refine (lasts.1 fade "fade" (.text "lamp") (defaults fade) (by decide)).imp fun a asked => ?_
  refine asked.imp fun y digits => ⟨digits, digits.same_iff.mpr ⟨3, 0, by decide, ?_⟩⟩
  rw [zpow_zero, mul_one]
  exact whole.fixed.symm

/-- A fortnight and some hours have seven. -/
theorem fortnight_cut :
    (.finite 1234567 : Number .binary64).Holds 1234567 ∧
      Answers (fadeIn (.finite 1234567)) fun a =>
        a.schedule.durSeconds = .ok (.finite 1234570) ∧
          a.schedule.durSeconds ≠ .ok (.finite 1234567) := by
  refine ⟨⟨.finite 1234567, Arithmetic.has_natCast (n := 1234567) (by decide)⟩, _, rfl, ?_, ?_⟩
  · decide +kernel
  · decide +kernel

end Instance

end Preset
end DeclarativeAnimation
