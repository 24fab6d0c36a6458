import DeclarativeAnimation.Markup.Compilation
import DeclarativeAnimation.Proofs.Animation.Authored
import DeclarativeAnimation.Proofs.Markup.ReadAttributes
import DeclarativeAnimation.Proofs.Number.Numeral
import DeclarativeAnimation.Timing.Easing
import DeclarativeAnimation.Timing.Schedule

/-! Markup carries timing.  An element leaves out every attribute whose value its reader would
    assume anyway, so that the animation read back from it runs through the same moments. -/
namespace DeclarativeAnimation
variable {A : Arithmetic}

namespace Markup

/-- A plain value is read back as it was, but for a text without characters: whatever does not
    tell that one from nothing does not change. -/
theorem eq_of_restored {β : Type} {v : Value A} (plain : v.IsPlain) (f : Value A → β)
    (blank : f .null = f (.text "")) : f (restored v) = f v := by
  rcases plain with rfl | ⟨s, rfl⟩
  · rfl
  · by_cases empty : s = ""
    · subst empty
      simpa [restored, isWritten, Value.isTheText] using blank
    · rw [restored_text empty]

theorem isTheText_restored {v : Value A} (plain : v.IsPlain) {s : String} (some_text : s ≠ "") :
    (restored v).isTheText s = v.isTheText s :=
  eq_of_restored plain (Value.isTheText s) (by simpa [Value.isTheText] using some_text)

theorem isTheText_modeAttribute {mode : Value A} (plain : mode.IsPlain) {s : String}
    (some_text : s ≠ "") (bent : s ≠ "linear") :
    (restored (modeAttribute mode)).isTheText s = mode.isTheText s := by
  by_cases linear : mode = .text "linear"
  · subst linear
    simpa [modeAttribute, restored, isWritten, Value.isNull, Value.isTheText] using bent.symm
  · -- A mode that is left out is linear, or it is no mode at all.
    have kept : modeAttribute mode = mode ∨ mode = .text "" := by
      rcases plain with rfl | ⟨m, rfl⟩
      · exact Or.inl rfl
      · by_cases empty : m = ""
        · exact Or.inr (by rw [empty])
        · left
          have other : m ≠ "linear" := fun same => linear (by rw [same])
          simp [modeAttribute, Value.isPresent, Value.isTheText, empty, other]
    rcases kept with same | rfl
    · rw [same]
      exact isTheText_restored plain some_text
    · simpa [modeAttribute, restored, isWritten, Value.isPresent, Value.isNull, Value.isTheText]
        using some_text.symm

end Markup

def Schedule.readBack (s : Schedule A) (repeatCount : Value A) : Schedule A :=
  { begin := Markup.restored s.begin, dur := Markup.restored s.dur
    finish := Markup.restored s.finish, repeatCount := repeatCount
    repeatDur := Markup.restored s.repeatDur, fill := Markup.restored s.fill }

theorem Schedule.resolve_readBack {s : Schedule A} (plain : s.IsPlain) {repeatCount : Value A}
    (times : Schedule.repeatTimes repeatCount = Schedule.repeatTimes s.repeatCount)
    (time : Number A) : (s.readBack repeatCount).resolve time = s.resolve time := by
  have begins : (s.readBack repeatCount).beginSeconds = s.beginSeconds :=
    Markup.eq_of_restored plain.begin (fun v => ClockValue.seconds (v.orElse (.text "0s"))) rfl
  have lasts : (s.readBack repeatCount).durSeconds = s.durSeconds :=
    Markup.eq_of_restored plain.dur (fun v => ClockValue.seconds (v.orElse (.text "0s"))) rfl
  have repeats : Schedule.repeatSeconds (s.readBack repeatCount).repeatDur =
      Schedule.repeatSeconds s.repeatDur := Markup.eq_of_restored plain.repeatDur _ rfl
  have ends : ClockValue.read? (s.readBack repeatCount).finish = ClockValue.read? s.finish :=
    Markup.eq_of_restored plain.finish _ rfl
  have freezes : (s.readBack repeatCount).fill.isTheText "freeze" = s.fill.isTheText "freeze" :=
    Markup.isTheText_restored plain.fill (by decide)
  have active : (s.readBack repeatCount).activeDuration = s.activeDuration := by
    have count : Schedule.repeatTimes (s.readBack repeatCount).repeatCount =
        Schedule.repeatTimes s.repeatCount := times
    simp only [Schedule.activeDuration, begins, lasts, repeats, ends, count]
  simp only [Schedule.resolve, begins, lasts, active, freezes]

def Track.readBack (track : Track A) : Track A :=
  { mode := Markup.restored (Markup.modeAttribute track.mode)
    keyTimes := Markup.restored track.keyTimes, keySplines := Markup.restored track.keySplines }

theorem Track.ease_readBack {track : Track A} (plain : track.IsPlain)
    (unpaced : track.mode.isTheText "paced" = false) (progress : Number A) :
    track.readBack.ease progress = track.ease progress := by
  have mode {s : String} (some_text : s ≠ "") (bent : s ≠ "linear") :
      track.readBack.mode.isTheText s = track.mode.isTheText s :=
    Markup.isTheText_modeAttribute plain.mode some_text bent
  have discrete := mode (s := "discrete") (by decide) (by decide)
  have paced := mode (s := "paced") (by decide) (by decide)
  have spline := mode (s := "spline") (by decide) (by decide)
  have times : Listing.numbers? track.readBack.keyTimes = Listing.numbers? track.keyTimes :=
    Markup.eq_of_restored plain.keyTimes _ rfl
  have curves : Listing.curves track.readBack.keySplines = Listing.curves track.keySplines :=
    Markup.eq_of_restored plain.keySplines _ rfl
  simp only [Track.ease, discrete, paced, spline, times, curves, unpaced, Bool.false_eq_true,
    ↓reduceIte]

def Composition.readBack (c : Composition A) : Composition A :=
  { additive := if c.isAdditive then .text "sum" else .null
    accumulate := if c.isAccumulating then .text "sum" else .null }

theorem isTheText_ite (s : String) (b : Bool) :
    (if b then .text s else .null : Value A).isTheText s = b := by
  cases b with
  | true => simp [Value.isTheText]
  | false => rfl

theorem Composition.isAdditive_readBack (c : Composition A) :
    c.readBack.isAdditive = c.isAdditive := isTheText_ite "sum" c.isAdditive

theorem Composition.isAccumulating_readBack (c : Composition A) :
    c.readBack.isAccumulating = c.isAccumulating := isTheText_ite "sum" c.isAccumulating

/-- The repeat counts that an animation has when it was read or made: none, no end, or a number
    that is rounded and whose shortest text denotes it. -/
inductive Value.IsRepeatCount : Value A → Prop where
  | none : IsRepeatCount .null
  | endless : IsRepeatCount (.text indefinite)
  | times {x : Number A} (float : x.IsFloat)
      (reads : Number.ofText? x.shortest.toList = some x) : IsRepeatCount (.number x)

namespace Animation

theorem isIndefinite_numeral {s : String} (numeral : s.toList ⊆ numeralChars) :
    (Value.text s : Value A).isIndefinite = false := by
  have known : ∀ c ∈ numeralChars, c.toLower ≠ 'd' := forall_chars (by decide)
  simp only [Value.isIndefinite, trim_numeral numeral, decide_eq_false_iff_not]
  intro word
  have letter : 'd' ∈ (Text.lowercase (String.ofList s.toList)).toList := by
    rw [word]
    decide
  simp only [Text.lowercase, String.toList_ofList, List.mem_map] at letter
  obtain ⟨c, member, lowered⟩ := letter
  exact known c (numeral member) lowered

theorem wireRepeatCount_numeral {s : String} (numeral : s.toList ⊆ numeralChars) {y : Number A}
    (reads : Number.ofText? s.toList = some y) :
    wireRepeatCount (Markup.restored (.text s)) = .ok (.number y) := by
  have some_char : s ≠ "" := by
    rintro rfl
    have nothing : (Number.ofText? "".toList : Option (Number A)) = none := rfl
    rw [nothing] at reads
    cases reads
  rw [Markup.restored_text some_char]
  simp [wireRepeatCount, some_char, isIndefinite_numeral numeral, trim_numeral numeral, reads]

theorem wireRepeatCount_restored {count : Value A} (counts : count.IsRepeatCount) :
    ∃ read, wireRepeatCount (Markup.restored (Markup.scalarText count)) = .ok read ∧
      Schedule.repeatTimes read = Schedule.repeatTimes count := by
  cases counts with
  | none => exact ⟨.null, rfl, rfl⟩
  | endless =>
    have kept : Markup.restored (Markup.scalarText (.text indefinite)) =
        (.text indefinite : Value A) := by
      have some_char : indefinite ≠ "" := by decide
      exact Markup.restored_text some_char
    have word : (Value.text indefinite : Value A).isIndefinite = true := by
      simp only [Value.isIndefinite]
      decide +kernel
    refine ⟨.text indefinite, ?_, rfl⟩
    rw [kept]
    simp only [wireRepeatCount, word, ↓reduceIte]
    rfl
  | @times x float reads =>
    by_cases whole : x.isInteger = true
    · have finite : x.isFinite = true := by
        cases x <;> simp_all [Number.isInteger, Number.isFinite]
      have text : Markup.scalarText (.number x) =
          (.text (Value.intText x.rat.floor) : Value A) := by
        simp [Markup.scalarText, wireScalar, whole, Value.asText, Value.shown]
      have read := wireRepeatCount_numeral (intText_numeral _)
        (ofText?_intText (A := A) x.rat.floor)
      refine ⟨_, text ▸ read, ?_⟩
      -- A negative zero comes back as zero, which counts as many runs.
      rcases toNumber_of_whole float finite whole with same | ⟨rfl, zero⟩
      · rw [same]
      · rw [zero]
        rfl
    · have text : Markup.scalarText (.number x) = (.text x.shortest : Value A) := by
        simp [Markup.scalarText, wireScalar, whole, Value.asText, Value.shown]
      exact ⟨.number x, text ▸ wireRepeatCount_numeral (Number.shortest_numeral x) reads, rfl⟩

end Animation

end DeclarativeAnimation
