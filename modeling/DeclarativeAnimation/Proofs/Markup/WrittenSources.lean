import DeclarativeAnimation.Markup.Compiler
import DeclarativeAnimation.Proofs.Markup.BatchIsolation
import DeclarativeAnimation.Proofs.State.SignlessZeros

/-! Sources of markup, as animations and as the objects that these are written as.  A batch and a
    check come out the same for both. -/
namespace DeclarativeAnimation.Markup
variable {A : Arithmetic} {options : Options A}

section Zeros

theorem scalarText_unsigned (v : Value A) : scalarText v.unsigned = scalarText v := by
  rcases v.unsigned_cases with same | ⟨rfl, zero⟩
  · rw [same]
  · rw [zero]
    rfl

theorem roundedTo_zero (places : Nat) :
    roundedTo places (0 : Number A) = roundedTo places (.negativeZero : Number A) := by
  have useful : usefulPlaces places (0 : Number A) = 0 := Nat.min_zero places
  have other : usefulPlaces places (.negativeZero : Number A) = 0 := Nat.min_zero places
  unfold roundedTo
  rw [useful, other]
  cases A <;> decide +kernel

theorem formatValue_unsigned (v precision : Value A) :
    formatValue v.unsigned precision = formatValue v precision := by
  rcases v.unsigned_cases with same | ⟨rfl, zero⟩
  · rw [same]
  · rw [zero]
    show rounded 0 precision = rounded .negativeZero precision
    simp only [rounded, roundedTo_zero]

theorem rotateAttribute_unsigned (v precision : Value A) :
    rotateAttribute v.unsigned precision = rotateAttribute v precision := by
  rcases v.unsigned_cases with same | ⟨rfl, zero⟩
  · rw [same]
  · have written := formatValue_unsigned (.number .negativeZero : Value A) precision
    rw [zero] at written ⊢
    simp only [rotateAttribute, written]

theorem timingAttributes_unsigned (a : Animation A) :
    timingAttributes a.unsigned.schedule a.track = timingAttributes a.schedule a.track := by
  simp only [timingAttributes, Animation.unsigned, scalarText_unsigned]

theorem spellElement_unsigned (v : Value A) (others : List (Value A)) (tag content : String)
    (attributes : Attributes A) :
    spellElement (v.unsigned :: others) tag attributes content =
      spellElement (v :: others) tag attributes content := by
  rcases v.unsigned_cases with same | ⟨rfl, zero⟩
  · rw [same]
  · rw [zero]
    rfl

theorem ofAnimation_unsigned (a : Animation A) :
    ofAnimation a.unsigned options = ofAnimation a options := by
  have timing := timingAttributes_unsigned a
  rcases a with ⟨id, target, subject, schedule, track, composition⟩
  cases subject with
  | motion path reference rotate keyPoints =>
    have turned := rotateAttribute_unsigned rotate options.precision
    unfold ofAnimation
    simp only [Animation.unsigned, Subject.unsigned, turned] at timing ⊢
    simp only [timing, spellElement_unsigned]
  | set name => rfl
  | none => rfl
  | _ =>
    unfold ofAnimation
    simp only [Animation.unsigned, Subject.unsigned] at timing ⊢
    simp only [timing, spellElement_unsigned]

end Zeros

section Written
variable {a : Animation A}

theorem Source.animation_written (wireable : a.IsWireable) :
    (Source.wire a.toWire).animation = .ok a.reread := by
  simp only [Source.animation, Animation.ofWire_toWire "" wireable]

theorem Source.compile_written (wireable : a.IsWireable) :
    (Source.wire a.toWire).compile options = (Source.read a).compile options := by
  unfold Source.compile
  rw [Source.animation_written wireable]
  exact ofAnimation_unsigned a

theorem Source.id_written (wireable : a.IsWireable) :
    (Source.wire a.toWire).id = (Source.read a).id :=
  congrArg Except.ok (Animation.member_scalar wireable "id" (by decide))

theorem Source.target_written (wireable : a.IsWireable) {s : String}
    (addressed : a.target = .text s) : (Source.wire a.toWire).target = (Source.read a).target := by
  have member : (a.toWire.member? "targetElementId").getD .null = .text s := by
    rw [← addressed]
    exact Animation.member_scalar wireable "targetElementId" (by decide)
  have found : a.toWire.get "targetElementId" (.text "") = .ok (.text s) := by
    show Except.ok ((a.toWire.member? "targetElementId").getD (.text "")) = _
    cases known : a.toWire.member? "targetElementId" with
    | none =>
      rw [known] at member
      cases member
    | some v =>
      rw [known] at member
      exact congrArg Except.ok member
  simp only [Source.target, found, addressed]
  rfl

theorem Source.complaints_written (wireable : a.IsWireable) :
    (Source.wire a.toWire).complaints = (Source.read a).complaints := by
  have target : (a.toWire.member "targetElementId") = a.target :=
    Animation.member_scalar wireable "targetElementId" (by decide)
  have type : a.toWire.get "type" .null = .ok (.text a.subject.typeName) := rfl
  simp only [Source.complaints, type, target, Animation.ofWire_toWire "" wireable]
  have known := wireable.subject
  rcases a with ⟨id, target, subject, schedule, track, composition⟩
  cases subject with
  | none => cases known
  | _ => rfl

end Written

/-- Animations that are written as objects.  Each of them is read back with equal members, save
    that a target that is none comes back as an empty text.  Where every target is a text, a list
    is read back as a whole and without a warning, the states from it are the same ones, and a
    batch of the objects comes out as one of the animations.  A check of the object says what a
    check of the animation says. -/
theorem written_animations_agree {animations : List (Animation A)}
    (wireable : ∀ a ∈ animations, a.IsWireable) :
    (∀ a ∈ animations, ∀ label, ∃ read, Animation.ofWire label a.toWire = .ok read ∧
      read.Alike { a with target := a.target.textOr "" }) ∧
    ((∀ a ∈ animations, a.target.isText = true) →
      (∀ label, ∃ read,
        Animation.listOfWire label (animations.map Animation.toWire) = (.ok read, []) ∧
        List.Forall₂ Animation.Alike read animations ∧
        ∀ resolver : MotionResolver A,
          (resolver = originPlacement ∨ ∀ a b, a.Alike b → resolver a = resolver b) →
          ∀ elements time,
            allStatesAt read elements resolver time =
              allStatesAt animations elements resolver time) ∧
      ∀ options, compileAll (animations.map fun a => .wire a.toWire) options =
        compileAll (animations.map .read) options) ∧
    ∀ a ∈ animations, (Source.wire a.toWire).complaints = (Source.read a).complaints := by
  refine ⟨?_, fun addressed => ⟨fun label => ?_, fun options => ?_⟩, fun a member =>
    Source.complaints_written (wireable a member)⟩
  · intro a member label
    have texts : (a.target.textOr "").IsPlain := by
      unfold Value.textOr
      split <;> exact .inr ⟨_, rfl⟩
    have known := wireable a member
    exact ⟨_, Animation.ofWire_toWire label known,
      Animation.unsigned_alike (a := { a with target := a.target.textOr "" })
        { known with target := texts }⟩
  · have read : animations.map Animation.reread = animations.map Animation.unsigned :=
      List.map_congr_left fun a member => Animation.reread_addressed (addressed a member)
    refine ⟨_, Animation.listOfWire_toWire label wireable, ?_⟩
    rw [read]
    refine ⟨?_, fun resolver same elements time => allStatesAt_unsigned ?_ time⟩
    · rw [List.forall₂_map_left_iff, List.forall₂_same]
      exact fun a member => Animation.unsigned_alike (wireable a member)
    · intro a member progress
      rcases same with rfl | same
      · exact originPlacement_unsigned a progress
      · rw [same _ _ (Animation.unsigned_alike (wireable a member))]
  · refine compileAll_congr (fun a member => ?_)
      (fun a member => Source.compile_written (wireable a member))
      (fun a member => Source.id_written (wireable a member))
    cases target : a.target with
    | text s => exact Source.target_written (wireable a member) target
    | _ =>
      have text := addressed a member
      rw [target] at text
      cases text

section Instance

def chime : Animation .binary64 :=
  { id := .text "chime", target := .text "bell", subject := .attribute (.text "opacity")
    schedule := { dur := .text "2s", repeatCount := .number 2 }
    track := { start := .int 1, goal := .text "0.5" } }

def swing : Animation .binary64 :=
  { id := .text "swing", target := .text "bell"
    subject := .motion (.text "M0 0L1 0") .null (.number .negativeZero) .null
    schedule := { dur := .text "2s", repeatCount := .text indefinite } }

theorem chime_wireable : chime.IsWireable where
  id := ⟨"chime", rfl, by decide⟩
  target := .inr ⟨"bell", rfl⟩
  subject := .inr ⟨"opacity", rfl⟩
  schedule := ⟨.inl rfl, .inr ⟨"2s", rfl⟩, .inl rfl, .inl rfl, .inl rfl⟩
  repeatCount := .inr (.inr ⟨2, rfl, rfl, fun _ => by decide +kernel⟩)
  start := .inr ⟨1, rfl⟩
  goal := .inl (.inr ⟨"0.5", rfl⟩)
  values := .inl rfl
  track := ⟨.inl rfl, .inl rfl, .inl rfl⟩
  additive := .inl rfl
  accumulate := .inl rfl

theorem swing_wireable : swing.IsWireable where
  id := ⟨"swing", rfl, by decide⟩
  target := .inr ⟨"bell", rfl⟩
  subject := ⟨.inr ⟨"M0 0L1 0", rfl⟩, .inl rfl, .inr ⟨_, rfl, rfl, fun _ => by decide +kernel⟩,
    .inl rfl⟩
  schedule := ⟨.inl rfl, .inr ⟨"2s", rfl⟩, .inl rfl, .inl rfl, .inl rfl⟩
  repeatCount := .inr (.inl rfl)
  start := .inl (.inl rfl)
  goal := .inl (.inl rfl)
  values := .inl rfl
  track := ⟨.inl rfl, .inl rfl, .inl rfl⟩
  additive := .inl rfl
  accumulate := .inl rfl

theorem swinging_bell_read_back :
    (∀ a ∈ [chime, swing], a.IsWireable ∧ a.target.isText = true) ∧
    ∃ read, Animation.listOfWire animationLabel [chime.toWire, swing.toWire] = (.ok read, []) ∧
      List.Forall₂ Animation.Alike read [chime, swing] ∧
      allStatesAt read .all originPlacement (.number 1) =
        allStatesAt [chime, swing] .all originPlacement (.number 1) ∧
      compileAll [.wire chime.toWire, .wire swing.toWire] {} =
        compileAll [.read chime, .read swing] {} ∧
      (Source.wire swing.toWire).complaints = (Source.read swing).complaints := by
  have wireable : ∀ a ∈ [chime, swing], a.IsWireable :=
    List.forall_mem_cons.mpr ⟨chime_wireable, List.forall_mem_singleton.mpr swing_wireable⟩
  have addressed : ∀ a ∈ [chime, swing], a.target.isText = true :=
    List.forall_mem_cons.mpr ⟨rfl, List.forall_mem_singleton.mpr rfl⟩
  obtain ⟨_, together, checks⟩ := written_animations_agree wireable
  obtain ⟨lists, batches⟩ := together addressed
  obtain ⟨read, done, alike, states⟩ := lists animationLabel
  exact ⟨fun a member => ⟨wireable a member, addressed a member⟩, read, done, alike,
    states originPlacement (.inl rfl) .all (.number 1), batches {}, checks swing (by simp)⟩

def unaimed (id goal : String) : Animation .binary64 :=
  { id := .text id, target := .null, subject := .set (.text "x"), track := { goal := .text goal } }

def aimed (id goal : String) : Animation .binary64 :=
  { unaimed id goal with target := .text "" }

def changed (target : Value .binary64) (goal : String) : ElementState .binary64 :=
  { id := target, time := 0, attributes := [(.text "x", .text goal)] }

theorem unaimed_wireable {id goal : String} (named : id ≠ "") :
    (unaimed id goal).IsWireable where
  id := ⟨id, rfl, named⟩
  target := .inl rfl
  subject := .inr ⟨"x", rfl⟩
  schedule := ⟨.inl rfl, .inl rfl, .inl rfl, .inl rfl, .inl rfl⟩
  repeatCount := .inl rfl
  start := .inl (.inl rfl)
  goal := .inl (.inr ⟨goal, rfl⟩)
  values := .inl rfl
  track := ⟨.inl rfl, .inl rfl, .inl rfl⟩
  additive := .inl rfl
  accumulate := .inl rfl

/-- A target that is none is read back as an empty text, and falls into one group with those that
    were empty before. -/
theorem missing_target_read_as_empty :
    (unaimed "a" "1").IsWireable ∧
    Animation.ofWire "" (unaimed "a" "1").toWire = .ok (aimed "a" "1") ∧
    ¬ (aimed "a" "1").Alike (unaimed "a" "1") ∧
    allStatesAt [aimed "a" "1"] .all originPlacement (.number 0) ≠
      allStatesAt [unaimed "a" "1"] .all originPlacement (.number 0) ∧
    compileAll [.wire (unaimed "a" "1").toWire, .wire (aimed "b" "2").toWire,
        .wire (unaimed "c" "3").toWire] {} ≠
      compileAll [.read (unaimed "a" "1"), .read (aimed "b" "2"), .read (unaimed "c" "3")] {} := by
  have wireable : (unaimed "a" "1").IsWireable := unaimed_wireable (by decide)
  refine ⟨wireable, ?_, ?_, ?_, by decide +kernel⟩
  · rw [Animation.ofWire_toWire "" wireable]
    rfl
  · rintro ⟨_, _ | ⟨_, _ | ⟨target, _⟩⟩⟩
    cases target.2
  · intro same
    have read : allStatesAt [aimed "a" "1"] .all originPlacement (.number 0) =
        .ok [(.text "", changed (.text "") "1")] := by
      with_unfolding_all rfl
    have written : allStatesAt [unaimed "a" "1"] .all originPlacement (.number 0) =
        .ok [(.null, changed .null "1")] := by
      with_unfolding_all rfl
    rw [read, written] at same
    cases same

end Instance

end DeclarativeAnimation.Markup
