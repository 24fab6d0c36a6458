import DeclarativeAnimation.Proofs.Markup.CompleteMarkup
import DeclarativeAnimation.Proofs.Markup.RestoredTiming

/-! An element and the animation that is read from it.  Every element that is written ends with
    the attributes of its timing, and those are all that its reader looks at. -/
namespace DeclarativeAnimation
variable {A : Arithmetic}

namespace Subject

def tagName : Subject A → String
  | .attribute _ => "animate"
  | .transform _ => "animateTransform"
  | .motion _ _ _ _ => "animateMotion"
  | .set _ => "set"
  | .none => ""

/-- Whether results of the subject can be added up in markup. -/
def composes : Subject A → Bool
  | .attribute _ | .transform _ => true
  | _ => false

def carriedNames (subject : Subject A) : List String :=
  ["dur", "begin", "end", "fill", "repeatCount", "repeatDur", "calcMode", "keyTimes",
    "keySplines"] ++ if subject.composes then ["additive", "accumulate"] else []

end Subject

namespace Markup

def leadNames : List String :=
  ["attributeName", "type", "values", "from", "to", "path", "rotate", "keyPoints"]

theorem valueAttributes_order {track : Track A} {precision : Value A} {values : Attributes A}
    (listed : valueAttributes track precision = .ok values) :
    (values.map Prod.fst).Sublist ["values", "from", "to"] := by
  unfold valueAttributes at listed
  split at listed
  · obtain ⟨text, _, rest⟩ := bind_eq_ok listed
    obtain rfl := Except.ok.inj rest
    simp
  · dsimp only [pure, Except.pure] at listed
    split at listed
    · dsimp only [bind, Except.bind] at listed
      split at listed
      · obtain rfl := Except.ok.inj listed
        simp
      · obtain ⟨text, _, rest⟩ := bind_eq_ok listed
        obtain rfl := Except.ok.inj rest
        simp
    · obtain ⟨start, _, rest⟩ := bind_eq_ok listed
      dsimp only [bind, Except.bind] at rest
      split at rest
      · obtain rfl := Except.ok.inj rest
        simp
      · obtain ⟨goal, _, rest⟩ := bind_eq_ok rest
        obtain rfl := Except.ok.inj rest
        simp

theorem valueAttributes_names {track : Track A} {precision : Value A} {values : Attributes A}
    (listed : valueAttributes track precision = .ok values) : ∀ a ∈ values, a.1 ∈ leadNames := by
  have leading : ∀ name ∈ ["values", "from", "to"], name ∈ leadNames := by decide
  intro a member
  exact leading a.1 ((valueAttributes_order listed).mem (List.mem_map.mpr ⟨a, member, rfl⟩))

def composedAttributes (animation : Animation A) : Attributes A :=
  if animation.subject.composes then compositionAttributes animation.composition else []

def frontAttributes : Subject A → Attributes A
  | .attribute name => [("attributeName", name)]
  | .transform kind => [("attributeName", .text "transform"), ("type", kind)]
  | _ => []

def elementAttributes (lead : Attributes A) (animation : Animation A) : Attributes A :=
  lead ++ (timingAttributes animation.schedule animation.track ++ composedAttributes animation)

theorem element_of_composed {animation : Animation A} {options : Options A} {text : String}
    (composes : animation.subject.composes = true)
    (compiled : ofAnimation animation options = .ok text) :
    ∃ values, valueAttributes animation.track options.precision = .ok values ∧
      text = writeElement animation.subject.tagName
        (elementAttributes (frontAttributes animation.subject ++ values) animation) "" := by
  obtain ⟨id, target, subject, schedule, track, composition⟩ := animation
  rcases subject with name | kind | ⟨path, reference, rotate, keyPoints⟩ | name | _
  · by_cases named : name.isPresent = true
    · simp only [ofAnimation, named, Bool.not_true, Bool.false_eq_true, ↓reduceIte] at compiled
      obtain ⟨values, listed, rest⟩ := bind_eq_ok compiled
      obtain rfl := spellElement_written rest
      refine ⟨values, listed, ?_⟩
      simp [elementAttributes, frontAttributes, composedAttributes, Subject.composes,
        Subject.tagName]
    · simp only [ofAnimation, named] at compiled
      cases compiled
  · by_cases named : kind.isPresent = true
    · simp only [ofAnimation, named, Bool.not_true, Bool.false_eq_true, ↓reduceIte] at compiled
      obtain ⟨values, listed, rest⟩ := bind_eq_ok compiled
      obtain rfl := spellElement_written rest
      refine ⟨values, listed, ?_⟩
      simp [elementAttributes, frontAttributes, composedAttributes, Subject.composes,
        Subject.tagName]
    · simp only [ofAnimation, named] at compiled
      cases compiled
  all_goals cases composes

def pathReference (reference : Value A) : String :=
  if reference.isPresent then "<mpath href=\"#" ++ attributeText reference ++ "\"/>" else ""

theorem element_of_motion {a : Animation A} {options : Options A} {text : String}
    {path reference rotate keyPoints : Value A}
    (moves : a.subject = .motion path reference rotate keyPoints)
    (compiled : ofAnimation a options = .ok text) :
    ∃ drawn turned points, text = writeElement "animateMotion"
        (elementAttributes [("path", drawn), ("rotate", turned), ("keyPoints", points)] a)
        (pathReference reference) ∧
      (reference.isPresent = false →
        path.isPresent = true ∧ optimizePath path options = .ok drawn) := by
  obtain ⟨id, target, subject, schedule, track, composition⟩ := a
  cases moves
  by_cases located : (!path.isPresent && !reference.isPresent) = true
  · simp only [ofAnimation, located] at compiled
    cases compiled
  simp only [ofAnimation, located, Bool.false_eq_true, ↓reduceIte] at compiled
  have attributes (drawn turned points : Value A) :
      [("path", drawn), ("rotate", turned), ("keyPoints", points)] ++
        timingAttributes schedule track = elementAttributes
          [("path", drawn), ("rotate", turned), ("keyPoints", points)]
          ⟨id, target, .motion path reference rotate keyPoints, schedule, track, composition⟩ := by
    simp [elementAttributes, composedAttributes, Subject.composes]
  simp only [attributes] at compiled
  unfold pathReference
  cases shown : path.isPresent && !reference.isPresent with
  | true =>
    simp only [shown, ↓reduceIte] at compiled
    obtain ⟨drawn, draws, compiled⟩ := bind_eq_ok compiled
    obtain ⟨turned, _, compiled⟩ := bind_eq_ok compiled
    have given : path.isPresent = true := (Bool.and_eq_true_iff.mp shown).1
    split at compiled
    · obtain ⟨points, _, compiled⟩ := bind_eq_ok compiled
      exact ⟨drawn, turned, _, (spellElement_written compiled).symm, fun _ => ⟨given, draws⟩⟩
    · exact ⟨drawn, turned, _, (spellElement_written compiled).symm, fun _ => ⟨given, draws⟩⟩
  | false =>
    simp only [shown, Bool.false_eq_true, ↓reduceIte] at compiled
    obtain ⟨drawn, _, compiled⟩ := bind_eq_ok compiled
    obtain ⟨turned, _, compiled⟩ := bind_eq_ok compiled
    have referred : reference.isPresent ≠ false := fun missing => by simp_all
    split at compiled
    · obtain ⟨points, _, compiled⟩ := bind_eq_ok compiled
      exact ⟨drawn, turned, _, (spellElement_written compiled).symm,
        fun missing => absurd missing referred⟩
    · exact ⟨drawn, turned, _, (spellElement_written compiled).symm,
        fun missing => absurd missing referred⟩

theorem frontAttributes_names (subject : Subject A) : ∀ a ∈ frontAttributes subject,
    a.1 ∈ leadNames := by
  cases subject <;> simp [frontAttributes, leadNames]

theorem lead_names (subject : Subject A) {track : Track A} {precision : Value A}
    {values : Attributes A} (listed : valueAttributes track precision = .ok values) :
    ∀ a ∈ frontAttributes subject ++ values, a.1 ∈ leadNames := by
  intro a member
  rcases List.mem_append.mp member with front | value
  · exact frontAttributes_names subject a front
  · exact valueAttributes_names listed a value

theorem element_of_animation {animation : Animation A} {options : Options A} {text : String}
    (moving : animation.subject.isSet = false)
    (compiled : ofAnimation animation options = .ok text) :
    ∃ lead content, (∀ a ∈ lead, a.1 ∈ leadNames) ∧
      text = writeElement animation.subject.tagName (elementAttributes lead animation) content := by
  by_cases composes : animation.subject.composes = true
  · obtain ⟨values, listed, written⟩ := element_of_composed composes compiled
    exact ⟨_, _, lead_names _ listed, written⟩
  cases subject : animation.subject with
  | motion path reference rotate keyPoints =>
    obtain ⟨drawn, turned, points, written, _⟩ := element_of_motion subject compiled
    refine ⟨_, _, ?_, written⟩
    simp [leadNames]
  | none =>
    unfold ofAnimation at compiled
    rw [subject] at compiled
    cases compiled
  | set name => simp [subject, Subject.isSet] at moving
  | _ => simp [subject, Subject.composes] at composes

theorem tail_names (animation : Animation A) :
    ((timingAttributes animation.schedule animation.track ++ composedAttributes animation).map
      Prod.fst).Sublist animation.subject.carriedNames := by
  rw [List.map_append]
  refine List.Sublist.append (List.Sublist.refl _) ?_
  unfold composedAttributes compositionAttributes
  split
  · cases animation.composition.isAdditive <;> cases animation.composition.isAccumulating <;> simp
  · exact List.Sublist.refl _

theorem carriedNames_distinct (subject : Subject A) : subject.carriedNames.Nodup := by
  unfold Subject.carriedNames
  split <;> decide

theorem carriedNames_apart (subject : Subject A) :
    ∀ name ∈ subject.carriedNames, name ∉ leadNames ∧ name.toList.all isNameChar := by
  unfold Subject.carriedNames
  split <;> decide

section
variable {lead : Attributes A} (leading : ∀ a ∈ lead, a.1 ∈ leadNames) (animation : Animation A)
include leading

theorem elementAttributes_clean :
    ∀ a ∈ elementAttributes lead animation, a.1.toList.all isNameChar := by
  have lead_clean : ∀ name ∈ leadNames, name.toList.all isNameChar := by decide
  intro a member
  rcases List.mem_append.mp member with listed | listed
  · exact lead_clean a.1 (leading a listed)
  · have carried := (tail_names animation).mem (List.mem_map.mpr ⟨a, listed, rfl⟩)
    exact (carriedNames_apart animation.subject a.1 carried).2

theorem not_mem_lead {name : String} (carried : name ∈ animation.subject.carriedNames) :
    ∀ a ∈ lead, a.1 ≠ name := by
  rintro a listed rfl
  exact (carriedNames_apart animation.subject a.1 carried).1 (leading a listed)

theorem readBack_elementAttributes {name : String} {v : Value A}
    (member : (name, v) ∈ timingAttributes animation.schedule animation.track
      ++ composedAttributes animation) :
    readBack (elementAttributes lead animation) name = restored v := by
  have carried := (tail_names animation).mem (List.mem_map.mpr ⟨_, member, rfl⟩)
  unfold elementAttributes
  rw [readBack_lead (not_mem_lead leading animation carried)]
  exact readBack_of_mem ((tail_names animation).nodup (carriedNames_distinct _)) member

theorem readBack_sum {name : String} (carried : name ∈ animation.subject.carriedNames) {b : Bool}
    (here : b = true → (name, .text "sum") ∈ composedAttributes animation)
    (gone : b = false → ∀ a ∈ timingAttributes animation.schedule animation.track
      ++ composedAttributes animation, a.1 ≠ name) :
    readBack (elementAttributes lead animation) name = if b then .text "sum" else .null := by
  cases b with
  | true =>
    rw [readBack_elementAttributes leading animation (List.mem_append_right _ (here rfl))]
    exact restored_text (by decide)
  | false =>
    unfold elementAttributes
    rw [readBack_lead (not_mem_lead leading animation carried), readBack_absent (gone rfl)]
    rfl

theorem composition_elementAttributes (composes : animation.subject.composes = true) :
    (⟨readBack (elementAttributes lead animation) "additive",
      readBack (elementAttributes lead animation) "accumulate"⟩ : Composition A) =
        animation.composition.readBack := by
  have written : composedAttributes animation = compositionAttributes animation.composition := by
    simp [composedAttributes, composes]
  have carried : "additive" ∈ animation.subject.carriedNames ∧
      "accumulate" ∈ animation.subject.carriedNames := by
    simp [Subject.carriedNames, composes]
  have additive := readBack_sum leading animation carried.1
    (b := animation.composition.isAdditive) (by simp +contextual [written, compositionAttributes])
    (by simp +contextual [written, compositionAttributes, timingAttributes])
  have accumulate := readBack_sum leading animation carried.2
    (b := animation.composition.isAccumulating)
    (by simp +contextual [written, compositionAttributes])
    (by simp +contextual [written, compositionAttributes, timingAttributes])
  rw [additive, accumulate]
  rfl

end

end Markup

namespace Animation

/-- An object that names a kind and nothing else, turns nothing and has a repeat count is read,
    and its members are those of the schedule, the track and the composition. -/
theorem ofWire_members {data : Value A} {type count : Value A} {kind : Kind}
    (typed : wireType data = .ok type) (named : Kind.ofValue type = .ok kind)
    (unturned : data.member "rotate" = .null)
    (counted : wireRepeatCount (data.member "repeatCount") = .ok count)
    (unnamed : data.member "id" = .null) (untargeted : data.member "targetElementId" = .null)
    (label : String) :
    ∃ read, ofWire label data = .ok read ∧
      read.schedule =
        { begin := data.member "begin", dur := data.member "dur", finish := data.member "end"
          repeatCount := count, repeatDur := data.member "repeatDur"
          fill := data.member "fill" } ∧
      read.track =
        { start := data.member "from", goal := data.member "to", values := data.member "values"
          mode := data.member "calcMode", keyTimes := data.member "keyTimes"
          keySplines := data.member "keySplines" } ∧
      read.composition = ⟨data.member "additive", data.member "accumulate"⟩ := by
  have described : ∃ subject, wireSubject kind data = .ok subject := by
    cases kind with
    | motion => simp [wireSubject, unturned, wireRotate, bind, Except.bind, pure, Except.pure]
    | _ => exact ⟨_, rfl⟩
  obtain ⟨subject, described⟩ := described
  simp only [ofWire, typed, named, described, counted, unnamed, untargeted, bind, Except.bind]
  exact ⟨_, rfl, rfl, rfl, rfl⟩

end Animation

theorem Subject.kind_of_tagName {subject : Subject A} (shown : subject.tagName ≠ "") :
    ∃ kind, Kind.ofValue (.text subject.tagName : Value A) = .ok kind := by
  have known : ∀ name ∈ ["animate", "animateTransform", "animateMotion", "set"],
      ∃ kind, Kind.names.lookup (Text.lowercase (String.ofList
        ((Text.trim name.toList).map fun c => if c = '_' then '-' else c))) = some kind := by
    simp only [List.forall_mem_cons, ← Option.isSome_iff_exists]
    decide +kernel
  have listed : subject.tagName ∈ ["animate", "animateTransform", "animateMotion", "set"] := by
    cases subject with
    | none => exact absurd rfl shown
    | _ => simp only [tagName, List.mem_cons, true_or, or_true]
  obtain ⟨kind, found⟩ := known _ listed
  refine ⟨kind, ?_⟩
  simp only [Kind.ofValue, Value.written_text, bind, Except.bind, found]
  rfl

namespace Markup

/-- The animation that an element is read as, from its name and from attributes of some names. -/
def readAnimation (label : String) (names : List String) (text : String) :
    Except Fault (Animation A) :=
  Animation.ofWire label ((readStartTag text.toList).wire names)

theorem carriedNames_few (subject : Subject A) :
    ∀ name ∈ ["type", "from", "to", "values", "rotate", "id", "targetElementId"],
      name ∉ subject.carriedNames := by
  unfold Subject.carriedNames
  split <;> decide

theorem tagName_solid (subject : Subject A) : subject.tagName.toList.all isNameChar := by
  cases subject <;> simp only [Subject.tagName] <;> decide

section
variable {animation : Animation A} {options : Options A} {text : String}

theorem tagName_of_compiled (compiled : ofAnimation animation options = .ok text) :
    animation.subject.tagName ≠ "" := by
  intro nameless
  cases subject : animation.subject with
  | none =>
    simp only [ofAnimation, subject] at compiled
    cases compiled
  | _ => simp [subject, Subject.tagName] at nameless

variable (moving : animation.subject.isSet = false)
  (compiled : ofAnimation animation options = .ok text)
include moving compiled

theorem wire_of_compiled : ∃ lead : Attributes A, (∀ a ∈ lead, a.1 ∈ leadNames) ∧
    Animation.wireType ((readStartTag text.toList).wire animation.subject.carriedNames : Value A) =
      .ok (.text animation.subject.tagName) ∧
    ∀ name, name ≠ "type" →
      ((readStartTag text.toList).wire animation.subject.carriedNames : Value A).member name =
        if name ∈ animation.subject.carriedNames
          then readBack (elementAttributes lead animation) name else .null := by
  obtain ⟨lead, content, leading, written⟩ := element_of_animation moving compiled
  have solid := tagName_solid animation.subject
  have clean := elementAttributes_clean leading animation
  refine ⟨lead, leading, ?_, ?_⟩
  · rw [written, readStartTag_writeElement solid clean]
    simp [StartTag.wire, Animation.wireType]
  · intro name member
    rw [written]
    exact member_wire solid clean content _ member

theorem readAnimation_of_compiled {count : Value A} (counted : Animation.wireRepeatCount
      (restored (scalarText animation.schedule.repeatCount)) = .ok count) (label : String) :
    ∃ read : Animation A,
      readAnimation label animation.subject.carriedNames text = .ok read ∧
      read.schedule = animation.schedule.readBack count ∧
      read.track = animation.track.readBack ∧
      (animation.subject.composes = true →
        read.composition = animation.composition.readBack) := by
  obtain ⟨kind, named⟩ := Subject.kind_of_tagName (tagName_of_compiled compiled)
  obtain ⟨lead, leading, typed, found⟩ := wire_of_compiled moving compiled
  unfold readAnimation
  generalize ((readStartTag text.toList).wire animation.subject.carriedNames : Value A) = data
    at typed found ⊢
  have absent (name : String)
      (few : name ∈ ["from", "to", "values", "rotate", "id", "targetElementId"])
      (member : name ≠ "type") : data.member name = .null := by
    have unlisted := carriedNames_few animation.subject name (List.mem_cons_of_mem _ few)
    rw [found name member, if_neg unlisted]
  have timed (name : String) (v : Value A)
      (entry : (name, v) ∈ timingAttributes animation.schedule animation.track) :
      data.member name = restored v := by
    have attached : (name, v) ∈ timingAttributes animation.schedule animation.track
        ++ composedAttributes animation := List.mem_append_left _ entry
    have carried := (tail_names animation).mem (List.mem_map.mpr ⟨_, attached, rfl⟩)
    have member : name ≠ "type" := by
      rintro rfl
      exact carriedNames_few animation.subject "type" (by simp) carried
    rw [found name member, if_pos carried, readBack_elementAttributes leading animation attached]
  have counts := timed "repeatCount" (scalarText animation.schedule.repeatCount)
    (by simp [timingAttributes])
  rw [← counts] at counted
  obtain ⟨read, ok, schedule, track, composition⟩ :=
    Animation.ofWire_members typed named (absent "rotate" (by simp) (by decide)) counted
      (absent "id" (by simp) (by decide)) (absent "targetElementId" (by simp) (by decide)) label
  refine ⟨read, ok, ?_, ?_, ?_⟩
  · rw [schedule,
      timed "begin" animation.schedule.begin (by simp [timingAttributes]),
      timed "dur" animation.schedule.dur (by simp [timingAttributes]),
      timed "end" animation.schedule.finish (by simp [timingAttributes]),
      timed "repeatDur" animation.schedule.repeatDur (by simp [timingAttributes]),
      timed "fill" animation.schedule.fill (by simp [timingAttributes])]
    rfl
  · rw [track, absent "from" (by simp) (by decide), absent "to" (by simp) (by decide),
      absent "values" (by simp) (by decide),
      timed "calcMode" (modeAttribute animation.track.mode) (by simp [timingAttributes]),
      timed "keyTimes" animation.track.keyTimes (by simp [timingAttributes]),
      timed "keySplines" animation.track.keySplines (by simp [timingAttributes])]
    rfl
  · intro composes
    have carried : "additive" ∈ animation.subject.carriedNames ∧
        "accumulate" ∈ animation.subject.carriedNames := by
      simp [Subject.carriedNames, composes]
    rw [composition, found "additive" (by decide), found "accumulate" (by decide),
      if_pos carried.1, if_pos carried.2]
    exact composition_elementAttributes leading animation composes

/-- The animation that is read from an element runs through the same moments, eases alike
    unless its pace follows its keyframes, and joins other results in the same way. -/
theorem timing_survives_markup (schedule : animation.schedule.IsPlain)
    (track : animation.track.IsPlain) (counts : animation.schedule.repeatCount.IsRepeatCount)
    (label : String) :
    ∃ read : Animation A,
      readAnimation label animation.subject.carriedNames text = .ok read ∧
      (∀ time, read.schedule.resolve time = animation.schedule.resolve time) ∧
      (animation.track.mode.isTheText "paced" = false →
        ∀ progress, read.track.ease progress = animation.track.ease progress) ∧
      (animation.subject.composes = true →
        read.composition.isAdditive = animation.composition.isAdditive ∧
        read.composition.isAccumulating = animation.composition.isAccumulating) := by
  obtain ⟨count, counted, times⟩ := Animation.wireRepeatCount_restored counts
  obtain ⟨read, ok, same_schedule, same_track, same_composition⟩ :=
    readAnimation_of_compiled moving compiled counted label
  refine ⟨read, ok, ?_, ?_, ?_⟩
  · intro time
    rw [same_schedule]
    exact Schedule.resolve_readBack schedule times time
  · intro unpaced progress
    rw [same_track]
    exact Track.ease_readBack track unpaced progress
  · intro composes
    rw [same_composition composes]
    exact ⟨Composition.isAdditive_readBack _, Composition.isAccumulating_readBack _⟩

end

def pulse : Animation .binary64 :=
  { id := .text "pulse", target := .text "lamp", subject := .attribute (.text "opacity")
    schedule :=
      { begin := .text "1s", dur := .text "2s", finish := .text "on&off.click"
        repeatCount := .number (.finite (5 / 2)), fill := .text "freeze" }
    track :=
      { values := .text "0;1;0", mode := .text "spline", keyTimes := .text "0;.5;1"
        keySplines := .text ".4 0 .2 1;0 0 1 1" }
    composition := { additive := .text "sum" } }

def pulseElement : String :=
  "<animate attributeName=\"opacity\" values=\"0;1;0\" dur=\"2s\" begin=\"1s\""
    ++ " end=\"on&amp;off.click\" fill=\"freeze\" repeatCount=\"2.5\" calcMode=\"spline\""
    ++ " keyTimes=\"0;.5;1\" keySplines=\".4 0 .2 1;0 0 1 1\" additive=\"sum\"/>"

theorem pulse_survives_markup :
    ∃ read : Animation .binary64,
      readAnimation "anim" pulse.subject.carriedNames pulseElement = .ok read ∧
      (∀ time, read.schedule.resolve time = pulse.schedule.resolve time) ∧
      (∀ progress, read.track.ease progress = pulse.track.ease progress) ∧
      read.composition.isAdditive = true ∧ read.composition.isAccumulating = false := by
  have shown : (ofAnimation pulse {}).toOption = some pulseElement := by decide +kernel
  have compiled : ofAnimation pulse {} = .ok pulseElement := by
    cases result : ofAnimation pulse {} with
    | error fault => simp [result, Except.toOption] at shown
    | ok text => simpa [result, Except.toOption] using shown
  have some_text (s : String) : (Value.text s : Value .binary64).IsPlain := Or.inr ⟨s, rfl⟩
  have nothing : (Value.null : Value .binary64).IsPlain := Or.inl rfl
  have float : (Number.finite (5 / 2) : Number .binary64).IsFloat := fun _ => by decide +kernel
  have counts : pulse.schedule.repeatCount.IsRepeatCount := .times float (by decide +kernel)
  obtain ⟨read, ok, moments, eases, joins⟩ := timing_survives_markup rfl compiled
    ⟨some_text _, some_text _, some_text _, nothing, some_text _⟩
    ⟨some_text _, some_text _, some_text _⟩ counts "anim"
  obtain ⟨additive, accumulating⟩ := joins rfl
  refine ⟨read, ok, moments, eases ?_, ?_, ?_⟩
  · simp [pulse, Value.isTheText]
  · rw [additive]
    simp [pulse, Composition.isAdditive, Value.isTheText]
  · rw [accumulating]
    rfl

end Markup

end DeclarativeAnimation
