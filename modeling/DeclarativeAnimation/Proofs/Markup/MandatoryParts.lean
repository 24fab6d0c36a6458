import DeclarativeAnimation.Markup.Compiler
import DeclarativeAnimation.Proofs.Markup.CarriedTiming
import DeclarativeAnimation.Proofs.Markup.CompleteMarkup

/-! Checking before writing.  The check comes to an end, and an animation that it finds nothing
    wrong with is written with all the parts that its element needs. -/
namespace DeclarativeAnimation
variable {A : Arithmetic}

open Markup

/-- Where values are listed, they and what has to match them are texts. -/
def Track.IsListed (track : Track A) : Prop :=
  track.values.isPresent = true → track.values.isText = true ∧
    (track.keyTimes.isPresent = true → track.keyTimes.isText = true) ∧
    (track.mode.isTheText "spline" = true → track.keySplines.isPresent = true →
      track.keySplines.isText = true)

def Animation.HasSolidGoal (a : Animation A) : Prop :=
  a.subject.isSet = true → ∀ s, a.track.goal = .text s → Text.trim s.toList = [] → s = ""

def Markup.StartTag.Carries (tag : StartTag) (name : String) : Prop :=
  ∃ value, tag.attributes.lookup name.toList = some value ∧ value ≠ []

/-- The text is an element of the subject with the parts that such an element needs. -/
def Subject.ShownIn (subject : Subject A) (text : String) : Prop :=
  let tag := readStartTag text.toList
  tag.name = subject.tagName.toList ∧
    match subject with
    | .attribute _ => tag.Carries "attributeName"
    | .transform _ => tag.Carries "type"
    | .motion _ _ _ _ => tag.Carries "path" ∨ ∃ head reference,
        text = "<" ++ head ++ "><mpath href=\"#" ++ reference ++ "\"/></animateMotion>" ∧
          reference ≠ ""
    | .set _ => tag.Carries "attributeName" ∧ tag.Carries "to"
    | .none => False

namespace Markup

section Checking
variable {track : Track A} {a : Animation A} {source : Source A}

theorem entryCount_answers {v : Value A} (text : v.isText = true) :
    ∃ n, entryCount v = .ok n := by
  cases v with
  | text s => exact ⟨_, rfl⟩
  | _ => cases text

theorem asked_entries {v : Value A} {asked : Bool} {n : Nat} {count : Int} {text : String}
    (counted : asked = true → entryCount v = .ok n)
    {next : List String → Except Fault (List String)} {P : List String → Prop}
    (rest : ∀ found, (found = [] ↔ (asked = true → (n : Int) = count)) →
      Answers (next found) P) :
    Answers (if asked then do
        if (← entryCount v) ≠ count then do next (← pure [text]) else do next (← pure [])
      else do next (← pure [])) P := by
  cases asked with
  | false => exact rest [] (iff_of_true rfl fun unasked => by cases unasked)
  | true =>
    rw [counted rfl, if_pos rfl]
    dsimp only [bind, Except.bind]
    split
    · rename_i differ
      exact rest [text] (iff_of_false (List.cons_ne_nil _ _) fun same => differ (same rfl))
    · rename_i same
      exact rest [] (iff_of_true rfl fun _ => not_not.mp same)

theorem keyframeComplaints_answers (listed : track.IsListed) :
    ∃ complaints, keyframeComplaints track = .ok complaints := by
  suffices answers : Answers (keyframeComplaints track) fun _ => True by
    obtain ⟨complaints, answered, -⟩ := answers
    exact ⟨complaints, answered⟩
  unfold keyframeComplaints
  cases given : track.values.isPresent with
  | false => exact .ok trivial
  | true =>
    obtain ⟨text, timed, bent⟩ := listed given
    obtain ⟨count, counted⟩ := entryCount_answers text
    have countable {v : Value A} {asked : Bool} (text : asked = true → v.isText = true) :
        ∃ n, asked = true → entryCount v = .ok n := by
      cases asked with
      | false => exact ⟨0, fun unasked => by cases unasked⟩
      | true =>
        obtain ⟨n, found⟩ := entryCount_answers (text rfl)
        exact ⟨n, fun _ => found⟩
    obtain ⟨m, times⟩ := countable timed
    obtain ⟨k, splines⟩ := countable fun asked => by
      obtain ⟨mode, present⟩ := Bool.and_eq_true_iff.mp asked
      exact bent mode present
    rw [counted]
    exact asked_entries times fun _ _ => asked_entries splines fun _ _ => .ok trivial

theorem complete_of_parts (none : partComplaints a = []) : a.IsComplete := by
  obtain ⟨id, target, subject, schedule, track, composition⟩ := a
  unfold partComplaints at none
  unfold Animation.IsComplete
  rcases subject with name | kind | ⟨path, reference, rotate, keyPoints⟩ | name | _
  · simp only [List.append_eq_nil_iff] at none
    simpa using none.1
  · simpa using none
  · simpa [or_iff_not_imp_left] using none
  · simpa using none
  · cases none

theorem animationComplaints_answers (listed : a.track.IsListed) :
    ∃ complaints, animationComplaints a = .ok complaints := by
  obtain ⟨found, answered⟩ := keyframeComplaints_answers listed
  unfold animationComplaints
  rw [answered]
  exact ⟨_, rfl⟩

theorem complete_of_animation (none : animationComplaints a = .ok []) : a.IsComplete := by
  obtain ⟨found, _, same⟩ := bind_eq_ok none
  have empty := Except.ok.inj same
  exact complete_of_parts (List.append_eq_nil_iff.mp empty).1

theorem complaints_answers (formed : source.IsObjectOrTargeted) (fits : source.Fits)
    (listed : ∀ a, source.animation = .ok a → a.track.IsListed) :
    ∃ complaints, source.complaints = .ok complaints := by
  cases source with
  | read animation =>
    obtain ⟨found, answered⟩ := animationComplaints_answers (listed animation rfl)
    unfold Source.complaints
    dsimp only
    rw [answered]
    exact ⟨_, rfl⟩
  | wire data =>
    obtain ⟨type, typed⟩ : ∃ type, data.get "type" .null = .ok type := by
      obtain ⟨members, rfl⟩ := formed
      exact ⟨_, rfl⟩
    unfold Source.complaints
    dsimp only
    rw [typed]
    dsimp only [bind, Except.bind]
    split
    · exact ⟨_, rfl⟩
    split
    · rename_i animation read
      have found : (Source.wire data).animation = .ok animation := by
        rw [Source.animation, read]
      obtain ⟨complaints, answered⟩ := animationComplaints_answers (listed animation found)
      rw [answered]
      exact ⟨_, rfl⟩
    · rename_i fault unread
      rw [ofWire_fault formed fits.1 fits.2 unread]
      exact ⟨_, rfl⟩

theorem complete_of_valid (valid : source.complaints = .ok []) :
    ∃ a, source.animation = .ok a ∧ a.IsComplete := by
  have alone {target : List String} {a : Animation A}
      (none : (do return target ++ (← animationComplaints a)) = Except.ok []) : a.IsComplete := by
    obtain ⟨complaints, answered, same⟩ := bind_eq_ok none
    have empty := (List.append_eq_nil_iff.mp (Except.ok.inj same)).2
    rw [empty] at answered
    exact complete_of_animation answered
  cases source with
  | read animation => exact ⟨animation, rfl, alone valid⟩
  | wire data =>
    obtain ⟨type, _, valid⟩ := bind_eq_ok valid
    dsimp only at valid
    split at valid
    · cases valid
    split at valid
    · rename_i animation read
      refine ⟨animation, ?_, alone valid⟩
      rw [Source.animation, read]
    · split at valid <;> cases valid

end Checking

section Written
variable {tag name : String} {v : Value A} {attributes : Attributes A}

theorem chars_some (written : isWritten v = true) : v.chars ≠ [] := by
  cases v with
  | null => cases written
  | bool b =>
    cases b
    · exact (by decide : Value.boolText false ≠ "") ∘ String.toList_eq_nil_iff.mp
    · exact (by decide : Value.boolText true ≠ "") ∘ String.toList_eq_nil_iff.mp
  | int n =>
    simp only [Value.chars, Value.asText, Value.shown, Value.intText]
    split
    · simp
    · simp
  | number x => exact Number.shortest_some x
  | text s => simpa [isWritten, Value.isNull, Value.isTheText, Value.chars, Value.asText] using written
  | list items => simp [Value.chars, Value.asText, Value.shown]
  | object members => simp [Value.chars, Value.asText, Value.shown]

theorem carries_written (solid : tag.toList.all isNameChar)
    (clean : ∀ a ∈ attributes, a.1.toList.all isNameChar) (content : String)
    (member : (name, v) ∈ attributes) (written : isWritten v = true) :
    (readStartTag (writeElement tag attributes content).toList).Carries name := by
  rw [readStartTag_writeElement solid clean content]
  unfold StartTag.Carries
  dsimp only
  rw [lookup_toList]
  have listed : (name, v) ∈ attributes.filter fun a => isWritten a.2 :=
    List.mem_filter.mpr ⟨member, written⟩
  cases found : (attributes.filter fun a => isWritten a.2).lookup name with
  | none =>
    rw [List.lookup_eq_none_iff] at found
    simpa using found (name, v) listed
  | some w =>
    obtain ⟨before, after, parts, _⟩ := List.lookup_eq_some_iff.mp found
    have inside : (name, w) ∈ attributes.filter fun a => isWritten a.2 := by
      rw [parts]
      exact List.mem_append_right before List.mem_cons_self
    exact ⟨w.chars, rfl, chars_some (List.mem_filter.mp inside).2⟩

theorem isWritten_of_isPresent (present : v.isPresent = true) : isWritten v = true := by
  cases v with
  | null => cases present
  | text s => simpa [isWritten, Value.isNull, Value.isTheText, Value.isPresent] using present
  | _ => rfl

theorem optimizePath_written {path drawn : Value A} {options : Options A}
    (present : path.isPresent = true) (done : optimizePath path options = .ok drawn) :
    isWritten drawn = true := by
  unfold optimizePath at done
  split at done
  · cases done
    exact isWritten_of_isPresent present
  · split at done
    · rename_i s
      obtain ⟨out, rounds, same⟩ := bind_eq_ok done
      cases same
      have some_char : s ≠ "" := by simpa [Value.isPresent] using present
      have some_out := roundedPath_some (mt String.toList_eq_nil_iff.mp some_char) rounds
      refine isWritten_of_isPresent ?_
      simpa [Value.isPresent] using some_out
    · cases done

theorem escapeText_some {text : List Char} (some_char : text ≠ []) : escapeText text ≠ [] := by
  have solid (c : Char) : escapeChar c ≠ [] := by
    unfold escapeChar
    repeat' split
    all_goals simp
  obtain ⟨c, rest, rfl⟩ := List.exists_cons_of_ne_nil some_char
  rw [escapeText, List.flatMap_cons]
  exact fun none => solid c (List.append_eq_nil_iff.mp none).1

theorem attributeText_some (written : isWritten v = true) : attributeText v ≠ "" := by
  intro empty
  have none := congrArg String.toList empty
  rw [attributeText, String.toList_ofList] at none
  exact escapeText_some (chars_some written) none

end Written

section Shown
variable {a : Animation A} {options : Options A} {text : String}

theorem tag_written {tag : String} (solid : tag.toList.all isNameChar)
    {attributes : Attributes A} (clean : ∀ a ∈ attributes, a.1.toList.all isNameChar)
    (content : String) :
    (readStartTag (writeElement tag attributes content).toList).name = tag.toList := by
  rw [readStartTag_writeElement solid clean content]

theorem writeElement_around (tag : String) (attributes : Attributes A) {content : String}
    (some_content : content ≠ "") : ∃ head, writeElement tag attributes content =
      "<" ++ head ++ ">" ++ content ++ "</" ++ tag ++ ">" := by
  unfold writeElement
  dsimp only
  rw [if_neg some_content]
  exact ⟨_, rfl⟩

theorem composed_shown (name : String) (v : Value A) (composes : a.subject.composes = true)
    (front : (name, v) ∈ frontAttributes a.subject) (written : isWritten v = true)
    (compiled : ofAnimation a options = .ok text) :
    (readStartTag text.toList).name = a.subject.tagName.toList ∧
      (readStartTag text.toList).Carries name := by
  obtain ⟨values, listed, rfl⟩ := element_of_composed composes compiled
  have solid := tagName_solid a.subject
  have clean := elementAttributes_clean (lead_names a.subject listed) a
  have member : (name, v) ∈ elementAttributes (frontAttributes a.subject ++ values) a :=
    List.mem_append_left _ (List.mem_append_left _ front)
  exact ⟨tag_written solid clean "", carries_written solid clean "" member written⟩

theorem motion_shown {path reference rotate keyPoints : Value A}
    (moves : a.subject = .motion path reference rotate keyPoints)
    (compiled : ofAnimation a options = .ok text) : a.subject.ShownIn text := by
  obtain ⟨drawn, turned, points, written, alone⟩ := element_of_motion moves compiled
  have leading : ∀ entry ∈ [("path", drawn), ("rotate", turned), ("keyPoints", points)],
      entry.1 ∈ leadNames := by simp [leadNames]
  have clean := elementAttributes_clean leading a
  have solid : "animateMotion".toList.all isNameChar := by decide
  rw [moves]
  refine ⟨by rw [written]; exact tag_written solid clean _, ?_⟩
  cases referred : reference.isPresent with
  | false =>
    obtain ⟨present, draws⟩ := alone referred
    have shown := optimizePath_written present draws
    refine Or.inl ?_
    rw [written]
    exact carries_written solid clean _ (List.mem_append_left _ List.mem_cons_self) shown
  | true =>
    have inside : pathReference reference =
        "<mpath href=\"#" ++ attributeText reference ++ "\"/>" := by
      rw [pathReference, if_pos referred]
    have some_content : pathReference reference ≠ "" := by
      rw [inside]
      intro empty
      simpa using congrArg String.toList empty
    obtain ⟨head, around⟩ := writeElement_around "animateMotion" (elementAttributes
      [("path", drawn), ("rotate", turned), ("keyPoints", points)] a) some_content
    refine Or.inr ⟨head, attributeText reference, ?_,
      attributeText_some (isWritten_of_isPresent referred)⟩
    rw [written, around, inside]
    apply String.toList_inj.mp
    simp

theorem set_shown {name : Value A} (sets : a.subject = .set name) (complete : a.IsComplete)
    (goal : a.HasSolidGoal) (compiled : ofAnimation a options = .ok text) :
    a.subject.ShownIn text := by
  have parts : name.isPresent = true ∧ isWritten a.track.goal = true := by
    unfold Animation.IsComplete at complete
    rwa [sets] at complete
  unfold ofAnimation at compiled
  rw [sets] at compiled
  simp only [parts.1, parts.2, Bool.not_true, Bool.false_eq_true, ↓reduceIte] at compiled
  obtain ⟨s, reads, rest⟩ := bind_eq_ok compiled
  have some_value : a.track.goal.isNull = false := by
    cases null : a.track.goal.isNull with
    | false => rfl
    | true => simp [isWritten, null] at parts
  have some_char : s ≠ "" := by
    refine formatValue_some some_value (fun t same blank => ?_) reads
    have empty := goal (by rw [sets]; rfl) t same blank
    simp [isWritten, same, empty, Value.isTheText] at parts
  have shown : isWritten (.text s : Value A) = true := by
    simpa [isWritten, Value.isNull, Value.isTheText] using some_char
  have solid : "set".toList.all isNameChar := by decide
  rw [sets]
  obtain rfl := spellElement_written rest
  generalize listed : ([("attributeName", name), ("to", .text s), ("begin", a.schedule.begin),
    ("dur", a.schedule.dur), ("end", a.schedule.finish), ("fill", a.schedule.fill)] :
      Attributes A) = attributes
  have clean : ∀ entry ∈ attributes, entry.1.toList.all isNameChar := by
    have names : attributes.map Prod.fst =
        ["attributeName", "to", "begin", "dur", "end", "fill"] := by
      rw [← listed]
      rfl
    have known : ∀ name ∈ ["attributeName", "to", "begin", "dur", "end", "fill"],
        name.toList.all isNameChar := by decide
    intro entry member
    exact known entry.1 (names ▸ List.mem_map.mpr ⟨entry, member, rfl⟩)
  have first : ("attributeName", name) ∈ attributes := by simp [← listed]
  have second : ("to", .text s) ∈ attributes := by simp [← listed]
  exact ⟨tag_written solid clean "",
    carries_written solid clean "" first (isWritten_of_isPresent parts.1),
    carries_written solid clean "" second shown⟩

theorem parts_shown (complete : a.IsComplete) (goal : a.HasSolidGoal)
    (compiled : ofAnimation a options = .ok text) : a.subject.ShownIn text := by
  rcases subject : a.subject with name | kind | ⟨path, reference, rotate, keyPoints⟩ | name | _
  · have present : name.isPresent = true := by
      unfold Animation.IsComplete at complete
      rwa [subject] at complete
    have shown := composed_shown "attributeName" name (by rw [subject]; rfl)
      (by rw [subject]; exact List.mem_cons_self) (isWritten_of_isPresent present) compiled
    rwa [subject] at shown
  · have present : kind.isPresent = true := by
      unfold Animation.IsComplete at complete
      rwa [subject] at complete
    have shown := composed_shown "type" kind (by rw [subject]; rfl)
      (by rw [subject]; simp [frontAttributes]) (isWritten_of_isPresent present) compiled
    rwa [subject] at shown
  · rw [← subject]
    exact motion_shown subject compiled
  · rw [← subject]
    exact set_shown subject complete goal compiled
  · unfold Animation.IsComplete at complete
    rw [subject] at complete
    cases complete

/-- A check that comes to an end.  What it finds nothing wrong with is written, whatever number of
    places is asked for, with all the parts that its element needs. -/
theorem valid_source_written {source : Source A} (formed : source.IsObjectOrTargeted)
    (fits : source.Fits)
    (listed : ∀ a, source.animation = .ok a → a.track.IsListed)
    (goal : ∀ a, source.animation = .ok a → a.HasSolidGoal) :
    ∃ complaints, source.complaints = .ok complaints ∧ (complaints = [] →
      ∀ options : Options A, options.IsPrecise → source.IsWritable options →
        ∃ a text, source.animation = .ok a ∧ source.compile options = .ok text ∧
          a.subject.ShownIn text) := by
  obtain ⟨complaints, answered⟩ := complaints_answers formed fits listed
  refine ⟨complaints, answered, fun none options precise writable => ?_⟩
  rw [none] at answered
  obtain ⟨a, read, complete⟩ := complete_of_valid answered
  obtain ⟨text, done⟩ := ofAnimation_answers complete (writable.2.2 a read) precise
  refine ⟨a, text, read, ?_, parts_shown complete (goal a read) done⟩
  rw [Source.compile_read options read, done]

end Shown

section Instance

def slide : Source .binary64 :=
  .wire (.object [("type", .text "animate"), ("targetElementId", .text "box"),
    ("attributeName", .text "x"), ("values", .text "0;10"), ("keyTimes", .text "0;1"),
    ("calcMode", .text "spline"), ("keySplines", .text "0.5 0 0.5 1")])

theorem slide_written :
    slide.complaints = .ok [] ∧ ∃ a text, slide.animation = .ok a ∧ slide.compile {} = .ok text ∧
      a.subject.ShownIn text := by
  have formed : slide.IsObjectOrTargeted := ⟨_, rfl⟩
  have fits : slide.Fits := ⟨fun n same => (by cases same), fun n same => by cases same⟩
  have valid : slide.complaints = .ok [] := by decide +kernel
  obtain ⟨complaints, answered, written⟩ := valid_source_written formed fits
    (fun a read => by cases read; exact fun _ => ⟨rfl, fun _ => rfl, fun _ _ => rfl⟩)
    (fun a read => by cases read; exact fun sets => by cases sets)
  rw [valid] at answered
  refine ⟨valid, written (Except.ok.inj answered).symm {} ⟨4, rfl, by decide, by decide⟩
    ⟨fits, ⟨rfl, rfl⟩, fun a read => ?_⟩⟩
  cases read
  exact ⟨by decide +kernel, fun n same => (by cases same), fun n same => by cases same⟩

def numberedValues : Source .binary64 :=
  .wire (.object [("type", .text "animate"), ("targetElementId", .text "box"),
    ("attributeName", .text "x"), ("values", .int 5)])

def blankGoal : Source .binary64 :=
  .wire (.object [("type", .text "set"), ("targetElementId", .text "box"),
    ("attributeName", .text "x"), ("to", .text " ")])

/-- Values that are no text end the check, and a blank goal passes it but is not written. -/
theorem check_lets_blank_goal_pass :
    numberedValues.complaints = .error (.noMember "int" "split") ∧
      blankGoal.complaints = .ok [] ∧
      blankGoal.compile {} = .ok "<set attributeName=\"x\"/>" :=
  ⟨by decide +kernel, by decide +kernel, by decide +kernel⟩

/-- A name that is too long a number passes the check too, and ends the compilation. -/
def countlessName : Source .binary64 :=
  .wire (.object [("type", .text "animate"), ("targetElementId", .text "box"),
    ("attributeName", .int (10 ^ Value.mostDigits)), ("values", .text "0;1")])

example : countlessName.complaints = .ok [] ∧ countlessName.compile {} = .error .unspellable :=
  ⟨by decide +kernel, by decide +kernel⟩

end Instance

end Markup
end DeclarativeAnimation
