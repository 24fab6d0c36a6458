import DeclarativeAnimation.Interpolation.Contribution
import DeclarativeAnimation.Proofs.Markup.CarriedTiming
import DeclarativeAnimation.Proofs.Markup.RoundedText

/-! Markup carries keyframes.  The list of values is rounded entry by entry, so that as many
    entries are read back as there were; an endpoint is rounded as a whole, and left out when
    nothing of it is left. -/
namespace DeclarativeAnimation
variable {A : Arithmetic}

open Markup

theorem Text.trim_subset (text : List Char) : Text.trim text ⊆ text :=
  fun _ member => (List.dropWhile_sublist _).mem (trimEndWhile_subset _ _ member)

namespace Listing
variable {precision : Value A}

theorem roundedText_apart {piece out : List Char} (read : roundedText precision piece = .ok out)
    (apart : ∀ c ∈ piece, (c == ';') = false) : ∀ c ∈ out, (c == ';') = false := by
  have digits : ∀ c ∈ numeralChars, (c == ';') = false := forall_chars (by decide)
  intro c member
  rcases (roundedText_keeps read).inside c member with early | late
  · exact apart c (Text.trim_subset piece early)
  · exact digits c late

theorem entries_of_rounded {pieces found : List (List Char)}
    (each : List.Forall₂ (fun piece out => roundedText precision piece = .ok out) pieces found) :
    List.Forall₂ (fun entry out => roundedText precision entry = .ok out ∧ out ≠ [])
      ((pieces.map Text.trim).filter (!·.isEmpty)) ((found.map Text.trim).filter (!·.isEmpty)) := by
  induction each with
  | nil => exact .nil
  | @cons piece out rest others first _ ih =>
    have same : Text.trim out = out := trim_of_tight (roundedText_tight first)
    have empty := (roundedText_keeps first).empty
    rw [List.map_cons, List.map_cons, same]
    -- A blank piece is rounded to nothing, and no other one is.
    by_cases blank : Text.trim piece = []
    · rw [List.filter_cons_of_neg (by simp [blank]),
        List.filter_cons_of_neg (by simp [empty.mpr blank])]
      exact ih
    · have some_out := mt empty.mp blank
      rw [List.filter_cons_of_pos (by simpa using blank),
        List.filter_cons_of_pos (by simpa using some_out)]
      refine .cons ⟨?_, some_out⟩ ih
      rw [roundedText_trim]
      exact first

theorem pieces_of_rounded {text : List Char} {found : List (List Char)}
    (rounds : (Text.pieces (· == ';') text).mapM (roundedText precision) = .ok found) :
    Text.pieces (· == ';') (List.intercalate [';'] found) = found := by
  have each := forall₂_of_ok rounds
  have some_found : found ≠ [] := by
    rintro rfl
    exact Text.pieces_ne_nil _ _ (List.forall₂_nil_right_iff.mp each)
  refine Text.pieces_intercalate (by decide) some_found fun out member => ?_
  obtain ⟨piece, listed, read⟩ := mem_of_forall₂ each member
  exact roundedText_apart read (Text.pieces_inside listed)

theorem entriesOf_rounded {text : List Char} {found : List (List Char)}
    (rounds : (Text.pieces (· == ';') text).mapM (roundedText precision) = .ok found) :
    List.Forall₂ (fun entry out => roundedText precision entry = .ok out ∧ out ≠ [])
      (entriesOf text) (entriesOf (List.intercalate [';'] found)) := by
  unfold entriesOf
  rw [pieces_of_rounded rounds]
  exact entries_of_rounded (forall₂_of_ok rounds)

end Listing

namespace Track

/-- The track with the keyframes that an element shows. -/
def shownBy (track : Track A) (text : String) : Track A :=
  let data : Value A := (readStartTag text.toList).wire ["values", "from", "to"]
  { track with
    values := data.member "values", start := data.member "from", goal := data.member "to" }

def Owns (track : Track A) (k : Nat) : Prop :=
  Listing.entries track.values ≠ [] ∨ k = 0 ∧ track.start.isNull = false ∨
    k = 1 ∧ track.goal.isNull = false

/-- What stands at a place where a track has no endpoint. -/
def fallback (base : Value A) (endpoints : Value A × Value A) (k : Nat) : Value A :=
  if k = 0 then (if !base.isNull then base else endpoints.1) else endpoints.2

variable {track : Track A} {base : Value A} {endpoints : Value A × Value A}

theorem keyframes_of_endpoints (unlisted : Listing.entries track.values = []) :
    track.keyframes base endpoints =
      [if track.start.isNull then fallback base endpoints 0 else track.start,
        if track.goal.isNull then fallback base endpoints 1 else track.goal] := by
  unfold keyframes
  rw [unlisted]
  cases track.start.isNull <;> rfl

theorem owns_first (unlisted : Listing.entries track.values = []) :
    track.Owns 0 ↔ track.start.isNull = false := by
  simp [Owns, unlisted]

theorem owns_last (unlisted : Listing.entries track.values = []) :
    track.Owns 1 ↔ track.goal.isNull = false := by
  simp [Owns, unlisted]

end Track

namespace Markup
variable {precision : Value A} {track : Track A} {values : Attributes A}

/-- An endpoint and what is read in its place. -/
def Reads (precision v w : Value A) : Prop :=
  v.isNull = true ∧ w = .null ∨
    v.isNull = false ∧ ∃ s, formatValue v precision = .ok s ∧ w = restored (.text s)

/-- The keyframe at an endpoint: it is read as its text, if anything of the text is left, and the
    same value stands in for it on both sides if it is missing. -/
theorem Reads.endpoint {v w : Value A} (reads : Reads precision v w) (otherwise : Value A)
    {own : Prop} (given : own ↔ v.isNull = false) :
    (own → ∃ s, formatValue (if v.isNull then otherwise else v) precision = .ok s ∧
      some (if w.isNull then otherwise else w) = some (if s = "" then otherwise else .text s)) ∧
    (¬ own → (if v.isNull then otherwise else v) = otherwise ∧
      some (if w.isNull then otherwise else w) = some (if v.isNull then otherwise else v)) := by
  rw [given]
  rcases reads with ⟨null, rfl⟩ | ⟨some_value, s, written, rfl⟩
  · rw [null]
    refine ⟨fun some_value => ?_, fun _ => ⟨rfl, rfl⟩⟩
    cases some_value
  · rw [some_value]
    refine ⟨fun _ => ⟨s, written, ?_⟩, fun missing => absurd rfl missing⟩
    by_cases empty : s = ""
    · rw [if_pos empty, empty]
      rfl
    · rw [if_neg empty, restored_text empty]
      rfl

theorem values_read (listed : valueAttributes track precision = .ok values)
    (present : track.values.isPresent = true) :
    ∃ found, (Text.pieces (· == ';') track.values.chars).mapM (roundedText precision) = .ok found ∧
      readBack values "values" =
        restored (.text (String.ofList (List.intercalate [';'] found))) := by
  unfold valueAttributes at listed
  rw [if_pos present] at listed
  obtain ⟨s, written, rest⟩ := bind_eq_ok listed
  obtain ⟨chars, spelled, written⟩ := bind_eq_ok written
  obtain ⟨found, rounds, same⟩ := bind_eq_ok written
  obtain rfl := Except.ok.inj rest
  obtain rfl := Except.ok.inj same
  obtain ⟨-, rfl⟩ := Value.spelling_eq_ok.mp spelled
  exact ⟨found, rounds, readBack_here (by simp)⟩

def Emits (precision : Value A) (name : String) (v : Value A) (attributes : Attributes A) : Prop :=
  v.isNull = true ∧ attributes = [] ∨
    v.isNull = false ∧ ∃ s, formatValue v precision = .ok s ∧ attributes = [(name, .text s)]

section Emits
variable {name : String} {v : Value A} {attributes : Attributes A}

theorem Emits.names (emits : Emits precision name v attributes) {other : String}
    (differs : name ≠ other) : ∀ a ∈ attributes, a.1 ≠ other := by
  rcases emits with ⟨_, rfl⟩ | ⟨_, s, _, rfl⟩
  · simp
  · simpa using differs

theorem Emits.reads (emits : Emits precision name v attributes) :
    Reads precision v (readBack attributes name) := by
  rcases emits with ⟨null, rfl⟩ | ⟨some_value, s, written, rfl⟩
  · exact Or.inl ⟨null, rfl⟩
  · exact Or.inr ⟨some_value, s, written, readBack_here (by simp)⟩

end Emits

theorem endpoints_emitted (listed : valueAttributes track precision = .ok values)
    (absent : track.values.isPresent = false) : ∃ first last, values = first ++ last ∧
      Emits precision "from" track.start first ∧ Emits precision "to" track.goal last := by
  unfold valueAttributes at listed
  rw [absent] at listed
  cases start : track.start.isNull <;> cases goal : track.goal.isNull
  all_goals simp only [start, goal, Bool.false_eq_true, ↓reduceIte, pure_bind] at listed
  · obtain ⟨first, starts, listed⟩ := bind_eq_ok listed
    obtain ⟨last, ends, rest⟩ := bind_eq_ok listed
    obtain rfl := Except.ok.inj rest
    exact ⟨_, _, rfl, Or.inr ⟨start, first, starts, rfl⟩, Or.inr ⟨goal, last, ends, rfl⟩⟩
  · obtain ⟨first, starts, rest⟩ := bind_eq_ok listed
    obtain rfl := Except.ok.inj rest
    exact ⟨_, _, rfl, Or.inr ⟨start, first, starts, rfl⟩, Or.inl ⟨goal, rfl⟩⟩
  · obtain ⟨last, ends, rest⟩ := bind_eq_ok listed
    obtain rfl := Except.ok.inj rest
    exact ⟨_, _, rfl, Or.inl ⟨start, rfl⟩, Or.inr ⟨goal, last, ends, rfl⟩⟩
  · obtain rfl := Except.ok.inj listed
    exact ⟨_, _, rfl, Or.inl ⟨start, rfl⟩, Or.inl ⟨goal, rfl⟩⟩

theorem endpoints_read (listed : valueAttributes track precision = .ok values)
    (absent : track.values.isPresent = false) :
    readBack values "values" = .null ∧ Reads precision track.start (readBack values "from") ∧
      Reads precision track.goal (readBack values "to") := by
  obtain ⟨first, last, rfl, starts, ends⟩ := endpoints_emitted listed absent
  refine ⟨?_, ?_, ?_⟩
  · rw [readBack_rest (ends.names (by decide)), readBack_absent (starts.names (by decide))]
  · rw [readBack_rest (ends.names (by decide))]
    exact starts.reads
  · rw [readBack_lead (starts.names (by decide))]
    exact ends.reads

section Shown
variable {a : Animation A} {options : Options A} {text : String}

theorem front_apart (subject : Subject A) {name : String}
    (shown : name ∈ ["values", "from", "to"]) :
    ∀ entry ∈ frontAttributes subject, entry.1 ≠ name := by
  have names : ∀ entry ∈ frontAttributes subject, entry.1 ∈ ["attributeName", "type"] := by
    cases subject <;> simp [frontAttributes]
  have apart : ∀ shown ∈ ["values", "from", "to"], shown ∉ ["attributeName", "type"] := by decide
  rintro entry member rfl
  exact apart _ shown (names entry member)

theorem member_of_composed {values : Attributes A} {precision : Value A}
    (listed : valueAttributes a.track precision = .ok values) (name : String)
    (shown : name ∈ ["values", "from", "to"]) :
    ((readStartTag (writeElement a.subject.tagName (elementAttributes
      (frontAttributes a.subject ++ values) a) "").toList).wire ["values", "from", "to"] :
        Value A).member name = readBack values name := by
  have solid := tagName_solid a.subject
  have clean := elementAttributes_clean (lead_names a.subject listed) a
  have few : name ∉ a.subject.carriedNames := by
    refine carriedNames_few a.subject name ?_
    have known : ∀ shown ∈ ["values", "from", "to"],
        shown ∈ ["type", "from", "to", "values", "rotate", "id", "targetElementId"] := by decide
    exact known name shown
  have rest : ∀ entry ∈ timingAttributes a.schedule a.track ++ composedAttributes a,
      entry.1 ≠ name := by
    rintro entry member rfl
    exact few ((tail_names a).mem (List.mem_map.mpr ⟨entry, member, rfl⟩))
  have typed : name ≠ "type" := by
    rintro rfl
    revert shown
    decide
  rw [member_wire solid clean "" _ typed, if_pos shown, elementAttributes, readBack_rest rest,
    readBack_lead (front_apart a.subject shown)]

theorem shownBy_of_compiled (composes : a.subject.composes = true)
    (compiled : ofAnimation a options = .ok text) :
    ∃ values, valueAttributes a.track options.precision = .ok values ∧
      (a.track.shownBy text).values = readBack values "values" ∧
      (a.track.shownBy text).start = readBack values "from" ∧
      (a.track.shownBy text).goal = readBack values "to" := by
  obtain ⟨values, listed, written⟩ := element_of_composed composes compiled
  have read := member_of_composed listed
  rw [← written] at read
  refine ⟨values, listed, ?_⟩
  unfold Track.shownBy
  dsimp only
  rw [read "values" (by decide), read "from" (by decide), read "to" (by decide)]
  exact ⟨rfl, rfl, rfl⟩

theorem listed_keyframes (composes : a.subject.composes = true)
    (compiled : ofAnimation a options = .ok text) (present : a.track.values.isPresent = true)
    (listed : Listing.entries a.track.values ≠ []) (base : Value A)
    (endpoints : Value A × Value A) :
    List.Forall₂ (fun v w => ∃ s, formatValue v options.precision = .ok s ∧ s ≠ "" ∧ w = .text s)
      (a.track.keyframes base endpoints) ((a.track.shownBy text).keyframes base endpoints) := by
  obtain ⟨values, written, shown, _, _⟩ := shownBy_of_compiled composes compiled
  obtain ⟨found, rounds, read⟩ := values_read written present
  have each := Listing.entriesOf_rounded rounds
  have entries : Listing.entries a.track.values = Listing.entriesOf a.track.values.chars := by
    unfold Listing.entries at listed ⊢
    split
    · rename_i null
      rw [if_pos null] at listed
      exact absurd rfl listed
    · rfl
  have back : Listing.entries (a.track.shownBy text).values =
      Listing.entriesOf (List.intercalate [';'] found) := by
    rw [shown, read]
    generalize List.intercalate [';'] found = joined
    by_cases empty : String.ofList joined = ""
    · have none : joined = [] := by simpa using congrArg String.toList empty
      rw [none]
      rfl
    · rw [restored_text empty]
      unfold Listing.entries Value.chars Value.asText
      simp [Value.isNull]
  rw [← entries, ← back] at each
  have some_back : Listing.entries (a.track.shownBy text).values ≠ [] := by
    intro none
    rw [none] at each
    exact listed (List.forall₂_nil_right_iff.mp each)
  rw [Track.keyframes_of_entries listed, Track.keyframes_of_entries some_back,
    List.forall₂_map_left_iff, List.forall₂_map_right_iff]
  refine each.imp fun entry out rounded => ?_
  obtain ⟨read, some_out⟩ := rounded
  refine ⟨String.ofList out, ?_, ?_, rfl⟩
  · rw [formatValue_text, String.toList_ofList, read]
    rfl
  · intro empty
    exact some_out (by simpa using congrArg String.toList empty)

/-- Keyframes that are read back from markup.  There are as many as there were; one that the
    animation has of its own is read as its text, unless nothing of the text is left, and any
    other is the same fallback as before. -/
theorem keyframes_survive_markup (composes : a.subject.composes = true)
    (compiled : ofAnimation a options = .ok text) (plain : a.track.values.IsPlain)
    (solid : a.track.values.isPresent = true → Listing.entries a.track.values ≠ [])
    (base : Value A) (endpoints : Value A × Value A) :
    ((a.track.shownBy text).keyframes base endpoints).length =
        (a.track.keyframes base endpoints).length ∧
      ∀ k v, (a.track.keyframes base endpoints)[k]? = some v →
        (a.track.Owns k → ∃ s, formatValue v options.precision = .ok s ∧
          ((a.track.shownBy text).keyframes base endpoints)[k]? =
            some (if s = "" then Track.fallback base endpoints k else .text s)) ∧
        (¬ a.track.Owns k → v = Track.fallback base endpoints k ∧
          ((a.track.shownBy text).keyframes base endpoints)[k]? = some v) := by
  cases present : a.track.values.isPresent with
  | true =>
    have listed := solid present
    have each := listed_keyframes composes compiled present listed base endpoints
    refine ⟨each.length_eq.symm, fun k v found => ⟨fun _ => ?_, fun other => ?_⟩⟩
    · obtain ⟨bound, rfl⟩ := List.getElem?_eq_some_iff.mp found
      have bound' := each.length_eq ▸ bound
      obtain ⟨s, written, some_char, same⟩ := each.get bound bound'
      refine ⟨s, written, ?_⟩
      rw [if_neg some_char, List.getElem?_eq_getElem bound']
      exact congrArg some same
    · exact absurd (Or.inl listed) other
  | false =>
    have unlisted : Listing.entries a.track.values = [] := by
      rcases plain with null | ⟨s, text⟩
      · rw [null]
        rfl
      · have empty : s = "" := by simpa [text, Value.isPresent] using present
        rw [text, empty]
        rfl
    obtain ⟨values, written, listing, start, goal⟩ := shownBy_of_compiled composes compiled
    obtain ⟨none, starts, ends⟩ := endpoints_read written present
    rw [← start] at starts
    rw [← goal] at ends
    have still : Listing.entries (a.track.shownBy text).values = [] := by
      rw [listing, none]
      rfl
    rw [Track.keyframes_of_endpoints unlisted, Track.keyframes_of_endpoints still]
    refine ⟨by simp only [List.length_cons], fun k v found => ?_⟩
    rcases k with _ | _ | k
    · obtain rfl := Option.some.inj found
      exact starts.endpoint _ (Track.owns_first unlisted)
    · obtain rfl := Option.some.inj found
      exact ends.endpoint _ (Track.owns_last unlisted)
    · cases found

end Shown

section Instance

def drift : Animation .binary64 :=
  { id := .text "drift", target := .text "box", subject := .attribute (.text "x")
    track := { values := .text " 0 ; ;10.50" } }

theorem drift_survives_markup : ∃ text, ofAnimation drift {} = .ok text ∧
    ((drift.track.shownBy text).keyframes .null (.number 0, .number 0)).length = 2 ∧
    ((drift.track.shownBy text).keyframes .null (.number 0, .number 0))[1]? =
      some (.text "10.5") := by
  have compiled : ofAnimation drift {} = .ok "<animate attributeName=\"x\" values=\"0;;10.5\"/>" := by
    decide +kernel
  have two : Listing.entries drift.track.values = ["0".toList, "10.50".toList] := by
    decide +kernel
  have some_entry : Listing.entries drift.track.values ≠ [] := by
    rw [two]
    exact List.cons_ne_nil _ _
  have own := Track.keyframes_of_entries some_entry .null (.number 0, .number 0)
  obtain ⟨count, each⟩ := keyframes_survive_markup rfl compiled (Or.inr ⟨_, rfl⟩)
    (fun _ => some_entry) .null (.number 0, .number 0)
  rw [two] at own
  rw [own] at count each
  rw [List.length_map] at count
  refine ⟨_, compiled, count, ?_⟩
  obtain ⟨s, written, read⟩ := (each 1 (.text "10.50") rfl).1 (Or.inl some_entry)
  have rounded : formatValue (.text "10.50" : Value .binary64) (.int 4) = .ok "10.5" := by
    decide +kernel
  cases rounded.symm.trans written
  rw [if_neg (by decide)] at read
  exact read

def blankStart : Animation .binary64 :=
  { id := .text "blank", target := .text "box", subject := .attribute (.text "x")
    track := { start := .text "", goal := .text "1" } }

/-- A blank endpoint is not written, so that the fallback is read in its place. -/
theorem blank_endpoint_not_read :
    ofAnimation blankStart {} = .ok "<animate attributeName=\"x\" to=\"1\"/>" ∧
      (blankStart.track.keyframes .null (.number 0, .number 0))[0]? = some (.text "") ∧
      formatValue (.text "" : Value .binary64) (.int 4) = .ok "" ∧
      ((blankStart.track.shownBy "<animate attributeName=\"x\" to=\"1\"/>").keyframes .null
        (.number 0, .number 0))[0]? = some (.number 0) := by
  refine ⟨by decide +kernel, rfl, by decide +kernel, ?_⟩
  let shown := blankStart.track.shownBy "<animate attributeName=\"x\" to=\"1\"/>"
  have unlisted : Listing.entries shown.values = [] := by decide +kernel
  have missing : shown.start.isNull = true := by decide +kernel
  rw [Track.keyframes_of_endpoints unlisted, missing]
  rfl

end Instance

end Markup

end DeclarativeAnimation
