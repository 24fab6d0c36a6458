import DeclarativeAnimation.Proofs.Markup.CompleteMarkup

/-! Lists of objects with bad entries among them.  Every entry is read as if it were alone: a bad
    one leaves a line behind and nothing else.  Only a whole number that is no number, where
    one is looked for, ends the reading. -/
namespace DeclarativeAnimation.Animation
variable {A : Arithmetic} {data : Value A}

theorem ofWire_label (label : String) (data : Value A) :
    ofWire label data =
      (ofWire "" data).map fun a => { a with id := (data.member "id").textOr label } := by
  unfold ofWire
  cases wireType data with
  | error fault => rfl
  | ok type =>
    dsimp only [bind, Except.bind]
    cases Kind.ofValue type with
    | error fault => rfl
    | ok kind =>
      dsimp only
      cases wireSubject kind data with
      | error fault => rfl
      | ok subject =>
        dsimp only
        cases wireRepeatCount (data.member "repeatCount") with
        | error fault => rfl
        | ok count =>
          dsimp only
          unfold Value.spelling
          split <;> rfl

/-- A whole number of the entry is looked for as a number, and is none. -/
def exceeds (data : Value A) : Bool :=
  match ofWire "" data with
  | .error .beyondDoubles => true
  | _ => false

def read? (label : Nat → String) (entry : Value A × Nat) : Option (Animation A) :=
  (ofWire (label entry.2) entry.1).toOption

def skipped? (data : Value A) : Option LogLine :=
  match ofWire "" data with
  | .ok _ => none
  | .error fault => skippedLine? (data.member "id") fault

/-- An entry whose name has no text. -/
def isNameless (data : Value A) : Bool := !(data.member "id").isSpellable

def kept (label : Nat → String) (items : List (Value A)) : List (Value A × Nat) :=
  items.zipIdx.filter fun entry => (read? label entry).isSome

/-- An entry of a list is read, it is left out with a line, or it ends the reading. -/
theorem entry_cases (label : String) (object : ∃ members, data = .object members) :
    (∃ a, ofWire label data = .ok a ∧ exceeds data = false ∧ skipped? data = none) ∨
    (∃ fault, ofWire label data = .error fault ∧ fault.isOfValue = true ∧ exceeds data = false ∧
      skipped? data = skippedLine? (data.member "id") fault) ∨
    (ofWire label data = .error .beyondDoubles ∧ exceeds data = true ∧
      ¬ ((data.member "repeatCount").Fits ∧ (data.member "rotate").Fits)) := by
  rw [ofWire_label, exceeds, skipped?]
  cases read : ofWire "" data with
  | ok a => exact .inl ⟨_, rfl, rfl, rfl⟩
  | error fault =>
    refine .inr ?_
    rcases Markup.ofWire_refuses object read with
      rfl | ⟨type, rfl⟩ | ⟨name, looked, rfl | ⟨rfl, beyond⟩ | ⟨rfl, -⟩⟩ | ⟨rfl, -⟩
    · exact .inl ⟨_, rfl, rfl, rfl, rfl⟩
    · exact .inl ⟨_, rfl, rfl, rfl, rfl⟩
    · exact .inl ⟨_, rfl, rfl, rfl, rfl⟩
    · refine .inr ⟨rfl, rfl, fun fits => ?_⟩
      rcases List.mem_pair.mp looked with rfl | rfl
      · exact beyond fits.1
      · exact beyond fits.2
    · exact .inl ⟨_, rfl, rfl, rfl, rfl⟩
    · exact .inl ⟨_, rfl, rfl, rfl, rfl⟩

section Lists
variable (label : Nat → String) {items : List (Value A)}

theorem go_splits (objects : ∀ item ∈ items, ∃ members, item = .object members)
    (position : Nat) :
    listOfWire.go label position items =
      (if items.any exceeds then .error .beyondDoubles
        else .ok ((items.zipIdx position).filterMap (read? label)),
      (items.takeWhile fun item => !exceeds item).filterMap skipped?) := by
  induction items generalizing position with
  | nil => rfl
  | cons item rest ih =>
    obtain ⟨object, objects⟩ := List.forall_mem_cons.mp objects
    unfold listOfWire.go
    rw [List.any_cons, List.takeWhile_cons, List.zipIdx_cons]
    rcases entry_cases (label position) object with ⟨a, read, sound, silent⟩ |
      ⟨fault, unread, ofValue, sound, told⟩ | ⟨unread, exceeded, -⟩
    · have reads : read? label (item, position) = some a := by rw [read?, read]; rfl
      rw [read, ih objects (position + 1), sound, List.filterMap_cons_some reads]
      simp only [Bool.false_or, Bool.not_false, ↓reduceIte, List.filterMap_cons_none silent]
      split <;> rfl
    · have fails : read? label (item, position) = none := by rw [read?, unread]; rfl
      have id : item.get "id" .null = .ok (item.member "id") := by
        obtain ⟨members, rfl⟩ := object
        rfl
      rw [unread, ih objects (position + 1), sound, List.filterMap_cons_none fails]
      simp only [ofValue, id, Bool.false_or, Bool.not_false, ↓reduceIte, List.filterMap_cons, told]
      cases skippedLine? (item.member "id") fault <;> rfl
    · rw [unread, exceeded]
      rfl

theorem go_kept {names : Nat → String} {entries : List (Value A × Nat)}
    (accepted : ∀ e ∈ entries, (read? label e).isSome) {position : Nat}
    (named : ∀ k < entries.length, names (position + k) = label ((entries.map Prod.snd).getD k 0)) :
    listOfWire.go names position (entries.map Prod.fst) =
      (.ok (entries.filterMap (read? label)), []) := by
  induction entries generalizing position with
  | nil => rfl
  | cons entry rest ih =>
    obtain ⟨here, later⟩ := List.forall_mem_cons.mp accepted
    have first : names position = label entry.2 := named 0 (by simp)
    have others : ∀ k < rest.length,
        names (position + 1 + k) = label ((rest.map Prod.snd).getD k 0) := by
      intro k below
      rw [Nat.add_assoc, Nat.add_comm 1 k]
      exact named (k + 1) (by simpa using below)
    obtain ⟨a, reads⟩ := Option.isSome_iff_exists.mp here
    rw [List.map_cons, listOfWire.go, first, List.filterMap_cons_some reads, ih later others]
    unfold read? at reads
    cases read : ofWire (label entry.2) entry.1 with
    | error fault =>
      rw [read] at reads
      cases reads
    | ok b =>
      rw [read] at reads
      cases reads
      rfl

theorem filterMap_kept : (kept label items).filterMap (read? label) =
    items.zipIdx.filterMap (read? label) := by
  rw [kept, List.filterMap_filter]
  refine List.filterMap_congr fun entry _ => ?_
  cases read? label entry <;> rfl

theorem entry_told (entry : Value A × Nat) :
    (∃ a, read? label entry = some a ∧ skipped? entry.1 = none ∧ isNameless entry.1 = false) ∨
    (∃ line, read? label entry = none ∧ skipped? entry.1 = some line ∧
      isNameless entry.1 = false) ∨
    (read? label entry = none ∧ skipped? entry.1 = none ∧ isNameless entry.1 = true) := by
  rw [read?, skipped?, ofWire_label, isNameless]
  cases read : ofWire "" entry.1 with
  | ok a =>
    refine .inl ⟨_, rfl, rfl, ?_⟩
    rw [(Markup.ofWire_names read).1]
    rfl
  | error fault =>
    refine .inr ?_
    simp only [skippedLine?]
    cases (entry.1.member "id").isSpellable with
    | true => exact .inl ⟨_, rfl, rfl, rfl⟩
    | false => exact .inr ⟨rfl, rfl, rfl⟩

theorem entries_counted (items : List (Value A)) (position : Nat) :
    ((items.zipIdx position).filterMap (read? label)).length + (items.filterMap skipped?).length +
      items.countP isNameless = items.length := by
  induction items generalizing position with
  | nil => rfl
  | cons item rest ih =>
    have others := ih (position + 1)
    rw [List.zipIdx_cons, List.length_cons, List.countP_cons]
    rcases entry_told label (item, position) with ⟨a, read, told, named⟩ |
      ⟨line, read, told, named⟩ | ⟨read, told, nameless⟩
    · rw [List.filterMap_cons_some read, List.filterMap_cons_none told, named, List.length_cons]
      simp only [Bool.false_eq_true, ↓reduceIte]
      omega
    · rw [List.filterMap_cons_none read, List.filterMap_cons_some told, named, List.length_cons]
      simp only [Bool.false_eq_true, ↓reduceIte]
      omega
    · rw [List.filterMap_cons_none read, List.filterMap_cons_none told, nameless]
      simp only [↓reduceIte]
      omega

/-- A list of objects.  If a whole number that it looks for is no number, the reading ends there,
    after the lines of the entries before.  Otherwise it gives what the entries that can be
    read are read as, in order, and a line for each of the others but those whose name is too
    long to be written, so that the list without the others is read as the same animations. -/
theorem bad_entries_skipped (label : Nat → String) {items : List (Value A)}
    (objects : ∀ item ∈ items, ∃ members, item = .object members) :
    (∀ item ∈ items, exceeds item = true →
      ¬ ((item.member "repeatCount").Fits ∧ (item.member "rotate").Fits)) ∧
    (items.any exceeds = true → listOfWire label items =
      (.error .beyondDoubles, (items.takeWhile fun item => !exceeds item).filterMap skipped?)) ∧
    (items.any exceeds = false →
      listOfWire label items =
        (.ok (items.zipIdx.filterMap (read? label)), items.filterMap skipped?) ∧
      (items.zipIdx.filterMap (read? label)).length + (items.filterMap skipped?).length +
        items.countP isNameless = items.length ∧
      ∀ names : Nat → String, (∀ k < (kept label items).length,
          names k = label (((kept label items).map Prod.snd).getD k 0)) →
        listOfWire names ((kept label items).map Prod.fst) =
          (.ok (items.zipIdx.filterMap (read? label)), [])) := by
  have splits := go_splits label objects 0
  refine ⟨?_, ?_, ?_⟩
  · intro item member exceeded
    rcases entry_cases "" (objects item member) with ⟨_, _, sound, _⟩ | ⟨_, _, _, sound, _⟩ |
      ⟨_, _, beyond⟩
    · exact absurd (sound.symm.trans exceeded) Bool.false_ne_true
    · exact absurd (sound.symm.trans exceeded) Bool.false_ne_true
    · exact beyond
  · intro some_exceeds
    rw [some_exceeds] at splits
    exact splits
  · intro none_exceeds
    have all : items.takeWhile (fun item => !exceeds item) = items :=
      List.takeWhile_eq_self_iff.mpr fun item member => by
        simpa using List.any_eq_false.mp none_exceeds item member
    rw [none_exceeds, all] at splits
    refine ⟨splits, entries_counted label items 0, fun names named => ?_⟩
    rw [← filterMap_kept]
    refine go_kept label (fun entry member => (List.mem_filter.mp member).2) fun k below => ?_
    rw [Nat.zero_add]
    exact named k below

end Lists

section Instance

def mixedEntries : List (Value .binary64) :=
  [.object [("type", .text "blink"), ("id", .text "first")],
    .object [("type", .text "set"), ("repeatCount", .text "2")],
    .object [("type", .text "set"), ("repeatCount", .list [.int 2])],
    .object [("type", .text "animateMotion"), ("rotate", .bool true)],
    .object [("id", .int 5)],
    .object [("type", .text "set"), ("id", .int (10 ^ Value.mostDigits))]]

theorem mixed_entries_read :
    listOfWire animationLabel mixedEntries =
      (.ok (mixedEntries.zipIdx.filterMap (read? animationLabel)),
        mixedEntries.filterMap skipped?) ∧
    (mixedEntries.zipIdx.filterMap (read? animationLabel)).length +
      (mixedEntries.filterMap skipped?).length + mixedEntries.countP isNameless = 6 ∧
    listOfWire (fun _ => animationLabel 1) ((kept animationLabel mixedEntries).map Prod.fst) =
      (.ok (mixedEntries.zipIdx.filterMap (read? animationLabel)), []) := by
  have objects : ∀ item ∈ mixedEntries, ∃ members, item = .object members := by
    simp [mixedEntries]
  have sound : mixedEntries.any exceeds = false := by decide +kernel
  obtain ⟨read, count, again⟩ := (bad_entries_skipped animationLabel objects).2.2 sound
  have places : (kept animationLabel mixedEntries).map Prod.snd = [1] := by decide +kernel
  refine ⟨read, count, again _ fun k below => ?_⟩
  have alone : (kept animationLabel mixedEntries).length = 1 := by
    rw [← List.length_map Prod.snd, places]
    rfl
  obtain rfl : k = 0 := by omega
  rw [places]
  rfl

example : mixedEntries.filterMap skipped? = [
    ⟨.warning, "smilkit.core.records",
      "Skipping animation 'first': Unsupported animation type: 'blink'"⟩,
    ⟨.warning, "smilkit.core.records", "Skipping animation None: Invalid repeatCount: [2]"⟩,
    ⟨.warning, "smilkit.core.records", "Skipping animation None: Invalid rotate: True"⟩,
    ⟨.warning, "smilkit.core.records", "Skipping animation 5: Missing field: type"⟩] := by
  decide +kernel

def bell : Value .binary64 := .object [("type", .text "set"), ("id", .text "bell")]

def countlessBell : Value .binary64 :=
  .object [("type", .text "set"), ("id", .text "countless"), ("repeatCount", .int (10 ^ 309))]

/-- A repeat count beyond the doubles takes an entry before it along, and no line tells of it. -/
theorem countless_entry_ends_reading :
    (ofWire (animationLabel 0) bell).isOk = true ∧
      listOfWire animationLabel [bell, countlessBell] = (.error .beyondDoubles, []) := by
  have objects : ∀ item ∈ [bell, countlessBell], ∃ members, item = .object members :=
    List.forall_mem_cons.mpr ⟨⟨_, rfl⟩, List.forall_mem_singleton.mpr ⟨_, rfl⟩⟩
  refine ⟨by decide +kernel, ?_⟩
  have splits := go_splits animationLabel objects 0
  have some_exceeds : [bell, countlessBell].any exceeds = true := by decide +kernel
  have silent : ([bell, countlessBell].takeWhile fun item => !exceeds item).filterMap skipped? =
      [] := by decide +kernel
  rw [some_exceeds, silent] at splits
  exact splits

end Instance

end DeclarativeAnimation.Animation
