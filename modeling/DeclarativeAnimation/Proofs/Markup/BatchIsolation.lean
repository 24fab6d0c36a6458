import DeclarativeAnimation.Proofs.Markup.CompleteMarkup
import DeclarativeAnimation.Proofs.Value.Grouping

/-! Batches.  Sources are written target by target, and each of them as if it were alone: it
    gives its element, or a warning that names it. -/
namespace DeclarativeAnimation

namespace Markup
variable {A : Arithmetic} {options : Options A}

namespace Source

def markup? (options : Options A) (source : Source A) : Option String :=
  (source.compile options).toOption

def warning? (options : Options A) (source : Source A) : Option String :=
  match source.compile options with
  | .error fault => (source.warning fault).toOption
  | .ok _ => none

/-- The source is written, or it is refused for what it lacks. -/
def Settles (options : Options A) (source : Source A) : Prop :=
  (∃ element, source.compile options = .ok element) ∨
    ∃ fault text, source.compile options = .error fault ∧ fault.category = .compile ∧
      source.warning fault = .ok text

end Source

section Batch
variable {source : Source A} {sources : List (Source A)}

theorem Source.settles_of_animation {a : Animation A} (read : source.animation = .ok a)
    (told : ∀ fault, ∃ text, source.warning fault = .ok text) (writable : a.IsWritable options)
    (precise : options.IsPrecise) : source.Settles options := by
  have same := Source.compile_read options read
  rcases ofAnimation_settles writable precise with ⟨text, done⟩ | ⟨fault, refused, category⟩
  · exact Or.inl ⟨text, by rw [same, done]⟩
  · obtain ⟨text, warned⟩ := told fault
    exact Or.inr ⟨fault, text, by rw [same, refused], category, warned⟩

theorem Source.settles (formed : source.IsObjectOrTargeted) (writable : source.IsWritable options)
    (precise : options.IsPrecise) : source.Settles options := by
  obtain ⟨fits, named, writable⟩ := writable
  cases read : source.animation with
  | ok animation =>
    exact Source.settles_of_animation read (Source.warning_answers formed named)
      (writable animation read) precise
  | error fault =>
    have refused : source.compile options = .error fault := by
      rw [Source.compile, read]
      rfl
    obtain ⟨text, told⟩ := Source.warning_answers formed named fault
    exact Or.inr ⟨fault, text, refused, Source.animation_fault formed fits read, told⟩

theorem compileEach_settled (settled : ∀ s ∈ sources, s.Settles options) :
    ∃ batch, compileEach options sources = (.ok batch, batch.warnings.map warningLine) ∧
      batch.elements = sources.filterMap (·.markup? options) ∧
      batch.warnings = sources.filterMap (·.warning? options) ∧
      batch.elements.length + batch.warnings.length = sources.length := by
  induction sources with
  | nil => exact ⟨{}, rfl, rfl, rfl, rfl⟩
  | cons source rest ih =>
    obtain ⟨here, later⟩ := List.forall_mem_cons.mp settled
    obtain ⟨batch, done, elements, warnings, count⟩ := ih later
    rcases here with ⟨element, written⟩ | ⟨fault, text, refused, category, warned⟩
    · have shown : source.markup? options = some element := by
        rw [Source.markup?, written]
        rfl
      have silent : source.warning? options = none := by
        rw [Source.warning?, written]
      refine ⟨{ batch with elements := element :: batch.elements }, ?_, ?_, ?_, ?_⟩
      · simp only [compileEach, written, done]
        rfl
      · rw [List.filterMap_cons_some shown, elements]
      · rw [List.filterMap_cons_none silent, warnings]
      · simp only [List.length_cons]
        omega
    · have hidden : source.markup? options = none := by
        rw [Source.markup?, refused]
        rfl
      have told : source.warning? options = some text := by
        rw [Source.warning?, refused]
        dsimp only
        rw [warned]
        rfl
      refine ⟨{ batch with warnings := text :: batch.warnings }, ?_, ?_, ?_, ?_⟩
      · simp only [compileEach, refused, category, ↓reduceIte, warned, done]
        rfl
      · rw [List.filterMap_cons_none hidden, elements]
      · rw [List.filterMap_cons_some told, warnings]
      · simp only [List.length_cons]
        omega

theorem groups_perm (formed : ∀ s ∈ sources, s.IsObjectOrTargeted)
    (named : ∀ s ∈ sources, s.HasNames) :
    ∃ found, groups sources = .ok found ∧ (found.flatMap (·.2)).Perm sources := by
  obtain ⟨found, grouped⟩ := grouping_answers [] fun s member =>
    Source.target_answers (formed s member) (named s member)
  exact ⟨found, grouped, grouping_perm grouped⟩

theorem compileEach_congr {α : Type} {f g : α → Source A} {items : List α}
    (compile : ∀ a ∈ items, (f a).compile options = (g a).compile options)
    (id : ∀ a ∈ items, (f a).id = (g a).id) :
    compileEach options (items.map f) = compileEach options (items.map g) := by
  induction items with
  | nil => rfl
  | cons a rest ih =>
    obtain ⟨written, others⟩ := List.forall_mem_cons.mp compile
    obtain ⟨named, names⟩ := List.forall_mem_cons.mp id
    simp only [List.map_cons, compileEach, written, Source.warning, named, ih others names]

theorem compileAll_congr {α : Type} {f g : α → Source A} {items : List α}
    (target : ∀ a ∈ items, (f a).target = (g a).target)
    (compile : ∀ a ∈ items, (f a).compile options = (g a).compile options)
    (id : ∀ a ∈ items, (f a).id = (g a).id) :
    compileAll (items.map f) options = compileAll (items.map g) options := by
  have first : groups (items.map f) =
      (grouping (fun a => (g a).target) items []).map (regroup f) :=
    grouping_map [] f target
  have second : groups (items.map g) =
      (grouping (fun a => (g a).target) items []).map (regroup g) :=
    grouping_map [] g fun _ _ => rfl
  unfold compileAll
  rw [first, second]
  cases grouped : grouping (fun a => (g a).target) items [] with
  | error fault => rfl
  | ok table =>
    have inside {a : α} : a ∈ table.flatMap (·.2) ↔ a ∈ items := (grouping_perm grouped).mem_iff
    show compileEach options ((regroup f table).flatMap (·.2)) =
      compileEach options ((regroup g table).flatMap (·.2))
    rw [regroup_items, regroup_items]
    exact compileEach_congr (fun a member => compile a (inside.mp member))
      fun a member => id a (inside.mp member)

theorem compileAll_named {α : Type} {f : α → Source A} {items : List α} (name : α → Value A)
    (keyed : ∀ a ∈ items, (f a).target = .ok (name a)) :
    compileAll (items.map f) options =
      compileEach options (((items.foldl (joined name) []).flatMap (·.2)).map f) := by
  have grouped : groups (items.map f) =
      (grouping (fun a => .ok (name a)) items []).map (regroup f) := grouping_map [] f keyed
  rw [grouping_joined name (fun _ _ => rfl)] at grouped
  unfold compileAll
  rw [grouped, ← regroup_items]
  rfl

/-- A batch that nothing ends has the elements and the warnings of its groups in order. -/
theorem compileAll_settled {α : Type} {f : α → Source A} {items : List α} (name : α → Value A)
    (keyed : ∀ a ∈ items, (f a).target = .ok (name a))
    (settled : ∀ a ∈ items, (f a).Settles options) :
    let grouped := (items.foldl (joined name) []).flatMap (·.2)
    ∃ batch, compileAll (items.map f) options = (.ok batch, batch.warnings.map warningLine) ∧
      batch.elements = grouped.filterMap (fun a => (f a).markup? options) ∧
      batch.warnings = grouped.filterMap (fun a => (f a).warning? options) ∧
      batch.elements.length + batch.warnings.length = items.length := by
  intro grouped
  have perm : grouped.Perm items := joined_perm name
  have each : ∀ s ∈ grouped.map f, s.Settles options := by
    intro s member
    obtain ⟨a, listed, rfl⟩ := List.mem_map.mp member
    exact settled a (perm.mem_iff.mp listed)
  obtain ⟨batch, done, elements, warnings, count⟩ := compileEach_settled each
  rw [List.filterMap_map] at elements warnings
  rw [List.length_map, perm.length_eq] at count
  exact ⟨batch, (compileAll_named name keyed).trans done, elements, warnings, count⟩

/-- A batch of sources.  It does not fail; every source that is written when it is alone has its
    element, every other one has its warning, and there is nothing else. -/
theorem batch_isolates_failures (formed : ∀ s ∈ sources, s.IsObjectOrTargeted)
    (writable : ∀ s ∈ sources, s.IsWritable options) (precise : options.IsPrecise) :
    ∃ batch, compileAll sources options = (.ok batch, batch.warnings.map warningLine) ∧
      batch.elements.Perm (sources.filterMap (·.markup? options)) ∧
      batch.warnings.Perm (sources.filterMap (·.warning? options)) ∧
      batch.elements.length + batch.warnings.length = sources.length := by
  obtain ⟨found, grouped, perm⟩ := groups_perm formed fun s member => (writable s member).2.1
  have settled : ∀ s ∈ found.flatMap (·.2), s.Settles options := by
    intro s member
    have listed := perm.mem_iff.mp member
    exact Source.settles (formed s listed) (writable s listed) precise
  obtain ⟨batch, done, elements, warnings, count⟩ := compileEach_settled settled
  refine ⟨batch, ?_, ?_, ?_, ?_⟩
  · rw [compileAll, grouped]
    exact done
  · rw [elements]
    exact perm.filterMap _
  · rw [warnings]
    exact perm.filterMap _
  · rw [count]
    exact perm.length_eq

end Batch

section Instance

def aimless : Source .binary64 :=
  .wire (.object [("type", .text "motion-animate"), ("id", .text "drift"),
    ("targetElementId", .text "box"), ("rotate", .text "auto")])

def vanish : Animation .binary64 :=
  { id := .text "vanish", target := .text "box", subject := .set (.text "visibility")
    schedule := { begin := .text "2s" }
    track := { goal := .text "hidden" } }

theorem aimless_writable : aimless.IsWritable {} := by
  refine ⟨⟨fun n same => (by cases same), fun n same => (by cases same)⟩, ⟨rfl, rfl⟩, ?_⟩
  intro animation read
  cases read
  exact ⟨by decide +kernel, fun n same => (by cases same), fun _ drawn => by cases drawn⟩

theorem aimless_motion_isolated :
    ∃ batch, compileAll [aimless, .read vanish] {} = (.ok batch, batch.warnings.map warningLine) ∧
      batch.elements.Perm ([aimless, .read vanish].filterMap (·.markup? {})) ∧
      batch.warnings.Perm ([aimless, .read vanish].filterMap (·.warning? {})) ∧
      batch.elements.length + batch.warnings.length = 2 := by
  refine batch_isolates_failures ?_ ?_ ⟨4, rfl, by decide, by decide⟩
  · intro source member
    rcases List.mem_cons.mp member with rfl | last
    · exact ⟨_, rfl⟩
    · cases List.mem_singleton.mp last
      exact ⟨"box", rfl⟩
  · intro source member
    rcases List.mem_cons.mp member with rfl | last
    · exact aimless_writable
    · cases List.mem_singleton.mp last
      refine ⟨trivial, rfl, fun animation read => ?_⟩
      cases read
      exact ⟨by decide +kernel, fun n same => by cases same⟩

example : [aimless, .read vanish].filterMap (·.markup? {}) =
    ["<set attributeName=\"visibility\" to=\"hidden\" begin=\"2s\"/>"] := by
  decide +kernel

def numbered : Source .binary64 :=
  .wire (.object [("type", .text "motion-animate"), ("id", .text "drift"),
    ("targetElementId", .text "box"), ("path", .int 5)])

/-- A path that is no text ends the batch, with the elements of the others in it. -/
theorem numbered_path_ends_batch :
    numbered.IsObjectOrTargeted ∧
      (Source.read vanish).compile {} =
        .ok "<set attributeName=\"visibility\" to=\"hidden\" begin=\"2s\"/>" ∧
      compileAll [numbered, .read vanish] {} = (.error .wrongArguments, []) :=
  ⟨⟨_, rfl⟩, by decide +kernel, by decide +kernel⟩

end Instance

end Markup
end DeclarativeAnimation
