import DeclarativeAnimation.Proofs.Markup.BatchIsolation
import DeclarativeAnimation.Proofs.Markup.MandatoryParts
import DeclarativeAnimation.Proofs.Service.ReadingFaults
import DeclarativeAnimation.Proofs.Service.SettingsChanges
import DeclarativeAnimation.Proofs.State.Locality

/-! Requests that end well.  What is wrong with a body is found while it is read, and the body is
    rejected for it; after that nothing fails any more, unless the body holds values that are
    only looked at during the work itself. -/
namespace DeclarativeAnimation
variable {A : Arithmetic}

section States
variable {N : Nat} {elements : Elements A}

theorem Elements.Ready.named (ready : elements.Ready N) : elements.Named := by
  cases elements with
  | listed known =>
    intro e member
    obtain ⟨⟨s, name⟩, _⟩ := ready e member
    rw [name]
    rfl
  | _ => trivial

theorem Elements.Ready.shown (ready : elements.Ready N) (id : Value A) :
    ∀ e ∈ (elements.shown id).join, e.Bounded N := by
  intro e seen
  cases elements with
  | all => cases seen
  | named table =>
    cases found : Keyed.get? id table with
    | none => simp [Elements.shown, found] at seen
    | some element =>
      obtain rfl : element = e := by simpa [Elements.shown, found] using seen
      exact Keyed.of_get? (P := Element.Bounded N) ready found
  | listed known =>
    cases found : known.reverse.find? (·.id == id) with
    | none => simp [Elements.shown, found] at seen
    | some element =>
      obtain rfl : element = e := by simpa [Elements.shown, found] using seen
      exact (ready element (List.mem_reverse.mp (List.mem_of_find?_eq_some found))).2

theorem allStates_answers {animations : List (Animation A)} {resolver : MotionResolver A}
    {time : Number A} {M : Nat} (readable : ∀ a ∈ animations, a.IsReadable)
    (reach : ∀ a ∈ animations, a.InReach N M time) (ready : elements.Ready N)
    (resolves : resolver.Answers) (room : stateBound animations.length M N ≤ Value.mostWhole) :
    ∃ states, allStates animations elements resolver time = .ok states := by
  have named : ∀ a ∈ animations, a.target.IsName := by
    intro a member
    obtain ⟨s, name⟩ := (readable a member).target
    rw [name]
    rfl
  have every : PartOf animations animations.length animations :=
    ⟨fun a member => member, Nat.le_refl _⟩
  have each := Answers.mapM (shownTargets animations elements) (R := fun _ => True)
    (f := fun id => do return (id, ← stateOf animations elements resolver time id))
    fun id _ => by
      obtain ⟨state, found⟩ :=
        ofAnimations_readable readable reach resolves room every (ready.shown id) id
      unfold stateOf
      rw [found]
      exact .ok trivial
  obtain ⟨states, found, -⟩ := each
  exact ⟨states, by rw [allStates_eq resolver time ready.named named, found]⟩

end States

namespace Service
variable {settings : Settings} {body : Body A}

/-- There is a result where the condition holds, and where it does not the body is rejected. -/
def Decided {α : Type} (accepted : Prop) (outcome : Except Refusal α) : Prop :=
  (accepted ∧ ∃ v, outcome = .ok v) ∨
    (¬ accepted ∧ ∃ rejection, outcome = .error (.rejected rejection))

theorem decided_of {α : Type} {accepted : Prop} {outcome : Except Refusal α}
    (taken : accepted → ∃ v, outcome = .ok v)
    (refused : ¬ accepted → ∃ rejection, outcome = .error (.rejected rejection)) :
    Decided accepted outcome := by
  by_cases holds : accepted
  · exact Or.inl ⟨holds, taken holds⟩
  · exact Or.inr ⟨holds, refused holds⟩

section Compilation
variable {options : Markup.Options A} {sources : List (Markup.Source A)}

theorem compileAll_answers (formed : ∀ s ∈ sources, s.IsObjectOrTargeted)
    (writable : ∀ s ∈ sources, s.IsWritable options) (precise : options.IsPrecise) :
    ∃ batch log, Markup.compileAll sources options = (.ok batch, log) := by
  obtain ⟨groups, grouped, perm⟩ :=
    Markup.groups_perm formed fun s member => (writable s member).2.1
  have settled : ∀ s ∈ groups.flatMap (·.2), s.Settles options := by
    intro s member
    have listed := perm.mem_iff.mp member
    exact Markup.Source.settles (formed s listed) (writable s listed) precise
  obtain ⟨batch, done, _⟩ := Markup.compileEach_settled settled
  exact ⟨batch, _, by rw [Markup.compileAll, grouped]; exact done⟩

theorem compileOptions_precise (valid : settings.precision ≤ Settings.mostPrecision) :
    (settings.compileOptions : Markup.Options A).IsPrecise := by
  refine ⟨settings.precision, rfl, by omega, ?_⟩
  unfold Settings.mostPrecision at valid
  have room : (10 : Int) ≤ Markup.mostPlaces := by decide
  omega

theorem isObject_wire {item : Value A} (object : isObject item = true) :
    (Markup.Source.wire item).IsObjectOrTargeted := by
  cases item with
  | object members => exact ⟨members, rfl⟩
  | _ => cases object

theorem compile_decided (valid : settings.precision ≤ Settings.mostPrecision)
    (writable : ∀ items, body.lookup "animations" = some (.list items) → ∀ item ∈ items,
      (Markup.Source.wire item).IsWritable settings.compileOptions) :
    Decided (∃ items, list body "animations" = .ok items ∧ items.all isObject = true)
      (compile settings body).1 := by
  unfold compile
  apply decided_of
  · rintro ⟨items, read, objects⟩
    have formed : ∀ s ∈ items.map Markup.Source.wire, s.IsObjectOrTargeted := by
      intro s member
      obtain ⟨item, listed, rfl⟩ := List.mem_map.mp member
      exact isObject_wire (List.all_eq_true.mp objects item listed)
    have written : ∀ s ∈ items.map Markup.Source.wire, s.IsWritable settings.compileOptions := by
      intro s member
      obtain ⟨item, inside, rfl⟩ := List.mem_map.mp member
      obtain ⟨listed, there, inside⟩ := mem_of_list read inside
      exact writable listed there item inside
    obtain ⟨batch, log, done⟩ := compileAll_answers formed written (compileOptions_precise valid)
    rw [read]
    dsimp only
    rw [if_pos objects, done]
    exact ⟨_, rfl⟩
  · intro other
    rcases list_answered body "animations" with ⟨items, read⟩ | ⟨rejection, read⟩
    · rw [read]
      dsimp only
      split
      · rename_i objects
        exact absurd ⟨items, read, objects⟩ other
      · exact ⟨_, rfl⟩
    · rw [read]
      exact ⟨_, rfl⟩

end Compilation

section Validation

theorem validate_decided
    (checkable : ∀ data, body.lookup "animation" = some data → (Markup.Source.wire data).Fits ∧
      ∀ a, (Markup.Source.wire data).animation = .ok a → a.track.IsListed) :
    Decided (isObject ((body.lookup "animation").getD .null) = true) (validate body) := by
  unfold validate
  apply decided_of
  · intro object
    dsimp only
    rw [if_pos object]
    cases found : body.lookup "animation" with
    | none =>
      rw [found] at object
      cases object
    | some data =>
      rw [found, Option.getD_some] at object
      obtain ⟨fits, listed⟩ := checkable data found
      obtain ⟨complaints, answered⟩ :=
        Markup.complaints_answers (isObject_wire object) fits listed
      rw [Option.getD_some, answered]
      exact ⟨_, rfl⟩
  · intro other
    dsimp only
    rw [if_neg other]
    exact ⟨_, rfl⟩

end Validation

section Scenes

/-- What a scene has to be like, apart from what all scenes are like that have been read: its
    animations hold no whole number that is too long to be written, they name attributes by text,
    their times are among the numbers, and, moved by their chains, they can be evaluated at the
    time of the scene. -/
structure Scene.IsEvaluable (scene : Scene A) : Prop where
  texts : ∀ a ∈ scene.animations, a.IsSpellable
  subjects : ∀ a ∈ scene.animations, a.subject.IsPlain
  schedules : ∀ a ∈ scene.animations, a.schedule.Fits
  reach : ∃ N M, scene.elements.Ready N ∧
    stateBound scene.animations.length M N ≤ Value.mostWhole ∧
    ∀ moved, Animation.withChains scene.animations scene.chains = .ok moved →
      ∀ a ∈ moved, a.InReach N M scene.time

theorem Scene.states_answers {scene : Scene A} (read : scene.IsRead)
    (evaluable : scene.IsEvaluable) : ∃ states, scene.states = .ok states := by
  have readable : ∀ a ∈ scene.animations, a.IsReadable := by
    intro a member
    have own := read.animations a member
    exact ⟨own.target, evaluable.subjects a member, evaluable.schedules a member, own.count⟩
  obtain ⟨N, M, ready, room, reach⟩ := evaluable.reach
  obtain ⟨moved, chained, many, still⟩ := Animation.withChains_answers readable
    (fun a member => (read.animations a member).id) read.chains
  rw [← many] at room
  obtain ⟨states, found⟩ :=
    allStates_answers still (reach moved chained) ready originPlacement_answers room
  unfold Scene.states
  rw [chained]
  dsimp only [bind, Except.bind]
  rw [found]
  exact ⟨_, rfl⟩

theorem states_decided (readable : Body.IsReadable body)
    (evaluable : ∀ read, (scene body).1 = .ok read → read.IsEvaluable) :
    Decided (∃ read, (scene body).1 = .ok read) (states body).1 := by
  unfold states
  apply decided_of
  · rintro ⟨read, done⟩
    obtain ⟨found, answered⟩ := Scene.states_answers (scene_isRead done) (evaluable read done)
    dsimp only
    rw [done]
    dsimp only [bind, Except.bind]
    rw [answered]
    exact ⟨found, rfl⟩
  · intro other
    rcases scene_answered readable with done | ⟨rejection, unread⟩
    · exact absurd done other
    · dsimp only
      rw [unread]
      exact ⟨rejection, rfl⟩

end Scenes

section Changes

theorem patched_answered {response : Response A} (patched : settings.Patched body response) :
    Answered response.outcome := by
  cases patched with
  | nothing absent => exact Or.inr ⟨_, rfl⟩
  | quality refused => exact Or.inr ⟨_, rfl⟩
  | precision first refused => exact Or.inr ⟨_, rfl⟩
  | optimize first second refused => exact Or.inr ⟨_, rfl⟩
  | all present first second third => exact Or.inl ⟨_, rfl⟩

theorem changes_decided (settings : Settings)
    (finite : ∀ negative, body.lookup "precision" ≠ some (.number (.infinite negative))) :
    Decided ((∃ name ∈ ["quality", "precision", "optimize"], (body.lookup name).isSome) ∧
      (applyChanges body changes settings).1 = .ok ()) (changeSettings settings body).outcome := by
  have answered := patched_answered (Settings.changeSettings_patched (s := settings) finite)
  apply decided_of
  · rintro ⟨present, changed⟩
    rw [changeSettings_of_some present]
    dsimp only
    rw [changed]
    exact ⟨_, rfl⟩
  · intro other
    rcases answered with ⟨v, done⟩ | rejected
    · exfalso
      apply other
      by_cases present : ∃ name ∈ ["quality", "precision", "optimize"], (body.lookup name).isSome
      · refine ⟨present, ?_⟩
        rw [changeSettings_of_some present] at done
        cases changed : (applyChanges body changes settings).1 with
        | ok _ => rfl
        | error fault =>
          rw [changed] at done
          cases done
      · rw [changeSettings_of_none (absent_of_not_present present)] at done
        cases done
    · exact rejected

end Changes

/-- What an endpoint relies on in a body without looking for it before the work begins. -/
def Relied (settings : Settings) (body : Body A) : Endpoint → Prop
  | .compile => ∀ items, body.lookup "animations" = some (.list items) → ∀ item ∈ items,
      (Markup.Source.wire item).IsWritable settings.compileOptions
  | .validate => ∀ data, body.lookup "animation" = some data → (Markup.Source.wire data).Fits ∧
      ∀ a, (Markup.Source.wire data).animation = .ok a → a.track.IsListed
  | .states => Body.IsReadable body ∧ ∀ read, (scene body).1 = .ok read → read.IsEvaluable
  | .changeSettings => ∀ negative, body.lookup "precision" ≠ some (.number (.infinite negative))
  | .health | .readSettings | .qualities => True

/-- What an endpoint asks of a body and looks for. -/
def Asked (settings : Settings) (body : Body A) : Endpoint → Prop
  | .compile => ∃ items, list body "animations" = .ok items ∧ items.all isObject = true
  | .validate => isObject ((body.lookup "animation").getD .null) = true
  | .states => ∃ read, (scene body).1 = .ok read
  | .changeSettings => (∃ name ∈ ["quality", "precision", "optimize"], (body.lookup name).isSome) ∧
      (applyChanges body changes settings).1 = .ok ()
  | .health | .readSettings | .qualities => True

/-- Whatever has been asked of the settings before, a request has a result if its body brings what
    the endpoint asks for, and its body is rejected if not. -/
theorem bodies_answered_or_rejected (environment : String)
    (requests : List (Settings.Request A)) (endpoint : Endpoint) (body : Body A) :
    ∃ first, (Settings.initial environment).1 = .ok first ∧
      (Relied (first.after requests) body endpoint →
        Decided (Asked (first.after requests) body endpoint)
          (handle (first.after requests) endpoint body).outcome) := by
  obtain ⟨first, started, valid⟩ := Settings.initial_answers environment
  refine ⟨first, started, ?_⟩
  intro relied
  cases endpoint with
  | health => exact Or.inl ⟨trivial, _, rfl⟩
  | readSettings => exact Or.inl ⟨trivial, _, rfl⟩
  | qualities => exact Or.inl ⟨trivial, _, rfl⟩
  | changeSettings =>
    have decided := changes_decided (first.after requests) relied
    exact decided
  | compile => exact compile_decided (Settings.after_valid valid requests) relied
  | validate => exact validate_decided relied
  | states => exact states_decided relied.1 relied.2

section Instance

def parade : Body .binary64 :=
  [("time", .number 2), ("elements", .null),
    ("animations", .list [.object [("type", .text "set"), ("id", .text "sign"),
      ("targetElementId", .text "box"), ("attributeName", .text "display"),
      ("to", .text "inline")]]),
    ("chains", .list [.object [("id", .text "walk"), ("animations", .list [.object
      [("animationId", .text "sign"), ("delay", .number 1)]])]])]

def sign : Animation .binary64 :=
  { id := .text "sign", target := .text "box", subject := .set (.text "display")
    track := { goal := .text "inline" } }

theorem sign_inReach (begin : Value .binary64) :
    { sign with schedule := { sign.schedule with begin := begin } }.InReach 0 0 2 where
  ends := ⟨rfl, rfl⟩
  track :=
    { texts := ⟨rfl, rfl, rfl⟩, values := Nat.zero_le _, keyTimes := Nat.zero_le _
      bounded := fun _ _ times read => by cases read
      curves := fun spline => by cases spline }
  countable := by
    intro _ dur _ _ lasts _ _ running
    have none : sign.schedule.durSeconds = .ok 0 := by decide +kernel
    have lasts : sign.schedule.durSeconds = .ok dur := lasts
    rw [none] at lasts
    cases lasts
    exact absurd (by decide +kernel) running
  runs := fun accumulating => by cases accumulating

theorem parade_evaluable {read : Scene .binary64} (done : (scene parade).1 = .ok read) :
    read.IsEvaluable := by
  have only {P : Animation .binary64 → Prop} (holds : P sign) : ∀ a ∈ [sign], P a := by
    intro a member
    cases List.mem_singleton.mp member
    exact holds
  cases done
  constructor
  · exact only (by decide +kernel)
  · exact only (Or.inr ⟨"display", rfl⟩)
  · apply only
    constructor <;> intro n same <;> cases same
  · refine ⟨0, 0, ?_, by decide +kernel, ?_⟩
    · intro e member
      cases member
    · intro moved chained a member
      obtain ⟨b, inside, begin, rfl⟩ := mem_of_forall₂ (Animation.withChains_begins chained) member
      exact only (P := fun b => Animation.InReach 0 0 2
        { b with schedule := { b.schedule with begin := begin } }) (sign_inReach begin) b inside

theorem parade_relied (settings : Settings) (endpoint : Endpoint)
    (posted : endpoint ∈ [Endpoint.compile, .validate, .states]) :
    Relied settings parade endpoint := by
  have fits : ∀ items, parade.lookup "animations" = some (.list items) → ∀ item ∈ items,
      (Markup.Source.wire item).Fits := by
    intro items found item member
    cases found
    cases List.mem_singleton.mp member
    exact ⟨fun n same => (by cases same), fun n same => (by cases same)⟩
  simp only [List.mem_cons, List.not_mem_nil, or_false] at posted
  rcases posted with rfl | rfl | rfl
  · intro items found item member
    have fit := fits items found item member
    cases found
    cases List.mem_singleton.mp member
    refine ⟨fit, ⟨rfl, rfl⟩, fun animation read => ?_⟩
    cases read
    exact ⟨by decide +kernel, fun n same => by cases same⟩
  · intro data found
    cases found
  · refine ⟨⟨fun n same => (by cases same), fits, ?_⟩, fun read done => parade_evaluable done⟩
    intro items found chain member entries listed entry inside
    cases found
    cases List.mem_singleton.mp member
    cases listed
    cases List.mem_singleton.mp inside
    intro n same
    cases same

def finishing : List (Settings.Request .binary64) := [.quality (.text "final"), .precision (.int 2)]

theorem parade_answered :
    (Settings.initial "3").1 = .ok { precision := 3 } ∧
    (∀ endpoint ∈ [Endpoint.compile, .validate, .states],
      Relied (Settings.after { precision := 3 } finishing) parade endpoint) ∧
    (∃ v, (handle (Settings.after { precision := 3 } finishing) .compile parade).outcome = .ok v) ∧
    (∃ v, (handle (Settings.after { precision := 3 } finishing) .states parade).outcome = .ok v) ∧
    ∃ rejection, (handle (Settings.after { precision := 3 } finishing) .validate parade).outcome =
      .error (.rejected rejection) := by
  have start : (Settings.initial "3").1 = .ok { precision := 3 } := by decide +kernel
  have relied := parade_relied (Settings.after { precision := 3 } finishing)
  have decided : ∀ endpoint ∈ [Endpoint.compile, .validate, .states],
      Decided (Asked (Settings.after { precision := 3 } finishing) parade endpoint)
        (handle (Settings.after { precision := 3 } finishing) endpoint parade).outcome := by
    intro endpoint posted
    obtain ⟨first, started, decided⟩ := bodies_answered_or_rejected "3" finishing endpoint parade
    obtain rfl : first = { precision := 3 } := Except.ok.inj (started.symm.trans start)
    exact decided (relied endpoint posted)
  refine ⟨start, relied, ?_, ?_, ?_⟩
  · rcases decided .compile (by simp) with ⟨_, written⟩ | ⟨other, _⟩
    · exact written
    · exact absurd ⟨_, rfl, rfl⟩ other
  · rcases decided .states (by simp) with ⟨_, shown⟩ | ⟨other, _⟩
    · exact shown
    · exact absurd ⟨_, rfl⟩ other
  · rcases decided .validate (by simp) with ⟨asked, _⟩ | ⟨_, rejected⟩
    · cases asked
    · exact rejected

def numberedPath : Body .binary64 :=
  [("animations", .list [.object [("type", .text "motion-animate"), ("id", .text "drift"),
    ("targetElementId", .text "box"), ("path", .int 5)]])]

def numberedValues : Body .binary64 :=
  [("animation", .object [("type", .text "animate"), ("targetElementId", .text "box"),
    ("attributeName", .text "x"), ("values", .int 5)])]

/-- Values of a type that nobody asked for come to light when the work has begun. -/
theorem numbered_texts_fail :
    (handle {} .compile numberedPath).outcome = .error (.failed .wrongArguments) ∧
      ¬ Answered (handle {} .compile numberedPath).outcome ∧
      (handle {} .validate numberedValues).outcome = .error (.failed (.noMember "int" "split")) ∧
      ¬ Answered (handle {} .validate numberedValues).outcome := by
  have unanswered {fault : Fault} {outcome : Except Refusal (Value .binary64)}
      (failed : outcome = .error (.failed fault)) : ¬ Answered outcome := by
    rintro (⟨v, done⟩ | ⟨rejection, done⟩)
    · rw [failed] at done
      cases done
    · rw [failed] at done
      cases done
  have path : (handle {} .compile numberedPath).outcome = .error (.failed .wrongArguments) := rfl
  have values : (handle {} .validate numberedValues).outcome =
      .error (.failed (.noMember "int" "split")) := rfl
  exact ⟨path, unanswered path, values, unanswered values⟩

end Instance

end Service
end DeclarativeAnimation
