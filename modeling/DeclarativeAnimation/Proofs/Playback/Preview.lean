import DeclarativeAnimation.Proofs.Playback.Telling
import DeclarativeAnimation.Proofs.State.Locality
import DeclarativeAnimation.Service

/-! Previews of a document.  Whatever makes a player take a snapshot, its states are those of the
    data that it was given last, and those that the service gives for them. -/
namespace DeclarativeAnimation
variable {A : Arithmetic}

structure Document (A : Arithmetic) where
  animations : List (Animation A) := []
  elements : Elements A := .all
  chains : List (Chain A) := []

namespace Document

def states (d : Document A) (resolver : MotionResolver A) (time : Number A) :
    Except Fault (List (Value A × ElementState A)) := do
  allStates (← Animation.withChains d.animations d.chains) d.elements resolver time

/-- Data that cannot be prepared leave the document as it is. -/
def stepped (d : Document A) : Step A → Document A
  | .command (.setData animations elements chains) =>
    if (Player.prepared animations elements chains).toBool then ⟨animations, elements, chains⟩
    else d
  | _ => d

def after (d : Document A) (steps : List (Step A)) : Document A := steps.foldl stepped d

theorem states_of_prepared {d : Document A} {data : List (Animation A) × Elements A}
    {resolver : MotionResolver A} {time : Number A}
    (prepared : Player.prepared d.animations d.elements d.chains = .ok data) :
    allStates data.1 data.2 resolver time = d.states resolver time := by
  obtain ⟨animations, chained, prepared⟩ := bind_eq_ok prepared
  obtain ⟨table, made, prepared⟩ := bind_eq_ok prepared
  cases prepared
  have same : (table.elim .all .named : Elements A).table? = d.elements.table? := by
    rw [made]
    cases table <;> rfl
  unfold states allStates
  rw [chained, same]
  rfl

end Document

theorem Element.ofWire_named {data : Value A} {element : Element A}
    (read : Element.ofWire data = .ok element) : element.id.IsName := by
  obtain ⟨id, found, read⟩ := bind_eq_ok read
  obtain ⟨text, _, read⟩ := bind_eq_ok read
  dsimp only at read
  split at read
  · cases read
  · obtain ⟨payload, _, read⟩ := bind_eq_ok read
    split at read
    · obtain ⟨type, _, read⟩ := bind_eq_ok read
      obtain ⟨name, _, read⟩ := bind_eq_ok read
      cases read
      rfl
    · cases read

namespace Service
variable {body : Body A} {scene : Scene A} {log : List LogLine}

theorem scene_named (read : Service.scene body = (.ok scene, log)) : scene.elements.Named := by
  simp only [Service.scene] at read
  split at read
  · cases read
  · rename_i animations elements chains _
    split at read
    · cases read
    · obtain ⟨read, _⟩ := Prod.mk.inj read
      obtain ⟨animations, _, read⟩ := bind_eq_ok (mapError_eq_ok read)
      cases elements with
      | none =>
        obtain ⟨shown, listed, read⟩ := bind_eq_ok read
        obtain ⟨chains, _, read⟩ := bind_eq_ok read
        cases read
        cases listed
        trivial
      | some items =>
        obtain ⟨shown, listed, read⟩ := bind_eq_ok read
        obtain ⟨chains, _, read⟩ := bind_eq_ok read
        cases read
        cases found : items.mapM Element.ofWire with
        | error fault =>
          rw [found] at listed
          cases listed
        | ok known =>
          rw [found] at listed
          cases listed
          intro e member
          obtain ⟨item, _, made⟩ := mem_of_forall₂ (forall₂_of_ok found) member
          exact Element.ofWire_named made

/-- A body that describes the scene of a document is answered with the states of that document. -/
theorem states_of_document {d : Document A} {states : List (Value A × ElementState A)}
    (read : Service.scene body = (.ok scene, log)) (animations : scene.animations = d.animations)
    (elements : ∀ id, scene.elements.shown id = d.elements.shown id)
    (chains : scene.chains = d.chains)
    (evaluated : d.states originPlacement scene.time = .ok states) :
    Service.states body = (.ok (statesToWire scene.time states), log) := by
  obtain ⟨chained, moved, evaluated⟩ := bind_eq_ok evaluated
  have found := allStates_congr (scene_named read) elements evaluated
  have answered : scene.states = .ok (statesToWire scene.time states) := by
    unfold Scene.states
    rw [animations, chains, moved]
    simp only [bind, Except.bind, found]
    rfl
  have passed : Service.states body = (scene.states.mapError .failed, log) := by
    rw [Service.states, read]
    rfl
  rw [passed, answered]
  rfl

end Service

namespace Player
variable {p q : Player A}

/-- The player shows a document, and the snapshot it holds is the latest one. -/
structure Previews (resolver : MotionResolver A) (d : Document A) (latest : Snapshot A)
    (p : Player A) : Prop where
  quiet : p.Quiet
  resolver_eq : p.disposed = false → p.resolver = resolver
  states : p.disposed = false → ∀ time,
    allStates p.animations p.elements p.resolver time = d.states resolver time
  snapshot : p.disposed = false → p.snapshot = latest

variable {resolver : MotionResolver A} {d : Document A} {latest : Snapshot A}

theorem Previews.tells {told : List (Snapshot A)} {closing : Bool}
    (kept : Previews resolver d latest p) (tells : p.Tells told closing q) :
    (∀ s ∈ told, d.states resolver s.time = .ok s.states) ∧
      Previews resolver d (told.getLast?.getD latest) q := by
  refine ⟨?_, tells.quiet kept.quiet, ?_, ?_, ?_⟩
  · rintro ⟨time, held⟩ member
    obtain ⟨live, computed⟩ := tells.computed ⟨time, held⟩ member
    obtain ⟨states, evaluated, made⟩ := bind_eq_ok computed
    cases made
    rw [← kept.states live, evaluated]
  · intro live
    obtain ⟨start, _, _, resolver, _⟩ := tells.live live
    exact resolver.trans (kept.resolver_eq start)
  · intro live time
    obtain ⟨start, animations, elements, resolver, _⟩ := tells.live live
    rw [animations, elements, resolver, kept.states start]
  · intro live
    obtain ⟨start, _, _, _, _, snapshot⟩ := tells.live live
    rw [snapshot, kept.snapshot start]

theorem Previews.restaged (kept : Previews resolver d latest p) {command : Command A}
    {turn : Turn A} (transition : p.Transition command turn) (restages : Restages command)
    (quiet : (Step.command command).Quiet) :
    Previews resolver (d.stepped (.command command)) latest turn.player := by
  have calm := transition.change.quiet kept.quiet quiet
  have shows {animations : List (Animation A)} {elements : Elements A} {chains : List (Chain A)}
      {data : List (Animation A) × Elements A} (live : p.disposed = false)
      (prepared : prepared animations elements chains = .ok data) (time : Number A) :
      allStates data.1 data.2 p.resolver time =
        Document.states ⟨animations, elements, chains⟩ resolver time := by
    rw [kept.resolver_eq live]
    exact Document.states_of_prepared (d := ⟨animations, elements, chains⟩) prepared
  cases transition with
  | mistaken faulty =>
    cases command with
    | setData animations elements chains =>
      simp only [Document.stepped, show prepared animations elements chains = .error _ from faulty]
      exact kept
    | _ => first | exact restages.elim | exact faulty.elim
  | late disposed stays => exact ⟨calm, by simp [refused, disposed], by simp [refused, disposed],
      by simp [refused, disposed]⟩
  -- The data are in place even where their duration cannot be told.
  | setData prepared live _ | unmeasured prepared live _ =>
    simp only [Document.stepped, prepared]
    exact ⟨calm, kept.resolver_eq, fun _ => shows live prepared, kept.snapshot⟩
  | unknown unknown => exact kept
  | subscribe live => exact { kept with quiet := calm }
  | unsubscribe known => exact { kept with quiet := calm }
  | idle idles => cases idles <;> exact restages.elim
  | _ => exact restages.elim

def told (p : Player A) (step : Step A) : List (Snapshot A) := snapshotsOf (p.stepEvents step)

theorem Previews.step (kept : Previews resolver d latest p) {step : Step A} (quiet : step.Quiet) :
    (∀ s ∈ p.told step, d.states resolver s.time = .ok s.states) ∧
    (p.stepped step).deliveries =
      p.deliveries ++ (p.told step).flatMap (toldTo (p.listeners.map (·.2))) ∧
    Previews resolver (d.stepped step) ((p.told step).getLast?.getD latest) (p.stepped step) ∧
    (step ≠ .command .dispose → (p.stepped step).disposed = p.disposed) := by
  cases step with
  | advance time =>
    refine ⟨?_, ?_, { kept with }, fun _ => rfl⟩
    · simp [told, stepEvents, snapshotsOf]
    · simp [told, stepEvents, snapshotsOf, stepped, Player.advance]
  | frame =>
    let resting : Player A := { p with queue := p.queue.takeAll.2 }
    have tells := resting.frames_tell p.queue.takeAll.1 kept.quiet
    have before : Previews resolver d latest resting := { kept with }
    obtain ⟨shown, after⟩ := before.tells tells
    exact ⟨shown, tells.heard, after, fun _ => tells.disposed.trans (Bool.or_false _)⟩
  | command command =>
    by_cases restages : Restages command
    · have transition := p.turn_transition command
      obtain ⟨r, result, turned, -⟩ := transition.restaging restages
      have nothing : p.told (.command command) = [] := by
        simp [told, stepEvents, performEvents, Turn.events, turned, snapshotsOf]
      have done : p.stepped (.command command) = (p.turn command).player := by
        simp [stepped, run, perform, Turn.finish, turned]
      rw [nothing, done]
      exact ⟨by simp, by simp [transition.tidy.deliveries], kept.restaged transition restages quiet,
        fun _ => transition.tidy.disposed⟩
    · have tells := ((p.turn_transition command).stages restages).tells mostNested kept.quiet
      obtain ⟨shown, after⟩ := kept.tells tells
      have same : d.stepped (.command command) = d := by
        cases command with
        | setData animations elements chains => exact (restages trivial).elim
        | _ => rfl
      rw [same]
      refine ⟨shown, tells.heard, after, ?_⟩
      intro other
      have staying := (p.turn_transition command).staying fun same => other (by rw [same])
      exact tells.disposed.trans (by simp [staying])

def toldOf (p : Player A) (steps : List (Step A)) : List (Snapshot A) := snapshotsOf (p.trace steps)

theorem Previews.session (kept : Previews resolver d latest p) (steps : List (Step A))
    (quiet : ∀ step ∈ steps, step.Quiet) :
    Previews resolver (d.after steps) ((p.toldOf steps).getLast?.getD latest) (p.after steps) ∧
      (.command .dispose ∉ steps → (p.after steps).disposed = p.disposed) := by
  induction steps generalizing p d latest with
  | nil => exact ⟨kept, fun _ => rfl⟩
  | cons step rest ih =>
    obtain ⟨head, tail⟩ := List.forall_mem_cons.mp quiet
    obtain ⟨_, _, after, first⟩ := kept.step head
    obtain ⟨ended, staying⟩ := ih after tail
    have last : (p.toldOf (step :: rest)).getLast?.getD latest =
        ((p.stepped step).toldOf rest).getLast?.getD ((p.told step).getLast?.getD latest) := by
      have parts : p.toldOf (step :: rest) = p.told step ++ (p.stepped step).toldOf rest :=
        List.filterMap_append
      rw [parts, List.getLast?_append]
      cases ((p.stepped step).toldOf rest).getLast? <;> simp
    refine ⟨last ▸ ended, ?_⟩
    intro going
    obtain ⟨other, later⟩ := not_or.mp (List.mem_cons.not.mp going)
    exact (staying later).trans (first (Ne.symm other))

theorem new_previews {quality : Value A} {clock : Number A} {cancels : Bool}
    (made : new quality resolver clock cancels = .ok p) :
    Previews resolver {} {} p ∧ p.disposed = false := by
  obtain ⟨_, _, made⟩ := bind_eq_ok made
  cases made
  exact ⟨⟨by simp [Quiet], fun _ => rfl, fun _ _ => rfl, fun _ => rfl⟩, rfl⟩

/-- Whatever a player with quiet listeners is told to do, it tells everybody who listens of each
    snapshot it takes, the states of the snapshot are those that the service gives for the data
    set last, with the resolver of the player, and until it is disposed of the snapshot it has is
    the one it told of last. -/
theorem preview_agrees_with_document {quality : Value A} {clock : Number A} {cancels : Bool}
    (made : new quality resolver clock cancels = .ok p) (steps : List (Step A))
    (quiet : ∀ step ∈ steps, step.Quiet) :
    (∀ before step later, steps = before ++ step :: later →
      ((p.after before).stepped step).deliveries = (p.after before).deliveries ++
        ((p.after before).told step).flatMap (toldTo ((p.after before).listeners.map (·.2))) ∧
      ∀ s ∈ (p.after before).told step,
        (Document.after {} before).states resolver s.time = .ok s.states ∧
        ∀ (body : Service.Body A) (scene : Service.Scene A) (log : List LogLine),
          Service.scene body = (.ok scene, log) → scene.time = s.time →
          scene.animations = (Document.after {} before).animations →
          (∀ id, scene.elements.shown id = (Document.after {} before).elements.shown id) →
          scene.chains = (Document.after {} before).chains → resolver = originPlacement →
          (Service.states body).1 = .ok (Service.statesToWire s.time s.states)) ∧
    (p.after steps).live (p.after steps).snapshot =
      (if (p.after steps).disposed then .error .disposed
      else .ok ((p.toldOf steps).getLast?.getD {})) ∧
    (.command .dispose ∉ steps → (p.after steps).disposed = false) := by
  obtain ⟨start, live⟩ := new_previews made
  obtain ⟨shown, staying⟩ := start.session steps quiet
  refine ⟨?_, ?_, fun going => (staying going).trans live⟩
  · rintro before step later rfl
    obtain ⟨shown, _⟩ := start.session before fun other member =>
      quiet other (List.mem_append_left _ member)
    obtain ⟨states, heard, _⟩ := shown.step (quiet step (by simp))
    refine ⟨heard, ?_⟩
    intro s member
    refine ⟨states s member, ?_⟩
    rintro body scene log read time animations elements chains rfl
    have evaluated := states s member
    rw [← time] at evaluated ⊢
    rw [Service.states_of_document read animations elements chains evaluated]
  · unfold Player.live
    cases disposed : (p.after steps).disposed with
    | true => rfl
    | false => simp [shown.snapshot disposed]

def lantern : Animation .exact :=
  { id := .text "lit", target := .text "lantern", subject := .set (.text "glow")
    track := { goal := .int 1 } }

def evening : Document .exact :=
  { animations := [lantern]
    elements := .listed [{ id := .text "lantern" }]
    chains :=
      [{ id := .text "dusk", entries := [{ animation := .text "lit", delay := .number 2 }] }] }

def eveningBody : Service.Body .exact :=
  [("animations", .list [lantern.toWire]), ("time", .number 3),
    ("elements", .list [.object [("id", .text "lantern")]]),
    ("chains", .list [.object [("id", .text "dusk"),
      ("animations", .list [.object [("animationId", .text "lit"), ("delay", .number 2)]])]])]

def eveningSession : List (Step .exact) :=
  [.command (.setData evening.animations evening.elements evening.chains),
    .command (.subscribe "window" fun _ => .done), .command (.seek (.int 1)),
    .command (.seek (.int 3)), .command (.setData [] .all [])]

def dark : Snapshot .exact :=
  { time := 1, states := [(.text "lantern", { id := .text "lantern", time := 1 })] }

def glowing : Snapshot .exact :=
  { time := 3
    states := [(.text "lantern",
      { id := .text "lantern", time := 3, attributes := [(.text "glow", .int 1)] })] }

theorem evening_preview_agrees :
    new (.text "preview") originPlacement (.finite 100) true = .ok fresh ∧
    fresh.toldOf eveningSession = [dark, glowing] ∧
    evening.states originPlacement 3 = .ok glowing.states ∧
    (Service.states eveningBody).1 = .ok (Service.statesToWire 3 glowing.states) ∧
    (fresh.after eveningSession).live (fresh.after eveningSession).snapshot = .ok glowing := by
  have made : new (.text "preview") originPlacement (.finite 100) true = .ok fresh := rfl
  have quiet : ∀ step ∈ eveningSession, step.Quiet := by
    simp [eveningSession, Step.Quiet, Reaction.Quiet]
  have told : fresh.toldOf eveningSession = [dark, glowing] := by with_unfolding_all rfl
  obtain ⟨each, last, staying⟩ := preview_agrees_with_document made eveningSession quiet
  have now : (fresh.after (eveningSession.take 3)).told (.command (.seek (.int 3))) =
      [glowing] := by with_unfolding_all rfl
  obtain ⟨_, shown⟩ := each (eveningSession.take 3) (.command (.seek (.int 3)))
    (eveningSession.drop 4) rfl
  obtain ⟨states, answered⟩ := shown glowing (by simp [now])
  have scene : Service.scene eveningBody =
      (.ok ⟨3, evening.animations, evening.elements, evening.chains⟩, []) := by
    with_unfolding_all rfl
  refine ⟨made, told, states, ?_, ?_⟩
  · exact answered eveningBody _ [] scene rfl rfl (fun _ => rfl) rfl rfl
  · rw [last, told, staying (by simp [eveningSession])]
    rfl

def onLine : MotionResolver .exact := fun _ progress =>
  .ok (some { x := progress * 100, angle := progress })

def cart : Animation .exact :=
  { id := .text "ride", target := .text "cart"
    subject := .motion (.text "M 0 0 L 1 0") .null .null .null
    schedule := { dur := .text "2s" } }

def lineman : Player .exact := { fresh with resolver := onLine }

def rideSession : List (Step .exact) :=
  [.command (.setData [cart] .all []), .command (.subscribe "window" fun _ => .done),
    .command (.seek (.int 1))]

def cartAt (place : Placement .exact) : List (Value .exact × ElementState .exact) :=
  [(.text "cart", { id := .text "cart", time := 1, motion := some place })]

theorem own_resolver_and_end_of_player :
    new (.text "preview") onLine (.finite 100) true = .ok lineman ∧
    (lineman.after rideSession).deliveries =
      [⟨"window", { time := 1, states := cartAt { x := 50, angle := 0.5 } }⟩] ∧
    allStates [cart] .all originPlacement 1 = .ok (cartAt {}) ∧
    cartAt {} ≠ cartAt { x := 50, angle := 0.5 } ∧
    (lineman.after (rideSession ++ [.command .dispose])).live
      (lineman.after (rideSession ++ [.command .dispose])).snapshot = .error .disposed := by
  refine ⟨rfl, ?_, ?_, ?_, ?_⟩
  · with_unfolding_all rfl
  · with_unfolding_all rfl
  · intro same
    have places : (0 : Number .exact) = 50 := by
      simp [cartAt] at same
      exact same.1
    exact absurd places (by decide +kernel)
  · with_unfolding_all rfl

end Player
end DeclarativeAnimation
