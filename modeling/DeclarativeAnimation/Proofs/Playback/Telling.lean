import DeclarativeAnimation.Proofs.Outcome
import DeclarativeAnimation.Proofs.Playback.Trace

/-! What a player tells.  An operation takes at most one snapshot of the data that are staged;
    with quiet listeners everybody who listens hears of it once, and the player keeps it. -/
namespace DeclarativeAnimation
variable {A : Arithmetic}

def Step.Quiet : Step A → Prop
  | .command (.subscribe _ reaction) => ∀ number, (reaction number).Quiet
  | _ => True

def Event.snapshot? : Event A → Option (Snapshot A)
  | .evaluation (.ok snapshot) => some snapshot
  | _ => none

def snapshotsOf (events : List (Event A)) : List (Snapshot A) := events.filterMap Event.snapshot?

structure Staging (A : Arithmetic) where
  animations : List (Animation A)
  elements : Elements A
  resolver : MotionResolver A
  disposed : Bool
  listeners : List (Nat × Listener A)
  deliveries : List (Delivery A)

namespace Player
variable {p q : Player A} {command : Command A} {turn : Turn A} {snapshot : Snapshot A}
  {depth : Nat}

def staging (p : Player A) : Staging A :=
  ⟨p.animations, p.elements, p.resolver, p.disposed, p.listeners, p.deliveries⟩

theorem compute_staged (same : q.staging = p.staging) (time : Number A) :
    q.compute time = p.compute time := by
  simp only [staging, Staging.mk.injEq] at same
  unfold compute
  rw [same.1, same.2.1, same.2.2.1]

/-- The operation leaves the staging as it is, and so the snapshot unless it takes one. -/
structure Stages (p : Player A) (turn : Turn A) : Prop where
  staging : turn.player.staging = p.staging
  taken : ∀ s, turn.evaluation = some (.ok s) →
    p.disposed = false ∧ p.compute s.time = .ok s ∧ turn.player.snapshot = s
  kept : (∀ s, turn.evaluation ≠ some (.ok s)) → turn.player.snapshot = p.snapshot

theorem Stages.still {result : Except Fault (Reply A)} (same : q.staging = p.staging)
    (kept : q.snapshot = p.snapshot) : p.Stages { player := q, result := result } :=
  ⟨same, fun _ taken => (nomatch taken), fun _ => kept⟩

theorem Stages.take {next : Player A → Player A} {time : Number A} (live : p.disposed = false)
    (same : q.staging = p.staging) (kept : q.snapshot = p.snapshot)
    (further : ∀ r, (next r).staging = r.staging ∧ (next r).snapshot = r.snapshot) :
    p.Stages (q.take time next) := by
  unfold Player.take
  cases computed : q.compute time with
  | error fault => exact ⟨same, fun _ taken => (nomatch taken), fun _ => kept⟩
  | ok snapshot =>
    obtain ⟨states, evaluated, made⟩ := bind_eq_ok computed
    cases made
    refine ⟨(further _).1.trans same, ?_, fun none => absurd rfl (none _)⟩
    rintro s ⟨⟩
    exact ⟨live, (compute_staged same time).symm.trans computed, (further _).2⟩

theorem MovesTo.staging (moves : p.MovesTo q) :
    q.staging = p.staging ∧ q.snapshot = p.snapshot := by
  obtain ⟨_, _, _, _, _, _, rfl⟩ := moves
  exact ⟨rfl, rfl⟩

theorem tick_stages (p : Player A) : p.Stages p.tick := by
  simp only [tick]
  split
  · exact .still rfl rfl
  · rename_i live
    simp only [Bool.or_eq_true, not_or, Bool.not_eq_true] at live
    split
    · exact .take live.1 rfl rfl fun r => ⟨rfl, rfl⟩
    · exact .still rfl rfl

theorem Stages.of_moves {result : Except Fault (Reply A)} (moves : p.MovesTo q) :
    p.Stages { player := q, result := result } :=
  .still moves.staging.1 moves.staging.2

theorem Stages.after (moves : p.MovesTo q) (stages : q.Stages turn) : p.Stages turn := by
  obtain ⟨same, kept⟩ := moves.staging
  refine ⟨stages.staging.trans same, ?_, fun none => (stages.kept none).trans kept⟩
  intro s taken
  obtain ⟨live, computed, snapshot⟩ := stages.taken s taken
  have disposed : q.disposed = p.disposed := congrArg Staging.disposed same
  exact ⟨disposed ▸ live, (compute_staged same s.time).symm.trans computed, snapshot⟩

theorem Stages.sample (live : p.disposed = false) (moves : p.MovesTo q) (time : Number A) :
    p.Stages (q.take time id) :=
  .take live moves.staging.1 moves.staging.2 fun _ => ⟨rfl, rfl⟩

section Telling
variable {perform : Perform A} {events : Command A → Player A → List (Event A)}

def toldTo (listeners : List (Listener A)) (snapshot : Snapshot A) : List (Delivery A) :=
  listeners.map fun listener => ⟨listener.name, snapshot⟩

theorem reactEvents_quiet {reaction : Reaction A} (quiet : reaction.Quiet) :
    reactEvents perform events reaction p = [] := by
  cases reaction with
  | done => rfl
  | fail => rfl
  | call command next => exact quiet.elim

theorem deliver_deliveries {listener : Listener A}
    (quiet : ∀ number, (listener.reaction number).Quiet) :
    (deliver perform snapshot p listener).deliveries =
      p.deliveries ++ [⟨listener.name, snapshot⟩] := by
  have calm := quiet p.deliveries.length
  unfold deliver
  cases reaction : listener.reaction p.deliveries.length with
  | done => rfl
  | fail => rfl
  | call command next =>
    rw [reaction] at calm
    exact calm.elim

theorem tell_deliveries {listeners : List (Listener A)}
    (quiet : ∀ listener ∈ listeners, ∀ number, (listener.reaction number).Quiet) :
    (listeners.foldl (deliver perform snapshot) p).deliveries =
      p.deliveries ++ toldTo listeners snapshot := by
  induction listeners generalizing p with
  | nil => simp [toldTo]
  | cons listener rest ih =>
    obtain ⟨head, tail⟩ := List.forall_mem_cons.mp quiet
    rw [List.foldl_cons, ih tail, deliver_deliveries head]
    simp [toldTo]

theorem tellEvents_quiet {listeners : List (Listener A)}
    (quiet : ∀ listener ∈ listeners, ∀ number, (listener.reaction number).Quiet) :
    snapshotsOf (tellEvents perform events snapshot listeners p) = [] := by
  induction listeners generalizing p with
  | nil => rfl
  | cons listener rest ih =>
    obtain ⟨head, tail⟩ := List.forall_mem_cons.mp quiet
    have later := ih (p := deliver perform snapshot p listener) tail
    rw [tellEvents, deliverEvents, reactEvents_quiet (head _)]
    simpa [snapshotsOf, Event.snapshot?] using later

end Telling

theorem Quiet.listeners (quiet : p.Quiet) :
    ∀ listener ∈ p.listeners.map (·.2), ∀ number, (listener.reaction number).Quiet := by
  intro listener member
  obtain ⟨entry, inside, rfl⟩ := List.mem_map.mp member
  exact quiet entry inside

theorem notify_deliveries (depth : Nat) (snapshot : Snapshot A) (quiet : p.Quiet) :
    (notify depth snapshot p).deliveries =
      p.deliveries ++ toldTo (p.listeners.map (·.2)) snapshot := by
  cases depth with
  | zero => exact tell_deliveries quiet.listeners
  | succ depth => exact tell_deliveries quiet.listeners

theorem notifyEvents_quiet (quiet : p.Quiet) :
    snapshotsOf (notifyEvents depth snapshot p) = [] := by
  cases depth with
  | zero => exact tellEvents_quiet quiet.listeners
  | succ depth => exact tellEvents_quiet quiet.listeners

/-- From one player to the other some snapshots were taken, each of them heard by everybody and
    the last of them kept; the other player may be closed. -/
structure Tells (p : Player A) (told : List (Snapshot A)) (closing : Bool) (q : Player A) :
    Prop where
  computed : ∀ s ∈ told, p.disposed = false ∧ p.compute s.time = .ok s
  heard : q.deliveries = p.deliveries ++ told.flatMap (toldTo (p.listeners.map (·.2)))
  quiet : p.Quiet → q.Quiet
  disposed : q.disposed = (p.disposed || closing)
  live : q.disposed = false → p.disposed = false ∧ q.animations = p.animations ∧
    q.elements = p.elements ∧ q.resolver = p.resolver ∧ q.listeners = p.listeners ∧
    q.snapshot = told.getLast?.getD p.snapshot

namespace Tells
variable {r : Player A} {told further : List (Snapshot A)}

theorem refl (p : Player A) : p.Tells [] false p :=
  ⟨by simp, by simp, id, by simp, fun live => ⟨live, rfl, rfl, rfl, rfl, rfl⟩⟩

theorem trans (first : p.Tells told false r) (second : r.Tells further false q) :
    p.Tells (told ++ further) false q := by
  refine ⟨?_, ?_, fun quiet => second.quiet (first.quiet quiet), ?_, ?_⟩
  · intro s member
    rcases List.mem_append.mp member with sooner | later
    · exact first.computed s sooner
    · obtain ⟨between, computed⟩ := second.computed s later
      obtain ⟨live, animations, elements, resolver, _⟩ := first.live between
      refine ⟨live, ?_⟩
      rw [← computed]
      unfold compute
      rw [animations, elements, resolver]
  · rw [second.heard, first.heard, List.flatMap_append, List.append_assoc]
    cases closed : r.disposed with
    | true =>
      have silent : further = [] := List.eq_nil_iff_forall_not_mem.mpr fun s member => by
        have live := (second.computed s member).1
        simp [closed] at live
      simp [silent]
    | false => rw [(first.live closed).2.2.2.2.1]
  · simp [second.disposed, first.disposed]
  · intro live
    obtain ⟨between, animations, elements, resolver, listeners, snapshot⟩ := second.live live
    obtain ⟨start, animations', elements', resolver', listeners', snapshot'⟩ := first.live between
    refine ⟨start, animations.trans animations', elements.trans elements',
      resolver.trans resolver', listeners.trans listeners', ?_⟩
    rw [snapshot, snapshot', List.getLast?_append]
    cases further.getLast? <;> simp

theorem closing (closing : Bool) (tells : p.Tells told false q) :
    p.Tells told closing (if closing then q.closed else q) := by
  cases closing with
  | false => exact tells
  | true =>
    refine ⟨tells.computed, tells.heard, fun _ => ?_, ?_, fun live => ?_⟩
    · simp [Quiet, closed]
    · simp [closed]
    · cases live

end Tells

theorem Stages.tells {turn : Turn A} (stages : p.Stages turn) (depth : Nat) (quiet : p.Quiet) :
    p.Tells (snapshotsOf (turn.events (notifyEvents depth))) turn.closing
      (turn.finish (notify depth)).2 := by
  have same := stages.staging
  simp only [Player.staging, Staging.mk.injEq] at same
  obtain ⟨animations, elements, resolver, disposed, listeners, deliveries⟩ := same
  have calm : turn.player.Quiet := by
    unfold Quiet
    rw [listeners]
    exact quiet
  have silent (kept : turn.player.snapshot = p.snapshot) : p.Tells [] false turn.player := by
    refine ⟨by simp, by simp [deliveries], fun _ => calm, by simp [disposed], fun live => ?_⟩
    exact ⟨disposed ▸ live, animations, elements, resolver, listeners, kept⟩
  unfold Turn.events Turn.finish
  cases evaluated : turn.evaluation with
  | none => exact .closing _ (silent (stages.kept (by simp [evaluated])))
  | some outcome =>
    cases outcome with
    | error fault => exact .closing _ (silent (stages.kept (by simp [evaluated])))
    | ok s =>
      obtain ⟨live, computed, taken⟩ := stages.taken s evaluated
      have once : snapshotsOf (.evaluation (.ok s) :: notifyEvents depth s turn.player) = [s] :=
        congrArg (s :: ·) (notifyEvents_quiet calm)
      have told := notify_deliveries depth s calm
      obtain ⟨_, _, heard⟩ := notify_quiet depth s turn.player calm
      dsimp only
      rw [once]
      refine .closing _ ⟨?_, ?_, ?_, ?_, ?_⟩
      · intro other member
        obtain rfl := List.mem_singleton.mp member
        exact ⟨live, computed⟩
      · rw [told, deliveries, listeners]
        simp
      · intro _
        rw [heard]
        exact calm
      · rw [heard]
        simpa using disposed
      · intro _
        rw [heard]
        exact ⟨live, animations, elements, resolver, listeners, taken⟩

def Restages : Command A → Prop
  | .setData _ _ _ | .subscribe _ _ | .unsubscribe _ => True
  | _ => False

theorem Transition.stages (transition : p.Transition command turn) (other : ¬ Restages command) :
    p.Stages turn := by
  cases transition with
  | mistaken faulty => exact .still rfl rfl
  | late disposed stays => exact .still rfl rfl
  | idle idles => exact .still rfl rfl
  | play live rested => exact .after p.started_moves (tick_stages _)
  | pause live playing => exact .of_moves p.paused_moves
  | stop live => exact .sample live p.halted_moves 0
  | dispose live => exact { Stages.sample live p.halted_moves 0 with }
  | seek read live => exact .sample live (p.moved_moves _) _
  | setRate read live =>
    obtain ⟨anchor, same⟩ := p.paced_anchor _
    rw [same]
    exact .still rfl rfl
  | setQuality named live => exact .still rfl rfl
  | _ => exact (other trivial).elim

theorem Transition.restaging (transition : p.Transition command turn)
    (restages : Restages command) : ∃ q result, turn = { player := q, result := result } ∧
      q.disposed = p.disposed ∧ q.deliveries = p.deliveries ∧ q.snapshot = p.snapshot := by
  cases transition with
  | play | pause | stop | dispose | seek | setRate => exact restages.elim
  | _ => exact ⟨_, _, rfl, rfl, rfl, rfl⟩

/-- Before the listeners are told, an operation leaves the player as live as it was; with a snapshot
    it leaves the listeners alone and keeps it. -/
structure Tidy (p : Player A) (turn : Turn A) : Prop where
  disposed : turn.player.disposed = p.disposed
  deliveries : turn.player.deliveries = p.deliveries
  listeners : turn.evaluation ≠ none → turn.player.listeners = p.listeners
  taken : ∀ s, turn.evaluation = some (.ok s) → turn.player.snapshot = s
  kept : (∀ s, turn.evaluation ≠ some (.ok s)) → turn.player.snapshot = p.snapshot

theorem Stages.tidy {turn : Turn A} (stages : p.Stages turn) : p.Tidy turn :=
  ⟨congrArg Staging.disposed stages.staging, congrArg Staging.deliveries stages.staging,
    fun _ => congrArg Staging.listeners stages.staging, fun s taken => (stages.taken s taken).2.2,
    stages.kept⟩

theorem Transition.tidy (transition : p.Transition command turn) : p.Tidy turn := by
  by_cases restages : Restages command
  · obtain ⟨q, result, rfl, disposed, deliveries, kept⟩ := transition.restaging restages
    exact ⟨disposed, deliveries, fun told => absurd rfl told,
      fun _ taken => (nomatch taken), fun _ => kept⟩
  · exact (transition.stages restages).tidy

theorem Change.quiet (change : p.Change command q) (quiet : p.Quiet)
    (calm : (Step.command command).Quiet) : q.Quiet := by
  cases change with
  | played goesOn =>
    obtain ⟨_, _, _, _, _, _, _, rfl⟩ := goesOn
    exact quiet
  | paced rate anchor => exact quiet
  | adjusted quality => exact quiet
  | restaged duration measures => exact quiet
  | joined live =>
    intro entry member
    rcases List.mem_append.mp member with old | new
    · exact quiet entry old
    · obtain rfl := List.mem_singleton.mp new
      exact calm
  | left key => exact fun entry member => quiet entry (List.mem_of_mem_filter member)

theorem turn_quiet (quiet : p.Quiet) (calm : (Step.command command).Quiet) :
    (p.turn command).player.Quiet :=
  (p.turn_transition command).change.quiet quiet calm

theorem frames_tell (frames : List (Nat × Unit)) (quiet : p.Quiet) :
    p.Tells (snapshotsOf (frameEvents frames p)) false
      (FrameQueue.callEach (fun _ => callFrame (notify mostNested)) frames p).2 := by
  induction frames generalizing p with
  | nil => exact .refl p
  | cons frame rest ih =>
    have first := p.tick_stages.tells mostNested quiet
    have ticked : (callFrame (notify mostNested) p).2 = (p.tick.finish (notify mostNested)).2 := rfl
    rw [← ticked, p.tick_staying] at first
    unfold frameEvents FrameQueue.callEach
    rw [snapshotsOf, List.filterMap_append]
    cases called : callFrame (notify mostNested) p with
    | mk result q =>
      rw [called] at first
      cases result with
      | error fault => simpa [snapshotsOf] using first
      | ok _ => exact first.trans (ih (first.quiet quiet))

end Player
end DeclarativeAnimation
