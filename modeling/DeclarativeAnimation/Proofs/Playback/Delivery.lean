import DeclarativeAnimation.Proofs.Playback.Telling

/-! Who hears of which snapshot, when listeners give commands while they are being told.  A command
    tells the listeners that are subscribed when its snapshot is taken, and goes on telling them
    whatever they do meanwhile: each of them hears of every snapshot that is taken while it is
    subscribed once, and of no other.  A listener ahead may have further snapshots taken and told of
    before the others hear of the first; where nobody ahead does so, snapshots are heard of in the
    order in which they are taken. -/
namespace DeclarativeAnimation
variable {A : Arithmetic}

def Command.subscribes : Command A → Option String
  | .subscribe name _ => some name
  | _ => none

def Command.takes : Command A → Bool
  | .play | .stop | .dispose | .seek _ => true
  | _ => false

def Reaction.Loyal : Reaction A → Prop
  | .call command next => command.subscribes = none ∧ ∀ result, (next result).Loyal
  | _ => True

def Reaction.Calm : Reaction A → Prop
  | .call command next => command.takes = false ∧ ∀ result, (next result).Calm
  | _ => True

def Listener.Loyal (listener : Listener A) : Prop := ∀ number, (listener.reaction number).Loyal

def Listener.Calm (listener : Listener A) : Prop := ∀ number, (listener.reaction number).Calm

def Step.subscribes : Step A → Option String
  | .command given => given.subscribes
  | _ => none

def Step.Loyal : Step A → Prop
  | .command (.subscribe _ reaction) => ∀ number, (reaction number).Loyal
  | _ => True

def subscriptions (steps : List (Step A)) : List String := steps.filterMap Step.subscribes

namespace Player

def audience (p : Player A) : List (Listener A) := p.listeners.map (·.2)

def hears (p : Player A) (name : String) : Bool := p.audience.any (·.name == name)

def heard (p : Player A) (name : String) : List (Snapshot A) :=
  (p.deliveries.filter (·.listener == name)).map (·.snapshot)

end Player

/-- Whether a listener is subscribed after some events, by whether it was before them. -/
def attends (name : String) : Bool → List (Event A) → Bool
  | subscribed, [] => subscribed
  | _, .control p :: rest => attends name (p.hears name) rest
  | subscribed, .evaluation _ :: rest => attends name subscribed rest

def takenFor (name : String) : Bool → List (Event A) → List (Snapshot A)
  | _, [] => []
  | _, .control p :: rest => takenFor name (p.hears name) rest
  | subscribed, .evaluation (.error _) :: rest => takenFor name subscribed rest
  | subscribed, .evaluation (.ok snapshot) :: rest =>
    if subscribed then snapshot :: takenFor name subscribed rest else takenFor name subscribed rest

theorem subscriptions_cons (step : Step A) (rest : List (Step A)) :
    subscriptions (step :: rest) = step.subscribes.toList ++ subscriptions rest := by
  cases subscribes : step.subscribes <;> simp [subscriptions, subscribes]

theorem subscriptions_append (steps more : List (Step A)) :
    subscriptions (steps ++ more) = subscriptions steps ++ subscriptions more :=
  List.filterMap_append

theorem distinct_cons {names : List String} {step : Step A} {rest : List (Step A)}
    (distinct : (names ++ subscriptions (step :: rest)).Nodup) :
    (∀ other, step.subscribes = some other → other ∉ names) ∧
      (names ++ step.subscribes.toList ++ subscriptions rest).Nodup := by
  rw [subscriptions_cons, ← List.append_assoc] at distinct
  refine ⟨fun other subscribes known => ?_, distinct⟩
  have early := List.nodup_append.mp (List.nodup_append.mp distinct).1
  exact early.2.2 other known other (by simp [subscribes]) rfl

section
variable {name : String} {subscribed : Bool} {events later : List (Event A)}

theorem attends_append : attends name subscribed (events ++ later) =
    attends name (attends name subscribed events) later := by
  induction events generalizing subscribed with
  | nil => rfl
  | cons event rest ih => cases event <;> exact ih

theorem takenFor_append : takenFor name subscribed (events ++ later) =
    takenFor name subscribed events ++ takenFor name (attends name subscribed events) later := by
  induction events generalizing subscribed with
  | nil => rfl
  | cons event rest ih =>
    match event with
    | .control p => exact ih
    | .evaluation (.error fault) => exact ih
    | .evaluation (.ok snapshot) =>
      cases subscribed with
      | false => exact ih
      | true => exact congrArg (snapshot :: ·) ih

theorem takenFor_sublist : (takenFor name subscribed events).Sublist (snapshotsOf events) := by
  induction events generalizing subscribed with
  | nil => exact .slnil
  | cons event rest ih =>
    match event with
    | .control p => exact ih
    | .evaluation (.error fault) => exact ih
    | .evaluation (.ok snapshot) =>
      cases subscribed with
      | false => exact ih.cons snapshot
      | true => exact ih.cons_cons snapshot

theorem snapshotsOf_append :
    snapshotsOf (events ++ later) = snapshotsOf events ++ snapshotsOf later :=
  List.filterMap_append

end

namespace Player
variable {p q r : Player A} {events later : List (Event A)} {snapshot : Snapshot A}
  {name : String} {led : Prop} {owed owing : List (Snapshot A)}

def Deserted (p : Player A) : Prop := p.disposed = true → p.listeners = []

/-- From one player to the other nobody has subscribed. -/
structure Shrinks (p q : Player A) : Prop where
  listeners : q.listeners.Sublist p.listeners
  keys : q.keys = p.keys
  live : q.disposed = false → p.disposed = false
  deserted : p.Deserted → q.Deserted

theorem Shrinks.trans (first : Shrinks p q) (second : Shrinks q r) : Shrinks p r :=
  ⟨second.listeners.trans first.listeners, second.keys.trans first.keys,
    fun live => first.live (second.live live), fun deserted => second.deserted (first.deserted deserted)⟩

theorem Shrinks.of_same (listeners : q.listeners.Sublist p.listeners) (keys : q.keys = p.keys)
    (disposed : q.disposed = p.disposed) : Shrinks p q := by
  refine ⟨listeners, keys, fun live => disposed ▸ live, fun deserted gone => ?_⟩
  rw [deserted (disposed ▸ gone)] at listeners
  exact List.sublist_nil.mp listeners

theorem Shrinks.refl (p : Player A) : Shrinks p p := .of_same (.refl _) rfl rfl

theorem Shrinks.closed (p : Player A) : Shrinks p p.closed :=
  ⟨List.nil_sublist _, rfl, by simp [Player.closed], fun _ _ => rfl⟩

theorem Shrinks.audience (shrinks : Shrinks p q) : q.audience.Sublist p.audience :=
  shrinks.listeners.map _

theorem Shrinks.hears (shrinks : Shrinks p q) (still : q.hears name = true) :
    p.hears name = true := by
  obtain ⟨listener, member, same⟩ := List.any_eq_true.mp still
  exact List.any_eq_true.mpr ⟨listener, shrinks.audience.subset member, same⟩

theorem Shrinks.absent (shrinks : Shrinks p q) (absent : p.hears name = false) :
    q.hears name = false := by
  rw [← Bool.not_eq_true] at absent ⊢
  exact fun still => absent (shrinks.hears still)

theorem Deserted.live (deserted : p.Deserted) (hears : p.hears name = true) :
    p.disposed = false := by
  cases disposed : p.disposed with
  | false => rfl
  | true => simp [Player.hears, Player.audience, deserted disposed] at hears

/-- Two listeners have different names; with `led`, whoever is ahead of a name takes no snapshots. -/
def Ranked (name : String) (led : Prop) (first later : Listener A) : Prop :=
  first.name ≠ later.name ∧ (led → later.name = name → first.Calm)

structure Orderly (name : String) (led : Prop) (listeners : List (Listener A)) : Prop where
  loyal : ∀ listener ∈ listeners, listener.Loyal
  ranked : listeners.Pairwise (Ranked name led)

theorem Orderly.sublist {some all : List (Listener A)} (orderly : Orderly name led all)
    (part : some.Sublist all) : Orderly name led some :=
  ⟨fun listener member => orderly.loyal listener (part.subset member), orderly.ranked.sublist part⟩

/-- What comes to pass from one player to the other: the listener hears once of what it was owed
    and of each snapshot that is taken while it is subscribed, and with `led` in this order. -/
structure Follows (name : String) (led : Prop) (owed : List (Snapshot A)) (p : Player A)
    (events : List (Event A)) (q : Player A) : Prop where
  shrinks : Shrinks p q
  heard : ∃ new, q.heard name = p.heard name ++ new ∧
    new.Perm (owed ++ takenFor name (p.hears name) events) ∧
    (led → new = owed ++ takenFor name (p.hears name) events)
  attended : attends name (p.hears name) events = q.hears name
  gone : p.hears name = false → takenFor name false events = []
  still : q.hears name = true → takenFor name true events = snapshotsOf events
  shown : q.disposed = false → q.snapshot = (snapshotsOf events).getLast?.getD p.snapshot

namespace Follows

theorem trans (first : Follows name led owed p events q) (second : Follows name led owing q later r)
    (order : led → owing = [] ∨ snapshotsOf events = []) :
    Follows name led (owed ++ owing) p (events ++ later) r := by
  obtain ⟨new, heard, perm, ordered⟩ := first.heard
  obtain ⟨new', heard', perm', ordered'⟩ := second.heard
  have taken : takenFor name (p.hears name) (events ++ later) =
      takenFor name (p.hears name) events ++ takenFor name (q.hears name) later := by
    rw [takenFor_append, first.attended]
  refine ⟨first.shrinks.trans second.shrinks, ⟨new ++ new', ?_, ?_, ?_⟩, ?_, ?_, ?_, ?_⟩
  · rw [heard', heard, List.append_assoc]
  · -- What the second part owes comes before what is taken in the first part.
    rw [taken]
    refine (perm.append perm').trans ?_
    simp only [List.append_assoc]
    exact (List.perm_append_comm_assoc _ _ _).append_left owed
  · intro leads
    rw [taken, ordered leads, ordered' leads]
    rcases order leads with none | none
    · simp [none]
    · have empty : takenFor name (p.hears name) events = [] :=
        List.sublist_nil.mp (none ▸ takenFor_sublist)
      simp [empty]
  · rw [attends_append, first.attended, second.attended]
  · intro absent
    have flag := first.attended
    rw [absent] at flag
    have absent' := first.shrinks.absent absent
    rw [takenFor_append, first.gone absent, flag, absent', second.gone absent', List.nil_append]
  · intro stays
    have between := second.shrinks.hears stays
    have flag := first.attended
    rw [first.shrinks.hears between, between] at flag
    rw [takenFor_append, flag, first.still between, second.still stays, snapshotsOf_append]
  · intro live
    rw [second.shown live, first.shown (second.shrinks.live live), snapshotsOf_append,
      List.getLast?_append]
    cases (snapshotsOf later).getLast? <;> simp

theorem silent (shrinks : Shrinks p q) (deliveries : q.deliveries = p.deliveries)
    (kept : q.disposed = false → q.snapshot = p.snapshot) (none : snapshotsOf events = [])
    (attended : attends name (p.hears name) events = q.hears name) :
    Follows name led [] p events q := by
  have empty (subscribed : Bool) : takenFor name subscribed events = [] :=
    List.sublist_nil.mp (none ▸ takenFor_sublist)
  refine ⟨shrinks, ⟨[], ?_, ?_, ?_⟩, attended, ?_, ?_, ?_⟩
  · simp [Player.heard, deliveries]
  · simp [empty]
  · simp [empty]
  · exact fun _ => empty false
  · exact fun _ => (empty true).trans none.symm
  · simpa [none] using kept

theorem refl (p : Player A) : Follows name led [] p [] p :=
  .silent (.refl p) rfl (fun _ => rfl) rfl rfl

theorem closing (closing : Bool) (follows : Follows name led owed p events q) :
    Follows name led owed p (events ++ [.control (if closing then q.closed else q)])
      (if closing then q.closed else q) := by
  have last : Follows name led [] q [.control (if closing then q.closed else q)]
      (if closing then q.closed else q) := by
    cases closing with
    | false => exact .silent (.refl q) rfl (fun _ => rfl) rfl rfl
    | true => exact .silent (.closed q) rfl (by simp [Player.closed]) rfl rfl
  have both := follows.trans last fun _ => .inl rfl
  rwa [List.append_nil] at both

theorem taking (follows : Follows name led (if q.hears name then [snapshot] else []) q events r)
    (listeners : q.listeners = p.listeners) (shrinks : Shrinks p q)
    (deliveries : q.deliveries = p.deliveries) (taken : q.snapshot = snapshot) :
    Follows name led [] p (.evaluation (.ok snapshot) :: events) r := by
  have hears : q.hears name = p.hears name := by simp only [Player.hears, audience, listeners]
  have owed : takenFor name (p.hears name) (.evaluation (.ok snapshot) :: events) =
      (if p.hears name then [snapshot] else []) ++ takenFor name (p.hears name) events := by
    cases subscribed : p.hears name <;> simp [takenFor]
  obtain ⟨new, heard, perm, ordered⟩ := follows.heard
  rw [hears] at perm ordered
  refine ⟨shrinks.trans follows.shrinks, ⟨new, ?_, ?_, ?_⟩, ?_, ?_, ?_, ?_⟩
  · rw [heard]
    simp [Player.heard, deliveries]
  · rwa [List.nil_append, owed]
  · rwa [List.nil_append, owed]
  · exact hears ▸ follows.attended
  · exact fun absent => follows.gone (hears.trans absent)
  · intro stays
    exact congrArg (snapshot :: ·) (follows.still stays)
  · intro live
    rw [follows.shown live, taken]
    show _ = (snapshot :: snapshotsOf events).getLast?.getD _
    cases snapshotsOf events with
    | nil => rfl
    | cons first rest => simp only [List.getLast?_cons, Option.getD_some]

theorem delivered (p : Player A) (listener : Listener A) :
    Follows name led (if listener.name == name then [snapshot] else []) p
      [.control (p.delivered snapshot listener)] (p.delivered snapshot listener) := by
  refine ⟨.of_same (.refl _) rfl rfl,
    ⟨if listener.name == name then [snapshot] else [], ?_, ?_, ?_⟩,
    rfl, fun _ => rfl, fun _ => rfl, fun _ => rfl⟩
  · simp only [Player.heard, Player.delivered, List.filter_append, List.map_append]
    cases same : listener.name == name <;> simp [same]
  · simp [takenFor]
  · simp [takenFor]

end Follows

section Telling
variable {perform : Perform A} {performed : Command A → Player A → List (Event A)}

structure Serves (name : String) (led : Prop) (perform : Perform A)
    (performed : Command A → Player A → List (Event A)) : Prop where
  follows : ∀ {command : Command A} {p : Player A}, command.subscribes = none →
    Orderly name led p.audience →
    Follows name led [] p (performed command p ++ [.control (perform command p).2])
      (perform command p).2
  calm : ∀ {command : Command A} {p : Player A}, command.takes = false →
    snapshotsOf (performed command p) = []

theorem Serves.react (serves : Serves name led perform performed) (snapshot : Snapshot A) :
    ∀ {reaction : Reaction A} {p : Player A}, reaction.Loyal → Orderly name led p.audience →
      Follows name led [] p (reactEvents perform performed reaction p)
        (react perform snapshot reaction p)
  | .done, p, _, _ => .refl p
  | .fail, p, _, _ => .silent (.of_same (.refl _) rfl rfl) rfl (fun _ => rfl) rfl rfl
  | .call command next, p, loyal, orderly => by
    have first := serves.follows loyal.1 orderly
    have rest := react serves snapshot (loyal.2 (perform command p).1)
      (orderly.sublist first.shrinks.audience)
    have both := first.trans rest fun _ => .inl rfl
    rwa [List.append_assoc] at both

theorem Serves.react_calm (serves : Serves name led perform performed) :
    ∀ {reaction : Reaction A} {p : Player A}, reaction.Calm →
      snapshotsOf (reactEvents perform performed reaction p) = []
  | .done, p, _ => rfl
  | .fail, p, _ => rfl
  | .call command next, p, calm => by
    have rest := react_calm serves (p := (perform command p).2) (calm.2 (perform command p).1)
    rw [reactEvents, snapshotsOf_append, serves.calm calm.1]
    exact rest

theorem Serves.deliver (serves : Serves name led perform performed) (snapshot : Snapshot A)
    {listener : Listener A} (loyal : listener.Loyal) (orderly : Orderly name led p.audience) :
    Follows name led (if listener.name == name then [snapshot] else []) p
      (deliverEvents perform performed snapshot p listener)
      (deliver perform snapshot p listener) := by
  have told : Follows name led (if listener.name == name then [snapshot] else []) p
      [.control (p.delivered snapshot listener)] (p.delivered snapshot listener) :=
    .delivered p listener
  have rest := serves.react snapshot (p := p.delivered snapshot listener)
    (loyal p.deliveries.length) orderly
  have both := told.trans rest fun _ => .inl rfl
  rwa [List.append_nil] at both

theorem Serves.tell (serves : Serves name led perform performed) {listeners : List (Listener A)}
    (told : Orderly name led listeners) (orderly : Orderly name led p.audience) :
    Follows name led (if listeners.any (·.name == name) then [snapshot] else []) p
      (tellEvents perform performed snapshot listeners p)
      (listeners.foldl (Player.deliver perform snapshot) p) := by
  induction listeners generalizing p with
  | nil => exact .refl p
  | cons listener rest ih =>
    obtain ⟨ahead, ranked⟩ := List.pairwise_cons.mp told.ranked
    have first := serves.deliver snapshot (told.loyal listener (by simp)) orderly
    have second := ih (told.sublist (List.sublist_cons_self listener rest))
      (orderly.sublist first.shrinks.audience)
    have both := first.trans second ?_
    · have once : (if listener.name == name then [snapshot] else []) ++
          (if rest.any (·.name == name) then [snapshot] else []) =
          if (listener :: rest).any (·.name == name) then [snapshot] else [] := by
        cases here : listener.name == name with
        | false => simp [here]
        | true =>
          have nobody : rest.any (·.name == name) = false := by
            simp only [List.any_eq_false, beq_iff_eq]
            intro other member same
            exact (ahead other member).1 ((beq_iff_eq.mp here).trans same.symm)
          simp [here, nobody]
      rwa [once] at both
    · -- Where the listener waits behind this one, this one takes nothing.
      intro leads
      cases waiting : rest.any (·.name == name) with
      | false => exact .inl rfl
      | true =>
        obtain ⟨other, member, same⟩ := List.any_eq_true.mp waiting
        have calm := (ahead other member).2 leads (beq_iff_eq.mp same)
        exact .inr (serves.react_calm (calm _))

end Telling

/-- A notification owes its snapshot to those who are subscribed when it begins. -/
def Announces (name : String) (led : Prop) (notify : Notify A) (telling : Telling A) : Prop :=
  ∀ (snapshot : Snapshot A) (p : Player A), Orderly name led p.audience →
    Follows name led (if p.hears name then [snapshot] else []) p (telling snapshot p)
      (notify snapshot p)

theorem Announces.finish {notify : Notify A} {telling : Telling A} {turn : Turn A}
    (announces : Announces name led notify telling)
    (tidy : p.Tidy turn) (listeners : turn.player.listeners = p.listeners)
    (keys : turn.player.keys = p.keys) (orderly : Orderly name led p.audience) :
    Follows name led [] p (turn.events telling ++
      [.control (turn.finish notify).2]) (turn.finish notify).2 ∧
    (turn.closing = false → Follows name led [] p (turn.events telling) (turn.finish notify).2) := by
  have shrinks : Shrinks p turn.player := .of_same (listeners ▸ .refl _) keys tidy.disposed
  have here : Orderly name led turn.player.audience := by
    unfold audience
    rw [listeners]
    exact orderly
  have hears : p.hears name = turn.player.hears name := by
    simp only [hears, audience, listeners]
  have ends {events : List (Event A)} {q : Player A} (follows : Follows name led [] p events q) :
      Follows name led [] p (events ++ [.control (if turn.closing then q.closed else q)])
        (if turn.closing then q.closed else q) ∧
      (turn.closing = false →
        Follows name led [] p events (if turn.closing then q.closed else q)) := by
    refine ⟨follows.closing turn.closing, fun staying => ?_⟩
    rw [staying]
    exact follows
  unfold Turn.events Turn.finish
  cases evaluated : turn.evaluation with
  | none =>
    have kept := tidy.kept (by simp [evaluated])
    exact ends (.silent shrinks tidy.deliveries (fun _ => kept) rfl hears)
  | some outcome =>
    cases outcome with
    | error fault =>
      have kept := tidy.kept (by simp [evaluated])
      exact ends (.silent shrinks tidy.deliveries (fun _ => kept) rfl hears)
    | ok snapshot =>
      have taken := tidy.taken snapshot evaluated
      exact ends (.taking (announces snapshot _ here) listeners shrinks tidy.deliveries taken)

theorem Change.audience {command : Command A} (change : p.Change command q)
    (loyal : command.subscribes = none) :
    q.listeners = p.listeners ∧ q.keys = p.keys ∨ ∃ name, command = .unsubscribe name := by
  cases change with
  | played goesOn =>
    obtain ⟨_, _, _, _, _, _, _, rfl⟩ := goesOn
    exact .inl ⟨rfl, rfl⟩
  | joined live => cases loyal
  | left key => exact .inr ⟨_, rfl⟩
  | _ => exact .inl ⟨rfl, rfl⟩

theorem unsubscribe_shrinks (p : Player A) (other : String) :
    Shrinks p (p.unsubscribe other).player := by
  unfold unsubscribe
  split
  · exact .refl p
  · exact .of_same List.filter_sublist rfl rfl

theorem Transition.silent {command : Command A} {turn : Turn A}
    (transition : p.Transition command turn) (calm : command.takes = false) :
    turn.evaluation = none := by
  cases transition with
  | play | stop | dispose | seek => cases calm
  | _ => rfl

theorem Announces.performs {notify : Notify A} {telling : Telling A}
    (announces : Announces name led notify telling) :
    Serves name led (perform notify) (performEvents telling) := by
  refine ⟨fun {command p} loyal orderly => ?_, fun {command p} calm => ?_⟩
  · have transition := p.turn_transition command
    have tidy := transition.tidy
    rcases transition.change.audience loyal with ⟨listeners, keys⟩ | ⟨other, rfl⟩
    · exact (announces.finish tidy listeners keys orderly).1
    · have silent := transition.silent rfl
      have staying := transition.staying (by simp)
      have kept := tidy.kept (by simp [silent])
      simp only [performEvents, perform, Turn.events, Turn.finish, silent, staying]
      exact .silent (p.unsubscribe_shrinks other) tidy.deliveries (fun _ => kept) rfl rfl
  · simp only [performEvents, Turn.events, (p.turn_transition command).silent calm]
    rfl

theorem announces (depth : Nat) :
    Announces (A := A) name led (notify depth) (notifyEvents depth) := by
  induction depth with
  | zero =>
    intro snapshot p orderly
    have serves : Serves (A := A) name led (fun _ p => (.error .nestedTooDeep, p))
        (fun _ _ => []) :=
      ⟨fun _ _ => .silent (.refl _) rfl (fun _ => rfl) rfl rfl, fun _ => rfl⟩
    exact serves.tell orderly orderly
  | succ depth ih =>
    intro snapshot p orderly
    exact ih.performs.tell orderly orderly

theorem frames_follow (frames : List (Nat × Unit)) (orderly : Orderly name led p.audience) :
    Follows name led [] p (frameEvents frames p)
      (FrameQueue.callEach (fun _ => callFrame (notify mostNested)) frames p).2 := by
  induction frames generalizing p with
  | nil => exact .refl p
  | cons frame rest ih =>
    have same : p.tick.player.listeners = p.listeners ∧ p.tick.player.keys = p.keys := by
      obtain ⟨_, _, _, _, _, _, _, same⟩ := p.tick_goesOn
      rw [same]
      exact ⟨rfl, rfl⟩
    have first := ((announces mostNested).finish p.tick_stages.tidy same.1 same.2
      orderly).2 p.tick_staying
    have ticked : (callFrame (notify mostNested) p).2 = (p.tick.finish (notify mostNested)).2 := rfl
    rw [← ticked] at first
    have further := ih (orderly.sublist first.shrinks.audience)
    unfold frameEvents FrameQueue.callEach
    cases called : callFrame (notify mostNested) p with
    | mk result q =>
      rw [called] at first further
      cases result with
      | error fault => simpa using first
      | ok _ => simpa using first.trans further fun _ => .inl rfl

/-- Whenever the name is subscribed, those who listen already take no snapshots. -/
def CalmAheadOf (name : String) (p : Player A) : List (Step A) → Prop
  | [] => True
  | step :: rest =>
    (step.subscribes = some name → ∀ listener ∈ p.audience, listener.Calm) ∧
      (p.stepped step).CalmAheadOf name rest

def Releases (name : String) (p : Player A) : Step A → Prop
  | .command (.unsubscribe other) => other = name
  | .command .dispose => (p.run .dispose).1.toBool = true
  | _ => False

/-- In a step somebody joins, or those who are subscribed are served. -/
theorem step_follows (orderly : Orderly name led p.audience) (step : Step A) :
    (∃ other reaction, step = .command (.subscribe other reaction) ∧ p.disposed = false ∧
      p.stepEvents step = [] ∧ p.stepped step = p.joined other reaction) ∨
    step.subscribes = none ∧
      Follows name led [] p (p.stepEvents step ++ [.control (p.stepped step)]) (p.stepped step) ∨
    step.subscribes ≠ none ∧ p.stepEvents step = [] ∧ p.stepped step = p := by
  cases step with
  | command command =>
    cases subscribes : command.subscribes with
    | none =>
      have announced : Announces name led (notify mostNested) (notifyEvents mostNested) :=
        announces (A := A) mostNested
      exact .inr (.inl ⟨subscribes, announced.performs.follows subscribes orderly⟩)
    | some other =>
      cases command with
      | subscribe other reaction =>
        cases disposed : p.disposed with
        | false =>
          have turned : p.turn (.subscribe other reaction) =
              { player := p.joined other reaction } := by simp [turn, subscribe, disposed, joined]
          refine .inl ⟨other, reaction, rfl, rfl, ?_, ?_⟩
          · simp only [stepEvents, performEvents, turned, Turn.events]
          · simp only [stepped, run, perform, turned, Turn.finish, Bool.false_eq_true, ↓reduceIte]
        | true =>
          have turned : p.turn (.subscribe other reaction) = p.refused .disposed := by
            simp [turn, subscribe, disposed]
          refine .inr (.inr ⟨by simp [Step.subscribes, subscribes], ?_, ?_⟩)
          · simp only [stepEvents, performEvents, turned, Turn.events, refused]
          · simp only [stepped, run, perform, turned, Turn.finish, refused, Bool.false_eq_true,
              ↓reduceIte]
      | _ => cases subscribes
  | advance time =>
    exact .inr (.inl ⟨rfl, .silent (.of_same (.refl _) rfl rfl) rfl (fun _ => rfl) rfl rfl⟩)
  | frame =>
    let idle : Player A := { p with queue := p.queue.takeAll.2 }
    have taken : Follows name led [] p [] idle :=
      .silent (.of_same (.refl _) rfl rfl) rfl (fun _ => rfl) rfl rfl
    have frames := frames_follow (p := idle) p.queue.takeAll.1 orderly
    exact .inr (.inl ⟨rfl, (taken.trans frames fun _ => .inl rfl).closing false⟩)

/-- What a session keeps for the listener of a name, by the snapshots that were taken for it. -/
structure HasHeard (name : String) (led : Prop) (names : List String) (taken : List (Snapshot A))
    (p : Player A) : Prop where
  orderly : Orderly name led p.audience
  known : ∀ listener ∈ p.audience, listener.name ∈ names
  keyed : ∀ entry ∈ p.listeners, Keyed.get? entry.2.name p.keys = some entry.1
  deserted : p.Deserted
  heard : (p.heard name).Perm taken
  ordered : led → p.heard name = taken
  early : name ∉ names → taken = []
  latest : p.hears name = true → taken = [] ∨ taken.getLast? = some p.snapshot

namespace HasHeard
variable {names : List String} {taken : List (Snapshot A)}

theorem unheard (k : HasHeard name led names taken p) (unknown : name ∉ names) :
    p.hears name = false := by
  simp only [Player.hears, List.any_eq_false, beq_iff_eq]
  rintro listener member rfl
  exact unknown (k.known listener member)

theorem follows (k : HasHeard name led names taken p) (served : Follows name led [] p events q) :
    HasHeard name led names (taken ++ takenFor name (p.hears name) events) q := by
  obtain ⟨new, heard, perm, ordered⟩ := served.heard
  rw [List.nil_append] at perm ordered
  have shrinks := served.shrinks
  refine ⟨k.orderly.sublist shrinks.audience, ?_, ?_, shrinks.deserted k.deserted, ?_, ?_, ?_, ?_⟩
  · exact fun listener member => k.known listener (shrinks.audience.subset member)
  · rw [shrinks.keys]
    exact fun entry member => k.keyed entry (shrinks.listeners.subset member)
  · rw [heard]
    exact k.heard.append perm
  · intro leads
    rw [heard, k.ordered leads, ordered leads]
  · intro unknown
    have absent := k.unheard unknown
    rw [k.early unknown, absent, served.gone absent, List.nil_append]
  · intro stays
    have before := shrinks.hears stays
    have live := (shrinks.deserted k.deserted).live stays
    rw [before, served.still stays, served.shown live]
    cases found : snapshotsOf events with
    | nil => simpa using k.latest before
    | cons first rest => exact .inr (by simp [List.getLast?_cons])

theorem joined (k : HasHeard name led names taken p) {other : String} {reaction : Nat → Reaction A}
    (live : p.disposed = false) (fresh : other ∉ names) (loyal : ∀ number, (reaction number).Loyal)
    (leads : led → other = name → ∀ listener ∈ p.audience, listener.Calm) :
    HasHeard name led (names ++ [other]) taken (p.joined other reaction) := by
  have audience : (p.joined other reaction).audience = p.audience ++ [⟨other, reaction⟩] := by
    simp [Player.joined, Player.audience]
  have apart : ∀ listener ∈ p.audience, listener.name ≠ other := by
    rintro listener member rfl
    exact fresh (k.known listener member)
  refine ⟨⟨?_, ?_⟩, ?_, ?_, ?_, k.heard, k.ordered, ?_, ?_⟩
  · rw [audience]
    exact List.forall_mem_append.mpr ⟨k.orderly.loyal, by simpa [Listener.Loyal] using loyal⟩
  · rw [audience, List.pairwise_append]
    refine ⟨k.orderly.ranked, List.pairwise_singleton _ _, ?_⟩
    intro listener member last is_last
    obtain rfl := List.mem_singleton.mp is_last
    exact ⟨apart listener member, fun led same => leads led same listener member⟩
  · rw [audience]
    refine List.forall_mem_append.mpr ⟨fun listener member => ?_, by simp⟩
    exact List.mem_append_left _ (k.known listener member)
  · intro entry member
    rcases List.mem_append.mp member with old | new
    · have different := apart entry.2 (List.mem_map_of_mem old)
      exact (Keyed.get?_put_other different _ _).trans (k.keyed entry old)
    · obtain rfl := List.mem_singleton.mp new
      exact Keyed.get?_put_self _ _ _
  · intro disposed
    rw [show (p.joined other reaction).disposed = p.disposed from rfl, live] at disposed
    cases disposed
  · exact fun unknown => k.early fun known => unknown (List.mem_append_left _ known)
  · intro hears
    rw [Player.hears, audience, List.any_append, Bool.or_eq_true] at hears
    rcases hears with before | new
    · exact k.latest before
    · obtain rfl : other = name := by simpa using new
      exact .inl (k.early fresh)

theorem step (k : HasHeard name led names taken p) {step : Step A} (loyal : step.Loyal)
    (fresh : ∀ other, step.subscribes = some other → other ∉ names)
    (leads : led → step.subscribes = some name → ∀ listener ∈ p.audience, listener.Calm) :
    HasHeard name led (names ++ step.subscribes.toList)
      (taken ++ takenFor name (p.hears name) (p.stepEvents step)) (p.stepped step) := by
  rcases step_follows k.orderly step with
    ⟨other, reaction, rfl, live, events, stepped⟩ | ⟨stays, served⟩ | ⟨_, events, stepped⟩
  · rw [events, stepped, takenFor, List.append_nil]
    exact k.joined live (fresh other rfl) loyal fun led same => leads led (congrArg some same)
  · have served := k.follows served
    rw [stays, Option.toList_none, List.append_nil]
    rwa [takenFor_append, takenFor, takenFor, List.append_nil] at served
  · rw [events, stepped, takenFor, List.append_nil]
    exact { k with
      known := fun listener member => List.mem_append_left _ (k.known listener member)
      early := fun unknown => k.early fun known => unknown (List.mem_append_left _ known) }

theorem session (k : HasHeard name led names taken p) {steps : List (Step A)}
    (loyal : ∀ step ∈ steps, step.Loyal) (distinct : (names ++ subscriptions steps).Nodup)
    (leads : led → p.CalmAheadOf name steps) (subscribed : Bool) :
    HasHeard name led (names ++ subscriptions steps)
      (taken ++ takenFor name subscribed (p.trace steps)) (p.after steps) := by
  induction steps generalizing p names taken subscribed with
  | nil => simpa [subscriptions, trace, takenFor, after] using k
  | cons step rest ih =>
    obtain ⟨head, tail⟩ := List.forall_mem_cons.mp loyal
    obtain ⟨fresh, further⟩ := distinct_cons distinct
    have stepped := k.step head fresh fun held => (leads held).1
    have later := ih stepped tail further (fun held => (leads held).2)
      (attends name (p.hears name) (p.stepEvents step))
    rw [List.append_assoc taken, ← takenFor_append, List.append_assoc names,
      ← subscriptions_cons] at later
    exact later

theorem silenced (k : HasHeard name led names taken p) (absent : p.hears name = false)
    {steps : List (Step A)} (loyal : ∀ step ∈ steps, step.Loyal)
    (distinct : (names ++ subscriptions steps).Nodup) (leads : led → p.CalmAheadOf name steps)
    (others : name ∉ subscriptions steps) : (p.after steps).heard name = p.heard name := by
  induction steps generalizing p names taken with
  | nil => rfl
  | cons step rest ih =>
    obtain ⟨head, tail⟩ := List.forall_mem_cons.mp loyal
    obtain ⟨fresh, further⟩ := distinct_cons distinct
    rw [subscriptions_cons, List.mem_append, not_or] at others
    have stepped := k.step head fresh fun held => (leads held).1
    have kept : (p.stepped step).heard name = p.heard name ∧
        (p.stepped step).hears name = false := by
      rcases step_follows k.orderly step with
        ⟨other, reaction, rfl, live, events, joined⟩ | ⟨stays, served⟩ | ⟨_, events, same⟩
      · rw [joined]
        refine ⟨rfl, ?_⟩
        have different : other ≠ name := by
          rintro rfl
          exact others.1 (by simp [Step.subscribes, Command.subscribes])
        simpa [Player.hears, Player.audience, Player.joined, different] using absent
      · obtain ⟨new, heard, perm, -⟩ := served.heard
        rw [absent, served.gone absent] at perm
        exact ⟨by simpa [List.perm_nil.mp perm] using heard, served.shrinks.absent absent⟩
      · rw [same]
        exact ⟨rfl, absent⟩
    have later := ih stepped kept.2 tail further (fun held => (leads held).2) others.2
    exact later.trans kept.1

theorem released (k : HasHeard name led names taken p) {step : Step A}
    (releases : p.Releases name step) : (p.stepped step).hears name = false := by
  match step with
  | .command (.unsubscribe other) =>
    obtain rfl : other = name := releases
    have transition := p.turn_transition (.unsubscribe other)
    have silent := transition.silent rfl
    have staying := transition.staying (by simp)
    have left : p.stepped (.command (.unsubscribe other)) = (p.unsubscribe other).player := by
      simp only [stepped, run, perform, Turn.finish, silent, staying, Bool.false_eq_true,
        ↓reduceIte]
      rfl
    simp only [left, Player.hears, Player.audience, List.any_map, List.any_eq_false]
    intro entry member same
    obtain rfl : entry.2.name = other := by simpa using same
    unfold unsubscribe at member
    cases found : Keyed.get? entry.2.name p.keys with
    | none =>
      rw [found] at member
      simp [k.keyed entry member] at found
    | some key =>
      rw [found] at member
      obtain ⟨inside, apart⟩ := List.mem_filter.mp member
      rw [k.keyed entry inside, Option.some_inj] at found
      simp [found] at apart
  | .command .dispose =>
    cases disposed : p.disposed with
    | true =>
      have same : p.stepped (.command .dispose) = p := by
        simp [stepped, run, perform, turn, dispose, disposed, Turn.finish]
      simp [same, Player.hears, Player.audience, k.deserted disposed]
    | false =>
      have result : p.stop.result.toBool = true := by
        simpa [Releases, run, perform, turn, dispose, disposed, Turn.finish] using releases
      have closed : ∃ q, p.stepped (.command .dispose) = Player.closed q := by
        simp only [stepped, run, perform, turn, dispose, disposed, Turn.finish, result,
          Bool.false_eq_true, ↓reduceIte]
        exact ⟨_, rfl⟩
      obtain ⟨q, closed⟩ := closed
      rw [closed]
      rfl

end HasHeard

theorem new_hasHeard {quality : Value A} {resolver : MotionResolver A} {clock : Number A}
    {cancels : Bool} (made : new quality resolver clock cancels = .ok p) :
    HasHeard name led [] [] p := by
  obtain ⟨quality, _, made⟩ := bind_eq_ok made
  cases made
  refine ⟨⟨?_, .nil⟩, ?_, ?_, ?_, .nil, fun _ => rfl, fun _ => rfl, ?_⟩ <;>
    simp [Player.audience, Player.Deserted, Player.hears]

/-- Whatever listeners do while they are being told, but for subscribing others: a listener hears
    of each snapshot that is taken while it is subscribed once, and of no other.  If nobody who
    takes snapshots listened already when it subscribed, it hears of them in the order in which
    they are taken, and while it is subscribed what it heard of last is the snapshot of the player.
    Once it has been unsubscribed, or the player disposed of, from outside, it hears of nothing. -/
theorem snapshots_heard_while_subscribed {quality : Value A} {resolver : MotionResolver A}
    {clock : Number A} {cancels : Bool} (made : new quality resolver clock cancels = .ok p)
    (steps : List (Step A)) (loyal : ∀ step ∈ steps, step.Loyal)
    (distinct : (subscriptions steps).Nodup) (name : String) :
    ((p.after steps).heard name).Perm (takenFor name false (p.trace steps)) ∧
    (p.CalmAheadOf name steps →
      (p.after steps).heard name = takenFor name false (p.trace steps) ∧
      ((p.after steps).hears name = true → (p.after steps).heard name ≠ [] →
        ((p.after steps).heard name).getLast? = some (p.after steps).snapshot)) ∧
    (∀ before ends more, steps = before ++ ends :: more → name ∈ subscriptions before →
      (p.after before).Releases name ends →
      (p.after steps).heard name = (p.after (before ++ [ends])).heard name) := by
  have start : HasHeard name (p.CalmAheadOf name steps) [] [] p := new_hasHeard made
  have k := start.session loyal distinct id false
  simp only [List.nil_append] at k
  refine ⟨k.heard, fun leads => ⟨k.ordered leads, fun hears some => ?_⟩, ?_⟩
  · rw [k.ordered leads] at some ⊢
    exact (k.latest hears).resolve_left some
  · rintro before ends more rfl known releases
    have again : before ++ ends :: more = before ++ [ends] ++ more := by simp
    rw [again] at loyal distinct ⊢
    obtain ⟨early, late⟩ := List.forall_mem_append.mp loyal
    rw [subscriptions_append] at distinct
    obtain ⟨first, -, apart⟩ := List.nodup_append.mp distinct
    have others : name ∉ subscriptions more := by
      refine fun member => apart name ?_ name member rfl
      rw [subscriptions_append]
      exact List.mem_append_left _ known
    have start : HasHeard name False [] [] p := new_hasHeard made
    have ended := start.session early first False.elim false
    rw [subscriptions_append] at first
    have going := start.session (fun step member => early step (List.mem_append_left _ member))
      (List.nodup_append.mp first).1 False.elim false
    have absent : (p.after (before ++ [ends])).hears name = false := by
      simpa [after] using going.released releases
    have silence := ended.silenced absent late distinct False.elim others
    simpa [after] using silence

def dialTurn : Reaction .exact := .perform [.setRate (.number 2)]

theorem dialTurn_loyal : dialTurn.Loyal := by
  refine ⟨rfl, fun result => ?_⟩
  dsimp only
  split <;> trivial

theorem dialTurn_calm : dialTurn.Calm := by
  refine ⟨rfl, fun result => ?_⟩
  dsimp only
  split <;> trivial

def pacedPanel : List (Step .exact) :=
  [.command (.subscribe "dial" fun _ => dialTurn), .command (.subscribe "panel" fun _ => .done),
    .command (.seek (.number 1)), .command .play]

theorem panel_hears_in_order :
    (fresh.after pacedPanel).heard "panel" = takenFor "panel" false (fresh.trace pacedPanel) ∧
    ((fresh.after pacedPanel).heard "panel").length = 2 ∧
    ((fresh.after pacedPanel).heard "panel").getLast? = some (fresh.after pacedPanel).snapshot := by
  have made : new (.text "preview") originPlacement (.finite 100) true = .ok fresh := rfl
  have loyal : ∀ step ∈ pacedPanel, step.Loyal := by
    simp only [pacedPanel, List.forall_mem_cons]
    exact ⟨fun _ => dialTurn_loyal, fun _ => trivial, trivial, trivial, by simp⟩
  have distinct : (subscriptions pacedPanel).Nodup := by decide +kernel
  have leads : fresh.CalmAheadOf "panel" pacedPanel := by
    refine ⟨fun same => absurd same (by decide), fun _ => ?_, fun same => absurd same (by decide),
      fun same => absurd same (by decide), trivial⟩
    intro listener member number
    obtain rfl : listener = ⟨"dial", fun _ => dialTurn⟩ := List.mem_singleton.mp member
    exact dialTurn_calm
  obtain ⟨-, ordered, -⟩ := snapshots_heard_while_subscribed made pacedPanel loyal distinct "panel"
  obtain ⟨heard, last⟩ := ordered leads
  have two : ((fresh.after pacedPanel).heard "panel").length = 2 := by decide +kernel
  refine ⟨heard, two, last (by decide +kernel) ?_⟩
  intro none
  simp [none] at two

def movingLead : List (Step .exact) :=
  [.command (.subscribe "lead" fun number =>
      if number = 0 then .perform [.seek (.number 2)] else .done),
    .command (.subscribe "panel" fun _ => .done), .command (.seek (.number 1))]

def silencingLead : List (Step .exact) :=
  [.command (.subscribe "lead" fun _ => .perform [.unsubscribe "panel"]),
    .command (.subscribe "panel" fun _ => .done)]

def leaves (name : String) : Event .exact → Bool
  | .control p => !p.hears name && (p.heard name).isEmpty
  | .evaluation _ => false

/-- A later snapshot is heard of before an earlier one, and a snapshot after the listener has been
    unsubscribed. -/
theorem earlier_snapshot_heard_last :
    ((fresh.after movingLead).heard "panel").map (·.time) = [2, 1] ∧
    (fresh.after movingLead).snapshot.time = 2 ∧
    (fresh.after movingLead).hears "panel" = true ∧
    ((fresh.after silencingLead).stepEvents (.command (.seek (.number 1)))).any (leaves "panel") ∧
    (((fresh.after silencingLead).run (.seek (.number 1))).2.heard "panel").length = 1 := by
  decide +kernel

end Player
end DeclarativeAnimation
