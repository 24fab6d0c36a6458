import DeclarativeAnimation.Proofs.Playback.LateFrames

/-! Frames of a queue that many share.  Whoever shares it asks for frames and cancels them, between
    two runs of the queue or while a frame of his is called, and may fail at that.  A frame is
    called once at most, in the order of requests, and in the first run that begins after its
    request.  A frame that fails takes the rest of its run with it, and once a run has begun the
    frames that it took can no longer be cancelled. -/
namespace DeclarativeAnimation

inductive FrameEvent (κ : Type) where
  | requested (handle : Nat) (call : κ)
  | cancelled (handle : Nat)
  /-- A run of the frames begins. -/
  | begun
  | started (handle : Nat) (call : κ)
  | failed (handle : Nat)
  /-- The run is over. -/
  | ended
  deriving DecidableEq, Repr

/-- What somebody does who shares a queue: requests, each giving him a handle, and cancellations,
    until he is done or fails.  What it does to the world shows when it is over. -/
inductive Work (κ σ ε : Type) where
  | done (world : σ)
  | fail (fault : ε) (world : σ)
  | request (call : κ) (next : Nat → Work κ σ ε)
  | cancel (handle : Nat) (next : Work κ σ ε)

structure SharedQueue (κ σ : Type) where
  queue : FrameQueue κ
  world : σ

variable {κ σ ε : Type}

namespace Work

def perform : Work κ σ ε → FrameQueue κ → Except ε Unit × SharedQueue κ σ
  | .done world, queue => (.ok (), ⟨queue, world⟩)
  | .fail fault world, queue => (.error fault, ⟨queue, world⟩)
  | .request call next, queue =>
    let (handle, queue) := queue.request call
    (next handle).perform queue
  | .cancel handle next, queue => next.perform (queue.cancel handle)

def events : Work κ σ ε → FrameQueue κ → List (FrameEvent κ)
  | .done _, _ => []
  | .fail _ _, _ => []
  | .request call next, queue =>
    let (handle, queue) := queue.request call
    .requested handle call :: (next handle).events queue
  | .cancel handle next, queue => .cancelled handle :: next.events (queue.cancel handle)

end Work

/-- What each frame does when it is called. -/
abbrev Conduct (κ σ ε : Type) := κ → SharedQueue κ σ → Work κ σ ε

inductive SharedStep (κ σ ε : Type) where
  | work (work : SharedQueue κ σ → Work κ σ ε)
  | run

namespace SharedQueue

def unused (world : σ) : SharedQueue κ σ := ⟨{}, world⟩

variable (conduct : Conduct κ σ ε)

def call (call : κ) (s : SharedQueue κ σ) : Except ε Unit × SharedQueue κ σ :=
  (conduct call s).perform s.queue

def emptied (s : SharedQueue κ σ) : SharedQueue κ σ := { s with queue := s.queue.takeAll.2 }

def runFrames (s : SharedQueue κ σ) : Except ε Unit × SharedQueue κ σ :=
  FrameQueue.callEach (call conduct) s.queue.takeAll.1 s.emptied

def callEvents : List (Nat × κ) → SharedQueue κ σ → List (FrameEvent κ)
  | [], _ => []
  | (handle, k) :: rest, s =>
    .started handle k :: ((conduct k s).events s.queue ++
      match call conduct k s with
      | (.ok (), s) => callEvents rest s
      | (.error _, _) => [.failed handle])

def stepped (s : SharedQueue κ σ) : SharedStep κ σ ε → SharedQueue κ σ
  | .work work => ((work s).perform s.queue).2
  | .run => (s.runFrames conduct).2

def stepEvents (s : SharedQueue κ σ) : SharedStep κ σ ε → List (FrameEvent κ)
  | .work work => (work s).events s.queue
  | .run => .begun :: (callEvents conduct s.queue.takeAll.1 s.emptied ++ [.ended])

def history (s : SharedQueue κ σ) : List (SharedStep κ σ ε) → List (FrameEvent κ)
  | [] => []
  | step :: rest => s.stepEvents conduct step ++ (s.stepped conduct step).history rest

end SharedQueue

namespace FrameEvent

def request? : FrameEvent κ → Option Nat
  | .requested handle _ => some handle
  | _ => none

def start? : FrameEvent κ → Option Nat
  | .started handle _ => some handle
  | _ => none

theorem filterMap_concat {α : Type} (f : FrameEvent κ → Option α) (past : List (FrameEvent κ))
    (event : FrameEvent κ) :
    (past ++ [event]).filterMap f = past.filterMap f ++ (f event).toList := by
  rw [List.filterMap_append]
  cases given : f event <;> simp [given]

end FrameEvent

section History
variable {past during : List (FrameEvent κ)} {event : FrameEvent κ} {handle : Nat} {call : κ}

/-- The frame was requested after the last run began, and was not cancelled since. -/
def Waits (past : List (FrameEvent κ)) (handle : Nat) (call : κ) : Prop :=
  ∃ before after, past = before ++ .requested handle call :: after ∧ .begun ∉ after ∧
    .cancelled handle ∉ after

/-- The frame waited when the run began that is going on. -/
def Due (past : List (FrameEvent κ)) (handle : Nat) (call : κ) : Prop :=
  ∃ before during, past = before ++ .begun :: during ∧ Waits before handle call ∧
    .begun ∉ during ∧ .ended ∉ during

def Idle (past : List (FrameEvent κ)) : Prop :=
  ∀ before during, past = before ++ .begun :: during → .ended ∈ during

structure Punctual (history : List (FrameEvent κ)) : Prop where
  /-- A run is over before the next one begins. -/
  apart : ∀ past rest, history = past ++ .begun :: rest → Idle past
  /-- Every request gets a handle of its own. -/
  numbered : (history.filterMap FrameEvent.request?).Pairwise (· < ·)
  /-- Frames start in the order of their requests, and none of them twice. -/
  ordered : (history.filterMap FrameEvent.start?).Pairwise (· < ·)
  /-- A frame starts in the first run that begins after its request, if at all, and only if it has
      not been cancelled until then. -/
  starts : ∀ past rest handle call, history = past ++ .started handle call :: rest →
    Due past handle call
  /-- A frame that waits when a run begins starts in this run, unless one fails in it that was
      requested before. -/
  runs : ∀ before during rest handle call,
    history = before ++ .begun :: (during ++ .ended :: rest) → .ended ∉ during →
    Waits before handle call →
      .started handle call ∈ during ∨ ∃ earlier < handle, .failed earlier ∈ during

/-- Nothing is lost, repeated or revived, whatever fails and whenever something is cancelled. -/
structure Faultless (history : List (FrameEvent κ)) : Prop where
  ordered : (history.filterMap FrameEvent.start?).Pairwise (· < ·)
  /-- A frame that is cancelled before it has started never starts. -/
  cancelled : ∀ past rest handle call, history = past ++ .cancelled handle :: rest →
    .requested handle call ∈ past → .started handle call ∉ past → .started handle call ∉ rest
  /-- Every other one starts in the first run that begins after its request. -/
  runs : ∀ before between during rest handle call,
    history = before ++ .requested handle call ::
      (between ++ .begun :: (during ++ .ended :: rest)) →
    .begun ∉ between → .ended ∉ during →
    .cancelled handle ∉ between → .cancelled handle ∉ during →
      .started handle call ∈ during
  /-- What is requested in a run waits for the next one. -/
  waits : ∀ before during rest handle call,
    history = before ++ .begun :: (during ++ .ended :: rest) → .ended ∉ during →
    .requested handle call ∈ during → .started handle call ∉ during

/-- Nobody fails in a run, and a run's frames are not cancelled any more before they have started. -/
structure Undisturbed (history : List (FrameEvent κ)) : Prop where
  unfailing : ∀ handle, .failed handle ∉ history
  untouched : ∀ past rest handle call, history = past ++ .cancelled handle :: rest →
    Due past handle call → .started handle call ∈ past

section Splits
variable {α : Type} {xs ys us vs : List α} {a b : α}

theorem split_cases (same : xs ++ a :: ys = us ++ b :: vs) :
    (∃ between, us = xs ++ a :: between ∧ ys = between ++ b :: vs) ∨
      (xs = us ∧ a = b ∧ ys = vs) ∨
      ∃ between, xs = us ++ b :: between ∧ vs = between ++ a :: ys := by
  rcases List.append_eq_append_iff.mp same with ⟨gap, rfl, rest⟩ | ⟨gap, rfl, rest⟩
  · cases gap with
    | nil =>
      obtain ⟨rfl, rfl⟩ := List.cons.inj rest
      exact .inr (.inl ⟨by simp, rfl, rfl⟩)
    | cons c gap =>
      obtain ⟨rfl, rfl⟩ := List.cons.inj rest
      exact .inl ⟨gap, rfl, rfl⟩
  · cases gap with
    | nil =>
      obtain ⟨rfl, rfl⟩ := List.cons.inj rest
      exact .inr (.inl ⟨by simp, rfl, rfl⟩)
    | cons c gap =>
      obtain ⟨rfl, rfl⟩ := List.cons.inj rest
      exact .inr (.inr ⟨gap, rfl, rfl⟩)

theorem split_concat (same : xs ++ [a] = us ++ b :: vs) :
    (xs = us ∧ a = b ∧ vs = []) ∨ ∃ rest, xs = us ++ b :: rest ∧ vs = rest ++ [a] := by
  rcases split_cases same with ⟨between, -, none⟩ | ⟨front, here, none⟩ | later
  · exact absurd none (by simp)
  · exact .inl ⟨front, here, none.symm⟩
  · exact .inr later

end Splits

theorem waits_concat : Waits (past ++ [event]) handle call ↔
    event = .requested handle call ∨
      Waits past handle call ∧ event ≠ .begun ∧ event ≠ .cancelled handle := by
  constructor
  · rintro ⟨before, after, same, still, kept⟩
    rcases split_concat same with ⟨-, here, -⟩ | ⟨rest, parted, rfl⟩
    · exact .inl here
    · simp only [List.mem_append, List.mem_singleton, not_or] at still kept
      exact .inr ⟨⟨before, rest, parted, still.1, kept.1⟩, Ne.symm still.2, Ne.symm kept.2⟩
  · rintro (rfl | ⟨⟨before, after, rfl, still, kept⟩, other, alive⟩)
    · exact ⟨past, [], rfl, List.not_mem_nil, List.not_mem_nil⟩
    · refine ⟨before, after ++ [event], by simp, ?_, ?_⟩
      · simpa using ⟨still, Ne.symm other⟩
      · simpa using ⟨kept, Ne.symm alive⟩

theorem Waits.requested (waits : Waits past handle call) : .requested handle call ∈ past := by
  obtain ⟨before, after, rfl, -⟩ := waits
  simp

theorem Due.requested (due : Due past handle call) : .requested handle call ∈ past := by
  obtain ⟨before, during, rfl, waits, -⟩ := due
  exact List.mem_append_left _ waits.requested

theorem Due.concat (due : Due past handle call) (going : event ≠ .begun ∧ event ≠ .ended) :
    Due (past ++ [event]) handle call := by
  obtain ⟨before, during, rfl, waits, one, still⟩ := due
  refine ⟨before, during ++ [event], by simp, waits, ?_, ?_⟩
  · simpa using ⟨one, Ne.symm going.1⟩
  · simpa using ⟨still, Ne.symm going.2⟩

def Served (past : List (FrameEvent κ)) (taken : List (Nat × κ)) : Prop :=
  ∀ before during handle call, past = before ++ .begun :: during → .ended ∉ during →
    Waits before handle call →
      .started handle call ∈ during ∨ (handle, call) ∈ taken ∨
        ∃ earlier < handle, .failed earlier ∈ during

theorem Served.concat {taken taken' : List (Nat × κ)} (served : Served past taken)
    (begins : event = .begun → ∀ handle call, Waits past handle call → (handle, call) ∈ taken')
    (moves : event ≠ .ended → ∀ handle call, (handle, call) ∈ taken →
      event = .started handle call ∨ (handle, call) ∈ taken' ∨
        ∃ earlier < handle, event = .failed earlier) :
    Served (past ++ [event]) taken' := by
  intro before during handle call same still waits
  rcases split_concat same with ⟨rfl, here, -⟩ | ⟨rest, parted, rfl⟩
  · exact .inr (.inl (begins here handle call waits))
  · simp only [List.mem_append, List.mem_singleton, not_or] at still ⊢
    rcases served before rest handle call parted still.1 waits with
      started | kept | ⟨earlier, less, failed⟩
    · exact .inl (.inl started)
    · rcases moves (Ne.symm still.2) handle call kept with
        rfl | kept | ⟨earlier, less, rfl⟩
      · exact .inl (.inr rfl)
      · exact .inr (.inl kept)
      · exact .inr (.inr ⟨earlier, less, .inr rfl⟩)
    · exact .inr (.inr ⟨earlier, less, .inl failed⟩)

theorem pairwise_concat {xs : List Nat} {n : Option Nat} (sorted : xs.Pairwise (· < ·))
    (last : ∀ m ∈ n, ∀ x ∈ xs, x < m) : (xs ++ n.toList).Pairwise (· < ·) := by
  refine List.pairwise_append.mpr ⟨sorted, by cases n <;> simp, ?_⟩
  intro x member m new
  exact last m (by simpa using new) x member

theorem Punctual.concat (punctual : Punctual past)
    (apart : event = .begun → Idle past)
    (numbered : ∀ number ∈ event.request?, ∀ other ∈ past.filterMap FrameEvent.request?,
      other < number)
    (ordered : ∀ number ∈ event.start?, ∀ other ∈ past.filterMap FrameEvent.start?,
      other < number)
    (starts : ∀ handle call, event = .started handle call → Due past handle call)
    (ends : event = .ended → Served past []) : Punctual (past ++ [event]) where
  apart before rest same := by
    rcases split_concat same with ⟨rfl, here, -⟩ | ⟨rest, parted, -⟩
    · exact apart here
    · exact punctual.apart before rest parted
  numbered := by
    rw [FrameEvent.filterMap_concat]
    exact pairwise_concat punctual.numbered numbered
  ordered := by
    rw [FrameEvent.filterMap_concat]
    exact pairwise_concat punctual.ordered ordered
  starts before rest handle call same := by
    rcases split_concat same with ⟨rfl, here, -⟩ | ⟨rest, parted, -⟩
    · exact starts handle call here
    · exact punctual.starts before rest handle call parted
  runs before during rest handle call same still waits := by
    rw [← List.cons_append, ← List.append_assoc] at same
    rcases split_concat same with ⟨parted, here, -⟩ | ⟨rest, parted, -⟩
    · rcases ends here before during handle call parted still waits with
        started | kept | lost
      · exact .inl started
      · cases kept
      · exact .inr lost
    · rw [List.append_assoc, List.cons_append] at parted
      exact punctual.runs before during rest handle call parted still waits

end History

/-- How a queue with the frames that its run has taken comes about: between two runs there are
    none. -/
inductive Passes : List (FrameEvent κ) → FrameQueue κ → Option (List (Nat × κ)) → Prop where
  | unused : Passes [] {} none
  | requested {past queue taken} (call : κ) (before : Passes past queue taken) :
      Passes (past ++ [.requested (queue.request call).1 call]) (queue.request call).2 taken
  | cancelled {past queue taken} (handle : Nat) (before : Passes past queue taken) :
      Passes (past ++ [.cancelled handle]) (queue.cancel handle) taken
  | begun {past queue} (before : Passes past queue none) :
      Passes (past ++ [.begun]) queue.takeAll.2 (some queue.takeAll.1)
  | started {past queue handle call rest} (before : Passes past queue (some ((handle, call) :: rest))) :
      Passes (past ++ [.started handle call]) queue (some rest)
  | failed {past queue handle call rest} (before : Passes past queue (some rest))
      (started : .started handle call ∈ past) : Passes (past ++ [.failed handle]) queue (some [])
  | ended {past queue} (before : Passes past queue (some [])) :
      Passes (past ++ [.ended]) queue none

structure Books (past : List (FrameEvent κ)) (queue : FrameQueue κ) (taken : List (Nat × κ)) :
    Prop where
  cancels : queue.cancels = true
  fresh : ∀ handle call, .requested handle call ∈ past → handle < queue.nextHandle
  /-- Those that have started, those that the run has still to call, and those that wait. -/
  line : (past.filterMap FrameEvent.start? ++
    (taken.map (·.1) ++ queue.pending.map (·.1))).Pairwise (· < ·)
  waiting : ∀ handle call, (handle, call) ∈ queue.pending ↔ Waits past handle call
  due : ∀ handle call, (handle, call) ∈ taken → Due past handle call
  served : Served past taken
  punctual : Punctual past

namespace Books
variable {past : List (FrameEvent κ)} {queue : FrameQueue κ} {taken rest : List (Nat × κ)}
  {handle : Nat} {call : κ}

theorem of_request? (books : Books past queue taken) :
    ∀ number ∈ past.filterMap FrameEvent.request?, number < queue.nextHandle := by
  intro number member
  obtain ⟨event, inside, given⟩ := List.mem_filterMap.mp member
  cases event with
  | requested handle call =>
    cases given
    exact books.fresh _ call inside
  | _ => cases given

theorem of_start? (books : Books past queue taken) :
    ∀ number ∈ past.filterMap FrameEvent.start?, ∃ call, .requested number call ∈ past := by
  intro number member
  obtain ⟨event, inside, given⟩ := List.mem_filterMap.mp member
  cases event with
  | started handle call =>
    cases given
    obtain ⟨before, after, parted⟩ := List.append_of_mem inside
    refine ⟨call, ?_⟩
    rw [parted]
    exact List.mem_append_left _ (books.punctual.starts before after _ call parted).requested
  | _ => cases given

theorem below (books : Books past queue taken) :
    ∀ number ∈ past.filterMap FrameEvent.start? ++
      (taken.map (·.1) ++ queue.pending.map (·.1)), number < queue.nextHandle := by
  intro number member
  rcases List.mem_append.mp member with started | later
  · obtain ⟨call, requested⟩ := books.of_start? number started
    exact books.fresh number call requested
  · rw [← List.map_append] at later
    obtain ⟨⟨handle, call⟩, inside, rfl⟩ := List.mem_map.mp later
    refine books.fresh handle call ?_
    rcases List.mem_append.mp inside with due | waits
    · exact (books.due handle call due).requested
    · exact ((books.waiting handle call).mp waits).requested

theorem unused : Books ([] : List (FrameEvent κ)) {} [] where
  cancels := rfl
  fresh := nofun
  line := .nil
  waiting handle call := ⟨nofun, by rintro ⟨before, after, same, -⟩; simp at same⟩
  due := nofun
  served before during handle call same := by simp at same
  punctual := {
    apart := fun past rest same => by simp at same
    numbered := .nil
    ordered := .nil
    starts := fun past rest handle call same => by simp at same
    runs := fun before during rest handle call same => by simp at same }

theorem requested (books : Books past queue taken) (call : κ) :
    Books (past ++ [.requested (queue.request call).1 call]) (queue.request call).2 taken where
  cancels := books.cancels
  fresh handle other member := by
    rcases List.mem_append.mp member with old | new
    · exact Nat.lt_succ_of_lt (books.fresh handle other old)
    · cases List.mem_singleton.mp new
      exact Nat.lt_succ_self _
  line := by
    have sorted := List.pairwise_append.mpr ⟨books.line, List.pairwise_singleton _ queue.nextHandle,
      fun number member last new => (List.mem_singleton.mp new) ▸ books.below number member⟩
    rw [FrameEvent.filterMap_concat]
    simpa [FrameEvent.start?, FrameQueue.request] using sorted
  waiting handle other := by
    rw [waits_concat, ← books.waiting]
    simp [FrameQueue.request, or_comm, eq_comm]
  due handle other member := (books.due handle other member).concat (by simp)
  served := books.served.concat (by simp) fun _ _ _ member => .inr (.inl member)
  punctual := by
    refine books.punctual.concat (by simp) ?_ (by simp [FrameEvent.start?]) (by simp) (by simp)
    intro number new other member
    rw [← Option.some.inj new]
    exact books.of_request? other member

theorem cancelled (books : Books past queue taken) (handle : Nat) :
    Books (past ++ [.cancelled handle]) (queue.cancel handle) taken where
  cancels := by simp [FrameQueue.cancel, books.cancels]
  fresh other call member := by
    have old : .requested other call ∈ past := by simpa using member
    simpa [FrameQueue.cancel, books.cancels] using books.fresh other call old
  line := by
    have fewer : (queue.pending.filter fun frame => frame.1 ≠ handle).Sublist queue.pending :=
      List.filter_sublist
    have shorter := (List.Sublist.refl (past.filterMap FrameEvent.start?)).append
      ((List.Sublist.refl (taken.map (·.1))).append (fewer.map (·.1)))
    rw [FrameEvent.filterMap_concat]
    simpa [FrameEvent.start?, FrameQueue.cancel, books.cancels] using books.line.sublist shorter
  waiting other call := by
    rw [waits_concat, ← books.waiting, FrameQueue.cancel, if_pos books.cancels]
    simp [@eq_comm _ handle]
  due other call member := (books.due other call member).concat ⟨nofun, nofun⟩
  served := books.served.concat nofun fun _ _ _ member => .inr (.inl member)
  punctual := books.punctual.concat nofun nofun nofun nofun nofun

theorem begun (books : Books past queue []) (idle : Idle past) :
    Books (past ++ [.begun]) queue.takeAll.2 queue.takeAll.1 where
  cancels := books.cancels
  fresh handle call member := books.fresh handle call (by simpa using member)
  line := by
    rw [FrameEvent.filterMap_concat]
    simpa [FrameEvent.start?, FrameQueue.takeAll] using books.line
  waiting handle call := by simp [waits_concat, FrameQueue.takeAll]
  due handle call member :=
    ⟨past, [], rfl, (books.waiting handle call).mp member, List.not_mem_nil, List.not_mem_nil⟩
  served := books.served.concat (fun _ handle call => (books.waiting handle call).mpr) nofun
  punctual := books.punctual.concat (fun _ => idle) nofun nofun nofun nofun

theorem started (books : Books past queue ((handle, call) :: rest)) :
    Books (past ++ [.started handle call]) queue rest where
  cancels := books.cancels
  fresh other call' member := books.fresh other call' (by simpa using member)
  line := by
    rw [FrameEvent.filterMap_concat]
    simpa [FrameEvent.start?] using books.line
  waiting other call' := by rw [waits_concat, ← books.waiting]; simp
  due other call' member :=
    (books.due other call' (List.mem_cons_of_mem _ member)).concat ⟨nofun, nofun⟩
  served := by
    refine books.served.concat nofun fun _ other call' member => ?_
    rcases List.mem_cons.mp member with same | later
    · cases same
      exact .inl rfl
    · exact .inr (.inl later)
  punctual := by
    refine books.punctual.concat nofun nofun ?_ ?_ nofun
    · rintro number ⟨⟩ other member
      have sorted := List.pairwise_append.mp books.line
      exact sorted.2.2 other member handle (by simp)
    · rintro _ _ ⟨⟩
      exact books.due handle call List.mem_cons_self

theorem failed (books : Books past queue rest) (started : .started handle call ∈ past) :
    Books (past ++ [.failed handle]) queue [] where
  cancels := books.cancels
  fresh other call' member := books.fresh other call' (by simpa using member)
  line := by
    have shorter := (List.Sublist.refl (past.filterMap FrameEvent.start?)).append
      (List.sublist_append_right (rest.map (·.1)) (queue.pending.map (·.1)))
    rw [FrameEvent.filterMap_concat]
    simpa [FrameEvent.start?] using books.line.sublist shorter
  waiting other call' := by rw [waits_concat, ← books.waiting]; simp
  due := nofun
  served := by
    refine books.served.concat nofun fun _ other call' member => .inr (.inr ⟨handle, ?_, rfl⟩)
    have sorted := List.pairwise_append.mp books.line
    refine sorted.2.2 handle (List.mem_filterMap.mpr ⟨_, started, rfl⟩) other ?_
    exact List.mem_append_left _ (List.mem_map.mpr ⟨_, member, rfl⟩)
  punctual := books.punctual.concat nofun nofun nofun nofun nofun

theorem ended (books : Books past queue []) : Books (past ++ [.ended]) queue [] where
  cancels := books.cancels
  fresh handle call member := books.fresh handle call (by simpa using member)
  line := by
    rw [FrameEvent.filterMap_concat]
    simpa [FrameEvent.start?] using books.line
  waiting handle call := by rw [waits_concat, ← books.waiting]; simp
  due := nofun
  served := books.served.concat nofun fun other => absurd rfl other
  punctual := books.punctual.concat nofun nofun nofun nofun fun _ => books.served

end Books

theorem Idle.concat {past : List (FrameEvent κ)} {event : FrameEvent κ} (idle : Idle past)
    (other : event ≠ .begun) : Idle (past ++ [event]) := by
  intro before during same
  rcases split_concat same with ⟨-, here, -⟩ | ⟨rest, parted, rfl⟩
  · exact absurd here other
  · exact List.mem_append_left _ (idle before rest parted)

theorem Passes.idle {past : List (FrameEvent κ)} {queue : FrameQueue κ}
    {taken : Option (List (Nat × κ))} (passes : Passes past queue taken) (none : taken = none) :
    Idle past := by
  induction passes with
  | unused =>
    intro before during same
    simp at same
  | requested call _ ih => exact (ih none).concat nofun
  | cancelled handle _ ih => exact (ih none).concat nofun
  | begun => cases none
  | started => cases none
  | failed => cases none
  | ended before ih =>
    intro before during same
    rcases split_concat same with ⟨-, here, -⟩ | ⟨rest, -, rfl⟩
    · cases here
    · exact List.mem_append_right _ List.mem_cons_self

theorem Passes.books {past : List (FrameEvent κ)} {queue : FrameQueue κ}
    {taken : Option (List (Nat × κ))} (passes : Passes past queue taken) :
    Books past queue (taken.getD []) := by
  induction passes with
  | unused => exact .unused
  | requested call _ ih => exact ih.requested call
  | cancelled handle _ ih => exact ih.cancelled handle
  | begun before ih => exact ih.begun (before.idle rfl)
  | started _ ih => exact ih.started
  | failed _ started ih => exact ih.failed started
  | ended _ ih => exact ih.ended

section Running
variable {past : List (FrameEvent κ)} {queue : FrameQueue κ} {taken : Option (List (Nat × κ))}

theorem Work.passes (work : Work κ σ ε) (passes : Passes past queue taken) :
    Passes (past ++ work.events queue) (work.perform queue).2.queue taken := by
  induction work generalizing past queue with
  | done world => simpa [events, perform] using passes
  | fail fault world => simpa [events, perform] using passes
  | request call next ih =>
    have later := ih (queue.request call).1 (passes.requested call)
    simpa [events, perform] using later
  | cancel handle next ih =>
    have later := ih (passes.cancelled handle)
    simpa [events, perform] using later

namespace SharedQueue
variable (conduct : Conduct κ σ ε) {s : SharedQueue κ σ}

theorem callEvents_passes (frames : List (Nat × κ)) (passes : Passes past s.queue (some frames)) :
    Passes (past ++ callEvents conduct frames s)
      (FrameQueue.callEach (call conduct) frames s).2.queue (some []) := by
  induction frames generalizing past s with
  | nil => simpa [callEvents, FrameQueue.callEach] using passes
  | cons frame rest ih =>
    obtain ⟨handle, k⟩ := frame
    have called := (conduct k s).passes passes.started
    change Passes _ (call conduct k s).2.queue _ at called
    rw [callEvents, FrameQueue.callEach]
    rcases met : call conduct k s with ⟨_ | _, t⟩
    · rw [met] at called
      have lost := called.failed (show FrameEvent.started handle k ∈ _ by simp)
      simpa using lost
    · rw [met] at called
      simpa using ih called

theorem stepEvents_passes (step : SharedStep κ σ ε) (passes : Passes past s.queue none) :
    Passes (past ++ s.stepEvents conduct step) (s.stepped conduct step).queue none := by
  cases step with
  | work work => exact (work s).passes passes
  | run =>
    have called := callEvents_passes conduct (s := s.emptied) s.queue.takeAll.1 passes.begun
    simpa [stepEvents, stepped, runFrames] using called.ended

theorem history_passes (steps : List (SharedStep κ σ ε)) (passes : Passes past s.queue none) :
    ∃ queue, Passes (past ++ s.history conduct steps) queue none := by
  induction steps generalizing past s with
  | nil => exact ⟨s.queue, by simpa [history] using passes⟩
  | cons step rest ih =>
    obtain ⟨queue, later⟩ := ih (stepEvents_passes conduct step passes)
    exact ⟨queue, by simpa [history] using later⟩

theorem history_punctual (world : σ) (steps : List (SharedStep κ σ ε)) :
    Punctual ((unused world).history conduct steps) := by
  obtain ⟨queue, passes⟩ :=
    history_passes conduct (s := unused world) steps (show Passes [] _ _ from .unused)
  rw [List.nil_append] at passes
  exact passes.books.punctual

end SharedQueue
end Running

namespace Punctual
variable {history : List (FrameEvent κ)}

theorem requested_once (punctual : Punctual history) {past rest : List (FrameEvent κ)}
    {handle : Nat} {call : κ} (same : history = past ++ rest)
    (requested : .requested handle call ∈ past) (other : κ) :
    .requested handle other ∉ rest := by
  intro again
  have sorted := punctual.numbered
  rw [same, List.filterMap_append, List.pairwise_append] at sorted
  have less := sorted.2.2 handle (List.mem_filterMap.mpr ⟨_, requested, rfl⟩) handle
    (List.mem_filterMap.mpr ⟨_, again, rfl⟩)
  exact Nat.lt_irrefl handle less

theorem not_revived (punctual : Punctual history) {past rest : List (FrameEvent κ)} {handle : Nat}
    {call : κ} (same : history = past ++ .cancelled handle :: rest)
    (requested : .requested handle call ∈ past) (untaken : ¬ Due past handle call) :
    .started handle call ∉ rest := by
  intro started
  obtain ⟨between, later, rfl⟩ := List.append_of_mem started
  obtain ⟨before, during, parted, waits, one, still⟩ :=
    punctual.starts (past ++ .cancelled handle :: between) later handle call (by simp [same])
  -- The run may have begun after the cancellation or before it.
  rcases split_cases parted with ⟨gap, rfl, rfl⟩ | ⟨-, here, -⟩ | ⟨gap, rfl, rfl⟩
  · obtain ⟨front, after, parted', -, kept⟩ := waits
    rcases split_cases parted' with ⟨gap', -, rfl⟩ | ⟨-, here, -⟩ | ⟨gap', -, rfl⟩
    · refine punctual.requested_once same requested call ?_
      simp
    · cases here
    · simp at kept
  · cases here
  · simp only [List.mem_append, not_or] at one still
    exact untaken ⟨before, gap, rfl, waits, one.1, still.1⟩

theorem waits (punctual : Punctual history) {before during rest : List (FrameEvent κ)}
    {handle : Nat} {call : κ} (same : history = before ++ .begun :: (during ++ .ended :: rest))
    (going : .ended ∉ during) (requested : .requested handle call ∈ during) :
    .started handle call ∉ during := by
  intro started
  obtain ⟨earlier, later, rfl⟩ := List.append_of_mem started
  obtain ⟨front, since, parted, waited, one, -⟩ :=
    punctual.starts (before ++ .begun :: earlier) (later ++ .ended :: rest) handle call
      (by simp [same])
  rcases split_cases parted with ⟨gap, rfl, rfl⟩ | ⟨rfl, -, -⟩ | ⟨gap, -, rfl⟩
  · refine going (List.mem_append_left _ (List.mem_append_left _ ?_))
    refine punctual.apart (before ++ .begun :: gap)
      (since ++ .started handle call :: (later ++ .ended :: rest)) ?_ before gap rfl
    simp [same]
  · refine punctual.requested_once same waited.requested call ?_
    exact List.mem_cons_of_mem _ (List.mem_append_left _ requested)
  · simp at one

/-- Where nobody fails or cancels what a run has taken, nothing is lost or revived. -/
theorem faultless (punctual : Punctual history) (undisturbed : Undisturbed history) :
    Faultless history where
  ordered := punctual.ordered
  cancelled past rest handle call same requested unstarted :=
    punctual.not_revived same requested fun due =>
      unstarted (undisturbed.untouched past rest handle call same due)
  runs before between during rest handle call same one still kept _ := by
    have waits : Waits (before ++ .requested handle call :: between) handle call :=
      ⟨before, between, rfl, one, kept⟩
    rcases punctual.runs _ during rest handle call (by simp [same]) still waits with
      started | ⟨earlier, -, failed⟩
    · exact started
    · refine absurd ?_ (undisturbed.unfailing earlier)
      simp [same, failed]
  waits before during rest handle call same still requested :=
    punctual.waits same still requested

end Punctual

namespace SharedQueue

/-- Whoever shares a queue and whatever he does: a frame starts once at most, in the order of
    requests, only in the first run that begins after its request and only if it has not been
    cancelled until then.  It does start there, unless a frame fails in this run that was requested
    before it.  If no frame ever fails and nobody cancels what a run has already taken, nothing is
    lost or revived. -/
theorem shared_frames_run_once (conduct : Conduct κ σ ε) (world : σ)
    (steps : List (SharedStep κ σ ε)) :
    Punctual ((unused world).history conduct steps) ∧
      (Undisturbed ((unused world).history conduct steps) →
        Faultless ((unused world).history conduct steps)) :=
  ⟨history_punctual conduct world steps, (history_punctual conduct world steps).faultless⟩

def asking (call : κ) : SharedStep κ σ ε := .work fun s => .request call fun _ => .done s.world

def relay : Conduct Nat Unit Unit
  | 0, s => .request 1 fun _ => .request 2 fun handle => .cancel handle (.done s.world)
  | _, s => .done s.world

theorem relay_faultless :
    (unused ()).history relay [asking 0, .run, .run] =
      [.requested 1 0, .begun, .started 1 0, .requested 2 1, .requested 3 2, .cancelled 3, .ended,
        .begun, .started 2 1, .ended] ∧
    Undisturbed ((unused ()).history relay [asking 0, .run, .run]) ∧
    Faultless ((unused ()).history relay [asking 0, .run, .run]) := by
  have same : (unused ()).history relay [asking 0, .run, .run] =
      [.requested 1 0] ++ .begun :: ([.started 1 0, .requested 2 1, .requested 3 2, .cancelled 3,
        .ended] ++ .begun :: [.started 2 1, .ended]) := rfl
  have undisturbed : Undisturbed ((unused ()).history relay [asking 0, .run, .run]) := by
    refine ⟨by simp [same], ?_⟩
    rintro past rest handle call parted ⟨before, during, rfl, waits, -⟩
    rw [List.append_assoc, List.cons_append, same] at parted
    rcases split_cases parted with ⟨gap, -, later⟩ | ⟨rfl, -, later⟩ | ⟨gap, early, -⟩
    -- The frame that is cancelled was requested in the first run, so neither run had taken it.
    · rcases split_cases later with ⟨gap, -, last⟩ | ⟨-, -, last⟩ | ⟨gap, early, -⟩
      · simpa using congrArg (FrameEvent.begun ∈ ·) last
      · simpa using congrArg (FrameEvent.cancelled handle ∈ ·) last
      · simpa using congrArg (FrameEvent.begun ∈ ·) early
    · have third : handle = 3 := by simpa using congrArg (FrameEvent.cancelled handle ∈ ·) later
      simpa [third] using waits.requested
    · simpa using congrArg (FrameEvent.begun ∈ ·) early
  exact ⟨same, undisturbed, (shared_frames_run_once relay () [asking 0, .run, .run]).2 undisturbed⟩

def rescind : Conduct Nat Unit Unit
  | 0, s => .cancel 2 (.done s.world)
  | _, s => .done s.world

def stumbling : Conduct Nat Unit Unit
  | 0, s => .fail () s.world
  | _, s => .done s.world

theorem shared_frames_lost_and_revived :
    ¬ Faultless ((unused ()).history stumbling [asking 0, asking 1, .run]) ∧
    ¬ Faultless ((unused ()).history rescind [asking 0, asking 1, .run]) := by
  refine ⟨fun faultless => ?_, fun faultless => ?_⟩
  · have lost := faultless.runs [.requested 1 0] [] [.started 1 0, .failed 1] [] 2 1 rfl
    exact absurd (lost (by decide) (by decide) (by decide) (by decide)) (by decide)
  · have revived := faultless.cancelled [.requested 1 0, .requested 2 1, .begun, .started 1 0]
      [.started 2 1, .ended] 2 1 rfl
    exact revived (by decide) (by decide) (by decide)
end SharedQueue
end DeclarativeAnimation
