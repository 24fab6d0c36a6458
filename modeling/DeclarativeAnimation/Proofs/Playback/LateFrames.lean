import DeclarativeAnimation.Proofs.Playback.Beat

/-! Frames that come late, because cancelling them had no effect.  A late frame does nothing while
    the player rests.  One that is still waiting when playing begins again is taken up by the new
    frame loop and becomes a loop of its own: there are as many loops as frames were left over,
    and one more. -/
namespace DeclarativeAnimation

def Beat.starts {A : Arithmetic} : Beat A → Bool
  | .command .play => true
  | _ => false

namespace Player
variable {A : Arithmetic} {p q : Player A} {n : Nat} {gone : List Nat}

/-- The handle of the frame that a beat cancels. -/
def cancels? (p : Player A) : Beat A → Option Nat
  | .command .pause => if p.mode = .playing ∧ p.disposed = false then p.frame else none
  | .command .stop | .command .dispose => if p.disposed then none else p.frame
  | _ => none

def cancelled (p : Player A) : List (Beat A) → List Nat
  | [] => []
  | beat :: rest => (p.cancels? beat).toList ++ (p.onBeat beat).cancelled rest

/-- Whenever playing begins in a run, at most so many frames are left over from before. -/
def LeavesOver (n : Nat) (p : Player A) : List (Beat A) → Prop
  | [] => True
  | beat :: rest =>
    (beat.starts = true → p.mode ≠ .playing → p.queue.pending.length ≤ n) ∧
      (p.onBeat beat).LeavesOver n rest

instance decidableLeavesOver (n : Nat) :
    (p : Player A) → (beats : List (Beat A)) → Decidable (p.LeavesOver n beats)
  | _, [] => isTrue trivial
  | p, beat :: rest =>
    have := decidableLeavesOver n (p.onBeat beat) rest
    inferInstanceAs (Decidable (_ ∧ _))

def Inert (p : Player A) (handle : Nat) : Prop :=
  p.onBeat (.call handle) = p.without handle ∧ p.beatEvents (.call handle) = []

def pass (p : Player A) (frames : List (Nat × Unit)) : Player A :=
  (FrameQueue.callEach (fun _ => callFrame (notify mostNested)) frames
    { p with queue := p.queue.takeAll.2 }).2

/-- What happens to the frames of a player: nothing, or its frame is cancelled and it rests, or
    playing begins. -/
inductive Reframed (p : Player A) (beat : Beat A) (t : Transport A) : Prop where
  | kept (mode : t.mode = p.mode) (frame : t.frame = p.frame) (queue : t.queue = p.queue)
      (none : p.cancels? beat = none)
  | halted (rests : t.mode ≠ .playing) (frame : t.frame = none)
      (queue : t.queue = p.cancelFrame.queue) (held : p.cancels? beat = p.frame)
  | started (starts : beat.starts = true) (rested : p.mode ≠ .playing) (mode : t.mode = .playing)
      (frame : t.frame = none ∧ t.queue = p.queue ∨
        t.frame = some p.queue.nextHandle ∧ t.queue = (p.queue.request ()).2)
      (none : p.cancels? beat = none)

theorem tick_frames (p : Player A) : p.tick.player.mode = p.mode ∧
    (p.tick.player.frame = none ∧ p.tick.player.queue = p.queue ∨
      p.mode = .playing ∧ p.tick.player.frame = some p.queue.nextHandle ∧
        p.tick.player.queue = (p.queue.request ()).2) := by
  simp only [tick]
  split
  · exact ⟨rfl, .inl ⟨rfl, rfl⟩⟩
  · rename_i going
    have playing : p.mode = .playing := by simp at going; exact going.2
    split
    · simp only [take]
      split
      · exact ⟨rfl, .inl ⟨rfl, rfl⟩⟩
      · exact ⟨rfl, .inr ⟨playing, rfl, rfl⟩⟩
    · exact ⟨rfl, .inr ⟨playing, rfl, rfl⟩⟩

theorem cancelFrame_none (p : Player A) : p.cancelFrame.frame = none := by
  unfold cancelFrame
  split
  · rfl
  · rename_i idle
    exact idle

theorem paused_queue (p : Player A) : p.paused.queue = p.cancelFrame.queue := by
  simp only [paused, cancelFrame]
  split <;> rfl

theorem Reframed.stop {beat : Beat A} (held : p.cancels? beat = p.frame) :
    Reframed p beat (p.halted.take 0 id).player.transport := by
  rw [take_transport]
  exact .halted (by simp [transport, Player.halted]) p.cancelFrame_none rfl held

theorem Transition.reframes {command : Command A} {turn : Turn A}
    (transition : p.Transition command turn) :
    Reframed p (.command command) turn.player.transport := by
  cases transition with
  | mistaken faulty =>
    refine .kept rfl rfl rfl ?_
    cases command <;> first | rfl | exact faulty.elim
  | late disposed stays =>
    refine .kept rfl rfl rfl ?_
    cases command <;> simp [cancels?, disposed]
  | unknown unknown => exact .kept rfl rfl rfl rfl
  | idle idles =>
    cases idles with
    | playing live playing => exact .kept rfl rfl rfl rfl
    | resting live resting => exact .kept rfl rfl rfl (by simp [cancels?, resting])
    | disposed disposed => exact .kept rfl rfl rfl (by simp [cancels?, disposed])
  | play live rested =>
    obtain ⟨mode, frames⟩ := p.started.tick_frames
    obtain ⟨-, -, -, -, queue, -⟩ := p.started_fields
    rw [queue] at frames
    exact .started rfl rested mode (frames.imp_right And.right) rfl
  | pause live playing =>
    exact .halted (by simp [transport, paused]) (cancelFrame_none _) p.paused_queue
      (by simp [cancels?, playing, live])
  | stop live => exact .stop (by simp [cancels?, live])
  | dispose live => exact .stop (by simp [cancels?, live])
  | seek read live =>
    rw [take_transport]
    simp only [moved]
    split <;> exact .kept rfl rfl rfl rfl
  | setRate read live =>
    obtain ⟨anchor, same⟩ := p.paced_anchor _
    rw [same]
    exact .kept rfl rfl rfl rfl
  | _ => exact .kept rfl rfl rfl rfl

/-- What a run keeps: how many frames can wait while playing, and which of them cannot have been
    cancelled. -/
structure FewLoops (n : Nat) (gone : List Nat) (p : Player A) : Prop where
  quiet : p.Quiet
  resting : p.mode ≠ .playing → p.frame = none
  held : ∀ handle, p.frame = some handle → handle < p.queue.nextHandle
  past : ∀ handle ∈ gone, handle < p.queue.nextHandle
  few : p.mode = .playing → p.queue.pending.length ≤ n + 1
  clear : n = 0 → p.mode = .playing → ∀ handle ∈ gone, ¬ p.Waits handle

theorem without_fewer {handle : Nat} (waits : p.Waits handle) :
    (p.without handle).queue.pending.length < p.queue.pending.length := by
  obtain ⟨frame, member, rfl⟩ := List.mem_map.mp waits
  refine List.length_filter_lt_length_iff_exists.mpr ⟨frame, member, ?_⟩
  simp

theorem waits_of_without {handle other : Nat} (waits : (p.without handle).Waits other) :
    p.Waits other := by
  obtain ⟨frame, member, same⟩ := List.mem_map.mp waits
  exact List.mem_map.mpr ⟨frame, List.mem_of_mem_filter member, same⟩

theorem FewLoops.requested (quiet : q.Quiet) (playing : q.mode = .playing)
    (past : ∀ handle ∈ gone, handle < p.queue.nextHandle)
    (few : p.queue.pending.length ≤ n)
    (clear : n = 0 → ∀ handle ∈ gone, ¬ p.Waits handle)
    (frames : q.frame = none ∧ q.queue = p.queue ∨
      q.frame = some p.queue.nextHandle ∧ q.queue = (p.queue.request ()).2) :
    FewLoops n gone q := by
  rcases frames with ⟨frame, queue⟩ | ⟨frame, queue⟩
  · refine ⟨quiet, fun _ => frame, by simp [frame], by rwa [queue], fun _ => ?_, ?_⟩
    · rw [queue]
      omega
    · intro none _ handle member
      unfold Waits
      rw [queue]
      exact clear none handle member
  · refine ⟨quiet, fun rests => absurd playing rests, ?_, ?_, fun _ => ?_, ?_⟩
    · rintro handle held
      rw [frame] at held
      cases held
      simp [queue, FrameQueue.request]
    · intro handle member
      have bound := past handle member
      simp only [queue, FrameQueue.request]
      omega
    · simp only [queue, FrameQueue.request, List.length_append, List.length_singleton]
      omega
    · intro none _ handle member waits
      unfold Waits at waits
      simp only [queue, FrameQueue.request, List.map_append, List.mem_append, List.map_cons,
        List.map_nil, List.mem_singleton] at waits
      rcases waits with old | new
      · exact clear none handle member old
      · have bound := past handle member
        omega

theorem FewLoops.call (k : FewLoops n gone p) {handle : Nat} (waits : p.Waits handle) :
    FewLoops n gone (p.onBeat (.call handle)) := by
  obtain ⟨moved, quiet⟩ := onBeat_quiet k.quiet (.call handle) trivial
  rw [beatTurn, if_pos waits] at moved
  simp only [transport, Transport.mk.injEq] at moved
  obtain ⟨mode, -, -, -, -, -, -, frame, queue⟩ := moved
  obtain ⟨same, frames⟩ := (p.without handle).tick_frames
  have fewer := without_fewer waits
  rw [← frame, ← queue] at frames
  rw [same] at mode
  by_cases playing : p.mode = .playing
  · have next := frames.imp_right And.right
    refine FewLoops.requested (p := p.without handle) quiet (mode.trans playing) k.past ?_ ?_ next
    · have few := k.few playing
      omega
    · intro none other member late
      exact k.clear none playing other member (waits_of_without late)
  · obtain ⟨frame, queue⟩ := frames.resolve_right fun going => playing going.1
    refine ⟨quiet, fun _ => frame, by simp [frame], by rw [queue]; exact k.past, ?_, ?_⟩
    · exact fun goes => absurd (mode.symm.trans goes) playing
    · exact fun _ goes => absurd (mode.symm.trans goes) playing

theorem cancelFrame_next (p : Player A) : p.cancelFrame.queue.nextHandle = p.queue.nextHandle := by
  simp only [cancelFrame, FrameQueue.cancel]
  repeat' split
  all_goals rfl

theorem FewLoops.command (k : FewLoops n gone p) {command : Command A}
    (calm : (Step.command command).Quiet)
    (leftover : (Beat.command command).starts = true → p.mode ≠ .playing →
      p.queue.pending.length ≤ n) :
    FewLoops n (gone ++ (p.cancels? (.command command)).toList)
      (p.onBeat (.command command)) := by
  obtain ⟨moved, quiet⟩ := onBeat_quiet k.quiet (.command command) calm
  have reframed := (p.turn_transition command).reframes
  change (p.onBeat (.command command)).transport = (p.turn command).player.transport at moved
  rw [← moved] at reframed
  cases reframed with
  | kept mode frame queue none =>
    simp only [transport] at mode frame queue
    simp only [none, Option.toList_none, List.append_nil]
    refine ⟨quiet, ?_, ?_, ?_, ?_, ?_⟩
    · rw [mode, frame]
      exact k.resting
    · rw [frame, queue]
      exact k.held
    · rw [queue]
      exact k.past
    · rw [mode, queue]
      exact k.few
    · unfold Waits
      rw [mode, queue]
      exact k.clear
  | halted rests frame queue held =>
    simp only [transport] at rests frame queue
    have past : ∀ handle ∈ gone ++ p.frame.toList, handle < p.queue.nextHandle := by
      intro handle member
      rcases List.mem_append.mp member with old | new
      · exact k.past handle old
      · exact k.held handle (by simpa using new)
    rw [held]
    refine ⟨quiet, fun _ => frame, by simp [frame], ?_, ?_, ?_⟩
    · rw [queue, cancelFrame_next]
      exact past
    · exact fun goes => absurd goes rests
    · exact fun _ goes => absurd goes rests
  | started starts rested playing frames none =>
    simp only [transport] at playing frames
    simp only [none, Option.toList_none, List.append_nil]
    have few := leftover starts rested
    refine .requested quiet playing k.past few ?_ frames
    rintro rfl handle _ waits
    have empty := List.length_eq_zero_iff.mp (Nat.le_zero.mp few)
    simp [Waits, empty] at waits

theorem FewLoops.lose (k : FewLoops n gone p) (handle : Nat) :
    FewLoops n gone (p.onBeat (.lose handle)) := by
  simp only [onBeat]
  split
  · exact k
  · refine { k with few := fun playing => ?_, clear := ?_ }
    · exact Nat.le_trans (List.length_filter_le _ _) (k.few playing)
    · exact fun none playing other member late =>
        k.clear none playing other member (waits_of_without late)

theorem FewLoops.onBeat (k : FewLoops n gone p) {beat : Beat A} (calm : beat.Quiet)
    (leftover : beat.starts = true → p.mode ≠ .playing → p.queue.pending.length ≤ n) :
    FewLoops n (gone ++ (p.cancels? beat).toList) (p.onBeat beat) := by
  cases beat with
  | command command => exact k.command calm leftover
  | advance time =>
    rw [show p.cancels? (.advance time) = none from rfl, Option.toList_none, List.append_nil]
    exact { k with }
  | call handle =>
    rw [show p.cancels? (.call handle) = none from rfl, Option.toList_none, List.append_nil]
    by_cases waits : p.Waits handle
    · exact k.call waits
    · rw [Player.onBeat, if_neg waits]
      exact k
  | lose handle =>
    rw [show p.cancels? (.lose handle) = none from rfl, Option.toList_none, List.append_nil]
    exact k.lose handle

theorem FewLoops.afterBeats (k : FewLoops n gone p) {beats : List (Beat A)}
    (quiet : ∀ beat ∈ beats, beat.Quiet) (leftover : p.LeavesOver n beats) :
    FewLoops n (gone ++ p.cancelled beats) (p.afterBeats beats) := by
  induction beats generalizing p gone with
  | nil => simpa [cancelled, Player.afterBeats] using k
  | cons beat rest ih =>
    obtain ⟨calm, calmer⟩ := List.forall_mem_cons.mp quiet
    have later := ih (k.onBeat calm leftover.1) calmer leftover.2
    rwa [List.append_assoc] at later

theorem new_fewLoops {quality : Value A} {resolver : MotionResolver A} {clock : Number A}
    {cancels : Bool} (made : new quality resolver clock cancels = .ok p) : FewLoops n [] p := by
  obtain ⟨_, _, made⟩ := bind_eq_ok made
  cases made
  exact ⟨by simp [Quiet], fun _ => rfl, by simp, by simp, by simp, by simp⟩

theorem FewLoops.inert (k : FewLoops n gone p) (rests : p.mode ≠ .playing) {handle : Nat}
    (waits : p.Waits handle) : p.Inert handle := by
  have ticked : (p.without handle).tick = { player := p.without handle } := by
    have idle : { p.without handle with frame := none } = p.without handle := by
      simp [Player.without, k.resting rests]
    exact (tick_resting (p := p.without handle) (.inr rests)).trans (by rw [idle])
  refine ⟨?_, ?_⟩
  · simp only [Player.onBeat, waits, ↓reduceIte, callFrame, ticked]
    rfl
  · simp only [beatEvents, waits, ↓reduceIte, ticked]
    rfl

/-- Each frame of a pass requests one more at most, and none while the player rests. -/
theorem pass_requests (frames : List (Nat × Unit)) (quiet : p.Quiet) :
    (FrameQueue.callEach (fun _ => callFrame (notify mostNested)) frames p).2.queue.nextHandle ≤
      p.queue.nextHandle + if p.mode = .playing then frames.length else 0 := by
  induction frames generalizing p with
  | nil => simp [FrameQueue.callEach]
  | cons frame rest ih =>
    obtain ⟨moved, calm⟩ := finish_transport mostNested (tick_quiet quiet)
    change (callFrame (notify mostNested) p).2.transport = _ at moved
    change (callFrame (notify mostNested) p).2.Quiet at calm
    simp only [transport, Transport.mk.injEq] at moved
    obtain ⟨mode, -, -, -, -, -, -, -, queue⟩ := moved
    obtain ⟨same, frames⟩ := p.tick_frames
    have first : (callFrame (notify mostNested) p).2.queue.nextHandle ≤
        p.queue.nextHandle + if p.mode = .playing then 1 else 0 := by
      rw [queue]
      rcases frames with ⟨-, kept⟩ | ⟨playing, -, more⟩
      · rw [kept]
        exact Nat.le_add_right _ _
      · simp [more, playing, FrameQueue.request]
    have later := ih calm
    rw [mode, same] at later
    simp only [FrameQueue.callEach]
    rcases called : callFrame (notify mostNested) p with ⟨result, q⟩
    rw [called] at first later
    cases result with
    | error fault =>
      refine Nat.le_trans first (Nat.add_le_add_left ?_ _)
      split <;> simp
    | ok done =>
      refine Nat.le_trans later ?_
      split at first
      · simp_all
        omega
      · simp_all

/-- However late cancelled frames come, and in whatever order frames are called: a frame that is
    called while the player rests is inert, and while it plays no more frames wait and no more are
    requested in a pass than were left over when playing began, and one.  If none were left over,
    cancelled frames are always inert, and at most one that waits is not. -/
theorem loops_by_leftover_frames {quality : Value A} {resolver : MotionResolver A}
    {clock : Number A} {cancels : Bool} (made : new quality resolver clock cancels = .ok p)
    (n : Nat) (beats : List (Beat A)) (quiet : ∀ beat ∈ beats, beat.Quiet)
    (leftover : p.LeavesOver n beats) :
    (∀ handle, (p.afterBeats beats).Waits handle → (p.afterBeats beats).mode ≠ .playing →
      (p.afterBeats beats).Inert handle) ∧
    ((p.afterBeats beats).mode = .playing → (p.afterBeats beats).queue.pending.length ≤ n + 1) ∧
    (∀ frames, frames.Perm (p.afterBeats beats).queue.pending →
      ((p.afterBeats beats).pass frames).queue.nextHandle ≤
        (p.afterBeats beats).queue.nextHandle +
          if (p.afterBeats beats).mode = .playing then n + 1 else 0) ∧
    (n = 0 →
      (∀ handle ∈ p.cancelled beats, (p.afterBeats beats).Waits handle →
        (p.afterBeats beats).Inert handle) ∧
      ∀ first second, (p.afterBeats beats).Waits first → (p.afterBeats beats).Waits second →
        ¬ (p.afterBeats beats).Inert first → ¬ (p.afterBeats beats).Inert second →
        first = second) := by
  have k := (new_fewLoops (n := n) made).afterBeats quiet leftover
  rw [List.nil_append] at k
  generalize p.afterBeats beats = q at k
  refine ⟨fun handle waits rests => k.inert rests waits, k.few, ?_, ?_⟩
  · intro frames order
    have requests := pass_requests (p := { q with queue := q.queue.takeAll.2 }) frames k.quiet
    have length := order.length_eq
    refine Nat.le_trans requests (Nat.add_le_add_left ?_ _)
    by_cases playing : q.mode = .playing
    · have few := k.few playing
      simp only [playing, ↓reduceIte]
      omega
    · simp [playing]
  · intro none
    refine ⟨fun handle member waits => ?_, fun first second one two alive moving => ?_⟩
    · by_cases playing : q.mode = .playing
      · exact absurd waits (k.clear none playing handle member)
      · exact k.inert playing waits
    · have playing : q.mode = .playing := by
        by_contra rests
        exact alive (k.inert rests one)
      have few := k.few playing
      rw [none] at few
      match pending : q.queue.pending with
      | [] => simp [Waits, pending] at one
      | [frame] =>
        have only : ∀ {handle}, q.Waits handle → handle = frame.1 := by simp [Waits, pending]
        rw [only one, only two]
      | _ :: _ :: _ => simp [pending] at few

def heedless : Player .exact := { fresh with queue := { cancels := false } }

def lateBeats : List (Beat .exact) :=
  [.command .play, .command .pause, .call 1, .command .play, .advance 1, .call 2,
    .command .pause]

theorem late_frame_inert :
    new (.text "preview") originPlacement (.finite 100) false = .ok heedless ∧
    heedless.LeavesOver 0 lateBeats ∧ heedless.cancelled lateBeats = [1, 3] ∧
    (heedless.afterBeats lateBeats).Waits 3 ∧ (heedless.afterBeats lateBeats).Inert 3 := by
  have made : new (.text "preview") originPlacement (.finite 100) false = .ok heedless := rfl
  have leftover : heedless.LeavesOver 0 lateBeats := by decide +kernel
  have gone : heedless.cancelled lateBeats = [1, 3] := by decide +kernel
  have waits : (heedless.afterBeats lateBeats).Waits 3 := by decide +kernel
  have quiet : ∀ beat ∈ lateBeats, beat.Quiet := by simp [lateBeats, Beat.Quiet, Step.Quiet]
  obtain ⟨_, _, _, none⟩ := loops_by_leftover_frames made 0 lateBeats quiet leftover
  exact ⟨made, leftover, gone, waits, (none rfl).1 3 (by simp [gone]) waits⟩

def restart : List (Beat .exact) := [.command .play, .command .pause, .command .play]

theorem late_frame_doubles_loop :
    new (.text "preview") originPlacement (.finite 100) false = .ok heedless ∧
    heedless.cancelled restart = [1] ∧ (heedless.afterBeats restart).Waits 1 ∧
    ¬ (heedless.afterBeats restart).Inert 1 ∧
    (heedless.afterBeats restart).runFrame.2.queue.nextHandle =
      (heedless.afterBeats restart).queue.nextHandle + 2 := by
  refine ⟨rfl, by decide +kernel, by decide +kernel, ?_, by decide +kernel⟩
  intro inert
  have handles := congrArg (fun p => p.queue.nextHandle) inert.1
  exact absurd handles (by decide +kernel)

end Player
end DeclarativeAnimation
