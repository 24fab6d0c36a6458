import DeclarativeAnimation.Proofs.Playback.Delivery
import DeclarativeAnimation.Proofs.Playback.Throttle

/-! Who is subscribed to a player.  Only subscribing and unsubscribing change that, and nothing else
    that a player does asks about it.  A name stands for the latest subscription under it: to
    unsubscribe a name takes that one out, and does nothing when it is out already. -/
namespace DeclarativeAnimation
variable {A : Arithmetic}

structure Roster (A : Arithmetic) where
  nextKey : Nat
  listeners : List (Nat × Listener A)
  keys : List (String × Nat)
  log : List LogLine

def Player.roster (p : Player A) : Roster A := ⟨p.nextKey, p.listeners, p.keys, p.log⟩

def Player.swapped (p : Player A) (roster : Roster A) : Player A :=
  { p with
    nextKey := roster.nextKey, listeners := roster.listeners
    keys := roster.keys, log := roster.log }

def Turn.swapped (turn : Turn A) (roster : Roster A) : Turn A :=
  { turn with player := turn.player.swapped roster }

namespace Player

def Enrols : Command A → Prop
  | .subscribe _ _ | .unsubscribe _ => True
  | _ => False

def BeatEnrols : Beat A → Prop
  | .command given => Enrols given
  | _ => False

/-! Up to the point where the listeners are told, a player neither asks who they are nor writes to
    the log. -/
section Swapping
variable (roster : Roster A) (p : Player A)

theorem swapped_disposed : (p.swapped roster).disposed = p.disposed := rfl

theorem swapped_mode : (p.swapped roster).mode = p.mode := rfl

theorem cancelFrame_swapped : p.cancelFrame.swapped roster = (p.swapped roster).cancelFrame := by
  simp only [cancelFrame, swapped]
  split <;> rfl

theorem take_swapped (time : Number A) {next : Player A → Player A}
    (further : ∀ q : Player A, (next q).swapped roster = next (q.swapped roster)) :
    (p.take time next).swapped roster = (p.swapped roster).take time next := by
  have same : (p.swapped roster).compute time = p.compute time := rfl
  unfold take
  rw [same]
  cases p.compute time with
  | error fault => rfl
  | ok snapshot =>
    simp only [Turn.swapped, further]
    rfl

theorem tick_swapped : p.tick.swapped roster = (p.swapped roster).tick := by
  by_cases resting : p.disposed = true ∨ p.mode ≠ .playing
  · rw [tick_resting resting, tick_resting (p := p.swapped roster) resting]
    rfl
  obtain ⟨live, playing⟩ : p.disposed = false ∧ p.mode = .playing := by simpa using resting
  by_cases due : p.DueByStamp
  · rw [tick_taking live playing due, tick_taking (p := p.swapped roster) live playing due]
    exact take_swapped roster _ _ fun q => rfl
  · rw [tick_early live playing due, tick_early (p := p.swapped roster) live playing due]
    rfl

theorem started_swapped : p.started.swapped roster = (p.swapped roster).started := by
  have same : (p.swapped roster).ended = p.ended := rfl
  simp only [started, same]
  split <;> rfl

theorem moved_swapped (time : Number A) :
    (p.moved time).swapped roster = (p.swapped roster).moved time := by
  simp only [moved]
  rw [swapped_mode]
  split <;> rfl

theorem paced_swapped (rate : Number A) :
    (p.paced rate).swapped roster = (p.swapped roster).paced rate := by
  simp only [paced]
  rw [swapped_mode]
  split <;> rfl

theorem halted_swapped : p.halted.swapped roster = (p.swapped roster).halted := by
  simp only [halted, ← cancelFrame_swapped]
  rfl

theorem play_swapped : p.play.swapped roster = (p.swapped roster).play := by
  unfold play
  rw [swapped_disposed, swapped_mode, ← started_swapped, ← tick_swapped]
  split
  · rfl
  · split <;> rfl

theorem pause_swapped : p.pause.swapped roster = (p.swapped roster).pause := by
  have cancelled := cancelFrame_swapped roster { p with position := p.elapsed }
  by_cases disposed : p.disposed = true
  · rw [pause, pause, if_pos disposed, if_pos (c := (p.swapped roster).disposed = true) disposed]
    rfl
  · rw [pause, pause, if_neg disposed, if_neg (c := (p.swapped roster).disposed = true) disposed]
    by_cases rests : p.mode ≠ .playing
    · rw [if_pos rests, if_pos (c := (p.swapped roster).mode ≠ .playing) rests]
      rfl
    · rw [if_neg rests, if_neg (c := (p.swapped roster).mode ≠ .playing) rests]
      exact congrArg (fun q : Player A => ({ player := { q with mode := .paused } } : Turn A))
        cancelled

theorem stop_swapped : p.stop.swapped roster = (p.swapped roster).stop := by
  unfold stop
  rw [swapped_disposed, ← halted_swapped]
  split
  · rfl
  · exact take_swapped roster _ _ fun q => rfl

theorem dispose_swapped : p.dispose.swapped roster = (p.swapped roster).dispose := by
  unfold dispose
  rw [swapped_disposed, ← stop_swapped]
  split <;> rfl

theorem seek_swapped (time : Number A) :
    (p.seek time).swapped roster = (p.swapped roster).seek time := by
  unfold seek
  rw [swapped_disposed, ← moved_swapped]
  split
  · rfl
  · exact take_swapped roster _ _ fun q => rfl

theorem setRate_swapped (rate : Number A) :
    (p.setRate rate).swapped roster = (p.swapped roster).setRate rate := by
  simp only [setRate]
  rw [swapped_disposed, ← paced_swapped]
  split <;> rfl

theorem setQuality_swapped (quality : Quality) :
    (p.setQuality quality).swapped roster = (p.swapped roster).setQuality quality := by
  unfold setQuality
  rw [swapped_disposed]
  split <;> rfl

theorem setData_swapped (animations : List (Animation A)) (elements : Elements A)
    (chains : List (Chain A)) :
    (p.setData animations elements chains).swapped roster =
      (p.swapped roster).setData animations elements chains := by
  simp only [setData]
  rw [swapped_disposed]
  repeat' split
  all_goals rfl

theorem turn_swapped {command : Command A} (other : ¬ Enrols command) :
    (p.turn command).swapped roster = (p.swapped roster).turn command := by
  cases command with
  | play => exact p.play_swapped roster
  | pause => exact p.pause_swapped roster
  | stop => exact p.stop_swapped roster
  | dispose => exact p.dispose_swapped roster
  | seek time =>
    simp only [turn]
    split
    · exact p.seek_swapped roster _
    · rfl
  | setRate rate =>
    simp only [turn]
    split
    · exact p.setRate_swapped roster _
    · rfl
  | setQuality mode =>
    simp only [turn]
    split
    · exact p.setQuality_swapped roster _
    · rfl
  | setData animations elements chains => exact p.setData_swapped roster animations elements chains
  | subscribe name reaction => exact (other trivial).elim
  | unsubscribe name => exact (other trivial).elim

theorem beatTurn_swapped {beat : Beat A} (other : ¬ BeatEnrols beat) :
    (p.beatTurn beat).swapped roster = (p.swapped roster).beatTurn beat := by
  cases beat with
  | command command => exact p.turn_swapped roster other
  | advance time => rfl
  | call handle =>
    simp only [beatTurn]
    by_cases waits : p.Waits handle
    · rw [if_pos waits, if_pos (c := (p.swapped roster).Waits handle) waits]
      exact tick_swapped roster (p.without handle)
    · rw [if_neg waits, if_neg (c := (p.swapped roster).Waits handle) waits]
      rfl
  | lose handle =>
    simp only [beatTurn]
    by_cases held : p.frame = some handle
    · rw [if_pos held, if_pos (c := (p.swapped roster).frame = some handle) held]
      rfl
    · rw [if_neg held, if_neg (c := (p.swapped roster).frame = some handle) held]
      rfl

theorem beatTurn_roster {beat : Beat A} (other : ¬ BeatEnrols beat) :
    (p.beatTurn beat).player.roster = p.roster :=
  (congrArg (fun turn => turn.player.roster) (p.beatTurn_swapped p.roster other)).symm

end Swapping
end Player

/-- Whether a run withdraws the subscription under a name: it does so until there is another
    subscription under that name. -/
def withdrawn (name : String) : List (Beat A) → Bool
  | [] => false
  | .command (.unsubscribe other) :: rest => other = name || withdrawn name rest
  | .command (.subscribe other _) :: rest => other ≠ name && withdrawn name rest
  | _ :: rest => withdrawn name rest

/-- The subscriptions of a run that it does not withdraw. -/
def subscribed : List (Beat A) → List (Listener A)
  | [] => []
  | .command (.subscribe name reaction) :: rest =>
    (if withdrawn name rest then [] else [⟨name, reaction⟩]) ++ subscribed rest
  | _ :: rest => subscribed rest

namespace Player
variable {p q : Player A} {beat : Beat A} {beats rest : List (Beat A)}

def roll (p : Player A) : Nat × List (Nat × Listener A) × List (String × Nat) :=
  (p.nextKey, p.listeners, p.keys)

/-- The keys of the subscriptions are used up, and a name leads to the key of its own. -/
structure Ticketed (p : Player A) : Prop where
  used : ∀ entry ∈ p.listeners, entry.1 < p.nextKey
  known : ∀ name key, Keyed.get? name p.keys = some key → key < p.nextKey
  own : ∀ name key, Keyed.get? name p.keys = some key →
    ∀ entry ∈ p.listeners, entry.1 = key → entry.2.name = name

def parts (p : Player A) (beats : List (Beat A)) (entry : Nat × Listener A) : Bool :=
  Keyed.get? entry.2.name p.keys = some entry.1 && withdrawn entry.2.name beats

def remaining (p : Player A) (beats : List (Beat A)) : List (Listener A) :=
  (p.listeners.filter fun entry => !p.parts beats entry).map (·.2)

theorem Ticketed.of_roll (same : q.roll = p.roll) (k : p.Ticketed) : q.Ticketed := by
  simp only [roll, Prod.mk.injEq] at same
  obtain ⟨nextKey, listeners, keys⟩ := same
  refine ⟨?_, ?_, ?_⟩
  · rw [listeners, nextKey]
    exact k.used
  · rw [keys, nextKey]
    exact k.known
  · rw [keys, listeners]
    exact k.own

theorem remaining_of_roll (same : q.roll = p.roll) (beats : List (Beat A)) :
    q.remaining beats = p.remaining beats := by
  simp only [roll, Prod.mk.injEq] at same
  obtain ⟨-, listeners, keys⟩ := same
  simp only [remaining, parts, listeners, keys]

theorem unchanged_roll (other : ¬ BeatEnrols beat) (rest : List (Beat A)) :
    (∀ name, withdrawn name (beat :: rest) = withdrawn name rest) ∧
      subscribed (beat :: rest) = subscribed rest := by
  cases beat with
  | command command =>
    cases command with
    | subscribe name reaction => exact (other trivial).elim
    | unsubscribe name => exact (other trivial).elim
    | _ => exact ⟨fun _ => rfl, rfl⟩
  | _ => exact ⟨fun _ => rfl, rfl⟩

theorem Ticketed.joined (k : p.Ticketed) (name : String) (reaction : Nat → Reaction A) :
    (p.joined name reaction).Ticketed := by
  refine ⟨?_, ?_, ?_⟩
  · refine List.forall_mem_append.mpr ⟨fun entry member => ?_, by simp [Player.joined]⟩
    exact Nat.lt_succ_of_lt (k.used entry member)
  · intro other key found
    simp only [Player.joined] at found ⊢
    by_cases same : other = name
    · rw [same, Keyed.get?_put_self] at found
      cases found
      exact Nat.lt_succ_self _
    · rw [Keyed.get?_put_other same] at found
      exact Nat.lt_succ_of_lt (k.known other key found)
  · intro other key found
    simp only [Player.joined] at found ⊢
    refine List.forall_mem_append.mpr ⟨fun entry member held => ?_, ?_⟩
    · by_cases same : other = name
      · rw [same, Keyed.get?_put_self] at found
        cases found
        exact absurd held (Nat.ne_of_lt (k.used entry member))
      · rw [Keyed.get?_put_other same] at found
        exact k.own other key found entry member held
    · rintro entry member held
      obtain rfl := List.mem_singleton.mp member
      by_cases same : other = name
      · exact same.symm
      · rw [Keyed.get?_put_other same] at found
        exact absurd held.symm (Nat.ne_of_lt (k.known other key found))

theorem Ticketed.erased (k : p.Ticketed) (key : Nat) :
    ({ p with listeners := Keyed.erase key p.listeners } : Player A).Ticketed :=
  ⟨fun entry member => k.used entry (List.mem_of_mem_filter member), k.known,
    fun name other found entry member =>
      k.own name other found entry (List.mem_of_mem_filter member)⟩

theorem joined_remaining (k : p.Ticketed) (name : String) (reaction : Nat → Reaction A)
    (rest : List (Beat A)) :
    (p.joined name reaction).remaining rest ++ subscribed rest =
      p.remaining (.command (.subscribe name reaction) :: rest) ++
        subscribed (.command (.subscribe name reaction) :: rest) := by
  have old : ∀ entry ∈ p.listeners, (p.joined name reaction).parts rest entry =
      p.parts (.command (.subscribe name reaction) :: rest) entry := by
    intro entry member
    have used := Nat.ne_of_lt (k.used entry member)
    simp only [parts, Player.joined, withdrawn]
    by_cases same : entry.2.name = name
    · simp [same, Keyed.get?_put_self, used.symm]
    · simp [Keyed.get?_put_other same, Ne.symm same]
  have new : (p.joined name reaction).parts rest (p.nextKey, ⟨name, reaction⟩) =
      withdrawn name rest := by
    simp [parts, Player.joined, Keyed.get?_put_self]
  have listeners : (p.joined name reaction).listeners =
      p.listeners ++ [(p.nextKey, ⟨name, reaction⟩)] := rfl
  have kept : p.listeners.filter (fun entry => !(p.joined name reaction).parts rest entry) =
      p.listeners.filter fun entry =>
        !p.parts (.command (.subscribe name reaction) :: rest) entry :=
    List.filter_congr fun entry member => congrArg (!·) (old entry member)
  rw [subscribed, ← List.append_assoc]
  congr 1
  rw [remaining, remaining, listeners, List.filter_append, List.map_append, kept]
  cases ends : withdrawn name rest <;> simp [new, ends]

theorem erased_remaining (k : p.Ticketed) {name : String} {key : Nat}
    (found : Keyed.get? name p.keys = some key) (rest : List (Beat A)) :
    ({ p with listeners := Keyed.erase key p.listeners } : Player A).remaining rest =
      p.remaining (.command (.unsubscribe name) :: rest) := by
  simp only [remaining, Keyed.erase, List.filter_filter]
  congr 1
  refine List.filter_congr fun entry member => ?_
  simp only [parts, withdrawn]
  by_cases held : entry.1 = key
  · have same := k.own name key found entry member held
    simp [held, same, found]
  · by_cases same : entry.2.name = name
    · simp [held, same, found, Ne.symm held]
    · simp [held, Ne.symm same]

theorem unknown_remaining {name : String} (unknown : Keyed.get? name p.keys = none)
    (rest : List (Beat A)) :
    p.remaining rest = p.remaining (.command (.unsubscribe name) :: rest) := by
  simp only [remaining]
  congr 1
  refine List.filter_congr fun entry member => ?_
  simp only [parts, withdrawn]
  by_cases same : entry.2.name = name
  · simp [same, unknown]
  · simp [Ne.symm same]

theorem onBeat_live (quiet : p.Quiet) (calm : beat.Quiet)
    (live : (p.onBeat beat).disposed = false) :
    p.disposed = false ∧ (p.onBeat beat).roll = (p.beatTurn beat).player.roll := by
  have same := (p.beatTurn_tidy beat).disposed
  obtain ⟨q, ⟨_, _, rfl⟩, finished⟩ := finish_heard mostNested (beatTurn_quiet quiet beat calm)
  rw [(p.onBeat_finish beat).1, finished] at live ⊢
  split at live
  · cases live
  · rename_i staying
    rw [if_neg staying]
    exact ⟨same.symm.trans live, rfl⟩

theorem afterBeats_live (quiet : p.Quiet) (calm : ∀ beat ∈ beats, beat.Quiet)
    (live : (p.afterBeats beats).disposed = false) : p.disposed = false := by
  induction beats generalizing p with
  | nil => exact live
  | cons beat rest ih =>
    obtain ⟨head, tail⟩ := List.forall_mem_cons.mp calm
    exact (onBeat_live quiet head (ih (onBeat_quiet quiet beat head).2 tail live)).1

theorem Ticketed.beatTurn (k : p.Ticketed) (live : p.disposed = false) (beat : Beat A)
    (rest : List (Beat A)) :
    (p.beatTurn beat).player.Ticketed ∧
      (p.beatTurn beat).player.remaining rest ++ subscribed rest =
        p.remaining (beat :: rest) ++ subscribed (beat :: rest) := by
  by_cases enrols : BeatEnrols beat
  · match beat with
    | .command (.subscribe name reaction) =>
      have turned : (p.beatTurn (.command (.subscribe name reaction))).player =
          p.joined name reaction := by simp [Player.beatTurn, turn, subscribe, live, Player.joined]
      rw [turned]
      exact ⟨k.joined name reaction, joined_remaining k name reaction rest⟩
    | .command (.unsubscribe name) =>
      simp only [Player.beatTurn, turn, unsubscribe]
      cases found : Keyed.get? name p.keys with
      | none =>
        exact ⟨k, congrArg (· ++ subscribed rest) (unknown_remaining found rest)⟩
      | some key =>
        exact ⟨k.erased key, congrArg (· ++ subscribed rest) (erased_remaining k found rest)⟩
  · have same : (p.beatTurn beat).player.roll = p.roll :=
      congrArg (fun roster => (roster.nextKey, roster.listeners, roster.keys))
        (beatTurn_roster p enrols)
    obtain ⟨withdrawals, subscriptions⟩ := unchanged_roll enrols rest
    refine ⟨k.of_roll same, ?_⟩
    rw [remaining_of_roll same, subscriptions]
    simp only [remaining, parts, withdrawals]

theorem Ticketed.afterBeats (k : p.Ticketed) (quiet : p.Quiet) (calm : ∀ beat ∈ beats, beat.Quiet)
    (live : (p.afterBeats beats).disposed = false) :
    (p.afterBeats beats).audience = p.remaining beats ++ subscribed beats := by
  -- By induction on the run: of those who were subscribed before it, and of those who subscribe in
  -- it, the ones that it does not withdraw are left.
  induction beats generalizing p with
  | nil =>
    have nobody : p.remaining [] = p.audience := by simp [remaining, parts, withdrawn, audience]
    simp [nobody, subscribed, Player.afterBeats]
  | cons beat rest ih =>
    obtain ⟨head, tail⟩ := List.forall_mem_cons.mp calm
    have quieter := (onBeat_quiet quiet beat head).2
    obtain ⟨start, same⟩ := onBeat_live quiet head (afterBeats_live quieter tail live)
    obtain ⟨ticketed, remains⟩ := k.beatTurn start beat rest
    have later := ih (ticketed.of_roll same) quieter tail live
    rw [remaining_of_roll same, remains] at later
    exact later

end Player
end DeclarativeAnimation
