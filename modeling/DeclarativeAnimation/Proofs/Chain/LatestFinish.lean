import DeclarativeAnimation.Proofs.Chain.BackToBack
import DeclarativeAnimation.Proofs.Timing.ProgressRange
import Mathlib.Algebra.Order.Monoid.Unbundled.WithTop
import Mathlib.Data.List.Forall2

/-! Where the entries of a chain start.  An entry that waits starts, by its delay, after the latest
    of what is before it in its chain: the ends of the entries that wait, and the starts of the
    others.  So nothing counts but the delays before it and the lengths of the animations they
    are for, and none of these can be made longer without the entry starting as late or later. -/
namespace DeclarativeAnimation

open Number

def Number.IsTime (x : Number .exact) (t : WithTop Rat) : Prop :=
  (∃ q : Rat, t = q ∧ x.Denotes q) ∨ (t = ⊤ ∧ x = .infinite false)

namespace Number.IsTime
variable {x y : Number .exact} {s t : WithTop Rat}

theorem denotes {q : Rat} (is_q : x.Denotes q) : x.IsTime q := .inl ⟨q, rfl, is_q⟩

theorem endless : (Number.infinite false).IsTime ⊤ := .inr ⟨rfl, rfl⟩

theorem add (hx : x.IsTime s) (hy : y.IsTime t) : (x + y).IsTime (s + t) := by
  rcases hx with ⟨p, rfl, hp⟩ | ⟨rfl, rfl⟩ <;> rcases hy with ⟨q, rfl, hq⟩ | ⟨rfl, rfl⟩
  · exact denotes (hp.add hq)
  · obtain ⟨bounded, -⟩ := hp
    refine .inr ⟨rfl, ?_⟩
    cases x with
    | finite | negativeZero => rfl
    | infinite | nan => cases bounded
  · obtain ⟨bounded, -⟩ := hq
    refine .inr ⟨rfl, ?_⟩
    cases y with
    | finite | negativeZero => rfl
    | infinite | nan => cases bounded
  · exact endless

theorem lt_iff (hx : x.IsTime s) (hy : y.IsTime t) : x < y ↔ s < t := by
  rcases hx with ⟨p, rfl, hp⟩ | ⟨rfl, rfl⟩ <;> rcases hy with ⟨q, rfl, hq⟩ | ⟨rfl, rfl⟩
  · rw [hp.lt_iff hq, WithTop.coe_lt_coe]
  · obtain ⟨bounded, -⟩ := hp
    refine iff_of_true ?_ (WithTop.coe_lt_top p)
    cases x with
    | finite | negativeZero => rfl
    | infinite | nan => cases bounded
  · obtain ⟨bounded, -⟩ := hq
    refine iff_of_false ?_ not_top_lt
    cases y with
    | finite | negativeZero => exact Bool.false_ne_true
    | infinite | nan => cases bounded
  · exact iff_of_false Bool.false_ne_true (lt_irrefl ⊤)

theorem larger (hx : x.IsTime s) (hy : y.IsTime t) : (x.larger y).IsTime (max s t) := by
  unfold Number.larger
  split
  · rename_i less
    rwa [max_eq_right ((hx.lt_iff hy).mp less).le]
  · rename_i greater
    rwa [max_eq_left (not_lt.mp (mt (hx.lt_iff hy).mpr greater))]

end Number.IsTime

theorem Keyed.ofList_distinct {κ α : Type} [BEq κ] {entries : List (κ × α)}
    (distinct : entries.Pairwise fun e f => (e.1 == f.1) = false) : ofList entries = entries := by
  have absent (k : κ) (v : α) (table : List (κ × α)) (new : ∀ e ∈ table, (e.1 == k) = false) :
      put k v table = table ++ [(k, v)] := by
    induction table with
    | nil => rfl
    | cons first rest ih =>
      obtain ⟨head, tail⟩ := List.forall_mem_cons.mp new
      rw [put, if_neg (by simp [head]), ih tail]
      rfl
  suffices onto : ∀ table : List (κ × α),
      (table ++ entries).Pairwise (fun e f => (e.1 == f.1) = false) →
      entries.foldl (fun table e => put e.1 e.2 table) table = table ++ entries from
    onto [] distinct
  clear distinct
  induction entries with
  | nil => simp
  | cons first rest ih =>
    intro table apart
    have new := (List.pairwise_append.mp apart).2.2
    have after := absent first.1 first.2 table fun e member => new e member first List.mem_cons_self
    rw [List.foldl_cons, after, ih _ (by simpa using apart)]
    simp

/-- Without a bound on numbers every schedule has an active duration, unless its repeat count is
    none of the things it can be. -/
theorem Schedule.activeDuration_answers (s : Schedule .exact)
    (counted : s.repeatCount.IsPlain ∨ s.repeatCount.isNumeric) :
    ∃ total, s.activeDuration = .ok total := by
  have whole (v : Value .exact) : v.Fits := fun _ _ => rfl
  have settled (s : Schedule .exact) (count : IsCount s.repeatCount) :
      ∃ total, s.activeDuration = .ok total := by
    obtain ⟨_, _, total, -, -, active⟩ :=
      times_answer ⟨whole s.begin, whole s.dur, whole s.finish, whole s.repeatDur⟩ count
    exact ⟨total, active⟩
  rcases counted with plain | numeric
  · exact settled s (.inl plain)
  · cases count : s.repeatCount with
    | int n =>
      have same : s.activeDuration =
          { s with repeatCount := .number (.finite n) }.activeDuration := by
        unfold activeDuration
        rw [count]
        rfl
      rw [same]
      exact settled _ (.inr ⟨_, rfl⟩)
    | number x => exact settled s (.inr ⟨x, count⟩)
    | _ =>
      rw [count] at numeric
      cases numeric

def ChainEntry.wait (entry : ChainEntry .exact) : WithTop Rat :=
  match entry.delay.quantity? with
  | some (.infinite false) => ⊤
  | some x => ((max 0 x.rat : Rat) : WithTop Rat)
  | none => 0

namespace ChainEntry
variable {entry : ChainEntry .exact}

theorem wait_nonneg (entry : ChainEntry .exact) : 0 ≤ entry.wait := by
  unfold wait
  split
  · exact le_top
  · exact WithTop.coe_nonneg.mpr (le_max_left 0 _)
  · exact le_rfl

theorem delaySeconds_waits (numeric : entry.delay.isNumeric) :
    Answers entry.delaySeconds (·.IsTime entry.wait) := by
  have clamped (x : Number .exact) (known : entry.delay.quantity? = some x) :
      (larger 0 x).IsTime entry.wait := by
    unfold wait
    rw [known]
    cases x with
    | finite q => exact .denotes (Denotes.zero.larger (.finite q))
    | negativeZero => exact .denotes (Denotes.zero.larger ⟨rfl, rfl⟩)
    | infinite negative =>
      cases negative with
      | false => exact .endless
      | true => exact .denotes (.finite 0)
    | nan => exact .denotes (.finite 0)
  unfold delaySeconds
  cases delay : entry.delay with
  | int n => exact .ok (clamped _ (by rw [delay]; rfl))
  | number x => exact .ok (clamped x (by rw [delay]; rfl))
  | _ =>
    rw [delay] at numeric
    cases numeric

end ChainEntry

namespace Chain

/-- How long an animation of a name takes: no time if there is none, or if it has no end. -/
def stay (animations : List (Animation .exact)) (name : Value .exact) : Rat :=
  match animations.find? (·.id == name) with
  | none => 0
  | some a =>
    match a.schedule.activeDuration with
    | .ok total => if total.isFinite then total.rat else 0
    | .error _ => 0

/-- When an entry that started at a time lets the ones after it start. -/
def finish (animations : List (Animation .exact)) (p : ChainEntry .exact × WithTop Rat) :
    WithTop Rat :=
  if p.1.followsEnd then p.2 + (stay animations p.1.animation : Rat) else p.2

def latest (times : List (WithTop Rat)) : WithTop Rat := times.foldl max 0

def allEntries (chains : List (Chain .exact)) : List (ChainEntry .exact) :=
  chains.flatMap Chain.entries

/-- Animations under names of their own, in chains that hold no animation twice; how often they are
    repeated and delayed can be read. -/
structure HasDistinctEntries (animations : List (Animation .exact))
    (chains : List (Chain .exact)) : Prop where
  named : ∀ a ∈ animations, a.id.IsName
  distinct : animations.Pairwise fun a b => (a.id == b.id) = false
  counted : ∀ a ∈ animations, a.schedule.repeatCount.IsPlain ∨ a.schedule.repeatCount.isNumeric
  entered : ∀ e ∈ allEntries chains, e.animation.IsName
  delayed : ∀ e ∈ allEntries chains, e.delay.isNumeric
  apart : (allEntries chains).Pairwise fun e f => (e.animation == f.animation) = false

/-- The entries of some chains with the offsets that are found for them. -/
structure IsTimed (animations : List (Animation .exact)) (chains : List (Chain .exact))
    (timed : List (List (ChainEntry .exact × WithTop Rat))) : Prop where
  entries : timed.map (List.map Prod.fst) = chains.map Chain.entries
  answered : Answers (delays chains animations) fun offsets =>
    List.Forall₂ (fun p o => o.1 = p.1.animation ∧ o.2.IsTime p.2) timed.flatten offsets
  nonneg : ∀ p ∈ timed.flatten, 0 ≤ p.2
  start : ∀ line ∈ timed, ∀ before p after, line = before ++ p :: after →
    p.2 = if p.1.followsEnd then p.1.wait + latest (before.map (finish animations)) else p.1.wait

/-- All that an entry is to the entries after it: whether it waits, how long, and for what. -/
structure Load where
  waits : Bool
  delay : WithTop Rat
  length : Rat

def load (animations : List (Animation .exact)) (entry : ChainEntry .exact) : Load :=
  ⟨entry.followsEnd, entry.wait, stay animations entry.animation⟩

structure Load.Within (a b : Load) : Prop where
  waits : a.waits = b.waits
  delay : a.delay ≤ b.delay
  length : a.length ≤ b.length

theorem Load.Within.of_eq {a b : Load} (same : a = b) : a.Within b :=
  same ▸ ⟨rfl, le_rfl, le_rfl⟩

section Placing
variable (animations : List (Animation .exact))

def placedFrom (cursor : WithTop Rat) :
    List (ChainEntry .exact) → List (ChainEntry .exact × WithTop Rat)
  | [] => []
  | e :: rest =>
    let start := if e.followsEnd then e.wait + cursor else e.wait
    (e, start) :: placedFrom (max cursor (finish animations (e, start))) rest

theorem placedFrom_entries (cursor : WithTop Rat) (entries : List (ChainEntry .exact)) :
    (placedFrom animations cursor entries).map Prod.fst = entries := by
  induction entries generalizing cursor with
  | nil => rfl
  | cons e rest ih => rw [placedFrom, List.map_cons, ih]

theorem placedFrom_nonneg {cursor : WithTop Rat} (after_start : 0 ≤ cursor)
    (entries : List (ChainEntry .exact)) :
    ∀ p ∈ placedFrom animations cursor entries, 0 ≤ p.2 := by
  induction entries generalizing cursor with
  | nil => exact fun p member => by cases member
  | cons e rest ih =>
    rw [placedFrom, List.forall_mem_cons]
    refine ⟨?_, ih (le_max_of_le_left after_start)⟩
    dsimp only
    split
    · exact add_nonneg e.wait_nonneg after_start
    · exact e.wait_nonneg

theorem placedFrom_start {cursor : WithTop Rat} {entries : List (ChainEntry .exact)}
    {before after : List (ChainEntry .exact × WithTop Rat)} {p : ChainEntry .exact × WithTop Rat}
    (line : placedFrom animations cursor entries = before ++ p :: after) :
    p.2 = if p.1.followsEnd then
        p.1.wait + (before.map (finish animations)).foldl max cursor else p.1.wait := by
  induction before generalizing cursor entries with
  | nil =>
    obtain _ | ⟨e, rest⟩ := entries
    · cases line
    · obtain ⟨rfl, -⟩ := List.cons.inj line
      rfl
  | cons q before ih =>
    obtain _ | ⟨e, rest⟩ := entries
    · cases line
    · obtain ⟨rfl, later⟩ := List.cons.inj line
      rw [ih later, List.map_cons, List.foldl_cons]

end Placing

theorem stay_nonneg (animations : List (Animation .exact)) (name : Value .exact) :
    0 ≤ stay animations name := by
  unfold stay
  split
  · exact le_rfl
  · split
    · rename_i active
      split
      · rename_i bounded
        exact Schedule.activeDuration_nonneg active (.of_isFinite bounded)
      · exact le_rfl
    · exact le_rfl

section Offsets
variable {animations : List (Animation .exact)} {chains : List (Chain .exact)}

section Lengths
variable (named : ∀ a ∈ animations, a.id.IsName)
  (distinct : animations.Pairwise fun a b => (a.id == b.id) = false)
  (counted : ∀ a ∈ animations, a.schedule.repeatCount.IsPlain ∨ a.schedule.repeatCount.isNumeric)
include named distinct counted

theorem duration_stays {name : Value .exact} (key : name.IsName) :
    Answers (duration (table animations) name) (·.Denotes (stay animations name)) := by
  have keys : ∀ entry ∈ animations.map fun a => (a.id, a), entry.1.IsName :=
    List.forall_mem_map.mpr named
  unfold duration stay
  rw [key]
  dsimp only [bind, Except.bind]
  cases found : animations.find? (·.id == name) with
  | none =>
    have missing : Keyed.get? name (table animations) = none := by
      rw [table, Keyed.get?_ofList keys, Option.map_eq_none_iff, List.find?_eq_none]
      intro entry member
      obtain ⟨a, inside, rfl⟩ := List.mem_map.mp (List.mem_reverse.mp member)
      exact List.find?_eq_none.mp found a inside
    rw [missing]
    exact .ok .zero
  | some a =>
    have inside := List.mem_of_find?_eq_some found
    have present : Keyed.get? name (table animations) = some a :=
      Keyed.get?_distinct keys (List.pairwise_map.mpr distinct) (List.mem_map_of_mem inside)
        (by simpa using List.find?_some found)
    obtain ⟨total, active⟩ := Schedule.activeDuration_answers a.schedule (counted a inside)
    rw [present]
    dsimp only
    rw [active]
    dsimp only
    refine .ok ?_
    split
    · rename_i bounded
      exact .of_isFinite bounded
    · exact .zero

theorem offsetsFrom_placedFrom {entries : List (ChainEntry .exact)}
    (entered : ∀ e ∈ entries, e.animation.IsName) (delayed : ∀ e ∈ entries, e.delay.isNumeric)
    {x : Number .exact} {cursor : WithTop Rat} (is_cursor : x.IsTime cursor) :
    Answers (offsetsFrom (table animations) x entries) fun offsets =>
      List.Forall₂ (fun p o => o.1 = p.1.animation ∧ o.2.IsTime p.2)
        (placedFrom animations cursor entries) offsets := by
  induction entries generalizing x cursor with
  | nil => exact .ok .nil
  | cons e rest ih =>
    obtain ⟨key, keys⟩ := List.forall_mem_cons.mp entered
    obtain ⟨numeric, numerics⟩ := List.forall_mem_cons.mp delayed
    rw [offsetsFrom, placedFrom]
    refine (duration_stays named distinct counted key).bind fun length is_length => ?_
    refine (e.delaySeconds_waits numeric).bind fun delay is_delay => ?_
    have start : (if e.followsEnd then x + delay else delay).IsTime
        (if e.followsEnd then e.wait + cursor else e.wait) := by
      split
      · rw [add_comm]
        exact is_cursor.add is_delay
      · exact is_delay
    -- an entry that waits starts behind the cursor, so that its end is the latest finish
    have next : (if e.followsEnd then (if e.followsEnd then x + delay else delay) + length
          else x.larger (if e.followsEnd then x + delay else delay)).IsTime
        (max cursor (finish animations
          (e, if e.followsEnd then e.wait + cursor else e.wait))) := by
      unfold finish
      by_cases waits : e.followsEnd
      · simp only [waits, ↓reduceIte] at start ⊢
        have behind : cursor ≤ e.wait + cursor + (stay animations e.animation : Rat) :=
          (le_add_of_nonneg_left e.wait_nonneg).trans
            (le_add_of_nonneg_right (WithTop.coe_nonneg.mpr (stay_nonneg animations _)))
        rw [max_eq_right behind]
        exact start.add (.denotes is_length)
      · simp only [waits, Bool.false_eq_true, ↓reduceIte] at start ⊢
        exact is_cursor.larger start
    refine (ih keys numerics next).bind fun offsets each => ?_
    exact .ok (.cons ⟨rfl, start⟩ each)

end Lengths

/-- Chains of a bill have offsets, and these are those of their entries placed one by one. -/
theorem isTimed_placedFrom (program : HasDistinctEntries animations chains) :
    IsTimed animations chains (chains.map fun chain => placedFrom animations 0 chain.entries) where
  entries := by
    rw [List.map_map]
    exact List.map_congr_left fun chain _ => placedFrom_entries animations 0 chain.entries
  answered := by
    have each : ∀ chain ∈ chains, Answers (offsetsFrom (table animations) 0 chain.entries)
        (List.Forall₂ (fun p o => o.1 = p.1.animation ∧ o.2.IsTime p.2)
          (placedFrom animations 0 chain.entries)) := by
      intro chain member
      have inside (e : ChainEntry .exact) (own : e ∈ chain.entries) : e ∈ allEntries chains :=
        List.mem_flatMap_of_mem member own
      exact offsetsFrom_placedFrom program.named program.distinct program.counted
        (fun e own => program.entered e (inside e own))
        (fun e own => program.delayed e (inside e own)) (.denotes .zero)
    unfold delays
    rw [keyed_animations program.named]
    dsimp only [bind, Except.bind]
    refine (Answers.mapM_each chains each).bind fun offsets all => .ok ?_
    have lines : List.Forall₂ (fun p o => o.1 = p.1.animation ∧ o.2.IsTime p.2)
        (chains.map fun chain => placedFrom animations 0 chain.entries).flatten offsets.flatten :=
      List.rel_flatten (List.forall₂_map_left_iff.mpr all)
    have names : offsets.flatten.map Prod.fst = (allEntries chains).map ChainEntry.animation := by
      have placed : ((chains.map fun chain => placedFrom animations 0 chain.entries).flatten.map
          Prod.fst) = allEntries chains := by
        rw [List.map_flatten, List.map_map, allEntries, List.flatMap_def]
        exact congrArg List.flatten
          (List.map_congr_left fun chain _ => placedFrom_entries animations 0 chain.entries)
      rw [← placed, List.map_map, ← List.forall₂_eq_eq_eq, List.forall₂_map_left_iff,
        List.forall₂_map_right_iff]
      exact lines.flip.imp fun _ _ both => both.1
    rw [Keyed.ofList_distinct]
    · exact lines
    · have apart : ((allEntries chains).map ChainEntry.animation).Pairwise
          fun v w => (v == w) = false := List.pairwise_map.mpr program.apart
      rw [← names] at apart
      exact List.pairwise_map.mp apart
  nonneg := by
    intro p member
    obtain ⟨line, listed, inside⟩ := List.mem_flatten.mp member
    obtain ⟨chain, -, rfl⟩ := List.mem_map.mp listed
    exact placedFrom_nonneg animations le_rfl chain.entries p inside
  start := by
    intro line member before p after parts
    obtain ⟨chain, -, rfl⟩ := List.mem_map.mp member
    exact placedFrom_start animations parts

end Offsets

theorem foldl_max_mono {first second : List (WithTop Rat)}
    (each : List.Forall₂ (· ≤ ·) first second) {s t : WithTop Rat} (le : s ≤ t) :
    first.foldl max s ≤ second.foldl max t := by
  induction each generalizing s t with
  | nil => exact le
  | cons head _ ih => exact ih (max_le_max le head)

section Comparing
variable {animations animations' : List (Animation .exact)} {chains chains' : List (Chain .exact)}
  {timed timed' : List (List (ChainEntry .exact × WithTop Rat))}
  (found : IsTimed animations chains timed) (found' : IsTimed animations' chains' timed')
  {line line' before before' after after' : List (ChainEntry .exact × WithTop Rat)}
  {p p' : ChainEntry .exact × WithTop Rat} (listed : line ∈ timed) (listed' : line' ∈ timed')

theorem finish_mono (within : (load animations p.1).Within (load animations' p'.1))
    (start : p.2 ≤ p'.2) : finish animations p ≤ finish animations' p' := by
  have waits : p.1.followsEnd = p'.1.followsEnd := within.waits
  unfold finish
  rw [waits]
  split
  · exact add_le_add start (WithTop.coe_le_coe.mpr within.length)
  · exact start

include found found' listed listed'

theorem IsTimed.start_mono (parts : line = before ++ p :: after)
    (parts' : line' = before' ++ p' :: after') (waits : p.1.followsEnd = p'.1.followsEnd)
    (delay : p.1.wait ≤ p'.1.wait)
    (finishes : List.Forall₂ (fun q q' => finish animations q ≤ finish animations' q') before
      before') : p.2 ≤ p'.2 := by
  rw [found.start line listed before p after parts,
    found'.start line' listed' before' p' after' parts', waits]
  split
  · have later : latest (before.map (finish animations)) ≤
        latest (before'.map (finish animations')) :=
      foldl_max_mono (List.forall₂_map_left_iff.mpr (List.forall₂_map_right_iff.mpr finishes)) le_rfl
    exact add_le_add delay later
  · exact delay

theorem IsTimed.finishes_mono {todo todo' : List (ChainEntry .exact × WithTop Rat)}
    (finishes : List.Forall₂ (fun q q' => finish animations q ≤ finish animations' q') before
      before')
    (loads : List.Forall₂ (fun q q' => (load animations q.1).Within (load animations' q'.1)) todo
      todo')
    (parts : line = before ++ (todo ++ after)) (parts' : line' = before' ++ (todo' ++ after')) :
    List.Forall₂ (fun q q' => finish animations q ≤ finish animations' q') (before ++ todo)
      (before' ++ todo') := by
  induction loads generalizing before before' with
  | nil => simpa using finishes
  | @cons q q' todo todo' within _ ih =>
    have start : q.2 ≤ q'.2 := found.start_mono found' listed listed'
      (by simpa using parts) (by simpa using parts') within.waits within.delay finishes
    have more := List.rel_append finishes (.cons (finish_mono within start) .nil)
    simpa using ih more (by simpa using parts) (by simpa using parts')

theorem IsTimed.offset_mono (parts : line = before ++ p :: after)
    (parts' : line' = before' ++ p' :: after') (waits : p.1.followsEnd = p'.1.followsEnd)
    (delay : p.1.wait ≤ p'.1.wait)
    (loads : List.Forall₂ (fun q q' => (load animations q.1).Within (load animations' q'.1)) before
      before') : p.2 ≤ p'.2 :=
  found.start_mono found' listed listed' parts parts' waits delay
    (found.finishes_mono found' listed listed' .nil loads parts parts')

end Comparing

/-- Every entry of a chain gets one offset, which is not negative: its own delay, behind the latest
    finish of the entries before it if it waits.  In whatever chains, among whatever
    animations, an entry gets the same offset after the same loads, and none that is less after
    loads that are no shorter. -/
theorem offsets_follow_latest_finish {animations : List (Animation .exact)}
    {chains : List (Chain .exact)} (program : HasDistinctEntries animations chains) :
    (∃ timed, IsTimed animations chains timed) ∧
    ∀ timed, IsTimed animations chains timed →
    ∀ animations' chains' timed', IsTimed animations' chains' timed' →
    ∀ line ∈ timed, ∀ line' ∈ timed', ∀ before p after before' p' after',
      line = before ++ p :: after → line' = before' ++ p' :: after' →
      p.1.followsEnd = p'.1.followsEnd →
      (p.1.wait = p'.1.wait →
        before.map (fun q => load animations q.1) =
          before'.map (fun q => load animations' q.1) → p.2 = p'.2) ∧
      (p.1.wait ≤ p'.1.wait →
        List.Forall₂ (fun q q' => (load animations q.1).Within (load animations' q'.1)) before
          before' → p.2 ≤ p'.2) := by
  refine ⟨⟨_, isTimed_placedFrom program⟩, ?_⟩
  intro timed found animations' chains' timed' found' line listed line' listed' before p after
    before' p' after' parts parts' waits
  constructor
  · intro delay loads
    have same : List.Forall₂ (fun q q' => load animations q.1 = load animations' q'.1) before
        before' := by
      rw [← List.forall₂_eq_eq_eq, List.forall₂_map_left_iff, List.forall₂_map_right_iff] at loads
      exact loads
    apply le_antisymm
    · exact found.offset_mono found' listed listed' parts parts' waits delay.le
        (same.imp fun _ _ eq => .of_eq eq)
    · exact found'.offset_mono found listed' listed parts' parts waits.symm delay.ge
        (same.flip.imp fun _ _ eq => .of_eq eq.symm)
  · exact found.offset_mono found' listed listed' parts parts' waits

def drone : Animation .exact :=
  { id := .text "drone", target := .text "stage", subject := .attribute (.text "volume")
    schedule := { dur := .text "4s", repeatCount := .text "indefinite" } }

def repertoire (overture : String) : List (Animation .exact) :=
  [piece "overture" "1s" overture, drone, piece "aria" "0s" "1min"]

def concert : Chain .exact :=
  { id := .text "concert"
    entries := [turn "overture" 0.5, turn "drone" (-1),
      { animation := .text "bell", delay := .number 2 }, turn "aria" 0.25] }

theorem concert_distinct (overture : String) : HasDistinctEntries (repertoire overture) [concert] where
  named := by simp [repertoire, piece, drone, Value.IsName, Value.key]
  distinct := by
    have apart : ((repertoire overture).map Animation.id).Pairwise
        fun v w => (v == w) = false := by
      show List.Pairwise _ [Value.text "overture", .text "drone", .text "aria"]
      decide
    exact List.pairwise_map.mp apart
  counted := by
    intro a member
    simp only [repertoire, List.mem_cons, List.not_mem_nil, or_false] at member
    rcases member with rfl | rfl | rfl
    · exact .inl (.inl rfl)
    · exact .inl (.inr ⟨_, rfl⟩)
    · exact .inl (.inl rfl)
  entered := by simp [allEntries, concert, turn, Value.IsName, Value.key]
  delayed := by simp [allEntries, concert, turn, Value.isNumeric]
  apart := by
    have apart : (concert.entries.map ChainEntry.animation).Pairwise
        fun v w => (v == w) = false := by decide
    exact List.pairwise_map.mp apart

def concertAt (first second bell last : WithTop Rat) :
    List (List (ChainEntry .exact × WithTop Rat)) :=
  [[(turn "overture" 0.5, first), (turn "drone" (-1), second),
    ({ animation := .text "bell", delay := .number 2 }, bell), (turn "aria" 0.25, last)]]

theorem IsTimed.of_concert {overture : String}
    {timed : List (List (ChainEntry .exact × WithTop Rat))}
    (found : IsTimed (repertoire overture) [concert] timed) :
    ∃ first second bell last, timed = concertAt first second bell last := by
  obtain ⟨line, rfl, entries⟩ := List.map_eq_singleton_iff.mp found.entries
  rcases line with _ | ⟨⟨_, first⟩, _ | ⟨⟨_, second⟩, _ | ⟨⟨_, bell⟩, _ | ⟨⟨_, last⟩, _ | _⟩⟩⟩⟩
  all_goals cases entries
  exact ⟨first, second, bell, last, rfl⟩

/-- The last piece starts no earlier when the overture becomes longer. -/
theorem aria_behind_longer_overture :
    ∃ first second bell last first' second' bell' last',
      IsTimed (repertoire "2s") [concert] (concertAt first second bell last) ∧
      IsTimed (repertoire "1min") [concert] (concertAt first' second' bell' last') ∧
      last ≤ last' := by
  obtain ⟨⟨timed, found⟩, compared⟩ := offsets_follow_latest_finish (concert_distinct "2s")
  obtain ⟨⟨timed', found'⟩, -⟩ := offsets_follow_latest_finish (concert_distinct "1min")
  obtain ⟨first, second, bell, last, rfl⟩ := found.of_concert
  obtain ⟨first', second', bell', last', rfl⟩ := found'.of_concert
  have longer : ∀ name ∈ [Value.text "overture", .text "drone", .text "bell"],
      stay (repertoire "2s") name ≤ stay (repertoire "1min") name := by
    simp only [List.forall_mem_cons, List.not_mem_nil, false_implies, implies_true, and_true]
    decide +kernel
  simp only [List.forall_mem_cons, List.not_mem_nil, false_implies, implies_true, and_true] at longer
  refine ⟨first, second, bell, last, first', second', bell', last', found, found', ?_⟩
  have last := compared _ found _ _ _ found' _ (List.mem_singleton_self _) _
    (List.mem_singleton_self _) [_, _, _] _ [] [_, _, _] _ [] rfl rfl rfl
  exact last.2 le_rfl (.cons ⟨rfl, le_rfl, longer.1⟩ (.cons ⟨rfl, le_rfl, longer.2.1⟩
    (.cons ⟨rfl, le_rfl, longer.2.2⟩ .nil)))

end Chain
end DeclarativeAnimation
