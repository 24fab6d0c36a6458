import DeclarativeAnimation.Proofs.Chain.ShiftedBegin
import Mathlib.Data.List.Chain

/-! Chains of animations that wait for one another.  The offset of an entry counts the lengths and
    delays before it, but not where the animations before it begin by themselves.  So there is a
    gap between two neighbours as large as the begin and the delay of the later one, less the begin
    of the earlier one. -/
namespace DeclarativeAnimation

open Number

namespace Keyed
variable {A : Arithmetic} {α : Type} {k : Value A} {entries : List (Value A × α)}

theorem get?_distinct (named : ∀ entry ∈ entries, entry.1.IsName)
    (distinct : entries.Pairwise fun e f => (e.1 == f.1) = false) {entry : Value A × α}
    (member : entry ∈ entries) (same : (entry.1 == k) = true) :
    get? k (ofList entries) = some entry.2 := by
  have unique : ∀ other ∈ entries, (other.1 == k) = true → other = entry := by
    intro other inside also
    have alike : (entry.1 == other.1) = true :=
      (named entry member).trans same ((named other inside).symm also)
    obtain ⟨i, hi, rfl⟩ := List.mem_iff_getElem.mp member
    obtain ⟨j, hj, rfl⟩ := List.mem_iff_getElem.mp inside
    have apart := List.pairwise_iff_getElem.mp distinct
    rcases lt_trichotomy i j with less | rfl | more
    · rw [apart i j hi hj less] at alike
      cases alike
    · rfl
    · have back := (named _ member).symm alike
      rw [apart j i hj hi more] at back
      cases back
  rw [get?_ofList named]
  cases found : entries.reverse.find? (·.1 == k) with
  | none =>
    have missing := List.find?_eq_none.mp found entry (List.mem_reverse.mpr member)
    exact absurd same missing
  | some other =>
    have inside := List.mem_reverse.mp (List.mem_of_find?_eq_some found)
    have hit : (other.1 == k) = true := by simpa using List.find?_some found
    rw [unique other inside hit]
    rfl

end Keyed

namespace Chain

/-- An entry that waits for the end of the one before it, and the animation that it names, which
    has a length and no end of its own. -/
structure Link (animations : List (Animation .exact)) where
  entry : ChainEntry .exact
  animation : Animation .exact
  begin : Rat
  delay : Rat
  total : Rat
  listed : animation ∈ animations
  named : (animation.id == entry.animation) = true
  waits : entry.followsEnd = true
  begins : Answers animation.schedule.beginSeconds (·.Denotes begin)
  delayed : Answers entry.delaySeconds (·.Denotes delay)
  lasts : Answers animation.schedule.activeDuration (·.Denotes total)
  unended : ClockValue.read? animation.schedule.finish = .ok none

variable {animations : List (Animation .exact)}

theorem Link.total_nonneg (k : Link animations) : 0 ≤ k.total := by
  obtain ⟨total, active, is_total⟩ := k.lasts
  exact Schedule.activeDuration_nonneg active is_total

def placed (cursor : Rat) : List (Link animations) → List (Link animations × Rat)
  | [] => []
  | k :: rest => (k, cursor + k.delay) :: placed (cursor + k.delay + k.total) rest

theorem placed_links (cursor : Rat) (links : List (Link animations)) :
    (placed cursor links).map Prod.fst = links := by
  induction links generalizing cursor with
  | nil => rfl
  | cons k rest ih => rw [placed, List.map_cons, ih]

theorem placed_isChain {S : Link animations → Link animations → Prop}
    {R : Link animations × Rat → Link animations × Rat → Prop}
    (follow : ∀ k l o, S k l → R (k, o) (l, o + k.total + l.delay))
    {links : List (Link animations)} (neighbours : links.IsChain S) (cursor : Rat) :
    (placed cursor links).IsChain R := by
  induction links generalizing cursor with
  | nil => exact .nil
  | cons k rest ih =>
    cases rest with
    | nil => exact .singleton _
    | cons l rest =>
      obtain ⟨first, later⟩ := List.isChain_cons_cons.mp neighbours
      exact List.isChain_cons_cons.mpr ⟨follow k l _ first, ih later _⟩

def InTurn (p q : Link animations × Rat) : Prop :=
  p.1.begin + p.2 + p.1.total ≤ q.1.begin + q.2

instance : Trans (α := Link animations × Rat) InTurn InTurn InTurn where
  trans {p q r} first second := by
    have middle := q.1.total_nonneg
    unfold InTurn at *
    linarith

def table (animations : List (Animation .exact)) : List (Value .exact × Animation .exact) :=
  Keyed.ofList (animations.map fun a => (a.id, a))

theorem keyed_animations (named : ∀ a ∈ animations, a.id.IsName) :
    (animations.mapM fun a => do return ((← a.id.key), a) :
      Except Fault (List (Value .exact × Animation .exact))) =
        .ok (animations.map fun a => (a.id, a)) := by
  rw [mapM_eq_ok_iff, List.forall₂_map_right_iff, List.forall₂_same]
  intro a member
  rw [named a member]
  rfl

section Distinct
variable (named : ∀ a ∈ animations, a.id.IsName)
  (distinct : animations.Pairwise fun a b => (a.id == b.id) = false)
include named

theorem Link.isName (k : Link animations) : k.entry.animation.IsName :=
  (named k.animation k.listed).of_beq k.named

include distinct

theorem Link.duration (k : Link animations) :
    Answers (Chain.duration (table animations) k.entry.animation) (·.Denotes k.total) := by
  obtain ⟨total, active, is_total⟩ := k.lasts
  have found : Keyed.get? k.entry.animation (table animations) = some k.animation := by
    have entry_of : (k.animation.id, k.animation) ∈ animations.map fun a => (a.id, a) :=
      List.mem_map_of_mem k.listed
    refine Keyed.get?_distinct ?_ (List.pairwise_map.mpr distinct) entry_of k.named
    intro entry member
    obtain ⟨a, inside, rfl⟩ := List.mem_map.mp member
    exact named a inside
  refine ⟨total, ?_, is_total⟩
  unfold Chain.duration
  rw [k.isName named]
  dsimp only [bind, Except.bind]
  rw [found]
  dsimp only
  rw [active]
  exact congrArg Except.ok (if_pos is_total.1)

theorem offsetsFrom_placed (links : List (Link animations)) {x : Number .exact} {cursor : Rat}
    (is_cursor : x.Denotes cursor) :
    ∃ found, offsetsFrom (table animations) x (links.map Link.entry) = .ok found ∧
      List.Forall₂ (fun p e => e.1 = p.1.entry.animation ∧ e.2.Denotes p.2) (placed cursor links)
        found := by
  induction links generalizing x cursor with
  | nil => exact ⟨[], rfl, .nil⟩
  | cons k rest ih =>
    obtain ⟨total, lasts, is_total⟩ := k.duration named distinct
    obtain ⟨delay, waits, is_delay⟩ := k.delayed
    have start := is_cursor.add is_delay
    obtain ⟨found, answered, each⟩ := ih (start.add is_total)
    refine ⟨(k.entry.animation, x + delay) :: found, ?_, .cons ⟨rfl, start⟩ each⟩
    rw [List.map_cons, offsetsFrom, lasts, waits]
    dsimp only [bind, Except.bind]
    rw [if_pos k.waits, if_pos k.waits, answered]
    rfl

theorem delays_placed {chain : Chain .exact} {links : List (Link animations)}
    (linked : chain.entries = links.map Link.entry)
    (apart : links.Pairwise fun k l => (k.animation.id == l.animation.id) = false) :
    ∃ delays, Chain.delays [chain] animations = .ok delays ∧
      ∀ p ∈ placed 0 links, ∃ x, Keyed.get? p.1.animation.id delays = some x ∧ x.Denotes p.2 := by
  obtain ⟨found, answered, each⟩ := offsetsFrom_placed named distinct links Denotes.zero
  refine ⟨Keyed.ofList found, ?_, ?_⟩
  · unfold Chain.delays
    rw [keyed_animations named]
    dsimp only [bind, Except.bind]
    rw [List.mapM_cons, linked]
    show (offsetsFrom (table animations) 0 _ >>= _) >>= _ = _
    rw [answered]
    simp [pure, Except.pure, bind, Except.bind]
  have names : links.map (fun k => k.entry.animation) = found.map Prod.fst := by
    have alike : List.Forall₂ (fun p e => p.1.entry.animation = e.1) (placed 0 links) found :=
      each.imp fun _ _ both => both.1.symm
    rw [← placed_links 0 links, List.map_map]
    rw [← List.forall₂_eq_eq_eq, List.forall₂_map_left_iff, List.forall₂_map_right_iff]
    exact alike
  have keys : ∀ entry ∈ found, entry.1.IsName := by
    intro entry member
    have key := List.mem_map_of_mem (f := Prod.fst) member
    rw [← names] at key
    obtain ⟨k, _, same⟩ := List.mem_map.mp key
    rw [← same]
    exact k.isName named
  have differ : found.Pairwise fun e f => (e.1 == f.1) = false := by
    have all : (found.map Prod.fst).Pairwise fun v w => (v == w) = false := by
      rw [← names, List.pairwise_map]
      refine apart.imp fun {k l} other => ?_
      rw [← other, ← (named k.animation k.listed).beq_congr k.named,
        (named l.animation l.listed).congr_beq l.named]
    exact List.pairwise_map.mp all
  intro p member
  obtain ⟨e, inside, same, is_offset⟩ := exists_of_forall₂ each member
  refine ⟨e.2, Keyed.get?_distinct keys differ inside ?_, is_offset⟩
  rw [same]
  exact (named p.1.animation p.1.listed).symm p.1.named

end Distinct

def movedBegin (begin offset : Rat) : Rat :=
  if offset = 0 then begin else onMicroseconds (begin + offset)

theorem movedBegin_near (begin offset : Rat) :
    begin + offset - 1 / 2 / 10 ^ 6 ≤ movedBegin begin offset ∧
      movedBegin begin offset ≤ begin + offset + 1 / 2 / 10 ^ 6 := by
  unfold movedBegin
  split
  · rename_i none
    rw [none]
    constructor <;> linarith
  · exact onMicroseconds_near (begin + offset)

theorem Link.shifted (k : Link animations) {x : Number .exact} {offset : Rat}
    (is_offset : x.Denotes offset) :
    ∃ b, k.animation.shifted x = .ok b ∧ b.id = k.animation.id ∧
      Answers b.schedule.beginSeconds (·.Denotes (movedBegin k.begin offset)) ∧
      Answers b.schedule.activeDuration (·.Denotes k.total) := by
  obtain ⟨begin, begins, is_begin⟩ := k.begins
  unfold movedBegin
  split
  · rename_i none
    subst none
    exact ⟨k.animation, Animation.shifted_still is_offset, rfl, k.begins, k.lasts⟩
  · rename_i moving
    obtain ⟨text, shifted, read⟩ := Animation.shifted_begin begins is_begin is_offset moving
    have lasts : Schedule.activeDuration { k.animation.schedule with begin := .text text } =
        k.animation.schedule.activeDuration := by
      unfold Schedule.activeDuration
      rw [k.unended]
      rfl
    exact ⟨_, shifted, rfl, ⟨_, read, .finite _⟩, by rw [lasts]; exact k.lasts⟩

/-- Neighbours of a chain follow one another up to the begins and delays they have by
    themselves.  Where no begin is later than the begin and the delay of the next, the animations
    run in the order of the chain and none before the end of another. -/
theorem runs_back_to_back (named : ∀ a ∈ animations, a.id.IsName)
    (distinct : animations.Pairwise fun a b => (a.id == b.id) = false) {chain : Chain .exact}
    {links : List (Link animations)} (linked : chain.entries = links.map Link.entry)
    (apart : links.Pairwise fun k l => (k.animation.id == l.animation.id) = false) :
    ∃ delays moved, ∃ starts : Link animations → Rat,
      Chain.delays [chain] animations = .ok delays ∧
      Animation.withDelays animations delays = .ok moved ∧
      (∀ k ∈ links, ∃ b ∈ moved, b.id = k.animation.id ∧
        Answers b.schedule.beginSeconds (·.Denotes (starts k)) ∧
        Answers b.schedule.activeDuration (·.Denotes k.total)) ∧
      links.IsChain (fun k l =>
        |starts l - (starts k + k.total) - (l.begin + l.delay - k.begin)| ≤ 1 / 10 ^ 6) ∧
      (links.IsChain (fun k l => k.begin ≤ l.begin + l.delay) →
        links.Pairwise fun k l => starts k + k.total ≤ starts l + 1 / 10 ^ 6) := by
  obtain ⟨delays, answered, offset⟩ := delays_placed named distinct linked apart
  obtain ⟨moved, all, each⟩ := Animation.withDelays_answers delays named
  let starts (k : Link animations) : Rat :=
    movedBegin k.begin ((Keyed.get? k.animation.id delays).getD 0).rat
  have started : ∀ p ∈ placed 0 links, starts p.1 = movedBegin p.1.begin p.2 := by
    intro p member
    obtain ⟨x, found, is_offset⟩ := offset p member
    show movedBegin p.1.begin ((Keyed.get? p.1.animation.id delays).getD 0).rat = _
    rw [found, Option.getD_some, is_offset.2]
  refine ⟨delays, moved, starts, answered, all, ?_, ?_, ?_⟩
  · intro k member
    rw [← placed_links 0 links] at member
    obtain ⟨p, inside, rfl⟩ := List.mem_map.mp member
    obtain ⟨x, found, is_offset⟩ := offset p inside
    obtain ⟨b, shifted, same, begins, lasts⟩ := p.1.shifted is_offset
    obtain ⟨c, listed, moves⟩ := exists_of_forall₂ each p.1.listed
    have delayed : p.1.animation.delayIn delays = .ok x := by
      unfold Animation.delayIn
      rw [named _ p.1.listed]
      exact congrArg (fun o => Except.ok (o.getD 0)) found
    rw [delayed] at moves
    cases moves.symm.trans shifted
    rw [started p inside]
    exact ⟨b, listed, same, begins, lasts⟩
  · have spaced : (placed 0 links).IsChain fun p q => q.2 = p.2 + p.1.total + q.1.delay :=
      placed_isChain (S := fun _ _ => True) (fun _ _ _ _ => rfl)
        (List.pairwise_of_forall fun _ _ => trivial).isChain 0
    rw [← placed_links 0 links, List.isChain_map]
    apply spaced.imp_of_mem_imp
    intro p q inside also next
    obtain ⟨low, high⟩ := movedBegin_near p.1.begin p.2
    obtain ⟨low', high'⟩ := movedBegin_near q.1.begin q.2
    rw [started p inside, started q also, abs_le]
    constructor <;> linarith
  · intro no_later
    have follow : (placed 0 links).IsChain InTurn := by
      apply placed_isChain _ no_later 0
      intro k l o le
      show k.begin + o + k.total ≤ l.begin + (o + k.total + l.delay)
      linarith
    rw [← placed_links 0 links, List.pairwise_map]
    apply follow.pairwise.imp_of_mem
    intro p q inside also before
    obtain ⟨low, high⟩ := movedBegin_near p.1.begin p.2
    obtain ⟨low', high'⟩ := movedBegin_near q.1.begin q.2
    have before : p.1.begin + p.2 + p.1.total ≤ q.1.begin + q.2 := before
    rw [started p inside, started q also]
    linarith

def piece (name begin dur : String) : Animation .exact :=
  { id := .text name, target := .text "stage", subject := .attribute (.text "volume")
    schedule := { begin := .text begin, dur := .text dur } }

def turn (name : String) (pause : Number .exact) : ChainEntry .exact :=
  { animation := .text name, delay := .number pause, trigger := .text "end" }

def overture : Link [piece "overture" "1s" "2s", piece "aria" "500ms" "1min"] where
  entry := turn "overture" 0
  animation := piece "overture" "1s" "2s"
  begin := 1
  delay := 0
  total := 2
  listed := by simp
  named := rfl
  waits := rfl
  begins := ⟨1, by decide +kernel, .finite 1⟩
  delayed := ⟨0, by decide +kernel, .finite 0⟩
  lasts := ⟨2, by decide +kernel, .finite 2⟩
  unended := rfl

def aria : Link [piece "overture" "1s" "2s", piece "aria" "500ms" "1min"] where
  entry := turn "aria" 0.75
  animation := piece "aria" "500ms" "1min"
  begin := 1 / 2
  delay := 3 / 4
  total := 60
  listed := by simp
  named := rfl
  waits := rfl
  begins := ⟨.finite (1 / 2), by decide +kernel, .finite (1 / 2)⟩
  delayed := ⟨.finite (3 / 4), by decide +kernel, .finite (3 / 4)⟩
  lasts := ⟨60, by decide +kernel, .finite 60⟩
  unended := rfl

def evening (first second : ChainEntry .exact) : Chain .exact :=
  { id := .text "evening", entries := [first, second] }

theorem aria_follows_overture :
    ∃ delays moved, ∃ starts : Link _ → Rat,
      Chain.delays [evening (turn "overture" 0) (turn "aria" 0.75)]
        [piece "overture" "1s" "2s", piece "aria" "500ms" "1min"] = .ok delays ∧
      Animation.withDelays [piece "overture" "1s" "2s", piece "aria" "500ms" "1min"] delays =
        .ok moved ∧
      (∃ b ∈ moved, b.id = .text "aria" ∧
        Answers b.schedule.beginSeconds (·.Denotes (starts aria))) ∧
      starts overture + 2 ≤ starts aria + 1 / 10 ^ 6 := by
  have named : ∀ a ∈ [piece "overture" "1s" "2s", piece "aria" "500ms" "1min"], a.id.IsName := by
    intro a member
    rcases List.mem_cons.mp member with rfl | last
    · rfl
    · cases List.mem_singleton.mp last
      rfl
  have linked : (evening (turn "overture" 0) (turn "aria" 0.75)).entries =
      [overture, aria].map Link.entry := rfl
  obtain ⟨delays, moved, starts, answered, all, found, -, ordered⟩ :=
    runs_back_to_back named (List.pairwise_pair.mpr (by decide)) linked
      (List.pairwise_pair.mpr (by decide))
  have in_turn := ordered (List.isChain_pair.mpr (by decide +kernel))
  obtain ⟨b, listed, same, begins, -⟩ := found aria (by simp)
  exact ⟨delays, moved, starts, answered, all, ⟨b, listed, same, begins⟩,
    List.rel_of_pairwise_cons in_turn (List.mem_singleton_self aria)⟩

/-- A first piece that begins late by itself is still played when the second one begins. -/
theorem late_begin_overlaps :
    Chain.delays [evening (turn "late" 0) (turn "next" 0)]
        [piece "late" "5s" "2s", piece "next" "0s" "2s"] =
      .ok [(.text "late", 0), (.text "next", 2)] ∧
    Animation.withDelays [piece "late" "5s" "2s", piece "next" "0s" "2s"]
        [(.text "late", 0), (.text "next", 2)] =
      .ok [piece "late" "5s" "2s", piece "next" "2s" "2s"] ∧
    (piece "late" "5s" "2s").schedule.endSeconds = .ok 7 ∧
    (piece "next" "2s" "2s").schedule.beginSeconds = .ok 2 := by
  refine ⟨?_, ?_, ?_, ?_⟩
  all_goals with_unfolding_all rfl

end Chain
end DeclarativeAnimation
