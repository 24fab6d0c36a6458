import DeclarativeAnimation.Chain
import DeclarativeAnimation.Proofs.State.StateRange

/-! Animations in chains.  The offsets of chains whose delays are numbers can always be found, and
    an animation that has been moved by its offset can be evaluated as before. -/
namespace DeclarativeAnimation
variable {A : Arithmetic} {animations : List (Animation A)} {chains : List (Chain A)}

structure ChainEntry.IsRead (entry : ChainEntry A) : Prop where
  animation : ∃ s, entry.animation = .text s
  delay : ∃ x, entry.delay = .number x

def Chain.IsRead (chain : Chain A) : Prop := ∀ entry ∈ chain.entries, entry.IsRead

namespace Chain
variable {table : List (Value A × Animation A)}

theorem duration_answers (readable : ∀ entry ∈ table, entry.2.IsReadable) (s : String) :
    ∃ x, duration table (.text s) = .ok x := by
  unfold duration
  dsimp only [Value.key, bind, Except.bind]
  cases found : Keyed.get? (Value.text s : Value A) table with
  | none => exact ⟨_, rfl⟩
  | some animation =>
    have own := Keyed.of_get? (P := Animation.IsReadable) readable found
    obtain ⟨_, _, total, _, _, active⟩ := Schedule.times_answer own.schedule own.count
    dsimp only
    rw [active]
    exact ⟨_, rfl⟩

theorem offsetsFrom_answers (readable : ∀ entry ∈ table, entry.2.IsReadable)
    (entries : List (ChainEntry A))
    (read : ∀ entry ∈ entries, entry.IsRead) (cursor : Number A) : ∃ offsets, offsetsFrom table cursor entries = .ok offsets := by
  induction entries generalizing cursor with
  | nil => exact ⟨[], rfl⟩
  | cons entry rest ih =>
    obtain ⟨⟨⟨s, named⟩, delay, waits⟩, later⟩ := List.forall_mem_cons.mp read
    obtain ⟨takes, lasts⟩ := duration_answers readable s
    have delayed : entry.delaySeconds = .ok (Number.larger 0 delay) := by
      unfold ChainEntry.delaySeconds
      rw [waits]
      rfl
    unfold offsetsFrom
    rw [named, lasts, delayed]
    dsimp only [bind, Except.bind]
    obtain ⟨offsets, found⟩ := ih later _
    rw [found]
    exact ⟨_, rfl⟩

theorem delays_answers (readable : ∀ a ∈ animations, a.IsReadable)
    (named : ∀ a ∈ animations, ∃ s, a.id = .text s) (read : ∀ chain ∈ chains, chain.IsRead) :
    ∃ offsets, delays chains animations = .ok offsets := by
  have entries := Answers.mapM (f := fun a : Animation A => do return ((← a.id.key), a))
    (R := fun entry => entry.2.IsReadable) animations fun a member => by
      obtain ⟨s, name⟩ := named a member
      rw [name]
      exact .ok (readable a member)
  obtain ⟨listed, all, _, each⟩ := entries
  have offsets := Answers.mapM (f := fun chain : Chain A =>
      offsetsFrom (Keyed.ofList listed) 0 chain.entries) (R := fun _ => True) chains
    fun chain member => by
      obtain ⟨found, offsets⟩ :=
        offsetsFrom_answers (Keyed.forall_ofList each) chain.entries (read chain member) 0
      exact ⟨found, offsets, trivial⟩
  obtain ⟨found, offsets, -⟩ := offsets
  unfold delays
  rw [all]
  dsimp only [bind, Except.bind]
  rw [offsets]
  exact ⟨_, rfl⟩

end Chain

namespace Animation

theorem shifted_readable {a : Animation A} (readable : a.IsReadable) (delay : Number A) :
    Answers (a.shifted delay) IsReadable := by
  obtain ⟨begin, _, _, begins, _, _⟩ := Schedule.times_answer readable.schedule readable.count
  unfold shifted
  rw [begins]
  split
  · exact .ok readable
  · apply Answers.ok
    have fits := readable.schedule
    have moved : (Value.text (secondsText (begin + delay)) : Value A).Fits :=
      Value.IsPlain.fits (Or.inr ⟨_, rfl⟩)
    exact ⟨readable.target, readable.subject, ⟨moved, fits.dur, fits.finish, fits.repeatDur⟩,
      readable.count⟩

theorem withChains_begins {moved : List (Animation A)}
    (done : withChains animations chains = .ok moved) :
    List.Forall₂ (fun a b => ∃ begin, b = { a with schedule := { a.schedule with begin := begin } })
      animations moved := by
  unfold withChains at done
  split at done
  · cases done
    exact List.forall₂_same.mpr fun a _ => ⟨a.schedule.begin, rfl⟩
  · obtain ⟨offsets, _, done⟩ := bind_eq_ok done
    apply (forall₂_of_ok done).imp
    intro a b shifts
    obtain ⟨delay, _, shifts⟩ := bind_eq_ok shifts
    unfold shifted at shifts
    split at shifts
    · cases shifts
      exact ⟨a.schedule.begin, rfl⟩
    · obtain ⟨begin, _, shifts⟩ := bind_eq_ok shifts
      cases shifts
      exact ⟨_, rfl⟩

theorem withChains_answers (readable : ∀ a ∈ animations, a.IsReadable)
    (named : ∀ a ∈ animations, ∃ s, a.id = .text s) (read : ∀ chain ∈ chains, chain.IsRead) :
    Answers (withChains animations chains) fun moved =>
      moved.length = animations.length ∧ ∀ a ∈ moved, a.IsReadable := by
  unfold withChains
  split
  · exact .ok ⟨rfl, readable⟩
  · obtain ⟨offsets, found⟩ := Chain.delays_answers readable named read
    rw [found]
    apply Answers.mapM
    intro a member
    obtain ⟨s, name⟩ := named a member
    unfold delayIn
    rw [name]
    exact shifted_readable (readable a member) _

end Animation
end DeclarativeAnimation
