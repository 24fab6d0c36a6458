import DeclarativeAnimation.Markup.Compiler
import DeclarativeAnimation.Proofs.Animation.Authored
import DeclarativeAnimation.Proofs.Markup.BatchIsolation

/-! Batches of a compiler, target by target.  What a target is animated with stays in its order,
    and the targets stand in the order in which they first occur.  The options of a call are
    forgotten with it. -/
namespace DeclarativeAnimation.Markup
variable {A : Arithmetic}

namespace Compiler
variable {compiler : Compiler A} {asked : CallOptions A} {options : Options A}

def Call.setsDefaults : Call A → Bool
  | .setDefaults _ => true
  | _ => false

theorem answer_keeps (compiler : Compiler A) {call : Call A} (other : call.setsDefaults = false) :
    (compiler.answer call).2 = compiler := by
  cases call with
  | setDefaults changes => cases other
  | _ => rfl

theorem run_cons (compiler : Compiler A) (call : Call A) (rest : List (Call A)) :
    (compiler.run (call :: rest)).2 = ((compiler.answer call).2.run rest).2 := rfl

theorem run_setting (compiler : Compiler A) (calls : List (Call A)) :
    (compiler.run calls).2 = (compiler.run (calls.filter Call.setsDefaults)).2 := by
  -- By induction on the calls; those that do not set the defaults leave the compiler as it is.
  induction calls generalizing compiler with
  | nil => rfl
  | cons call rest ih =>
    cases sets : call.setsDefaults with
    | true => rw [List.filter_cons_of_pos sets, run_cons, run_cons, ih]
    | false =>
      rw [List.filter_cons_of_neg (Bool.eq_false_iff.mp sets), run_cons,
        compiler.answer_keeps sets, ih]

theorem compile_resolved (resolved : compiler.resolve asked = .ok options) (source : Source A) :
    compiler.compile source asked = source.compile options := by
  rw [compile, resolved]
  rfl

theorem compileAll_resolved (resolved : compiler.resolve asked = .ok options)
    (sources : List (Source A)) :
    compiler.compileAll sources asked = Markup.compileAll sources options := by
  rw [compileAll, resolved]

end Compiler

section Groups
variable {animations : List (Animation A)}

def targets (animations : List (Animation A)) : List (Value A) :=
  (animations.map (·.target)).eraseDups

def aimedAt (animations : List (Animation A)) (target : Value A) : List (Animation A) :=
  animations.filter (·.target == target)

theorem joined_by_target (plain : ∀ a ∈ animations, a.target.IsPlain) :
    (animations.foldl (joined Animation.target) []).flatMap (·.2) =
      (targets animations).flatMap (aimedAt animations) := by
  have lawful : ∀ a ∈ animations, ∀ b ∈ animations,
      (a.target == b.target) = true ↔ a.target = b.target :=
    fun a first b second => (plain a first).beq_iff (plain b second)
  rw [joined_eq Animation.target lawful, List.flatMap_map]
  rfl

theorem Source.settles_read {a : Animation A} {options : Options A}
    (writable : a.IsWritable options) (precise : options.IsPrecise) :
    (Source.read a).Settles options := by
  have named : a.id.isSpellable = true := writable.1 ("id", a.id) (by simp [Animation.members])
  exact Source.settles_of_animation rfl (fun fault => ⟨_, Value.spelling_ok named _⟩) writable
    precise

/-- A batch of animations whose targets are texts or none.  With a number of places that numbers
    can be rounded to and numbers that are numbers, each animation is written or refused for what
    it lacks.  Then the batch has, target by target, the elements of those that are written and
    the warnings of the others, each in its order; nothing is lost or there twice.  Only calls
    that set the defaults of the compiler change them. -/
theorem batch_grouped_by_target (compiler : Compiler A) {asked : CallOptions A}
    {options : Options A} (resolved : compiler.resolve asked = .ok options)
    (plain : ∀ a ∈ animations, a.target.IsPlain) :
    (options.IsPrecise → ∀ a ∈ animations, a.IsWritable options →
      (Source.read a).Settles options) ∧
    ((∀ a ∈ animations, (Source.read a).Settles options) →
      ∃ batch, compiler.compileAll (animations.map .read) asked =
          (.ok batch, batch.warnings.map warningLine) ∧
        batch.elements = (targets animations).flatMap (fun target =>
          (aimedAt animations target).filterMap fun a =>
            (compiler.compile (.read a) asked).toOption) ∧
        batch.warnings = (targets animations).flatMap (fun target =>
          (aimedAt animations target).filterMap fun a => (Source.read a).warning? options) ∧
        ((targets animations).flatMap (aimedAt animations)).Perm animations ∧
        batch.elements.length + batch.warnings.length = animations.length) ∧
    ∀ calls, (compiler.run calls).2 =
      (compiler.run (calls.filter Compiler.Call.setsDefaults)).2 := by
  refine ⟨fun precise a _ writable => Source.settles_read writable precise, fun settled => ?_,
    compiler.run_setting⟩
  have keyed : ∀ a ∈ animations, (Source.read a).target = .ok a.target :=
    fun a member => (plain a member).key_eq
  obtain ⟨batch, done, elements, warnings, count⟩ :=
    compileAll_settled Animation.target keyed settled
  have perm : ((animations.foldl (joined Animation.target) []).flatMap (·.2)).Perm animations :=
    joined_perm _
  rw [joined_by_target plain] at elements warnings perm
  rw [List.filterMap_flatMap] at elements warnings
  refine ⟨batch, ?_, ?_, warnings, perm, count⟩
  · rw [Compiler.compileAll_resolved resolved, done]
  · simp only [Compiler.compile_resolved resolved]
    exact elements

end Groups

section Instance

def dimmed (goal : String) (target : Value .binary64) : Animation .binary64 :=
  { id := .text "dim", target := target, subject := .set (.text "opacity")
    track := { goal := .text goal } }

def mixture : List (Animation .binary64) :=
  [dimmed "0.12" .null, dimmed "0.34" (.text "box"),
   { dimmed "0" .null with id := .text "lost", subject := .set .null }, dimmed "0.12" .null]

def coarse : CallOptions .binary64 := { changes := [("precision", .int 1)] }

theorem mixture_grouped : ∃ batch,
    ({} : Compiler .binary64).compileAll (mixture.map .read) coarse =
      (.ok batch, batch.warnings.map warningLine) ∧
    batch.elements = ["<set attributeName=\"opacity\" to=\"0.1\"/>",
      "<set attributeName=\"opacity\" to=\"0.1\"/>",
      "<set attributeName=\"opacity\" to=\"0.3\"/>"] ∧
    batch.warnings = ["Failed to compile animation lost: set requires attributeName"] ∧
    (({} : Compiler .binary64).run [.compileAll (mixture.map .read) coarse]).2.defaults =
      ({} : Compiler .binary64).defaults := by
  have resolved : ({} : Compiler .binary64).resolve coarse = .ok ⟨.int 1, .bool true⟩ := rfl
  have plain : ∀ a ∈ mixture, a.target.IsPlain := by
    simp [mixture, dimmed, Value.IsPlain]
  obtain ⟨settles, grouped, kept⟩ := batch_grouped_by_target {} resolved plain
  have settled : ∀ a ∈ mixture, (Source.read a).Settles ⟨.int 1, .bool true⟩ := by
    intro a member
    refine settles ⟨1, rfl, by decide, by decide⟩ a member ?_
    simp only [mixture, List.mem_cons, List.not_mem_nil, or_false] at member
    rcases member with rfl | rfl | rfl | rfl
    all_goals exact ⟨by decide +kernel, fun n same => by cases same⟩
  obtain ⟨batch, done, elements, warnings, _⟩ := grouped settled
  have defaults := congrArg Compiler.defaults (kept [.compileAll (mixture.map .read) coarse])
  refine ⟨batch, done, elements.trans ?_, warnings.trans ?_, defaults⟩
  · decide +kernel
  · decide +kernel

def countless : CallOptions .binary64 := { changes := [("precision", .int 2147483648)] }

/-- A number that cannot be written ends the batch, with the elements of the others in it. -/
theorem countless_places_end_batch :
    ({} : Compiler .binary64).compile (.read (dimmed "none" (.text "box"))) countless =
      .ok "<set attributeName=\"opacity\" to=\"none\"/>" ∧
    ({} : Compiler .binary64).compileAll
      [.read (dimmed "1" .null), .read (dimmed "none" (.text "box"))] countless =
        (.error .placesTooMany, []) :=
  ⟨by decide +kernel, by decide +kernel⟩

end Instance

end DeclarativeAnimation.Markup
