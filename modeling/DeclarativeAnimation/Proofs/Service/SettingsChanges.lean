import DeclarativeAnimation.Proofs.Animation.Authored
import DeclarativeAnimation.Proofs.Outcome
import DeclarativeAnimation.Service

/-! Changes of the settings.  Each part is checked before it is written, so settings stay valid
    whatever is asked of them; the parts of one body are written one after another, and what was
    written before a part that is refused stays. -/
namespace DeclarativeAnimation
variable {A : Arithmetic}

namespace Settings
variable {s : Settings} {v : Value A} {fault : Fault}

def replaced (s : Settings) (quality : Option Quality) (precision : Option Nat)
    (optimize : Option Bool) : Settings :=
  ⟨quality.getD s.quality, precision.getD s.precision, optimize.getD s.optimize⟩

def checkedOptimize (v : Value A) : Except Fault Bool :=
  match v with
  | .bool b => .ok b
  | _ => .error .optimizeNotBoolean

theorem inRange_most {n : Int} {precision : Nat}
    (checked : checkedPrecision.inRange n = .ok precision) : precision ≤ mostPrecision := by
  unfold checkedPrecision.inRange at checked
  split at checked
  · cases checked
  · rename_i inside
    cases checked
    simp only [Bool.or_eq_true, decide_eq_true_eq, not_or, Int.not_lt] at inside
    omega

theorem checkedPrecision_most {precision : Nat} (checked : checkedPrecision v = .ok precision) :
    precision ≤ mostPrecision := by
  unfold checkedPrecision at checked
  split at checked
  · cases checked
  · split at checked
    · cases checked
    · cases checked
    · split at checked
      · split at checked
        · exact inRange_most checked
        · cases checked
      · exact inRange_most checked

theorem infinite_of_toWhole (refused : v.toWhole = .error .wholeOfInfinity) :
    ∃ negative, v = .number (.infinite negative) := by
  cases v with
  | number x =>
    cases x with
    | infinite negative => exact ⟨negative, rfl⟩
    | _ => cases refused
  | text s =>
    unfold Value.toWhole at refused
    dsimp only at refused
    split at refused
    · split at refused <;> cases refused
    · cases refused
  | _ => cases refused

theorem checkedPrecision_fault (finite : ∀ negative, v ≠ .number (.infinite negative))
    (refused : checkedPrecision v = .error fault) : fault.isOfValue = true := by
  have ranged {n : Int} (refused : checkedPrecision.inRange n = .error fault) :
      fault.isOfValue = true := by
    unfold checkedPrecision.inRange at refused
    split at refused <;> cases refused
    rfl
  unfold checkedPrecision at refused
  split at refused
  · cases refused
    rfl
  · split at refused
    · rename_i infinite
      obtain ⟨negative, same⟩ := infinite_of_toWhole infinite
      exact (finite negative same).elim
    · cases refused
      exact Value.refusal_ofValue v rfl
    · split at refused
      · split at refused
        · exact ranged refused
        · cases refused
          rfl
      · exact ranged refused

theorem initial_answers (environment : String) : ∃ first,
    (initial environment).1 = .ok first ∧ first.precision ≤ mostPrecision := by
  simp only [initial]
  split
  · exact ⟨{}, rfl, by decide⟩
  · cases checked : checkedPrecision
        (.text (String.ofList (Text.trim environment.toList)) : Value .exact) with
    | ok precision => exact ⟨_, rfl, checkedPrecision_most checked⟩
    | error fault =>
      have value := checkedPrecision_fault (fun negative same => by cases same) checked
      simp only [value, ↓reduceIte]
      exact ⟨{}, rfl, by decide⟩

/-- What somebody can ask of the settings: one part at a time, or the parts in a body. -/
inductive Request (A : Arithmetic) where
  | quality (v : Value A)
  | precision (v : Value A)
  | optimize (v : Value A)
  | patch (body : Service.Body A)

def asked (s : Settings) : Request A → Settings
  | .quality v => (s.setQuality v).toOption.getD s
  | .precision v => (s.setPrecision v).toOption.getD s
  | .optimize v => (s.setOptimize v).toOption.getD s
  | .patch body => (Service.changeSettings s body).settings

def after (s : Settings) (requests : List (Request A)) : Settings := requests.foldl asked s

end Settings

namespace Service
variable {body : Body A} {s : Settings} {fault : Fault}

def requested {α : Type} (body : Body A) (name : String) (check : Value A → Except Fault α) :
    Except Fault (Option α) :=
  match body.lookup name with
  | none => .ok none
  | some v => (check v).map some

section Part
variable {α : Type} {name : String} {change : Settings → Value A → Except Fault Settings}
  {check : Value A → Except Fault α} (write : Settings → Option α → Settings)
  {rest : List (String × (Settings → Value A → Except Fault Settings))}
  (writes : ∀ s v, change s v = (check v).map fun a => write s (some a))
include writes

theorem applyChanges_ok (keeps : ∀ s, write s none = s) {part : Option α}
    (valid : requested body name check = .ok part) :
    applyChanges body ((name, change) :: rest) s = applyChanges body rest (write s part) := by
  rw [applyChanges]
  cases found : body.lookup name with
  | none =>
    simp only [requested, found] at valid
    cases valid
    rw [keeps]
  | some v =>
    simp only [requested, found] at valid
    cases checked : check v with
    | error fault => simp [checked, Except.map] at valid
    | ok a =>
      simp only [checked, Except.map, Except.ok.injEq] at valid
      simp only [writes, checked, Except.map, valid]

theorem applyChanges_error (refused : requested body name check = .error fault) :
    applyChanges body ((name, change) :: rest) s = (.error fault, s) := by
  rw [applyChanges]
  cases found : body.lookup name with
  | none => simp [requested, found] at refused
  | some v =>
    simp only [requested, found] at refused
    cases checked : check v with
    | error other =>
      simp only [checked, Except.map, Except.error.injEq] at refused
      simp only [writes, checked, Except.map, refused]
    | ok a => simp [checked, Except.map] at refused

end Part

theorem setQuality_writes (s : Settings) (v : Value A) :
    s.setQuality v = (Quality.ofValue v).map fun q => s.replaced (some q) none none := by
  unfold Settings.setQuality
  cases Quality.ofValue v <;> rfl

theorem setPrecision_writes (s : Settings) (v : Value A) :
    s.setPrecision v =
      (Settings.checkedPrecision v).map fun n => s.replaced none (some n) none := by
  unfold Settings.setPrecision
  cases Settings.checkedPrecision v <;> rfl

theorem setOptimize_writes (s : Settings) (v : Value A) :
    s.setOptimize v =
      (Settings.checkedOptimize v).map fun b => s.replaced none none (some b) := by
  cases v <;> rfl

section Changes
variable {quality : Option Quality} {precision : Option Nat} {optimize : Option Bool}

theorem quality_refused (refused : requested body "quality" Quality.ofValue = .error fault) :
    applyChanges body changes s = (.error fault, s) :=
  applyChanges_error (fun s q => s.replaced q none none) setQuality_writes refused

variable (first : requested body "quality" Quality.ofValue = .ok quality)
include first

theorem precision_refused
    (refused : requested body "precision" Settings.checkedPrecision = .error fault) :
    applyChanges body changes s = (.error fault, s.replaced quality none none) := by
  rw [changes, applyChanges_ok (fun s q => s.replaced q none none) setQuality_writes
    (fun _ => rfl) first]
  exact applyChanges_error (fun s n => s.replaced none n none) setPrecision_writes refused

variable (second : requested body "precision" Settings.checkedPrecision = .ok precision)
include second

theorem optimize_refused
    (refused : requested body "optimize" Settings.checkedOptimize = .error fault) :
    applyChanges body changes s = (.error fault, s.replaced quality precision none) := by
  rw [changes, applyChanges_ok (fun s q => s.replaced q none none) setQuality_writes
    (fun _ => rfl) first, applyChanges_ok (fun s n => s.replaced none n none) setPrecision_writes
    (fun _ => rfl) second]
  exact applyChanges_error (fun s b => s.replaced none none b) setOptimize_writes refused

theorem all_changed (third : requested body "optimize" Settings.checkedOptimize = .ok optimize) :
    applyChanges body changes s = (.ok (), s.replaced quality precision optimize) := by
  rw [changes, applyChanges_ok (fun s q => s.replaced q none none) setQuality_writes
    (fun _ => rfl) first, applyChanges_ok (fun s n => s.replaced none n none) setPrecision_writes
    (fun _ => rfl) second, applyChanges_ok (fun s b => s.replaced none none b) setOptimize_writes
    (fun _ => rfl) third]
  rfl

end Changes

theorem absent_of_not_present (present : ¬ ∃ name ∈ ["quality", "precision", "optimize"],
    (body.lookup name).isSome) : ∀ name ∈ ["quality", "precision", "optimize"],
      body.lookup name = none := by
  intro name member
  by_contra found
  exact present ⟨name, member, Option.isSome_iff_ne_none.mpr found⟩

/-- What holds of settings and is kept by each change is kept by all changes of a body. -/
theorem applyChanges_keeps {P : Settings → Prop}
    {made : List (String × (Settings → Value A → Except Fault Settings))}
    (kept : ∀ entry ∈ made, ∀ s v next, P s → entry.2 s v = .ok next → P next) (start : P s) :
    P (applyChanges body made s).2 := by
  induction made generalizing s with
  | nil => exact start
  | cons entry rest ih =>
    obtain ⟨head, tail⟩ := List.forall_mem_cons.mp kept
    rw [applyChanges]
    split
    · exact ih tail start
    · split
      · rename_i next done
        exact ih tail (head s _ next start done)
      · exact start

theorem changeSettings_of_some (present : ∃ name ∈ ["quality", "precision", "optimize"],
    (body.lookup name).isSome) : changeSettings s body =
      { outcome := (refusing Fault.isOfValue (applyChanges body changes s).1).map fun _ =>
          .object (("ok", .bool true) :: (applyChanges body changes s).2.toWire)
        settings := (applyChanges body changes s).2 } := by
  unfold changeSettings
  split
  · rfl
  · rename_i silent
    exact (silent (by simpa [changes] using present)).elim

theorem changeSettings_of_none (absent : ∀ name ∈ ["quality", "precision", "optimize"],
    body.lookup name = none) : changeSettings s body =
      { outcome := .error (.rejected (.missing "quality, precision or optimize"))
        settings := s } := by
  unfold changeSettings
  split
  · rename_i asks
    simp [changes, absent] at asks
  · rfl

theorem refused_of_requested {α : Type} {name : String} {check : Value A → Except Fault α}
    (refused : requested body name check = .error fault) :
    ∃ v, body.lookup name = some v ∧ check v = .error fault := by
  cases found : body.lookup name with
  | none => simp [requested, found] at refused
  | some v =>
    refine ⟨v, rfl, ?_⟩
    simp only [requested, found] at refused
    cases checked : check v with
    | error other => simpa [checked, Except.map] using refused
    | ok a => simp [checked, Except.map] at refused

theorem refused_changes {next : Settings} (present : ∃ name ∈ ["quality", "precision", "optimize"],
    (body.lookup name).isSome) (done : applyChanges body changes s = (.error fault, next))
    (value : fault.isOfValue = true) : changeSettings s body =
      { outcome := .error (.rejected (.invalid fault)), settings := next } := by
  rw [changeSettings_of_some present, done]
  simp [refusing, Except.mapError, value, Except.map]

end Service

namespace Settings
variable {s : Settings}

theorem setPrecision_most {v : Value A} {next : Settings} (done : s.setPrecision v = .ok next) :
    next.precision ≤ mostPrecision := by
  obtain ⟨precision, checked, done⟩ := bind_eq_ok done
  cases done
  exact checkedPrecision_most checked

theorem changes_valid : ∀ entry ∈ (Service.changes : List (String × (Settings → Value A → _))),
    ∀ s v next, s.precision ≤ mostPrecision → entry.2 s v = .ok next →
      next.precision ≤ mostPrecision := by
  intro entry member s v next valid done
  simp only [Service.changes, List.mem_cons, List.not_mem_nil, or_false] at member
  rcases member with rfl | rfl | rfl
  · obtain ⟨quality, _, done⟩ := bind_eq_ok done
    cases done
    exact valid
  · exact setPrecision_most done
  · cases v <;> cases done
    exact valid

theorem asked_valid (valid : s.precision ≤ mostPrecision) (request : Request A) :
    (s.asked request).precision ≤ mostPrecision := by
  cases request with
  | quality v =>
    cases done : s.setQuality v with
    | error fault => simpa [asked, done, Except.toOption] using valid
    | ok next =>
      have kept := changes_valid ("quality", setQuality) (by simp [Service.changes]) s v next valid
      simpa [asked, done, Except.toOption] using kept done
  | precision v =>
    cases done : s.setPrecision v with
    | error fault => simpa [asked, done, Except.toOption] using valid
    | ok next => simpa [asked, done, Except.toOption] using setPrecision_most done
  | optimize v => cases v <;> exact valid
  | patch body =>
    by_cases present : ∃ name ∈ ["quality", "precision", "optimize"], (body.lookup name).isSome
    · simp only [asked, Service.changeSettings_of_some present]
      exact Service.applyChanges_keeps (P := fun s => s.precision ≤ mostPrecision) changes_valid
        valid
    · have absent := Service.absent_of_not_present present
      simp only [asked, Service.changeSettings_of_none absent]
      exact valid

theorem after_valid (valid : s.precision ≤ mostPrecision) (requests : List (Request A)) :
    (s.after requests).precision ≤ mostPrecision := by
  induction requests generalizing s with
  | nil => exact valid
  | cons request rest ih => exact ih (asked_valid valid request)

/-- What becomes of settings with a body: nothing where it asks for nothing, and else its parts
    are written in their order, up to the first one that is refused. -/
inductive Patched (s : Settings) (body : Service.Body A) : Response A → Prop where
  | nothing (absent : ∀ name ∈ ["quality", "precision", "optimize"], body.lookup name = none) :
    Patched s body
      { outcome := .error (.rejected (.missing "quality, precision or optimize")), settings := s }
  | quality {fault : Fault}
    (refused : Service.requested body "quality" Quality.ofValue = .error fault) :
    Patched s body { outcome := .error (.rejected (.invalid fault)), settings := s }
  | precision {fault : Fault} {quality : Option Quality}
    (first : Service.requested body "quality" Quality.ofValue = .ok quality)
    (refused : Service.requested body "precision" checkedPrecision = .error fault) :
    Patched s body
      { outcome := .error (.rejected (.invalid fault)), settings := s.replaced quality none none }
  | optimize {fault : Fault} {quality : Option Quality} {precision : Option Nat}
    (first : Service.requested body "quality" Quality.ofValue = .ok quality)
    (second : Service.requested body "precision" checkedPrecision = .ok precision)
    (refused : Service.requested body "optimize" checkedOptimize = .error fault) :
    Patched s body
      { outcome := .error (.rejected (.invalid fault))
        settings := s.replaced quality precision none }
  | all {quality : Option Quality} {precision : Option Nat} {optimize : Option Bool}
    (present : ∃ name ∈ ["quality", "precision", "optimize"], (body.lookup name).isSome)
    (first : Service.requested body "quality" Quality.ofValue = .ok quality)
    (second : Service.requested body "precision" checkedPrecision = .ok precision)
    (third : Service.requested body "optimize" checkedOptimize = .ok optimize) :
    Patched s body
      { outcome := .ok (.object
          (("ok", .bool true) :: (s.replaced quality precision optimize).toWire))
        settings := s.replaced quality precision optimize }

theorem quality_fault {v : Value A} {fault : Fault} (refused : Quality.ofValue v = .error fault) :
    fault.isOfValue = true := by
  rcases bind_eq_error refused with unwritten | ⟨text, _, refused⟩
  · obtain ⟨-, rfl⟩ := Value.spelling_fault unwritten
    rfl
  · split at refused <;> cases refused
    rfl

theorem optimize_fault {v : Value A} {fault : Fault} (refused : checkedOptimize v = .error fault) :
    fault.isOfValue = true := by
  cases v <;> cases refused <;> rfl

theorem changeSettings_patched {body : Service.Body A}
    (finite : ∀ negative, body.lookup "precision" ≠ some (.number (.infinite negative))) :
    s.Patched body (Service.changeSettings s body) := by
  by_cases present : ∃ name ∈ ["quality", "precision", "optimize"], (body.lookup name).isSome
  · cases first : Service.requested body "quality" Quality.ofValue with
    | error fault =>
      obtain ⟨v, _, refused⟩ := Service.refused_of_requested first
      rw [Service.refused_changes present (Service.quality_refused first) (quality_fault refused)]
      exact .quality first
    | ok quality =>
      cases second : Service.requested body "precision" checkedPrecision with
      | error fault =>
        obtain ⟨v, found, refused⟩ := Service.refused_of_requested second
        have value := checkedPrecision_fault (fun negative same => finite negative (same ▸ found))
          refused
        rw [Service.refused_changes present (Service.precision_refused first second) value]
        exact .precision first second
      | ok precision =>
        cases third : Service.requested body "optimize" checkedOptimize with
        | error fault =>
          obtain ⟨v, _, refused⟩ := Service.refused_of_requested third
          rw [Service.refused_changes present (Service.optimize_refused first second third)
            (optimize_fault refused)]
          exact .optimize first second third
        | ok optimize =>
          rw [Service.changeSettings_of_some present, Service.all_changed first second third]
          exact .all present first second third
  · have absent := Service.absent_of_not_present present
    rw [Service.changeSettings_of_none absent]
    exact .nothing absent

/-- Settings that can be reached are valid.  A body writes the parts that it asks for, in their
    order; where one of them is refused, those before it stay written. -/
theorem patch_writes_valid_parts (environment : String) (requests : List (Request A))
    (body : Service.Body A)
    (finite : ∀ negative, body.lookup "precision" ≠ some (.number (.infinite negative))) :
    ∃ first, (initial environment).1 = .ok first ∧
      (first.after requests).quality.name ∈ ["editing", "preview", "export"] ∧
      (first.after requests).precision ≤ 10 ∧
      (first.after requests).Patched body
        (Service.handle (first.after requests) .changeSettings body) := by
  obtain ⟨first, started, valid⟩ := initial_answers environment
  refine ⟨first, started, ?_, after_valid valid requests, changeSettings_patched finite⟩
  cases (first.after requests).quality <;> decide

def drafting : List (Request .exact) := [.precision (.text " 7 "), .quality (.text "best")]

def finalForm : Service.Body .exact :=
  [("optimize", .bool false), ("precision", .number 2), ("quality", .text "Final")]

theorem final_form_written :
    (initial "3").1 = .ok { precision := 3 } ∧
    ({ precision := 3 } : Settings).after drafting = { precision := 7 } ∧
    ({ precision := 7 } : Settings).Patched finalForm
      (Service.handle { precision := 7 } .changeSettings finalForm) ∧
    (Service.handle { precision := 7 } .changeSettings finalForm).settings =
      ⟨.export, 2, false⟩ := by
  have start : (initial "3").1 = .ok { precision := 3 } := by decide +kernel
  have drafted : ({ precision := 3 } : Settings).after drafting = { precision := 7 } := by
    decide +kernel
  have finite : ∀ negative, finalForm.lookup "precision" ≠ some (.number (.infinite negative)) := by
    intro negative same
    cases same
  obtain ⟨first, started, _, _, patched⟩ := patch_writes_valid_parts "3" drafting finalForm finite
  obtain rfl : first = { precision := 3 } := Except.ok.inj (started.symm.trans start)
  rw [drafted] at patched
  exact ⟨start, drafted, patched, by decide +kernel⟩

/-- A refused precision comes too late for the quality before it, and one without end is not
    taken for a bad value. -/
theorem refused_body_writes_quality :
    (initial "").1 = .ok {} ∧
    Service.handle {} .changeSettings
        [("quality", .text "export"), ("precision", (.int 99 : Value .exact))] =
      { outcome := .error (.rejected (.invalid (.precisionOutOfRange 10)))
        settings := { quality := .export } } ∧
    Service.handle {} .changeSettings [("precision", (.number (.infinite false) : Value .exact))] =
      { outcome := .error (.failed .wholeOfInfinity), settings := {} } := by
  refine ⟨rfl, ?_, rfl⟩
  with_unfolding_all rfl

end Settings
end DeclarativeAnimation
