import DeclarativeAnimation.Proofs.Number.Reordering
import DeclarativeAnimation.State.Basic
import Mathlib.Data.List.DropRight
import Mathlib.Data.List.Perm.Basic

/-! Writing one value again and again.  Each time it is either replaced or added to.  What comes of
    it is a sum onto the last replacement, so that it forgets what was there before, and does not
    depend on the order of the sums that follow one another. -/
namespace DeclarativeAnimation

inductive Move (α β : Type) where
  | replace (value : α)
  | sum (amount : β)

namespace Move
variable {α β γ : Type}

def replacement? : Move α β → Option α
  | .replace v => some v
  | .sum _ => none

def amount? : Move α β → Option β
  | .replace _ => none
  | .sum x => some x

def replaced? (moves : List (Move α β)) : Option α := (moves.filterMap replacement?).getLast?

def sums (moves : List (Move α β)) : List β :=
  (moves.rtakeWhile (·.amount?.isSome)).filterMap amount?

section
variable (moves : List (Move α β))

@[simp] theorem replaced?_replace (v : α) : replaced? (moves ++ [.replace v]) = some v := by
  simp [replaced?, replacement?]

@[simp] theorem replaced?_sum (x : β) : replaced? (moves ++ [.sum x]) = replaced? moves := by
  simp [replaced?, replacement?]

@[simp] theorem sums_replace (v : α) : sums (moves ++ [.replace v]) = [] := by
  rw [sums, List.rtakeWhile_concat_neg _ _ _ (by simp [amount?])]
  rfl

@[simp] theorem sums_sum (x : β) : sums (moves ++ [.sum x]) = sums moves ++ [x] := by
  rw [sums, List.rtakeWhile_concat_pos _ _ _ (by simp [amount?]), List.filterMap_append]
  rfl

end

/-- What comes of the moves does not depend on what was there before a replacement, nor on the
    order of sums that follow one another. -/
structure IsLawful (result : List (Move α β) → γ) : Prop where
  forgets : ∀ (before : List (Move α β)) (v : α) (after : List (Move α β)),
    result (before ++ .replace v :: after) = result (.replace v :: after)
  reorders : ∀ (before : List (Move α β)) (run other : List β) (after : List (Move α β)),
    run.Perm other →
      result (before ++ run.map .sum ++ after) = result (before ++ other.map .sum ++ after)

theorem isLawful_of_step {result : List (Move α β) → γ} {step : γ → Move α β → γ}
    (concat : ∀ moves move, result (moves ++ [move]) = step (result moves) move)
    (replaces : ∀ b c v, step b (.replace v) = step c (.replace v))
    (swaps : ∀ c x y, step (step c (.sum x)) (.sum y) = step (step c (.sum y)) (.sum x)) :
    IsLawful result := by
  have folds (before after : List (Move α β)) :
      result (before ++ after) = after.foldl step (result before) := by
    induction after generalizing before with
    | nil => rw [List.append_nil, List.foldl_nil]
    | cons move rest ih => rw [List.append_cons, ih, concat, List.foldl_cons]
  constructor
  · intro before v after
    have alone := folds [] (.replace v :: after)
    rw [List.nil_append] at alone
    rw [folds, alone, List.foldl_cons, List.foldl_cons, replaces]
  · intro before run other after same
    rw [folds, folds before, folds, folds before, List.foldl_map, List.foldl_map,
      same.foldl_eq' fun x _ y _ c => swaps c x y]

end Move

namespace TransformProperty
variable {A : Arithmetic}

def identity (p : TransformProperty) : Number A := ({} : Transform A).get p

/-- The sums onto the last replacement, or onto the identity. -/
def composed (p : TransformProperty) (moves : List (Move (Number A) (Number A))) : Number A :=
  (Move.sums moves).foldl p.combine ((Move.replaced? moves).getD p.identity)

def step (p : TransformProperty) (x : Number A) : Move (Number A) (Number A) → Number A
  | .replace y => y
  | .sum y => p.combine x y

theorem composed_concat (p : TransformProperty) (moves : List (Move (Number A) (Number A)))
    (move : Move (Number A) (Number A)) :
    p.composed (moves ++ [move]) = p.step (p.composed moves) move := by
  cases move <;> simp [composed, step]

theorem combine_right_comm (p : TransformProperty) (x y z : Number .exact) :
    p.combine (p.combine x y) z = p.combine (p.combine x z) y := by
  cases p with
  | scaleX | scaleY => exact Number.mul_right_comm_exact x y z
  | _ => exact Number.add_right_comm_exact x y z

theorem composed_isLawful (p : TransformProperty) :
    Move.IsLawful (p.composed : List (Move (Number .exact) (Number .exact)) → Number .exact) :=
  Move.isLawful_of_step p.composed_concat (fun _ _ _ => rfl) p.combine_right_comm

end TransformProperty

namespace Value

abbrev Amount (A : Arithmetic) := { v : Value A // v.isNumeric = true }

def amount {A : Arithmetic} (v : Value A) : Number A := v.quantity?.getD 0

def plus {A : Arithmetic} (x y : Value A) : Value A :=
  match x, y with
  | .int m, .int n => .int (m + n)
  | x, y => .number (x.amount + y.amount)

section
variable {x y z : Value .exact}

theorem plus_other (mixed : ¬ ∃ m n, x = .int m ∧ y = .int n) :
    plus x y = .number (x.amount + y.amount) := by
  unfold plus
  split
  · exact absurd ⟨_, _, rfl, rfl⟩ mixed
  · rfl

theorem isNumeric_plus : (plus x y).isNumeric = true := by
  unfold plus
  split <;> rfl

theorem amount_plus : (plus x y).amount = x.amount + y.amount := by
  unfold plus
  split
  · rename_i m n
    show (.finite ((m + n : Int) : Rat) : Number .exact) = .finite (m : Rat) + .finite (n : Rat)
    rw [Number.add_exact rfl rfl, Int.cast_add]
    rfl
  · rfl

theorem toNumber_numeric (numeric : x.isNumeric = true) : x.toNumber = .ok x.amount := by
  cases x <;> first | rfl | cases numeric

theorem sum_numeric (is_x : x.isNumeric = true) (is_y : y.isNumeric = true) :
    x.sum y = .ok (plus x y) := by
  unfold sum
  split
  · rfl
  · rename_i mixed
    rw [toNumber_numeric is_x, toNumber_numeric is_y,
      plus_other fun ⟨m, n, first, second⟩ => mixed m n first second]
    rfl

variable (x y z)

theorem plus_comm : plus x y = plus y x := by
  by_cases whole : ∃ m n, x = .int m ∧ y = .int n
  · obtain ⟨m, n, rfl, rfl⟩ := whole
    exact congrArg Value.int (add_comm m n)
  · have other : ¬ ∃ m n, y = .int m ∧ x = .int n := fun ⟨m, n, is_y, is_x⟩ =>
      whole ⟨n, m, is_x, is_y⟩
    rw [plus_other whole, plus_other other, Number.add_comm_exact]

variable {x y z} in
theorem plus_plus_other (mixed : ¬ ∃ l m n, x = .int l ∧ y = .int m ∧ z = .int n) :
    plus (plus x y) z = .number (x.amount + y.amount + z.amount) := by
  rw [← amount_plus]
  apply plus_other
  rintro ⟨k, n, first, rfl⟩
  apply mixed
  by_cases whole : ∃ l m, x = .int l ∧ y = .int m
  · obtain ⟨l, m, rfl, rfl⟩ := whole
    exact ⟨l, m, n, rfl, rfl, rfl⟩
  · rw [plus_other whole] at first
    cases first

theorem plus_right_comm : plus (plus x y) z = plus (plus x z) y := by
  by_cases whole : ∃ l m n, x = .int l ∧ y = .int m ∧ z = .int n
  · obtain ⟨l, m, n, rfl, rfl, rfl⟩ := whole
    exact congrArg Value.int (add_right_comm l m n)
  · have other : ¬ ∃ l m n, x = .int l ∧ z = .int m ∧ y = .int n :=
      fun ⟨l, m, n, is_x, is_z, is_y⟩ => whole ⟨l, n, m, is_x, is_y, is_z⟩
    rw [plus_plus_other whole, plus_plus_other other, Number.add_right_comm_exact]

end

variable {A : Arithmetic}

/-- What sums are added to: the replacement where that is a number, else the number that is there
    before any animation, if there is one. -/
def start? (base : Option (Number A)) (replaced : Value A) : Option (Value A) :=
  if replaced.isNumeric then some replaced else base.map .number

def onto : Option (Value A) → List (Amount A) → Value A
  | some start, sums => sums.foldl (fun x y => x.plus y.1) start
  | none, first :: rest => rest.foldl (fun x y => x.plus y.1) first.1
  | none, [] => .null

/-- The last replacement, or what the sums since then come to. -/
def composed (base : Option (Number A)) (moves : List (Move (Value A) (Amount A))) : Value A :=
  let replaced := (Move.replaced? moves).getD .null
  match Move.sums moves with
  | [] => replaced
  | sums => onto (start? base replaced) sums

def step (base : Option (Number A)) (x : Value A) : Move (Value A) (Amount A) → Value A
  | .replace v => v
  | .sum y => onto (start? base x) [y]

theorem isNumeric_foldl {start : Value .exact} (numeric : start.isNumeric = true)
    (sums : List (Amount .exact)) :
    (sums.foldl (fun x y => x.plus y.1) start).isNumeric = true := by
  induction sums generalizing start with
  | nil => exact numeric
  | cons x rest ih => exact ih isNumeric_plus

theorem isNumeric_onto (start : Option (Value .exact)) (x : Amount .exact)
    (rest : List (Amount .exact)) : (onto start (x :: rest)).isNumeric = true := by
  cases start with
  | none => exact isNumeric_foldl x.2 rest
  | some start => exact isNumeric_foldl isNumeric_plus rest

theorem onto_concat (start : Option (Value .exact)) (x : Amount .exact)
    (rest : List (Amount .exact)) (y : Amount .exact) :
    onto start (x :: rest ++ [y]) = (onto start (x :: rest)).plus y.1 := by
  cases start with
  | none => exact List.foldl_concat ..
  | some start => exact List.foldl_concat ..

theorem step_numeric (base : Option (Number .exact)) {x : Value .exact}
    (numeric : x.isNumeric = true) (y : Amount .exact) : step base x (.sum y) = x.plus y.1 := by
  rw [step, start?, if_pos numeric]
  rfl

theorem composed_concat (base : Option (Number .exact))
    (moves : List (Move (Value .exact) (Amount .exact))) (move : Move (Value .exact) (Amount .exact)) :
    composed base (moves ++ [move]) = step base (composed base moves) move := by
  cases move with
  | replace v => simp [composed, step]
  | sum y =>
    unfold composed
    rw [Move.sums_sum, Move.replaced?_sum]
    cases Move.sums moves with
    | nil => rfl
    | cons x rest =>
      dsimp only [List.cons_append]
      rw [step_numeric base (isNumeric_onto _ x rest)]
      exact onto_concat _ x rest y

theorem step_swaps (base : Option (Number .exact)) (x : Value .exact) (y z : Amount .exact) :
    step base (step base x (.sum y)) (.sum z) = step base (step base x (.sum z)) (.sum y) := by
  have numeric (w : Amount .exact) : (step base x (.sum w)).isNumeric = true :=
    isNumeric_onto _ w []
  rw [step_numeric base (numeric y), step_numeric base (numeric z)]
  show (onto (start? base x) [y]).plus z.1 = (onto (start? base x) [z]).plus y.1
  cases start? base x with
  | none => exact plus_comm y.1 z.1
  | some start => exact plus_right_comm start y.1 z.1

theorem composed_isLawful (base : Option (Number .exact)) : Move.IsLawful (composed base) :=
  Move.isLawful_of_step (composed_concat base) (fun _ _ _ => rfl) (step_swaps base)

end Value
end DeclarativeAnimation
