import DeclarativeAnimation.Proofs.Interpolation.Literal

/-! Path data as a renderer reads it.  A path is a row of lexemes, of which a number is as long as
    it can be, and these are commands with as many coordinates as their letters take.  Between
    two numbers there may be blanks and one comma, elsewhere blanks only, and the first command
    moves.  Arcs are not among the commands. -/
namespace DeclarativeAnimation.PathData

open Text

/-- The parts of a path.  A number keeps how it is spelled. -/
inductive Lexeme where
  | gap (c : Char)
  | comma
  | letter (c : Char)
  | number (spelling : List Char) (value : Decimal)
  deriving DecidableEq, Repr

namespace Lexeme

def chars : Lexeme → List Char
  | .gap c => [c]
  | .comma => [',']
  | .letter c => [c]
  | .number spelling _ => spelling

def isGap : Lexeme → Bool
  | .gap _ => true
  | _ => false

def isComma : Lexeme → Bool
  | .comma => true
  | _ => false

def isNumber : Lexeme → Bool
  | .number _ _ => true
  | _ => false

end Lexeme

def isGap (c : Char) : Bool := " \t\n\r\x0c".toList.contains c

def arity? : Char → Option Nat
  | 'M' | 'm' | 'L' | 'l' | 'T' | 't' => some 2
  | 'H' | 'h' | 'V' | 'v' => some 1
  | 'S' | 's' | 'Q' | 'q' => some 4
  | 'C' | 'c' => some 6
  | 'Z' | 'z' => some 0
  | _ => none

def lexeme? (text : List Char) : Option (Lexeme × List Char) :=
  match text with
  | [] => none
  | c :: tail =>
    if isGap c then some (.gap c, tail)
    else if c = ',' then some (.comma, tail)
    else if (arity? c).isSome then some (.letter c, tail)
    else do
      let (value, rest) ← Decimal.scan? text
      let spelling := text.take (text.length - rest.length)
      if spelling.all (·.toNat < 128) then some (.number spelling value, rest) else none

def lexemes? : Nat → List Char → Option (List Lexeme)
  | _, [] => some []
  | 0, _ => none
  | most + 1, text => do
    let (lexeme, rest) ← lexeme? text
    return lexeme :: (← lexemes? most rest)

structure Command where
  letter : Char
  coordinates : List Decimal
  deriving DecidableEq, Repr

def takes (letter : Char) (count : Nat) : Bool :=
  match arity? letter with
  | some 0 => count = 0
  | some n => 0 < count && count % n = 0
  | none => false

/-- The coordinates before the first command, and the commands. -/
def commands? : List Lexeme → Option (List Decimal × List Command)
  | [] => some ([], [])
  | .gap _ :: rest => commands? rest
  | .comma :: rest =>
    if rest.head?.any Lexeme.isNumber then commands? rest else none
  | .number _ value :: rest => do
    let (coordinates, commands) ← commands? rest
    return (value :: coordinates, commands)
  | .letter c :: rest => do
    let (coordinates, commands) ← commands? rest
    if takes c coordinates.length && !rest.head?.any Lexeme.isComma then
      return ([], ⟨c, coordinates⟩ :: commands)
    else none

def moves : List Command → Bool
  | [] => true
  | first :: _ => "Mm".toList.contains first.letter

def read? (path : List Char) : Option (List Command) := do
  let lexemes ← lexemes? path.length path
  let (loose, commands) ← commands? (lexemes.filter (!·.isGap))
  if loose.isEmpty && moves commands then some commands else none

section Lexing

inductive Leads : Lexeme → List Char → List Char → Prop
  | gap {c : Char} {rest : List Char} (blank : isGap c = true) : Leads (.gap c) (c :: rest) rest
  | comma {rest : List Char} : Leads .comma (',' :: rest) rest
  | letter {c : Char} {rest : List Char} (command : (arity? c).isSome = true) :
      Leads (.letter c) (c :: rest) rest
  | number {spelling rest : List Char} {value : Decimal}
      (ascii : ∀ c ∈ spelling, c.toNat < 128)
      (scanned : Decimal.scan? (spelling ++ rest) = some (value, rest)) :
      Leads (.number spelling value) (spelling ++ rest) rest

inductive Lexes : List Char → List Lexeme → Prop
  | nil : Lexes [] []
  | cons {text rest : List Char} {lexeme : Lexeme} {more : List Lexeme}
      (leads : Leads lexeme text rest) (later : Lexes rest more) : Lexes text (lexeme :: more)

variable {text rest : List Char} {lexeme : Lexeme} {d : Decimal}

theorem Leads.parts (leads : Leads lexeme text rest) : text = lexeme.chars ++ rest := by
  cases leads <;> rfl

theorem scan?_parts (scanned : Decimal.scan? text = some (d, rest)) :
    ∃ spelling, text = spelling ++ rest ∧ spelling ≠ [] ∧ ∀ c ∈ spelling, Decimal.IsMark c := by
  obtain ⟨l, parts, -, -⟩ := Decimal.scan?_spelled scanned
  refine ⟨l.chars, parts, fun none => ?_, l.marks⟩
  obtain ⟨c, first, -⟩ := l.size.starts
  rw [(List.append_eq_nil_iff.mp none).2] at first
  cases first

theorem leads_of_lexeme? (read : lexeme? text = some (lexeme, rest)) : Leads lexeme text rest := by
  cases text with
  | nil => cases read
  | cons c tail =>
    unfold lexeme? at read
    dsimp only at read
    split at read
    · rename_i blank
      cases read
      exact .gap blank
    split at read
    · rename_i comma
      subst comma
      cases read
      exact .comma
    split at read
    · rename_i command
      cases read
      exact .letter command
    · obtain ⟨⟨value, left⟩, scanned, read⟩ := Option.bind_eq_some_iff.mp read
      dsimp only at read
      split at read
      · rename_i ascii
        cases read
        obtain ⟨spelling, parts, -⟩ := scan?_parts scanned
        have taken : (c :: tail).take ((c :: tail).length - rest.length) = spelling := by
          rw [parts, List.length_append, Nat.add_sub_cancel, List.take_left]
        rw [taken] at ascii ⊢
        rw [parts] at scanned ⊢
        exact .number (by simpa using ascii) scanned
      · cases read

def singles : List Char := " \t\n\r\x0c,MmLlTtHhVvSsQqCcZz".toList

section Singles
variable {c : Char}

theorem singles_plain (member : c ∈ singles) : isDigit c = false ∧ c ∉ "+-.eE".toList := by
  have known : ∀ c ∈ singles, isDigit c = false ∧ c ∉ "+-.eE".toList := forall_chars (by decide)
  exact known c member

theorem single_of_gap (blank : isGap c = true) : c ∈ singles := by
  have gaps : " \t\n\r\x0c".toList ⊆ singles := by decide
  exact gaps (List.contains_iff_mem.mp blank)

theorem letter_of_command (command : (arity? c).isSome = true) :
    c ∈ "MmLlTtHhVvSsQqCcZz".toList := by
  unfold arity? at command
  split at command <;> first | decide | cases command

theorem single_of_command (command : (arity? c).isSome = true) : c ∈ singles := by
  have letters : "MmLlTtHhVvSsQqCcZz".toList ⊆ singles := by decide
  exact letters (letter_of_command command)

theorem mark_apart (mark : Decimal.IsMark c) :
    isGap c = false ∧ c ≠ ',' ∧ (arity? c).isSome = false := by
  have outside : c ∉ singles := by
    intro member
    obtain ⟨digit, sign⟩ := singles_plain member
    rcases mark with is_digit | is_sign
    · rw [digit] at is_digit
      cases is_digit
    · exact sign is_sign
  refine ⟨?_, ?_, ?_⟩
  · rw [Bool.eq_false_iff]
    exact fun blank => outside (single_of_gap blank)
  · rintro rfl
    exact outside (by decide)
  · rw [Bool.eq_false_iff]
    exact fun command => outside (single_of_command command)

end Singles

theorem lexeme?_of_leads (leads : Leads lexeme text rest) : lexeme? text = some (lexeme, rest) := by
  cases leads with
  | gap blank =>
    unfold lexeme?
    dsimp only
    rw [if_pos blank]
  | comma => rfl
  | letter command =>
    have known : ∀ c ∈ "MmLlTtHhVvSsQqCcZz".toList, isGap c = false ∧ c ≠ ',' :=
      forall_chars (by decide)
    obtain ⟨solid, comma⟩ := known _ (letter_of_command command)
    unfold lexeme?
    dsimp only
    rw [solid, if_neg Bool.false_ne_true, if_neg comma, if_pos command]
  | @number spelling _ value ascii scanned =>
    obtain ⟨literal, parts, some_mark, marks⟩ := scan?_parts scanned
    obtain rfl := List.append_cancel_right parts
    obtain ⟨c, tail, rfl⟩ := List.exists_cons_of_ne_nil some_mark
    obtain ⟨solid, comma, command⟩ := mark_apart (marks c List.mem_cons_self)
    have taken :
        (c :: tail ++ rest).take ((c :: tail ++ rest).length - rest.length) = c :: tail := by
      rw [List.length_append, Nat.add_sub_cancel, List.take_left]
    unfold lexeme?
    rw [List.cons_append] at scanned taken ⊢
    dsimp only
    rw [solid, if_neg Bool.false_ne_true, if_neg comma, command, if_neg Bool.false_ne_true, scanned,
      Option.bind_eq_bind, Option.bind_some]
    dsimp only
    rw [taken, if_pos (by simpa using ascii)]

theorem Leads.shorter (leads : Leads lexeme text rest) : rest.length < text.length := by
  cases leads with
  | gap => exact Nat.lt_succ_self _
  | comma => exact Nat.lt_succ_self _
  | letter => exact Nat.lt_succ_self _
  | number ascii scanned =>
    obtain ⟨literal, parts, some_mark, -⟩ := scan?_parts scanned
    have some_char := List.length_pos_iff.mpr some_mark
    rw [parts, List.length_append]
    omega

theorem lexes_of_lexemes? {most : Nat} {lexemes : List Lexeme}
    (read : lexemes? most text = some lexemes) : Lexes text lexemes := by
  induction most generalizing text lexemes with
  | zero =>
    cases text with
    | nil =>
      cases read
      exact .nil
    | cons => cases read
  | succ most ih =>
    cases text with
    | nil =>
      cases read
      exact .nil
    | cons c tail =>
      obtain ⟨⟨lexeme, rest⟩, leads, read⟩ := Option.bind_eq_some_iff.mp read
      obtain ⟨more, later, read⟩ := Option.bind_eq_some_iff.mp read
      cases read
      exact .cons (leads_of_lexeme? leads) (ih later)

theorem lexemes?_of_lexes {most : Nat} {lexemes : List Lexeme} (lexes : Lexes text lexemes)
    (enough : text.length ≤ most) : lexemes? most text = some lexemes := by
  induction lexes generalizing most with
  | nil => cases most <;> rfl
  | @cons text rest lexeme more leads _ ih =>
    have shorter := leads.shorter
    cases text with
    | nil => cases shorter
    | cons c tail =>
      obtain ⟨most, rfl⟩ : ∃ n, most = n + 1 := ⟨most - 1, by rw [List.length_cons] at enough; omega⟩
      rw [lexemes?, lexeme?_of_leads leads, Option.bind_eq_bind, Option.bind_some]
      · dsimp only
        rw [ih (by omega)]
        rfl
      · exact List.cons_ne_nil c tail

theorem read?_of_lexes {lexemes : List Lexeme} (lexes : Lexes text lexemes) : read? text =
    (do
      let (loose, commands) ← commands? (lexemes.filter (!·.isGap))
      if loose.isEmpty && moves commands then some commands else none) := by
  unfold read?
  rw [lexemes?_of_lexes lexes le_rfl]
  rfl

end Lexing

section Values

def Lexeme.revalued (spell : List Char → Decimal → List Char) (value : Decimal → Decimal) :
    Lexeme → Lexeme
  | .number spelling d => .number (spell spelling d) (value d)
  | other => other

def Command.revalued (value : Decimal → Decimal) (c : Command) : Command :=
  { c with coordinates := c.coordinates.map value }

variable (spell : List Char → Decimal → List Char) (value : Decimal → Decimal)

theorem head_revalued (test : Lexeme → Bool) (same : ∀ l, test (l.revalued spell value) = test l)
    (lexemes : List Lexeme) :
    (lexemes.map (Lexeme.revalued spell value)).head?.any test = lexemes.head?.any test := by
  cases lexemes with
  | nil => rfl
  | cons first _ => exact same first

theorem commands?_revalued (lexemes : List Lexeme) :
    commands? (lexemes.map (Lexeme.revalued spell value)) =
      (commands? lexemes).map fun (coordinates, commands) =>
        (coordinates.map value, commands.map (Command.revalued value)) := by
  induction lexemes with
  | nil => rfl
  | cons lexeme rest ih =>
    have numbers := head_revalued spell value Lexeme.isNumber (fun l => by cases l <;> rfl) rest
    have commas := head_revalued spell value Lexeme.isComma (fun l => by cases l <;> rfl) rest
    rw [List.map_cons]
    cases lexeme with
    | gap c => exact ih
    | comma =>
      simp only [Lexeme.revalued, commands?, numbers]
      split
      · exact ih
      · rfl
    | number spelling d =>
      simp only [Lexeme.revalued, commands?, ih]
      cases commands? rest <;> rfl
    | letter c =>
      simp only [Lexeme.revalued, commands?, ih, commas]
      cases commands? rest with
      | none => rfl
      | some found =>
        obtain ⟨coordinates, commands⟩ := found
        simp only [Option.map_some, Option.bind_eq_bind, Option.bind_some, List.length_map]
        split <;> rfl

theorem moves_revalued (commands : List Command) :
    moves (commands.map (Command.revalued value)) = moves commands := by
  cases commands <;> rfl

theorem filter_revalued (lexemes : List Lexeme) :
    (lexemes.map (Lexeme.revalued spell value)).filter (!·.isGap) =
      (lexemes.filter (!·.isGap)).map (Lexeme.revalued spell value) := by
  rw [List.filter_map]
  congr 1
  apply List.filter_congr
  intro lexeme _
  cases lexeme <;> rfl

theorem read?_revalued {text out : List Char} {lexemes : List Lexeme} {commands : List Command}
    (lexes : Lexes text lexemes) (outLexes : Lexes out (lexemes.map (Lexeme.revalued spell value)))
    (read : read? text = some commands) :
    read? out = some (commands.map (Command.revalued value)) := by
  rw [read?_of_lexes lexes] at read
  rw [read?_of_lexes outLexes, filter_revalued, commands?_revalued]
  obtain ⟨⟨loose, found⟩, parsed, read⟩ := Option.bind_eq_some_iff.mp read
  dsimp only at read
  split at read
  · rename_i closed
    obtain rfl := Option.some.inj read
    rw [parsed, Option.map_some, Option.bind_eq_bind, Option.bind_some]
    dsimp only
    rw [List.isEmpty_map, moves_revalued, if_pos closed]
  · cases read

end Values

end DeclarativeAnimation.PathData
