import DeclarativeAnimation.Markup.Rounded
import DeclarativeAnimation.Proofs.Markup.PathData
import DeclarativeAnimation.Proofs.Markup.RoundedNumber
import DeclarativeAnimation.Proofs.Number.Conversion
import DeclarativeAnimation.Proofs.Outcome

/-! Paths with rounded numbers.  Rounding goes through a path from left to right and writes a
    number anew wherever one starts with a digit.  As long as all numbers do, and none of them
    loses a minus sign that keeps it apart from the number before it, the path is read with the
    same commands and with every coordinate rounded. -/
namespace DeclarativeAnimation

open Text PathData

section Scanning

def StartsWithDigit (spelling : List Char) : Prop :=
  ∃ c ∈ (Decimal.scanSign spelling).2.head?, isDigit c = true

theorem StartsWithDigit.cases {spelling : List Char} (starts : StartsWithDigit spelling) :
    ∃ c body, isDigit c = true ∧
      (spelling = '+' :: c :: body ∨ spelling = '-' :: c :: body ∨ spelling = c :: body) := by
  obtain ⟨c, first, digit⟩ := starts
  unfold Decimal.scanSign at first
  split at first
  · rename_i rest
    obtain ⟨body, rfl⟩ := List.head?_eq_some_iff.mp first
    exact ⟨c, body, digit, .inr (.inl rfl)⟩
  · rename_i rest
    obtain ⟨body, rfl⟩ := List.head?_eq_some_iff.mp first
    exact ⟨c, body, digit, .inl rfl⟩
  · obtain ⟨body, rfl⟩ := List.head?_eq_some_iff.mp first
    exact ⟨c, body, digit, .inr (.inr rfl)⟩

end Scanning

namespace Markup
variable {A : Arithmetic}

def stepOf (A : Arithmetic) (places : Nat) (d : Decimal) : Positional :=
  Positional.ofSteps places (nearestEven ((d.toNumber : Number A).rat * 10 ^ places))

def spellStep (A : Arithmetic) (places : Nat) (spelling : List Char) (d : Decimal) : List Char :=
  (if spelling.head? = some '+' then ['+'] else []) ++ (stepOf A places d).chars

def roundedLexeme (A : Arithmetic) (places : Nat) : Lexeme → Lexeme :=
  Lexeme.revalued (spellStep A places) fun d => (stepOf A places d).decimal

/-- A number that follows on another one keeps the minus sign that it has. -/
def KeepsApart (A : Arithmetic) (places : Nat) (first second : Lexeme) : Prop :=
  ∀ spelling d, first.isNumber = true → second = .number spelling d → spelling.head? = some '-' →
    toPlaces places (d.toNumber : Number A).rat < 0

/-- Numbers that start with a digit and are in range, and that stay apart. -/
structure Roundable (A : Arithmetic) (places : Nat) (lexemes : List Lexeme) : Prop where
  digits : ∀ spelling d, .number spelling d ∈ lexemes → StartsWithDigit spelling
  finite : ∀ spelling d, .number spelling d ∈ lexemes → (d.toNumber : Number A).isFinite = true
  apart : lexemes.IsChain (KeepsApart A places)

section Lexemes
variable {places : Nat} {lexeme : Lexeme} {more : List Lexeme}

theorem Roundable.tail (good : Roundable A places (lexeme :: more)) : Roundable A places more where
  digits spelling d member := good.digits spelling d (List.mem_cons_of_mem _ member)
  finite spelling d member := good.finite spelling d (List.mem_cons_of_mem _ member)
  apart := good.apart.tail

theorem stepOf_value (d : Decimal) :
    (stepOf A places d).decimal.value = toPlaces places (d.toNumber : Number A).rat :=
  Positional.ofSteps_value _ _

theorem stepOf_negative (d : Decimal) :
    (stepOf A places d).negative = true ↔ toPlaces places (d.toNumber : Number A).rat < 0 := by
  have scale : (0 : Rat) < 10 ^ places := by positivity
  unfold stepOf Positional.ofSteps Positional.shortened Positional.ofCount toPlaces
  dsimp only
  rw [decide_eq_true_eq, div_neg_iff]
  constructor
  · exact fun negative => .inr ⟨by exact_mod_cast negative, scale⟩
  · rintro (⟨_, below⟩ | ⟨negative, _⟩)
    · exact absurd below (not_lt.mpr scale.le)
    · exact_mod_cast negative

theorem ends_of_rounded {spelling text rest out : List Char} {d : Decimal}
    (leads : Leads (.number spelling d) text rest) (lexes : Lexes rest more)
    (good : Roundable A places (.number spelling d :: more))
    (outLexes : Lexes out (more.map (roundedLexeme A places))) : Positional.EndsNumber out := by
  have scanned : Decimal.scan? text = some (d, rest) := by
    cases leads with
    | number _ scanned => exact scanned
  have marks : ".eE".toList ⊆ "+-.eE".toList := by decide
  have single {c : Char} (member : c ∈ singles) : isDigit c = false ∧ c ∉ ".eE".toList :=
    ⟨(singles_plain member).1, fun mark => (singles_plain member).2 (marks mark)⟩
  have signs : ∀ c ∈ "+-".toList, isDigit c = false ∧ c ∉ ".eE".toList := forall_chars (by decide)
  cases lexes with
  | nil =>
    cases outLexes
    exact fun c first => by cases first
  | @cons _ _ next others nextLeads _ =>
    cases outLexes with
    | cons outLeads _ =>
      intro c first
      rw [outLeads.parts] at first
      cases nextLeads with
      | gap blank =>
        obtain rfl := Option.some.inj first
        exact single (single_of_gap blank)
      | comma =>
        obtain rfl := Option.some.inj first
        exact single (by decide)
      | letter command =>
        obtain rfl := Option.some.inj first
        exact single (single_of_command command)
      | @number after _ e _ _ =>
        obtain ⟨digit, body, is_digit, plus | minus | bare⟩ :=
          (good.digits after e (by simp)).cases
        · subst plus
          obtain rfl := Option.some.inj first
          exact signs _ (by decide)
        · have signed := (List.isChain_cons_cons.mp good.apart).1 after e rfl rfl (by rw [minus]; rfl)
          have negative := (stepOf_negative e).mpr signed
          subst minus
          change c ∈ ((spellStep A places _ e) ++ _).head? at first
          unfold spellStep Positional.chars signChars at first
          rw [negative] at first
          obtain rfl := Option.some.inj first
          exact signs _ (by decide)
        · -- A digit would have been read with the number before it.
          subst bare
          obtain ⟨-, -, -, ends⟩ := Decimal.scan?_spelled scanned
          have stops := ends digit rfl
          rw [is_digit] at stops
          cases stops

theorem rounded_leads {spelling out : List Char} {d : Decimal} {rest : List Char}
    (scanned : Decimal.scan? (spelling ++ rest) = some (d, rest))
    (finite : (d.toNumber : Number A).isFinite = true) (ends : Positional.EndsNumber out) :
    Leads (roundedLexeme A places (.number spelling d)) (spellStep A places spelling d ++ out)
      out := by
  have numeral : ∀ c ∈ numeralChars, c.toNat < 128 := forall_chars (by decide)
  have ascii : ∀ c ∈ (stepOf A places d).chars, c.toNat < 128 :=
    fun c member => numeral c (Positional.chars_numeral _ member)
  refine .number ?_ ?_
  · unfold spellStep
    refine List.forall_mem_append.mpr ⟨?_, ascii⟩
    split
    · simp
    · simp
  · unfold spellStep
    split
    · rename_i plus
      obtain ⟨body, rfl⟩ := List.head?_eq_some_iff.mp plus
      have sign : d.negative = false := by
        obtain ⟨u, -, rfl, -⟩ := Decimal.scanUnsigned?_spelled scanned
        rfl
      have bare : (stepOf A places d).negative = false := by
        rw [Bool.eq_false_iff]
        intro negative
        have below := stepOf_negative d |>.mp negative
        have nonneg := Number.nearestEven_nonneg
          (mul_nonneg (Decimal.toNumber_nonneg finite sign) (by positivity : (0 : Rat) ≤ 10 ^ places))
        have above : 0 ≤ toPlaces places (d.toNumber : Number A).rat :=
          div_nonneg (by exact_mod_cast nonneg) (by positivity)
        exact absurd below (not_lt.mpr above)
      have read := (stepOf A places d).scanUnsigned?_unsigned ends false
      unfold Positional.chars signChars
      rw [bare, if_neg Bool.false_ne_true, List.nil_append]
      refine read.trans ?_
      rw [← bare]
      rfl
    · exact (stepOf A places d).scan?_chars ends

end Lexemes

section Rounding
variable {precision : Value A} {places : Nat}

theorem go_other {c : Char} {tail out : List Char} (other : pathNumber? (c :: tail) = none)
    (later : ∀ fuel, tail.length < fuel → roundedPath.go precision fuel tail = .ok out) :
    ∀ fuel, (c :: tail).length < fuel →
      roundedPath.go precision fuel (c :: tail) = .ok (c :: out) := by
  intro fuel enough
  obtain ⟨fuel, rfl⟩ : ∃ n, fuel = n + 1 := ⟨fuel - 1, by omega⟩
  rw [List.length_cons] at enough
  rw [roundedPath.go, other]
  dsimp only
  rw [later fuel (by omega)]
  rfl

theorem go_number (precise : placesOf precision = .ok places) {text rest out : List Char} {d : Decimal}
    (number : pathNumber? text = some (d, rest)) (shorter : rest.length < text.length)
    (finite : (d.toNumber : Number A).isFinite = true)
    (later : ∀ fuel, rest.length < fuel → roundedPath.go precision fuel rest = .ok out) :
    ∀ fuel, text.length < fuel →
      roundedPath.go precision fuel text = .ok ((stepOf A places d).chars ++ out) := by
  intro fuel enough
  obtain ⟨fuel, rfl⟩ : ∃ n, fuel = n + 1 := ⟨fuel - 1, by omega⟩
  have written : rounded (d.toNumber : Number A) precision =
      .ok (roundedTo places (d.toNumber : Number A)) := by
    unfold rounded
    rw [precise]
    rfl
  cases text with
  | nil => cases shorter
  | cons c tail =>
    rw [roundedPath.go, number]
    dsimp only
    rw [written, later fuel (by omega)]
    exact congrArg (fun s => Except.ok (s ++ out)) (roundedTo_chars finite places)

theorem pathNumber?_bare {c : Char} (bare : c ≠ '-') (tail : List Char) : pathNumber? (c :: tail) =
    if isDigit c then Decimal.scanUnsigned? false (c :: tail) else none := by
  simp [pathNumber?, bare]

theorem pathNumber?_minus {c : Char} (digit : isDigit c = true) (tail : List Char) :
    pathNumber? ('-' :: c :: tail) = Decimal.scanUnsigned? true (c :: tail) := by
  simp [pathNumber?, digit]

theorem pathNumber?_other {c : Char} (bare : c ≠ '-') (other : isDigit c = false) (tail : List Char) :
    pathNumber? (c :: tail) = none := by
  rw [pathNumber?_bare bare, other]
  rfl

theorem go_spelled (precise : placesOf precision = .ok places) {spelling rest out : List Char}
    {d : Decimal} (scanned : Decimal.scan? (spelling ++ rest) = some (d, rest))
    (starts : StartsWithDigit spelling) (finite : (d.toNumber : Number A).isFinite = true)
    (later : ∀ fuel, rest.length < fuel → roundedPath.go precision fuel rest = .ok out) :
    ∀ fuel, (spelling ++ rest).length < fuel →
      roundedPath.go precision fuel (spelling ++ rest) =
        .ok (spellStep A places spelling d ++ out) := by
  have signs : isDigit '-' = false ∧ isDigit '+' = false := by decide
  obtain ⟨c, body, digit, rfl | rfl | rfl⟩ := starts.cases
  all_goals
    have bare : c ≠ '-' := by
      rintro rfl
      rw [signs.1] at digit
      cases digit
    have shorter : rest.length < (c :: body ++ rest).length := by
      rw [List.length_append, List.length_cons]
      omega
  · have number : pathNumber? (c :: body ++ rest) = some (d, rest) := by
      rw [List.cons_append, pathNumber?_bare bare, if_pos digit]
      exact scanned
    exact go_other (pathNumber?_other (by decide) signs.2 _)
      (go_number precise number shorter finite later)
  · have number : pathNumber? ('-' :: c :: body ++ rest) = some (d, rest) := by
      rw [List.cons_append, List.cons_append, pathNumber?_minus digit]
      exact scanned
    exact go_number precise number (by rw [List.cons_append, List.length_cons]; omega) finite later
  · have plus : c ≠ '+' := by
      rintro rfl
      rw [signs.2] at digit
      cases digit
    have number : pathNumber? (c :: body ++ rest) = some (d, rest) := by
      rw [List.cons_append, pathNumber?_bare bare, if_pos digit]
      rw [List.cons_append, Decimal.scan?, Decimal.scanSign_digit digit] at scanned
      exact scanned
    have kept : spellStep A places (c :: body) d = (stepOf A places d).chars := by
      unfold spellStep
      rw [if_neg (by simpa using plus), List.nil_append]
    rw [kept]
    exact go_number precise number shorter finite later

/-- The rounded path falls into the rounded lexemes. -/
theorem rounded_lexes (precise : placesOf precision = .ok places) {text : List Char}
    {lexemes : List Lexeme} (lexes : Lexes text lexemes) (good : Roundable A places lexemes) :
    ∃ out, (∀ fuel, text.length < fuel → roundedPath.go precision fuel text = .ok out) ∧
      Lexes out (lexemes.map (roundedLexeme A places)) := by
  induction lexes with
  | nil =>
    refine ⟨[], fun fuel enough => ?_, .nil⟩
    obtain ⟨fuel, rfl⟩ : ∃ n, fuel = n + 1 := ⟨fuel - 1, by omega⟩
    rfl
  | @cons text rest lexeme more leads later ih =>
    obtain ⟨out, rounds, outLexes⟩ := ih good.tail
    have bare : ∀ c ∈ singles, c ≠ '-' := forall_chars (by decide)
    have single {c : Char} (member : c ∈ singles) : ∀ fuel, (c :: rest).length < fuel →
        roundedPath.go precision fuel (c :: rest) = .ok (c :: out) :=
      go_other (pathNumber?_other (bare c member) (singles_plain member).1 rest) rounds
    cases leads with
    | gap blank => exact ⟨_, single (single_of_gap blank), .cons (.gap blank) outLexes⟩
    | comma => exact ⟨_, single (by decide), .cons .comma outLexes⟩
    | letter command =>
      exact ⟨_, single (single_of_command command), .cons (.letter command) outLexes⟩
    | @number spelling _ d ascii scanned =>
      have starts := good.digits spelling d List.mem_cons_self
      have finite := good.finite spelling d List.mem_cons_self
      have ends := ends_of_rounded (.number ascii scanned) later good outLexes
      exact ⟨_, go_spelled precise scanned starts finite rounds,
        .cons (rounded_leads scanned finite ends) outLexes⟩

end Rounding

section Paths

/-- A path whose numbers can be rounded where they stand is read with the same commands, and with
    every coordinate at its nearest step. -/
theorem rounding_keeps_path {options : Options A} {places : Nat} {path : String}
    {lexemes : List Lexeme} {commands : List PathData.Command}
    (optimizes : options.optimize.isPresent = true)
    (precise : placesOf options.precision = .ok places)
    (parted : lexemes? path.toList.length path.toList = some lexemes)
    (read : read? path.toList = some commands) (good : Roundable A places lexemes) :
    ∃ (out : String) (written : List PathData.Command),
      optimizePath (.text path) options = .ok (.text out) ∧ read? out.toList = some written ∧
      written.map (·.letter) = commands.map (·.letter) ∧
      written.map (fun c => c.coordinates.map Decimal.value) =
        commands.map fun c => c.coordinates.map fun d =>
          toPlaces places (d.toNumber : Number A).rat := by
  have lexes := lexes_of_lexemes? parted
  obtain ⟨out, rounds, outLexes⟩ := rounded_lexes precise lexes good
  have rewritten :
      roundedPath options.precision path.toList = .ok out := rounds _ (Nat.lt_succ_self _)
  refine ⟨String.ofList out,
    commands.map (Command.revalued fun d => (stepOf A places d).decimal), ?_, ?_, ?_, ?_⟩
  · unfold optimizePath
    rw [optimizes]
    dsimp only
    rw [rewritten]
    rfl
  · rw [String.toList_ofList]
    exact read?_revalued _ _ lexes outLexes read
  · rw [List.map_map]
    rfl
  · rw [List.map_map]
    refine List.map_congr_left fun c _ => ?_
    change (c.coordinates.map _).map Decimal.value = _
    rw [List.map_map]
    exact List.map_congr_left fun d _ => stepOf_value d

def tenths : Options .binary64 := { precision := .int 1 }

theorem joined_minus_keeps_path : tenths.optimize.isPresent = true ∧
    placesOf tenths.precision = .ok 1 ∧
    read? "M1.05-3".toList = some [⟨'M', [⟨false, 105, -2⟩, ⟨true, 3, 0⟩]⟩] ∧
    ∃ (out : String) (written : List PathData.Command),
      optimizePath (.text "M1.05-3") tenths = .ok (.text out) ∧ read? out.toList = some written ∧
      written.map (·.letter) = ['M'] := by
  have parted : lexemes? "M1.05-3".toList.length "M1.05-3".toList =
      some [.letter 'M', .number "1.05".toList ⟨false, 105, -2⟩, .number "-3".toList ⟨true, 3, 0⟩] := by
    decide +kernel
  have read : read? "M1.05-3".toList = some [⟨'M', [⟨false, 105, -2⟩, ⟨true, 3, 0⟩]⟩] := by
    decide +kernel
  have numbers : ∀ spelling d, Lexeme.number spelling d ∈
      [.letter 'M', .number "1.05".toList ⟨false, 105, -2⟩, .number "-3".toList ⟨true, 3, 0⟩] →
        (spelling = "1.05".toList ∧ d = ⟨false, 105, -2⟩) ∨
          spelling = "-3".toList ∧ d = ⟨true, 3, 0⟩ := by
    intro spelling d member
    simpa using member
  have good : Roundable .binary64 1
      [.letter 'M', .number "1.05".toList ⟨false, 105, -2⟩, .number "-3".toList ⟨true, 3, 0⟩] := by
    refine ⟨fun spelling d member => ?_, fun spelling d member => ?_, ?_⟩
    · rcases numbers spelling d member with ⟨rfl, -⟩ | ⟨rfl, -⟩
      · exact ⟨'1', rfl, by decide⟩
      · exact ⟨'3', rfl, by decide⟩
    · rcases numbers spelling d member with ⟨-, rfl⟩ | ⟨-, rfl⟩
      · decide +kernel
      · decide +kernel
    · refine .cons_cons (fun _ _ number => by cases number) (.cons_cons ?_ (.singleton _))
      intro spelling d _ same _
      cases same
      decide +kernel
  obtain ⟨out, written, rounds, again, letters, -⟩ :=
    rounding_keeps_path (rfl : tenths.optimize.isPresent = true) rfl parted read good
  exact ⟨rfl, rfl, read, out, written, rounds, again, letters⟩

/-- A number that starts with its point is rounded behind it and is another number then. -/
theorem leading_point_shifts_path :
    read? "M.05 0".toList = some [⟨'M', [⟨false, 5, -2⟩, ⟨false, 0, 0⟩]⟩] ∧
      optimizePath (.text "M.05 0") ({} : Options .binary64) = .ok (.text "M.5 0") ∧
      read? "M.5 0".toList = some [⟨'M', [⟨false, 5, -1⟩, ⟨false, 0, 0⟩]⟩] ∧
      Decimal.value ⟨false, 5, -1⟩ ≠
        toPlaces 4 (Decimal.toNumber ⟨false, 5, -2⟩ : Number .binary64).rat := by
  have rewritten : roundedPath (.int 4 : Value .binary64) "M.05 0".toList = .ok "M.5 0".toList := by
    decide +kernel
  refine ⟨by decide +kernel, ?_, by decide +kernel, by decide +kernel⟩
  unfold optimizePath
  rw [show ({} : Options .binary64).optimize.isPresent = true from rfl]
  dsimp only
  rw [rewritten]
  rfl

end Paths

end Markup

end DeclarativeAnimation
