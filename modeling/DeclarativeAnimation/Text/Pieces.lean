/-! Blank characters and cutting text at them, and digits. -/
namespace DeclarativeAnimation.Text

def isBlank (c : Char) : Bool :=
  let n := c.toNat
  (0x9 ≤ n && n ≤ 0xd) || (0x1c ≤ n && n ≤ 0x20) || n == 0x85 || n == 0xa0 || n == 0x1680 ||
    (0x2000 ≤ n && n ≤ 0x200a) || n == 0x2028 || n == 0x2029 || n == 0x202f || n == 0x205f ||
    n == 0x3000

def trimEndWhile (p : Char → Bool) (text : List Char) : List Char :=
  (text.reverse.dropWhile p).reverse

def trimWhile (p : Char → Bool) (text : List Char) : List Char :=
  trimEndWhile p (text.dropWhile p)

def trim (text : List Char) : List Char := trimWhile isBlank text

/-- The pieces of a text between the characters of a class, the empty ones too. -/
def pieces (p : Char → Bool) : List Char → List (List Char)
  | [] => [[]]
  | c :: rest =>
    if p c then [] :: pieces p rest
    else
      match pieces p rest with
      | [] => [[c]]
      | piece :: more => (c :: piece) :: more

def words (p : Char → Bool) (text : List Char) : List (List Char) :=
  (pieces p text).filter (!·.isEmpty)

def occurs (part : List Char) : List Char → Bool
  | [] => part.isEmpty
  | c :: rest => part.isPrefixOf (c :: rest) || occurs part rest

theorem pieces_ne_nil (p : Char → Bool) (text : List Char) : pieces p text ≠ [] := by
  cases text with
  | nil => simp [pieces]
  | cons c rest =>
    simp only [pieces]
    split
    · simp
    · split <;> simp

theorem pieces_flatten (p : Char → Bool) (text : List Char) :
    (pieces p text).flatten = text.filter (!p ·) := by
  induction text with
  | nil => rfl
  | cons c rest ih =>
    simp only [pieces]
    split
    · simp_all
    · rename_i outside
      split
      · rename_i none; exact absurd none (pieces_ne_nil p rest)
      · rename_i piece more found
        rw [found] at ih
        simp_all

theorem pieces_of_none {p : Char → Bool} {text : List Char} (none : ∀ c ∈ text, p c = false) :
    pieces p text = [text] := by
  induction text with
  | nil => rfl
  | cons c rest ih =>
    have outside : p c = false := none c (by simp)
    simp [pieces, outside, ih fun d member => none d (by simp [member])]

theorem pieces_append {p : Char → Bool} {text : List Char} {sep : Char} (rest : List Char)
    (none : ∀ c ∈ text, p c = false) (hit : p sep = true) :
    pieces p (text ++ sep :: rest) = text :: pieces p rest := by
  induction text with
  | nil => simp [pieces, hit]
  | cons c text ih =>
    have outside : p c = false := none c (by simp)
    simp [pieces, outside, ih fun d member => none d (by simp [member])]

theorem pieces_inside {p : Char → Bool} {text piece : List Char}
    (member : piece ∈ pieces p text) : ∀ c ∈ piece, p c = false := by
  intro c inside
  have kept : c ∈ text.filter (!p ·) := by
    rw [← pieces_flatten]
    exact List.mem_flatten.mpr ⟨piece, member, inside⟩
  simpa using (List.mem_filter.mp kept).2

theorem pieces_intercalate {p : Char → Bool} {sep : Char} (hit : p sep = true)
    {texts : List (List Char)} (some_text : texts ≠ [])
    (none : ∀ text ∈ texts, ∀ c ∈ text, p c = false) :
    pieces p (List.intercalate [sep] texts) = texts := by
  induction texts with
  | nil => exact absurd rfl some_text
  | cons text rest ih =>
    obtain ⟨here, later⟩ := List.forall_mem_cons.mp none
    cases rest with
    | nil =>
      rw [List.intercalate_singleton]
      exact pieces_of_none here
    | cons next more =>
      rw [List.intercalate_cons_cons, List.append_assoc, List.singleton_append,
        pieces_append _ here hit, ih (List.cons_ne_nil next more) later]

theorem intercalate_pieces (sep : Char) (text : List Char) :
    List.intercalate [sep] (pieces (· == sep) text) = text := by
  induction text with
  | nil => rfl
  | cons c rest ih =>
    obtain ⟨piece, more, found⟩ := List.exists_cons_of_ne_nil (pieces_ne_nil (· == sep) rest)
    rw [found] at ih
    unfold pieces
    split
    · rename_i same
      rw [found, List.intercalate_cons_cons, ih, eq_of_beq same]
      rfl
    · rw [found]
      cases more with
      | nil =>
        rw [List.intercalate_singleton] at ih ⊢
        rw [ih]
      | cons next others =>
        rw [List.intercalate_cons_cons] at ih ⊢
        rw [← ih]
        rfl

theorem trimWhile_of_none {p : Char → Bool} {text : List Char} (none : ∀ c ∈ text, p c = false) :
    trimWhile p text = text := by
  have kept (l : List Char) (clear : ∀ c ∈ l, p c = false) : l.dropWhile p = l := by
    cases l with
    | nil => rfl
    | cons c rest => simp [List.dropWhile, clear c (by simp)]
  have backwards : text.reverse.dropWhile p = text.reverse :=
    kept text.reverse fun c member => none c (List.mem_reverse.mp member)
  unfold trimWhile trimEndWhile
  rw [kept text none, backwards, List.reverse_reverse]

example : trim [' ', 'a', ' ', 'b', '\n'] = ['a', ' ', 'b'] := by decide
example : pieces (· == ';') "a;;b".toList = [['a'], [], ['b']] := by decide

def digitZeros : List Nat :=
  [0x30, 0x660, 0x6f0, 0x7c0, 0x966, 0x9e6, 0xa66, 0xae6, 0xb66, 0xbe6, 0xc66, 0xce6, 0xd66,
   0xde6, 0xe50, 0xed0, 0xf20, 0x1040, 0x1090, 0x17e0, 0x1810, 0x1946, 0x19d0, 0x1a80, 0x1a90,
   0x1b50, 0x1bb0, 0x1c40, 0x1c50, 0xa620, 0xa8d0, 0xa900, 0xa9d0, 0xa9f0, 0xaa50, 0xabf0,
   0xff10, 0x104a0, 0x10d30, 0x11066, 0x110f0, 0x11136, 0x111d0, 0x112f0, 0x11450, 0x114d0,
   0x11650, 0x116c0, 0x11730, 0x118e0, 0x11950, 0x11c50, 0x11d50, 0x11da0, 0x16a60, 0x16ac0,
   0x16b50, 0x1d7ce, 0x1d7d8, 0x1d7e2, 0x1d7ec, 0x1d7f6, 0x1e140, 0x1e2f0, 0x1e950, 0x1fbf0]

def digit? (c : Char) : Option Nat :=
  (digitZeros.find? fun start => start ≤ c.toNat && c.toNat < start + 10).map (c.toNat - ·)

def isDigit (c : Char) : Bool := (digit? c).isSome

def digitsValue (digits : List Char) : Nat :=
  digits.foldl (fun n c => 10 * n + (digit? c).getD 0) 0

def hexDigit? (c : Char) : Option Nat :=
  if '0' ≤ c && c ≤ '9' then some (c.toNat - 48)
  else if 'a' ≤ c && c ≤ 'f' then some (c.toNat - 87)
  else if 'A' ≤ c && c ≤ 'F' then some (c.toNat - 55)
  else none

theorem digit?_lt_ten {c : Char} {d : Nat} (h : digit? c = some d) : d < 10 := by
  simp only [digit?, Option.map_eq_some_iff] at h
  obtain ⟨start, found, rfl⟩ := h
  have range := List.find?_some found
  simp only [Bool.and_eq_true, decide_eq_true_eq] at range
  omega

example : digitZeros.length = 66 := rfl
example : digit? '7' = some 7 := by decide

end DeclarativeAnimation.Text
