import DeclarativeAnimation.Value

/-! Values and path data in markup.  Every number in a value is rounded to the precision and written
    without zeros at the end; everything else in it is kept, blanks included.  In a path a number
    starts with a digit, after a minus sign or not, so a point that starts one stays outside it. -/
namespace DeclarativeAnimation.Markup
variable {A : Arithmetic}

def mostPlaces : Int := 2147483647

def placesOf (precision : Value A) : Except Fault Nat := do
  let n ← precision.toWhole
  if n < 0 then throw .placesNegative
  else if mostPlaces < n then throw .placesTooMany
  else return n.toNat

def trimFraction (text : List Char) : List Char :=
  if text.contains '.' then
    Text.trimEndWhile (· == '.') (Text.trimEndWhile (· == '0') text)
  else text

/-- How many of the given places can hold a digit: over a power of two there are no more digits
    than its exponent, and what follows would be zeros. -/
def usefulPlaces (places : Nat) (x : Number A) : Nat :=
  let denominator := x.rat.den
  if denominator = Nat.pow 2 denominator.log2 then min places denominator.log2 else places

/-- A number with at most the given places; a zero has no sign. -/
def roundedTo (places : Nat) (x : Number A) : String :=
  let text := trimFraction (x.fixed (usefulPlaces places x)).toList
  if text = ['-', '0'] || text = [] then "0" else String.ofList text

def rounded (x : Number A) (precision : Value A) : Except Fault String := do
  return roundedTo (← placesOf precision) x

def isSeparator (c : Char) : Bool := Text.isBlank c || c == ','

/-- The longest pieces of a text that lie wholly inside or wholly outside a class. -/
def runs (p : Char → Bool) : List Char → List (List Char)
  | [] => []
  | c :: rest =>
    match runs p rest with
    | (d :: run) :: more =>
      if p c == p d then (c :: d :: run) :: more else [c] :: (d :: run) :: more
    | other => [c] :: other

def roundedWord (precision : Value A) (word : List Char) : Except Fault (List Char) :=
  match Decimal.whole? word with
  | some decimal => do return (← rounded (decimal.toNumber : Number A) precision).toList
  | none => .ok word

def roundedText (precision : Value A) (text : List Char) : Except Fault (List Char) := do
  return (← (runs isSeparator (Text.trim text)).mapM (roundedWord precision)).flatten

def formatValue (v precision : Value A) : Except Fault String :=
  match v with
  | .bool b => .ok (if b then "true" else "false")
  | .int _ | .number _ => do rounded (← v.toNumber) precision
  | _ => do return String.ofList (← roundedText precision (← v.written).toList)

def formatValues (v precision : Value A) : Except Fault String := do
  let entries ← (Text.pieces (· == ';') (← v.written).toList).mapM (roundedText precision)
  return String.ofList (List.intercalate [';'] entries)

/-- The entries of a list between semicolons, each rounded, without the blank ones. -/
def formatKeyPoints (v precision : Value A) : Except Fault String := do
  let found := (Text.pieces (· == ';') (← v.written).toList).filter fun e => !(Text.trim e).isEmpty
  return String.ofList (List.intercalate [';'] (← found.mapM (roundedText precision)))

theorem runs_flatten (p : Char → Bool) (text : List Char) : (runs p text).flatten = text := by
  induction text with
  | nil => rfl
  | cons c rest ih =>
    simp only [runs]
    split
    · rename_i d run more found
      rw [found] at ih
      split <;> simp_all
    · simp_all

structure Options (A : Arithmetic) where
  precision : Value A := .int 4
  /-- Whether numbers inside paths are rounded. -/
  optimize : Value A := .bool true

def Options.changed (options : Options A) (changes : List (String × Value A)) :
    Except Fault (Options A) :=
  changes.foldlM (fun options (name, v) =>
    match name with
    | "precision" => .ok { options with precision := v }
    | "optimize" => .ok { options with optimize := v }
    | _ => .error .wrongArguments) options

def pathNumber? (text : List Char) : Option (Decimal × List Char) :=
  let (negative, body) := match text with
    | '-' :: rest => (true, rest)
    | _ => (false, text)
  match body with
  | c :: _ => if Text.isDigit c then Decimal.scanUnsigned? negative body else none
  | [] => none

/-- Path data with every number rounded, from left to right.  Every step takes a character, so
    the length of the path bounds the steps. -/
def roundedPath (precision : Value A) (path : List Char) : Except Fault (List Char) :=
  go (path.length + 1) path
where
  go : Nat → List Char → Except Fault (List Char)
    | 0, text => .ok text
    | _, [] => .ok []
    | fuel + 1, c :: text =>
      match pathNumber? (c :: text) with
      | some (decimal, rest) => do
        let number ← rounded (decimal.toNumber : Number A) precision
        return number.toList ++ (← go fuel rest)
      | none => do return c :: (← go fuel text)

def optimizePath (path : Value A) (options : Options A) : Except Fault (Value A) :=
  if !options.optimize.isPresent then .ok path
  else
    match path with
    | .text s => do return .text (String.ofList (← roundedPath options.precision s.toList))
    | _ => .error .wrongArguments

end DeclarativeAnimation.Markup
