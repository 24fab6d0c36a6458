import DeclarativeAnimation.Proofs.Number.Exact
import Mathlib.Data.Rat.Lemmas
import Mathlib.Tactic.Ring
import DeclarativeAnimation.Proofs.Interpolation.KeyedSegments
import DeclarativeAnimation.Proofs.Interpolation.Literal
import Mathlib.Tactic.FieldSimp

/-! Keyframes at constant speed.  The keyframes of a paced track are points on a line, reached in
    order.  The part of the run that has passed is the part of the whole way that has been
    travelled: in the grid of equal segments this is the place of the point that one comes to. -/
namespace DeclarativeAnimation.Number

def RootWithin (n root width : Nat) : Prop := root * root ≤ n ∧ n < (root + width) * (root + width)

theorem naturalRoot_go (n k : Nat) {root : Nat} (within : RootWithin n root (2 ^ k)) :
    RootWithin n (naturalRoot.go n k root) 1 := by
  induction k generalizing root with
  | zero => exact within
  | succ k ih =>
    have halves : root + 2 ^ k + 2 ^ k = root + 2 ^ (k + 1) := by ring
    let next := root + 2 ^ k
    show RootWithin n (naturalRoot.go n k (if next * next ≤ n then next else root)) 1
    by_cases reached : next * next ≤ n
    · rw [if_pos reached]
      exact ih ⟨reached, by rw [halves]; exact within.2⟩
    · rw [if_neg reached]
      exact ih ⟨within.1, not_le.mp reached⟩

theorem naturalRoot_within (n : Nat) : RootWithin n (naturalRoot n) 1 := by
  apply naturalRoot_go
  have wide : n.log2 + 1 ≤ (n.log2 / 2 + 1) + (n.log2 / 2 + 1) := by omega
  refine ⟨Nat.zero_le n, ?_⟩
  rw [Nat.zero_add, ← Nat.pow_add]
  exact Nat.lt_log2_self.trans_le (Nat.pow_le_pow_right (by decide) wide)

theorem naturalRoot_square (n : Nat) : naturalRoot (n * n) = n := by
  obtain ⟨low, high⟩ := naturalRoot_within (n * n)
  have least := Nat.mul_self_le_mul_self_iff.mp low
  have most := Nat.mul_self_lt_mul_self_iff.mp high
  omega

theorem rationalRoot?_square (q : Rat) : rationalRoot? (q * q) = some |q| := by
  have top : (q * q).num.natAbs = q.num.natAbs * q.num.natAbs := by
    rw [Rat.mul_self_num, Int.natAbs_mul]
  have size : mkRat (q.num.natAbs : Int) q.den = |q| := by rw [Rat.abs_def, Rat.divInt_ofNat]
  simp only [rationalRoot?, top, Rat.mul_self_den, naturalRoot_square, and_self, ↓reduceIte, size]

theorem sqrt_square (q : Rat) : (Number.finite (q * q) : Number .exact).sqrt = .finite |q| := by
  have forward : ¬ q * q < 0 := not_lt.mpr (mul_self_nonneg q)
  show (if q * q < 0 then Number.nan else nearest (rootApproximation (q * q)) false) = _
  rw [if_neg forward, rootApproximation, rationalRoot?_square]
  rfl

end DeclarativeAnimation.Number

namespace DeclarativeAnimation

namespace Pace

def stretches : List Rat → List Rat
  | x :: y :: rest => |y - x| :: stretches (y :: rest)
  | _ => []

def pathLength (points : List Rat) : Rat := (stretches points).sum

/-- The point that is reached after a distance on the way through the points. -/
def pointAfter : List Rat → Rat → Rat
  | x :: y :: rest, s =>
    if s ≤ |y - x| then (if x ≤ y then x + s else x - s)
    else pointAfter (y :: rest) (s - |y - x|)
  | [x], _ => x
  | [], _ => 0

/-- When each point is reached, as a part of the whole way, some of which has passed. -/
def arrivals (total passed : Rat) : List Rat → List Rat
  | x :: y :: rest => passed / total :: arrivals total (passed + |y - x|) (y :: rest)
  | [_] => [passed / total]
  | [] => []

theorem pathLength_cons (x y : Rat) (rest : List Rat) :
    pathLength (x :: y :: rest) = |y - x| + pathLength (y :: rest) := List.sum_cons

theorem pathLength_nonneg (points : List Rat) : 0 ≤ pathLength points := by
  induction points with
  | nil => exact le_rfl
  | cons x rest ih =>
    cases rest with
    | nil => exact le_rfl
    | cons y rest =>
      rw [pathLength_cons]
      exact add_nonneg (abs_nonneg _) ih

theorem pointAfter_zero (x : Rat) (rest : List Rat) : pointAfter (x :: rest) 0 = x := by
  cases rest with
  | nil => rfl
  | cons y rest =>
    rw [pointAfter, if_pos (abs_nonneg _)]
    split
    · exact add_zero x
    · exact sub_zero x

theorem pointAfter_stretch (x y : Rat) (rest : List Rat) :
    pointAfter (x :: y :: rest) |y - x| = y := by
  rw [pointAfter, if_pos le_rfl]
  split
  · rename_i forward
    rw [abs_of_nonneg (sub_nonneg.mpr forward), add_sub_cancel]
  · rename_i back
    rw [abs_of_neg (sub_neg.mpr (not_le.mp back))]
    ring

theorem pointAfter_pathLength {points : List Rat} (some_point : points ≠ []) :
    pointAfter points (pathLength points) = points.getLast some_point := by
  induction points with
  | nil => contradiction
  | cons x rest ih =>
    cases rest with
    | nil => rfl
    | cons y rest =>
      rw [List.getLast_cons (List.cons_ne_nil y rest), ← ih (List.cons_ne_nil y rest),
        pathLength_cons]
      rcases (pathLength_nonneg (y :: rest)).eq_or_lt with nothing | some_way
      · rw [← nothing, add_zero, pointAfter_stretch, pointAfter_zero]
      · rw [pointAfter, if_neg (by linarith), add_sub_cancel_left]

theorem distance_line (x y : Rat) :
    distance [.finite x] [.finite y] = (.finite |y - x| : Number .exact) := by
  have apart : (.finite y : Number .exact) - .finite x = .finite (y - x) := Number.sub_exact rfl rfl
  have square : (.finite (y - x) : Number .exact) * .finite (y - x) =
      .finite ((y - x) * (y - x)) := Number.mul_exact rfl rfl
  have sum : (0 : Number .exact) + .finite ((y - x) * (y - x)) = .finite ((y - x) * (y - x)) := by
    rw [Number.add_exact rfl rfl]
    exact congrArg Number.finite (zero_add _)
  simp only [distance, List.zip_cons_cons, List.zip_nil_right, List.map_cons, List.map_nil, apart,
    square, List.foldl_cons, List.foldl_nil, sum, Number.sqrt_square]

theorem steps_line (points : List Rat) :
    steps (points.map fun x => [.finite x]) =
      (stretches points).map (.finite : Rat → Number .exact) := by
  induction points with
  | nil => rfl
  | cons x rest ih =>
    cases rest with
    | nil => rfl
    | cons y rest =>
      simp only [List.map_cons] at ih
      simp only [List.map_cons, steps, stretches, distance_line, ih]

theorem foldl_finite (lengths : List Rat) (start : Rat) :
    (lengths.map (.finite : Rat → Number .exact)).foldl (· + ·) (.finite start) =
      .finite (start + lengths.sum) := by
  induction lengths generalizing start with
  | nil => rw [List.map_nil, List.foldl_nil, List.sum_nil, add_zero]
  | cons length rest ih =>
    have step : (.finite start : Number .exact) + .finite length = .finite (start + length) :=
      Number.add_exact rfl rfl
    rw [List.map_cons, List.foldl_cons, step, ih, List.sum_cons, add_assoc]

theorem partialSums_line {total passed : Rat} {points : List Rat} (some_way : total ≠ 0)
    (some_point : points ≠ []) (whole : passed + pathLength points = total) :
    (partialSums (.finite passed) ((stretches points).map .finite)).map (· / .finite total) ++
        [(1 : Number .exact)] = (arrivals total passed points).map .finite := by
  induction points generalizing passed with
  | nil => contradiction
  | cons x rest ih =>
    cases rest with
    | nil =>
      obtain rfl : passed = total := (add_zero passed).symm.trans whole
      show [(1 : Number .exact)] = [.finite (passed / passed)]
      rw [div_self some_way]
      rfl
    | cons y rest =>
      have step : (.finite passed : Number .exact) + .finite |y - x| =
          .finite (passed + |y - x|) := Number.add_exact rfl rfl
      have part : (.finite passed : Number .exact) / .finite total = .finite (passed / total) :=
        Number.div_exact rfl rfl some_way
      rw [pathLength_cons, ← add_assoc] at whole
      have later := ih (List.cons_ne_nil y rest) whole
      simp only [stretches, arrivals, List.map_cons, partialSums, List.cons_append, step, part,
        later]

theorem keyTimes?_line {points : List Rat} (several : 2 ≤ points.length)
    (some_way : 0 < pathLength points) :
    keyTimes? (points.map fun x => some [(.finite x : Number .exact)]) =
      some ((arrivals (pathLength points) 0 points).map .finite) := by
  have total : ((stretches points).map (.finite : Rat → Number .exact)).foldl (· + ·) 0 =
      .finite (pathLength points) :=
    (foldl_finite _ 0).trans (congrArg Number.finite (zero_add _))
  have sums := partialSums_line some_way.ne' (List.ne_nil_of_length_pos (by omega)) (zero_add _)
  have positive : ¬ (.finite (pathLength points) : Number .exact) ≤ 0 := by
    rw [(Number.Denotes.finite _).le_iff .zero]
    exact not_le.mpr some_way
  have known : (points.map fun x => some [(.finite x : Number .exact)]).mapM id =
      some (points.map fun x => [.finite x]) := by
    rw [List.mapM_map]
    exact List.mapM_pure
  have line := steps_line points
  unfold keyTimes?
  rw [known]
  obtain _ | ⟨x, _ | ⟨y, rest⟩⟩ := points
  · simp at several
  · simp at several
  · simp only [List.map_cons] at line ⊢
    dsimp only [bind, Option.bind]
    rw [line, total, if_neg (by simp), if_neg (by simpa [Number.isFinite] using positive)]
    exact congrArg some sums

theorem arrivals_cons (total passed x : Rat) (rest : List Rat) :
    ∃ later, arrivals total passed (x :: rest) = passed / total :: later ∧
      (rest ≠ [] → later ≠ []) := by
  cases rest with
  | nil => exact ⟨[], rfl, fun some_rest => absurd rfl some_rest⟩
  | cons y rest =>
    refine ⟨arrivals total (passed + |y - x|) (y :: rest), rfl, fun _ => ?_⟩
    cases rest <;> exact List.cons_ne_nil _ _

theorem pointAfter_part {x y d : Rat} (rest : List Rat) (some_way : 0 < |y - x|)
    (inside : d ≤ |y - x|) :
    pointAfter (x :: y :: rest) d = (1 - d / |y - x|) * x + d / |y - x| * y := by
  have stretch := some_way.ne'
  rw [pointAfter, if_pos inside]
  split
  · rename_i forward
    have ahead : y = x + |y - x| := by
      rw [abs_of_nonneg (sub_nonneg.mpr forward), add_sub_cancel]
    generalize |y - x| = width at *
    rw [ahead]
    field_simp
    ring
  · rename_i back
    have behind : y = x - |y - x| := by
      rw [abs_of_neg (sub_neg.mpr (not_le.mp back))]
      ring
    generalize |y - x| = width at *
    rw [behind]
    field_simp
    ring

theorem fraction_stretch {total passed width p : Rat} (some_way : 0 < total)
    (some_stretch : 0 < width) :
    fraction (passed / total) ((passed + width) / total) p =
      .finite ((p * total - passed) / width) := by
  unfold fraction
  rw [← sub_div, add_sub_cancel_left]
  congr 1
  field_simp

section
variable {all : List (Number .exact)} {p start : Rat} {n : Nat}

theorem go_narrow {later : List (Number .exact)} (parted : alongSegments.segments all ≠ 0) :
    alongSegments.go all (.finite start) n (.finite start :: .finite start :: later) [] =
      .finite ((n + 1) / alongSegments.segments all) := by
  have here : (Number.finite start : Number .exact) ≤ .finite start :=
    ((Number.Denotes.finite start).le_iff (.finite start)).mpr le_rfl
  have span : ¬ (0 : Number .exact) < .finite start - .finite start := by
    rw [Number.sub_exact rfl rfl, sub_self, Number.Denotes.zero.lt_iff (.finite 0)]
    exact lt_irrefl 0
  have whole : (1 : Number .exact).clampUnit = .finite 1 := Number.clampUnit_one
  have places : (alongSegments.segments all : Rat) ≠ 0 := by exact_mod_cast parted
  have sum : (Number.ofInt n : Number .exact) + .finite 1 = .finite (n + 1) :=
    Number.add_exact rfl rfl
  simp only [alongSegments.go, here, decide_true, Bool.true_or, ↓reduceIte, span, whole, sum]
  exact Number.div_exact (y := Number.ofInt (alongSegments.segments all)) rfl rfl places

theorem go_stretch {x y total passed : Rat} (rest : List Rat) (later : List (Number .exact))
    (parted : alongSegments.segments all ≠ 0) (some_way : 0 < total) (after : passed ≤ p * total)
    (inside : p * total - passed ≤ |y - x|) :
    ∃ s : Rat, 0 ≤ s ∧ s ≤ 1 ∧
      alongSegments.go all (.finite p) n
          (.finite (passed / total) :: .finite ((passed + |y - x|) / total) :: later) [] =
        .finite ((n + s) / alongSegments.segments all) ∧
      pointAfter (x :: y :: rest) (p * total - passed) = (1 - s) * x + s * y := by
  rcases (abs_nonneg (y - x)).eq_or_lt with nothing | some_stretch
  · have same : y = x := sub_eq_zero.mp (abs_eq_zero.mp nothing.symm)
    have start : p * total = passed := by linarith
    have stop : passed / total = p := by rw [← start, mul_div_cancel_right₀ _ some_way.ne']
    refine ⟨1, zero_le_one, le_rfl, ?_, ?_⟩
    · rw [← nothing, add_zero, stop, go_narrow parted]
    · rw [start, sub_self, pointAfter_zero, same]
      ring
  · have narrow : passed / total < (passed + |y - x|) / total := by
      gcongr
      linarith
    have bent : (Curve.bent (A := .exact) none
        (fraction (passed / total) ((passed + |y - x|) / total) p)).Denotes
        ((p * total - passed) / |y - x|) := by
      rw [fraction_stretch some_way some_stretch]
      exact .finite _
    have before : p ≤ (passed + |y - x|) / total := by
      rw [le_div_iff₀ some_way]
      linarith
    refine ⟨(p * total - passed) / |y - x|, div_nonneg (by linarith) some_stretch.le, ?_, ?_,
      pointAfter_part rest some_stretch inside⟩
    · rwa [div_le_one some_stretch]
    · exact go_here narrow ((div_le_iff₀ some_way).mpr after) before bent parted

theorem go_line {points : List Rat} {total passed : Rat} (n : Nat)
    (parted : alongSegments.segments all ≠ 0) (some_way : 0 < total) (several : 2 ≤ points.length)
    (whole : passed + pathLength points = total) (after : passed ≤ p * total) (before : p ≤ 1) :
    ∃ (i : Nat) (s : Rat), i + 1 < points.length ∧ 0 ≤ s ∧ s ≤ 1 ∧
      alongSegments.go all (.finite p) n ((arrivals total passed points).map .finite) [] =
        .finite ((n + i + s) / alongSegments.segments all) ∧
      pointAfter points (p * total - passed) =
        (1 - s) * points.getD i 0 + s * points.getD (i + 1) 0 := by
  -- By induction on the points; `n` of them have been passed already.
  induction points generalizing n passed with
  | nil => simp at several
  | cons x rest ih =>
    obtain _ | ⟨y, rest⟩ := rest
    · simp at several
    obtain ⟨later, next, more⟩ := arrivals_cons total (passed + |y - x|) y rest
    simp only [arrivals, next, List.map_cons]
    rcases le_or_gt (p * total - passed) |y - x| with here | beyond
    · obtain ⟨s, low, high, placed, point⟩ :=
        go_stretch (n := n) rest (later.map .finite) parted some_way after here
      refine ⟨0, s, by simp, low, high, ?_, point⟩
      rw [placed, Nat.cast_zero, add_zero]
    · have reached : (passed + |y - x|) / total < p := by
        rw [div_lt_iff₀ some_way]
        linarith
      have unfinished : rest ≠ [] := by
        rintro rfl
        have all_way : passed + |y - x| = total := by simpa [pathLength, stretches] using whole
        nlinarith
      have more : later.map Number.finite ≠ ([] : List (Number .exact)) :=
        mt List.map_eq_nil_iff.mp (more unfinished)
      have several : 2 ≤ (y :: rest).length := Nat.succ_le_succ (List.length_pos_of_ne_nil unfinished)
      rw [pathLength_cons, ← add_assoc] at whole
      obtain ⟨i, s, inside, low, high, placed, point⟩ := ih (n + 1) several whole (by linarith)
      rw [next, List.map_cons] at placed
      refine ⟨i + 1, s, by simpa using inside, low, high, ?_, ?_⟩
      · rw [go_later reached more, List.tail_nil, placed]
        push_cast
        ring_nf
      · rw [pointAfter, if_neg (not_le.mpr beyond), sub_sub, point]
        rfl

end

theorem arrivals_length (total passed : Rat) (points : List Rat) :
    (arrivals total passed points).length = points.length := by
  induction points generalizing passed with
  | nil => rfl
  | cons x rest ih =>
    cases rest with
    | nil => rfl
    | cons y rest => simp [arrivals, ih]

theorem pathLength_pos {x y : Rat} {rest : List Rat} (later : y ∈ rest) (apart : y ≠ x) :
    0 < pathLength (x :: rest) := by
  induction rest generalizing x with
  | nil => simp at later
  | cons z rest ih =>
    rw [pathLength_cons]
    have nonneg := pathLength_nonneg (z :: rest)
    rcases eq_or_ne z x with rfl | moved
    · have more := ih ((List.mem_cons.mp later).resolve_left apart) apart
      have still := abs_nonneg (z - z)
      linarith
    · have stretch := abs_pos.mpr (sub_ne_zero.mpr moved)
      linarith

theorem alongSegments_line {points : List Rat} {p : Rat} (several : 2 ≤ points.length)
    (some_way : 0 < pathLength points) (low : 0 ≤ p) (high : p ≤ 1) :
    ∃ (i : Nat) (s : Rat), i < points.length - 1 ∧ 0 ≤ s ∧ s ≤ 1 ∧
      (alongSegments ((arrivals (pathLength points) 0 points).map .finite) [] (.finite p) :
        Number .exact) = .finite ((i + s) / (points.length - 1 : Nat)) ∧
      pointAfter points (p * pathLength points) =
        (1 - s) * points.getD i 0 + s * points.getD (i + 1) 0 := by
  have segments : alongSegments.segments
      ((arrivals (pathLength points) 0 points).map (Number.finite (A := .exact))) =
        points.length - 1 := by
    rw [alongSegments.segments, List.length_map, arrivals_length]
  have parted : alongSegments.segments
      ((arrivals (pathLength points) 0 points).map (Number.finite (A := .exact))) ≠ 0 := by
    omega
  obtain ⟨i, s, inside, below, above, placed, point⟩ :=
    go_line 0 parted some_way several (zero_add _) (mul_nonneg low some_way.le) high
  rw [segments, Nat.cast_zero, zero_add] at placed
  rw [sub_zero] at point
  exact ⟨i, s, by omega, below, above, placed, point⟩

end Pace

namespace Listing

theorem start_mem_entriesOf {c : Char} (solid : Text.isBlank c = false) (inside : c ≠ ';')
    (text : List Char) : ∃ rest, c :: rest ∈ entriesOf (c :: text) := by
  obtain ⟨piece, more, cut⟩ := List.exists_cons_of_ne_nil (Text.pieces_ne_nil (· == ';') text)
  have whole : Text.pieces (· == ';') (c :: text) = (c :: piece) :: more := by
    simp [Text.pieces, inside, cut]
  have kept : Text.trim (c :: piece) = c :: Text.trimEndWhile Text.isBlank piece := by
    rw [Text.trim, Text.trimWhile, List.dropWhile_cons_of_neg (by simp [solid])]
    exact trimEndWhile_stop [] solid piece
  refine ⟨Text.trimEndWhile Text.isBlank piece, ?_⟩
  simp [entriesOf, whole, kept]

/-- The text of a list or an object begins with a bracket, and that of a whole number is one entry,
    so that entries which are all numbers come from a text. -/
theorem isSpellable_of_numeric {v : Value .exact} (several : 2 ≤ (entries v).length)
    (numeric : ∀ e ∈ entries v, (Keyframe.leadingNumberOf e : Option (Number .exact)) ≠ none) :
    v.isSpellable = true := by
  cases v with
  | int n =>
    have single : Text.pieces (· == ';') (Value.intText n).toList = [(Value.intText n).toList] := by
      refine Text.pieces_of_none fun c member => ?_
      have known : ∀ c ∈ numeralChars, (c == ';') = false := forall_chars (by decide)
      exact known c (intText_numeral n member)
    have few : (entries (.int n : Value .exact)).length ≤ 1 := by
      show (((Text.pieces (· == ';') (Value.intText n).toList).map Text.trim).filter _).length ≤ 1
      rw [single]
      exact List.length_filter_le _ _
    omega
  | list items =>
    have written : (Value.list items : Value .exact).chars =
        '[' :: (", ".intercalate (Value.shownItems items) ++ "]").toList := by
      simp [Value.chars, Value.asText, Value.shown]
    obtain ⟨rest, member⟩ := start_mem_entriesOf (c := '[') (by decide) (by decide) _
    exact absurd rfl (numeric ('[' :: rest) (by rw [entries, written]; exact member))
  | object members =>
    have written : (Value.object members : Value .exact).chars =
        '\x7b' :: (", ".intercalate (Value.shownMembers members) ++ "\x7d").toList := by
      simp [Value.chars, Value.asText, Value.shown]
    obtain ⟨rest, member⟩ := start_mem_entriesOf (c := '\x7b') (by decide) (by decide) _
    exact absurd rfl (numeric ('\x7b' :: rest) (by rw [entries, written]; exact member))
  | _ => rfl

end Listing

namespace Track

section
variable {track : Track .exact} {values : List Rat}
  (written : (Listing.entries track.values).map
      (fun entry => (Decimal.whole? entry).map Decimal.value) = values.map some)
include written

theorem leadingNumberOf_entries : (Listing.entries track.values).map Keyframe.leadingNumberOf =
    values.map fun v => some (.finite v : Number .exact) :=
  Decimal.map_of_literals written fun _ _ _ read => Keyframe.leadingNumberOf_whole read

theorem vectorOf_entries
    (uncolored : ∀ entry ∈ Listing.entries track.values, Keyframe.colorOf? entry = none) :
    (Listing.entries track.values).map Keyframe.vectorOf =
      values.map fun v => some [(.finite v : Number .exact)] := by
  refine Decimal.map_of_literals written fun entry member _ read => ?_
  rw [Keyframe.vectorOf, uncolored entry member]
  exact Keyframe.numbersOf_whole read

theorem pickFields_entries (several : 2 ≤ values.length)
    (blending : track.mode.isTheText "discrete" = false) : track.pickFields.isSpellable = true := by
  have numeric := leadingNumberOf_entries written
  have many : 2 ≤ (Listing.entries track.values).length := by
    rwa [← List.length_map, numeric, List.length_map]
  have texts : track.values.isSpellable = true := by
    refine Listing.isSpellable_of_numeric many fun entry member missing => ?_
    have listed := List.mem_map_of_mem (f := Keyframe.leadingNumberOf (A := .exact)) member
    rw [numeric, missing] at listed
    simp at listed
  unfold pickFields isDiscrete
  rw [blending]
  exact Bool.and_eq_true_iff.mpr ⟨texts, rfl⟩

/-- A paced track goes through its keyframes at constant speed: the part of the run that has passed
    is the part of the way that has been travelled. -/
theorem paced_at_constant_speed {name : String} (some_name : name ≠ "")
    (generic : Slot.names.lookup name = none)
    (uncolored : ∀ entry ∈ Listing.entries track.values, Keyframe.colorOf? entry = none)
    (several : 2 ≤ values.length) (unequal : ∃ v ∈ values, ∃ w ∈ values, v ≠ w)
    (paced : track.mode = .text "paced") (base : Value .exact) {p : Rat} (low : 0 ≤ p)
    (high : p ≤ 1) :
    track.attributeContributions (.text name) base (track.ease (.finite p)) =
        .ok [.attribute (.text name) (.number
          (.finite (Pace.pointAfter values (p * Pace.pathLength values))))] ∧
      values.getLast? = some (Pace.pointAfter values (Pace.pathLength values)) := by
  have numeric := leadingNumberOf_entries written
  have blending : track.mode.isTheText "discrete" = false := by rw [paced]; rfl
  have evenly : track.mode.isTheText "paced" = true := by rw [paced]; rfl
  have some_way : 0 < Pace.pathLength values := by
    obtain ⟨v, first, w, second, apart⟩ := unequal
    obtain _ | ⟨x, rest⟩ := values
    · cases first
    · by_cases start : v = x
      · have moved : w ≠ x := start ▸ apart.symm
        exact Pace.pathLength_pos ((List.mem_cons.mp second).resolve_left moved) moved
      · exact Pace.pathLength_pos ((List.mem_cons.mp first).resolve_left start) start
  have some_value : values ≠ [] := List.ne_nil_of_length_pos (by omega)
  refine ⟨?_, ?_⟩
  · obtain ⟨i, s, inside, below, above, placed, point⟩ :=
      Pace.alongSegments_line several some_way low high
    have eased : track.ease (.finite p) = .finite ((i + s) / (values.length - 1 : Nat)) := by
      unfold ease
      rw [blending, evenly, vectorOf_entries written uncolored, Pace.keyTimes?_line several some_way]
      simp only [Bool.false_eq_true, ↓reduceIte, placed]
      exact Keyframe.clampUnit_of_grid inside below above
    have shown := along_entries numeric base (.number 0, .number 0) inside below above
    rw [← point, ← eased] at shown
    have plain : Slot.ofName (.text name : Value .exact) = .ok .plain := by
      show Except.ok ((Slot.names.lookup name).getD .plain) = _
      rw [generic]
      rfl
    have present : (Value.text name : Value .exact).isPresent = true := decide_eq_true some_name
    unfold attributeContributions Value.spelling
    rw [present, plain]
    dsimp only [bind, Except.bind, Slot.endpoints]
    rw [pickFields_entries written several blending]
    unfold pick isDiscrete
    simp only [blending, shown, ↓reduceIte, Bool.not_true, Bool.false_eq_true]
    rfl
  · rw [Pace.pointAfter_pathLength some_value, List.getLast?_eq_some_getLast some_value]

end

def shuttle : Track .exact := { values := .text "0; 1; -.5e0", mode := .text "paced" }

theorem shuttle_turns :
    shuttle.attributeContributions (.text "x") .null (shuttle.ease (.finite (3 / 5))) =
      .ok [.attribute (.text "x") (.number (.finite (1 / 2)))] := by
  have written : (Listing.entries shuttle.values).map
      (fun entry => (Decimal.whole? entry).map Decimal.value) =
        [0, 1, -1 / 2].map some := by decide +kernel
  have uncolored : ∀ entry ∈ Listing.entries shuttle.values, Keyframe.colorOf? entry = none := by
    decide +kernel
  have place : Pace.pointAfter [0, 1, -1 / 2] (3 / 5 * Pace.pathLength [0, 1, -1 / 2]) = 1 / 2 := by
    decide +kernel
  have turned := (paced_at_constant_speed written (show "x" ≠ "" by decide) (by decide) uncolored
    (by decide) ⟨0, by decide +kernel, 1, by decide +kernel, zero_ne_one⟩ rfl .null
    (p := 3 / 5) (by decide +kernel) (by decide +kernel)).1
  rwa [place] at turned

/-- Three digits without a mark are measured as a color, so that this way is not measured. -/
def leap : Track .exact := { values := .text "0; 100; 300", mode := .text "paced" }

theorem leap_is_not_paced :
    leap.attributeContributions (.text "x") .null (leap.ease (.finite (1 / 2))) =
        .ok [.attribute (.text "x") (.number (.finite 100))] ∧
      Pace.pointAfter [0, 100, 300] (1 / 2 * Pace.pathLength [0, 100, 300]) = 150 := by
  refine ⟨?_, by decide +kernel⟩
  with_unfolding_all rfl

end Track
end DeclarativeAnimation
