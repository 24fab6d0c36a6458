import DeclarativeAnimation.Proofs.Interpolation.KeyframeRange
import DeclarativeAnimation.Proofs.Interpolation.StillKeyframes
import DeclarativeAnimation.Proofs.Number.Positional
import Mathlib.Algebra.Order.Floor.Ring
import Mathlib.Data.Rat.Floor
import Mathlib.Tactic.Linarith
import Mathlib.Tactic.Ring

/-! Colors as keyframes.  However it is spelled, a color is its three channels, and between two
    colors every channel is the whole number nearest to the point on the straight line.  So it
    never leaves the interval that the two channels span, and never turns back on the way. -/
namespace DeclarativeAnimation

open Text

theorem Text.trim_surrounded {before text after : List Char}
    (ahead : ∀ c ∈ before, isBlank c = true) (behind : ∀ c ∈ after, isBlank c = true)
    (some_char : text ≠ []) (solid : ∀ c ∈ text, isBlank c = false) :
    trim (before ++ text ++ after) = text := by
  have kept : (text ++ after).dropWhile isBlank = text ++ after := by
    obtain ⟨c, rest, rfl⟩ := List.exists_cons_of_ne_nil some_char
    exact List.dropWhile_cons_of_neg (by simp [solid c List.mem_cons_self])
  have trimmed := trimWhile_of_none solid
  have first : text.dropWhile isBlank = text := by
    obtain ⟨c, rest, rfl⟩ := List.exists_cons_of_ne_nil some_char
    exact List.dropWhile_cons_of_neg (by simp [solid c List.mem_cons_self])
  unfold trimWhile at trimmed
  rw [first] at trimmed
  unfold trim trimWhile
  rw [List.append_assoc, List.dropWhile_append_of_pos ahead, kept, trimEndWhile_append behind,
    trimmed]

namespace Keyframe

section Spelling

def IsHexDigit (c : Char) (n : Nat) : Prop :=
  "0123456789abcdef".toList[n]? = some c ∨ "0123456789ABCDEF".toList[n]? = some c

theorem hexDigit?_of_isHexDigit {c : Char} {n : Nat} (digit : IsHexDigit c n) :
    hexDigit? c = some n ∧ isBlank c = false := by
  have read : ∀ n < 16, ∀ text ∈ ["0123456789abcdef".toList, "0123456789ABCDEF".toList],
      text[n]?.all (fun c => hexDigit? c = some n && !isBlank c) = true := by decide
  have counts {text : List Char} (listed : text[n]? = some c)
      (all : text[n]?.all (fun c => hexDigit? c = some n && !isBlank c) = true) :
      hexDigit? c = some n ∧ isBlank c = false := by
    rw [listed] at all
    simpa using all
  rcases digit with small | capital
  · exact counts small (read n (List.getElem?_eq_some_iff.mp small).1 _ (by simp))
  · exact counts capital (read n (List.getElem?_eq_some_iff.mp capital).1 _ (by simp))

/-- The digits of a color: one for each channel, written twice, or two. -/
inductive Color.Digits : List Char → Color → Prop
  | three {r g b : Char} {x y z : Nat} (red : IsHexDigit r x) (green : IsHexDigit g y)
      (blue : IsHexDigit b z) : Digits [r, g, b] ⟨16 * x + x, 16 * y + y, 16 * z + z⟩
  | six {r r' g g' b b' : Char} {x x' y y' z z' : Nat} (red : IsHexDigit r x)
      (red' : IsHexDigit r' x') (green : IsHexDigit g y) (green' : IsHexDigit g' y')
      (blue : IsHexDigit b z) (blue' : IsHexDigit b' z') :
      Digits [r, r', g, g', b, b'] ⟨16 * x + x', 16 * y + y', 16 * z + z'⟩

def Color.Spelled (color : Color) (text : List Char) : Prop :=
  ∃ before mark digits after, text = before ++ (mark ++ digits) ++ after ∧
    (∀ c ∈ before, isBlank c = true) ∧ (∀ c ∈ after, isBlank c = true) ∧
    (mark = [] ∨ mark = ['#']) ∧ Digits digits color

theorem Color.Digits.some_digit {digits : List Char} {color : Color} (written : Digits digits color) :
    digits ≠ [] := by cases written <;> exact List.cons_ne_nil _ _

theorem Color.Digits.isHexDigit {digits : List Char} {color : Color}
    (written : Digits digits color) : ∀ c ∈ digits, ∃ n, IsHexDigit c n := by
  cases written with
  | three red green blue => simpa using ⟨⟨_, red⟩, ⟨_, green⟩, ⟨_, blue⟩⟩
  | six red red' green green' blue blue' =>
    simpa using ⟨⟨_, red⟩, ⟨_, red'⟩, ⟨_, green⟩, ⟨_, green'⟩, ⟨_, blue⟩, ⟨_, blue'⟩⟩

theorem Color.Digits.counted {digits : List Char} {color : Color} (written : Digits digits color) :
    (∃ x y z, digits.mapM hexDigit? = some [x, y, z] ∧ color = ⟨17 * x, 17 * y, 17 * z⟩) ∨
      ∃ x x' y y' z z', digits.mapM hexDigit? = some [x, x', y, y', z, z'] ∧
        color = ⟨16 * x + x', 16 * y + y', 16 * z + z'⟩ := by
  cases written with
  | @three _ _ _ x y z red green blue =>
    refine .inl ⟨x, y, z, ?_, ?_⟩
    · simp [(hexDigit?_of_isHexDigit red).1, (hexDigit?_of_isHexDigit green).1,
        (hexDigit?_of_isHexDigit blue).1]
    · rw [Color.mk.injEq]
      omega
  | @six _ _ _ _ _ _ x x' y y' z z' red red' green green' blue blue' =>
    refine .inr ⟨x, x', y, y', z, z', ?_, rfl⟩
    simp [(hexDigit?_of_isHexDigit red).1, (hexDigit?_of_isHexDigit red').1,
      (hexDigit?_of_isHexDigit green).1, (hexDigit?_of_isHexDigit green').1,
      (hexDigit?_of_isHexDigit blue).1, (hexDigit?_of_isHexDigit blue').1]

theorem colorOf?_spelled {color : Color} {text : List Char} (spelled : color.Spelled text) :
    colorOf? text = some color := by
  obtain ⟨before, mark, digits, after, rfl, ahead, behind, marked, written⟩ := spelled
  have solid : ∀ c ∈ mark ++ digits, isBlank c = false := by
    intro c member
    rcases List.mem_append.mp member with sign | digit
    · rcases marked with rfl | rfl
      · cases sign
      · obtain rfl := List.mem_singleton.mp sign
        decide
    · obtain ⟨n, digit⟩ := written.isHexDigit c digit
      exact (hexDigit?_of_isHexDigit digit).2
  have word := trim_surrounded ahead behind
    (List.append_ne_nil_of_right_ne_nil mark written.some_digit) solid
  -- A mark is no digit, so that it is told apart from the digits behind it.
  have unmarked (rest : List Char) : digits ≠ '#' :: rest := by
    rintro rfl
    obtain ⟨n, digit⟩ := written.isHexDigit '#' List.mem_cons_self
    have read := (hexDigit?_of_isHexDigit digit).1
    rw [show hexDigit? '#' = none by decide] at read
    cases read
  unfold colorOf?
  rw [word]
  rcases marked with rfl | rfl <;>
    rcases written.counted with ⟨x, y, z, counted, rfl⟩ | ⟨x, x', y, y', z, z', counted, rfl⟩ <;>
      simp [counted]

end Spelling

section Channels

inductive Channel where
  | red | green | blue

def Color.channel (c : Color) : Channel → Nat
  | .red => c.red
  | .green => c.green
  | .blue => c.blue

def blended (a b : Nat) (s : Rat) : Int := ⌊(1 - s) * a + s * b + 1 / 2⌋

variable {a b : Nat} {s t : Rat}

theorem blendColor_spelled {first second : Color} {text next : List Char}
    (is_first : first.Spelled text) (is_second : second.Spelled next) (s : Rat) :
    blendColor (.text (String.ofList text)) (.text (String.ofList next)) (.finite s : Number .exact) =
      .ok (.text (Color.text (blended first.red second.red s) (blended first.green second.green s)
        (blended first.blue second.blue s))) := by
  unfold blendColor
  rw [color?_text, color?_text, colorOf?_spelled is_first, colorOf?_spelled is_second]
  simp only [lerp_exact, roundHalfUp_exact]
  rfl

theorem blended_start (a b : Nat) : blended a b 0 = a := by
  have middle : (1 - 0) * (a : Rat) + 0 * b + 1 / 2 = 1 / 2 + (a : Int) := by push_cast; ring
  rw [blended, middle, Int.floor_add_intCast, Int.floor_eq_zero_iff.mpr (by norm_num), zero_add]

theorem blended_stop (a b : Nat) : blended a b 1 = b := by
  have middle : (1 - 1) * (a : Rat) + 1 * b + 1 / 2 = 1 / 2 + (b : Int) := by push_cast; ring
  rw [blended, middle, Int.floor_add_intCast, Int.floor_eq_zero_iff.mpr (by norm_num), zero_add]

theorem blended_near : |(blended a b s : Rat) - ((1 - s) * a + s * b)| ≤ 1 / 2 := by
  have low := Int.floor_le ((1 - s) * (a : Rat) + s * b + 1 / 2)
  have high := Int.lt_floor_add_one ((1 - s) * (a : Rat) + s * b + 1 / 2)
  rw [blended, abs_le]
  constructor <;> linarith

theorem blended_rising (up : a ≤ b) (le : s ≤ t) : blended a b s ≤ blended a b t := by
  have steps : (a : Rat) ≤ b := by exact_mod_cast up
  apply Int.floor_mono
  nlinarith

theorem blended_falling (down : b ≤ a) (le : s ≤ t) : blended a b t ≤ blended a b s := by
  have steps : (b : Rat) ≤ a := by exact_mod_cast down
  apply Int.floor_mono
  nlinarith

theorem blended_between (low : 0 ≤ s) (high : s ≤ 1) :
    ((min a b : Nat) : Int) ≤ blended a b s ∧ blended a b s ≤ (max a b : Nat) := by
  have start := blended_start a b
  have stop := blended_stop a b
  rcases le_total a b with up | down
  · have first := blended_rising up low
    have last := blended_rising up high
    omega
  · have first := blended_falling down low
    have last := blended_falling down high
    omega

end Channels

section Gradient

/-- Two colors in a row, and the part of the way between them that has passed at a progress. -/
structure Neighbours (colors : List Color) (p : Rat) (i : Nat) (first second : Color) (s : Rat) :
    Prop where
  here : colors[i]? = some first
  next : colors[i + 1]? = some second
  place : p * (colors.length - 1 : Nat) = i + s
  low : 0 ≤ s
  high : s ≤ 1

def shade (colors : List Color) (p : Rat) (channel : Channel) : Int :=
  let i := min ⌊p * (colors.length - 1 : Nat)⌋.toNat (colors.length - 2)
  let shown (i : Nat) : Nat := (colors[i]?.map (·.channel channel)).getD 0
  blended (shown i) (shown (i + 1)) (p * (colors.length - 1 : Nat) - i)

namespace Neighbours
variable {colors : List Color} {p : Rat} {i : Nat} {first second : Color} {s : Rat}

theorem inside (h : Neighbours colors p i first second s) : i + 1 < colors.length :=
  (List.getElem?_eq_some_iff.mp h.next).1

/-- A progress that has come to a color is at the end of one way and at the start of the next, and
    both show that color. -/
theorem shade_eq (h : Neighbours colors p i first second s) (channel : Channel) :
    shade colors p channel = blended (first.channel channel) (second.channel channel) s := by
  have inside := h.inside
  unfold shade
  dsimp only
  rw [h.place]
  rcases h.high.lt_or_eq with partly | rfl
  · have floor : ⌊(i : Rat) + s⌋ = i := floor_of_grid h.low partly
    have kept : min ⌊(i : Rat) + s⌋.toNat (colors.length - 2) = i := by omega
    rw [kept, h.here, h.next, add_sub_cancel_left]
    rfl
  · have floor : ⌊(i : Rat) + 1⌋ = i + 1 := by
      rw [Int.floor_add_one, Int.floor_natCast]
    by_cases more : i + 2 < colors.length
    · have ahead : min ⌊(i : Rat) + 1⌋.toNat (colors.length - 2) = i + 1 := by omega
      have rest : (i : Rat) + 1 - (i + 1 : Nat) = 0 := by push_cast; ring
      rw [ahead, rest, blended_start, blended_stop, h.next]
      rfl
    · have kept : min ⌊(i : Rat) + 1⌋.toNat (colors.length - 2) = i := by omega
      rw [kept, h.here, h.next, add_sub_cancel_left]
      rfl

end Neighbours

theorem grid_place {segments : Nat} (some_segment : 0 < segments) {p : Rat} (low : 0 ≤ p)
    (high : p ≤ 1) :
    ∃ (i : Nat) (s : Rat), i < segments ∧ p * segments = i + s ∧ 0 ≤ s ∧ s ≤ 1 := by
  have parted : (0 : Rat) < segments := by exact_mod_cast some_segment
  rcases high.lt_or_eq with partly | rfl
  · obtain ⟨i, floor⟩ := Int.eq_ofNat_of_zero_le
      (Int.floor_nonneg.mpr (mul_nonneg low parted.le))
    have inside : p * segments < segments := mul_lt_of_lt_one_left parted partly
    have below : i < segments := by
      have whole : ((i : Int) : Rat) ≤ p * segments := floor ▸ Int.floor_le _
      exact_mod_cast whole.trans_lt inside
    have parts := Int.floor_add_fract (p * segments)
    rw [floor] at parts
    exact ⟨i, Int.fract (p * segments), below, parts.symm, Int.fract_nonneg _,
      (Int.fract_lt_one _).le⟩
  · obtain ⟨i, rfl⟩ := Nat.exists_eq_add_of_lt some_segment
    exact ⟨i, 1, by omega, by push_cast; ring, zero_le_one, le_rfl⟩

theorem neighbours_of_segment {colors : List Color} (several : 2 ≤ colors.length) {p : Rat}
    (low : 0 ≤ p) (high : p ≤ 1) :
    ∃ (i : Nat) (first second : Color) (s : Rat),
      segment colors.length (.finite p : Number .exact) = .ok (i, .finite s) ∧
        Neighbours colors p i first second s := by
  have parted : (0 : Rat) < (colors.length - 1 : Nat) := by exact_mod_cast (by omega)
  have found {i : Nat} {s : Rat} (inside : i + 1 < colors.length)
      (place : p * (colors.length - 1 : Nat) = i + s) (low : 0 ≤ s) (high : s ≤ 1) :
      ∃ first second, Neighbours colors p i first second s :=
    ⟨colors[i], colors[i + 1], List.getElem?_eq_getElem (by omega),
      List.getElem?_eq_getElem inside, place, low, high⟩
  obtain ⟨i, s, inside, place, below, above⟩ :=
    @grid_place (colors.length - 1) (by omega) p low high
  have grid : p = (i + s) / (colors.length - 1 : Nat) := by
    rw [← place, mul_div_cancel_right₀ _ parted.ne']
  have count : colors.length = colors.length - 1 + 1 := by omega
  rcases segment_of_grid inside below above with here | ⟨rfl, more, next⟩
  · obtain ⟨first, second, neighbours⟩ := found (by omega) place below above
    rw [← grid, ← count] at here
    exact ⟨i, first, second, s, here, neighbours⟩
  · have ahead : p * (colors.length - 1 : Nat) = (i + 1 : Nat) + 0 := by
      rw [place]
      push_cast
      ring
    obtain ⟨first, second, neighbours⟩ := found (by omega) ahead le_rfl zero_le_one
    rw [← grid, ← count] at next
    exact ⟨i + 1, first, second, 0, next, neighbours⟩

theorem spelled_at {colors : List Color} {texts : List (List Char)}
    (spelled : List.Forall₂ Color.Spelled colors texts) {i : Nat} {color : Color}
    (here : colors[i]? = some color) :
    ∃ text, color.Spelled text ∧
      (texts.map fun text => (.text (String.ofList text) : Value .exact)).getD i .null =
        .text (String.ofList text) := by
  induction spelled generalizing i with
  | nil => cases here
  | @cons first text colors texts is_first others ih =>
    cases i with
    | zero =>
      obtain rfl := Option.some.inj here
      exact ⟨text, is_first, rfl⟩
    | succ i => exact ih here

theorem along_spelled {colors : List Color} {p : Rat} {i : Nat} {first second : Color} {s : Rat}
    (h : Neighbours colors p i first second s) {texts : List (List Char)}
    (spelled : List.Forall₂ Color.Spelled colors texts) :
    along (texts.map fun text => .text (String.ofList text)) (.finite p : Number .exact) blendColor =
      .ok (some (.text (Color.text (shade colors p .red) (shade colors p .green)
        (shade colors p .blue)))) := by
  have inside := h.inside
  have length := spelled.length_eq
  have parted : (0 : Rat) < (colors.length - 1 : Nat) := by exact_mod_cast (by omega)
  have grid : p = (i + s) / (colors.length - 1 : Nat) := by
    rw [← h.place, mul_div_cancel_right₀ _ parted.ne']
  obtain ⟨text, is_first, here⟩ := spelled_at spelled h.here
  obtain ⟨text', is_second, next⟩ := spelled_at spelled h.next
  obtain ⟨shown, found, rfl⟩ : ∃ shown,
      along (texts.map fun text => .text (String.ofList text))
        (.finite ((i + s) / (colors.length - 1 : Nat)) : Number .exact) blendColor =
          .ok (some shown) ∧ shown = .text (Color.text (shade colors p .red) (shade colors p .green)
            (shade colors p .blue)) := by
    apply along_of_grid
    · rw [List.length_map]
      omega
    · omega
    · exact h.low
    · exact h.high
    · rw [here, next, blendColor_spelled is_first is_second, h.shade_eq, h.shade_eq, h.shade_eq]
      exact .ok rfl
    · rintro rfl more
      obtain ⟨third, later⟩ : ∃ third, colors[i + 1 + 1]? = some third :=
        ⟨_, List.getElem?_eq_getElem (by omega)⟩
      obtain ⟨text'', is_third, far⟩ := spelled_at spelled later
      rw [next, far, blendColor_spelled is_second is_third, h.shade_eq, h.shade_eq, h.shade_eq]
      simp only [blended_start, blended_stop]
      exact .ok rfl
  rw [← grid] at found
  exact found

/-- What the channels shown over a run have to do with the colors. -/
structure IsGradient (colors : List Color) (shown : Rat → Channel → Int) : Prop where
  between : ∀ p i first second s, Neighbours colors p i first second s → ∀ channel,
    ((min (first.channel channel) (second.channel channel) : Nat) : Int) ≤ shown p channel ∧
      shown p channel ≤ (max (first.channel channel) (second.channel channel) : Nat)
  near : ∀ p i first second s, Neighbours colors p i first second s → ∀ channel,
    |(shown p channel : Rat) - ((1 - s) * first.channel channel + s * second.channel channel)| ≤
      1 / 2
  gamut : ∀ p, 0 ≤ p → p ≤ 1 → ∀ channel, 0 ≤ shown p channel ∧ shown p channel ≤ 255
  keyframes : ∀ (i : Nat) color, colors[i]? = some color → ∀ channel,
    shown (i / (colors.length - 1 : Nat)) channel = color.channel channel
  one_way : ∀ p q i first second s t, Neighbours colors p i first second s →
    Neighbours colors q i first second t → p ≤ q → ∀ channel,
      (first.channel channel ≤ second.channel channel → shown p channel ≤ shown q channel) ∧
        (second.channel channel ≤ first.channel channel → shown q channel ≤ shown p channel)

theorem shade_gradient {colors : List Color} {texts : List (List Char)}
    (spelled : List.Forall₂ Color.Spelled colors texts) (several : 2 ≤ colors.length) :
    IsGradient colors (shade colors) where
  between p i first second s h channel := by
    rw [h.shade_eq]
    exact blended_between h.low h.high
  near p i first second s h channel := by
    rw [h.shade_eq]
    exact blended_near
  gamut p low high channel := by
    have small {i : Nat} {color : Color} (here : colors[i]? = some color) :
        color.channel channel ≤ 255 := by
      obtain ⟨text, is_color, _⟩ := spelled_at spelled here
      obtain ⟨red, green, blue⟩ := colorOf?_channels (colorOf?_spelled is_color)
      cases channel with
      | red => exact red
      | green => exact green
      | blue => exact blue
    obtain ⟨i, first, second, s, _, h⟩ := neighbours_of_segment several low high
    have inside := blended_between (a := first.channel channel) (b := second.channel channel)
      h.low h.high
    have first_small := small h.here
    have second_small := small h.next
    rw [h.shade_eq]
    omega
  keyframes i color here channel := by
    have inside : i < colors.length := (List.getElem?_eq_some_iff.mp here).1
    have parted : ((colors.length - 1 : Nat) : Rat) ≠ 0 := by exact_mod_cast (by omega)
    by_cases more : i + 1 < colors.length
    · have start : Neighbours colors (i / (colors.length - 1 : Nat)) i color colors[i + 1] 0 :=
        ⟨here, List.getElem?_eq_getElem more, by rw [div_mul_cancel₀ _ parted, add_zero], le_rfl,
          zero_le_one⟩
      rw [start.shade_eq, blended_start]
    · obtain ⟨j, rfl⟩ : ∃ j, i = j + 1 := ⟨i - 1, by omega⟩
      have stop : Neighbours colors ((j + 1 : Nat) / (colors.length - 1 : Nat)) j colors[j] color 1 :=
        ⟨List.getElem?_eq_getElem (by omega), here, by
          rw [div_mul_cancel₀ _ parted]
          push_cast
          rfl, zero_le_one, le_rfl⟩
      rw [stop.shade_eq, blended_stop]
  one_way p q i first second s t hp hq le channel := by
    have further : s ≤ t := by
      have scaled := mul_le_mul_of_nonneg_right le
        (Nat.cast_nonneg (α := Rat) (colors.length - 1))
      rw [hp.place, hq.place] at scaled
      linarith
    rw [hp.shade_eq, hq.shade_eq]
    exact ⟨fun up => blended_rising up further, fun down => blended_falling down further⟩

/-- Over a run the channels of the colors that are shown are those of a gradient: between the two
    colors that the progress selects, and the same however the colors are spelled. -/
theorem colors_blend_in_gamut {colors : List Color} (several : 2 ≤ colors.length)
    {texts : List (List Char)} (spelled : List.Forall₂ Color.Spelled colors texts) :
    ∃ shown, IsGradient colors shown ∧ ∀ p : Rat, 0 ≤ p → p ≤ 1 →
      (∃ (i : Nat) (first second : Color) (s : Rat),
        segment texts.length (.finite p : Number .exact) = .ok (i, .finite s) ∧
          Neighbours colors p i first second s) ∧
      ∀ others, List.Forall₂ Color.Spelled colors others →
        along (others.map fun text => .text (String.ofList text)) (.finite p : Number .exact)
            blendColor =
          .ok (some (.text (Color.text (shown p .red) (shown p .green) (shown p .blue)))) := by
  refine ⟨shade colors, shade_gradient spelled several, fun p low high => ?_⟩
  obtain ⟨i, first, second, s, selected, h⟩ := neighbours_of_segment several low high
  rw [← spelled.length_eq]
  exact ⟨⟨i, first, second, s, selected, h⟩, fun _ respelled => along_spelled h respelled⟩

def sky : List Color := [⟨0, 51, 102⟩, ⟨64, 128, 255⟩, ⟨255, 0, 0⟩]

theorem sky_spelled : List.Forall₂ Color.Spelled sky
    [" #036 ".toList, "4080fF".toList, "#f00".toList] := by
  have dark : Color.Digits ['0', '3', '6'] ⟨16 * 0 + 0, 16 * 3 + 3, 16 * 6 + 6⟩ :=
    .three (.inl rfl) (.inl rfl) (.inl rfl)
  have bright : Color.Digits ['4', '0', '8', '0', 'f', 'F'] ⟨16 * 4 + 0, 16 * 8 + 0, 16 * 15 + 15⟩ :=
    .six (.inl rfl) (.inl rfl) (.inl rfl) (.inl rfl) (.inl rfl) (.inr rfl)
  have red : Color.Digits ['f', '0', '0'] ⟨16 * 15 + 15, 16 * 0 + 0, 16 * 0 + 0⟩ :=
    .three (.inl rfl) (.inl rfl) (.inl rfl)
  have at_once {color : Color} {digits : List Char} (written : Color.Digits digits color) :
      color.Spelled digits := ⟨[], [], digits, [], by simp, by simp, by simp, .inl rfl, written⟩
  refine .cons ?_ (.cons (at_once bright) (.cons ?_ .nil))
  · have blank : ∀ c ∈ [' '], isBlank c = true := forall_chars (by decide)
    exact ⟨[' '], ['#'], _, [' '], rfl, blank, blank, .inr rfl, dark⟩
  · exact ⟨[], ['#'], _, [], rfl, by simp, by simp, .inr rfl, red⟩

theorem sky_respelled : List.Forall₂ Color.Spelled sky
    ["#003366".toList, "4080fF".toList, "#f00".toList] := by
  have dark : Color.Digits ['0', '0', '3', '3', '6', '6'] ⟨16 * 0 + 0, 16 * 3 + 3, 16 * 6 + 6⟩ :=
    .six (.inl rfl) (.inl rfl) (.inl rfl) (.inl rfl) (.inl rfl) (.inl rfl)
  refine .cons ?_ (List.forall₂_cons.mp sky_spelled).2
  exact ⟨[], ['#'], _, [], rfl, by simp, by simp, .inr rfl, dark⟩

theorem sky_before_noon : 2 ≤ sky.length ∧
    along (["#003366".toList, "4080fF".toList, "#f00".toList].map
      fun text => .text (String.ofList text)) (.finite (1 / 4) : Number .exact) blendColor =
        .ok (some (.text "rgb(32, 90, 179)")) := by
  have several : 2 ≤ sky.length := by decide
  obtain ⟨shown, _, shows⟩ := colors_blend_in_gamut several sky_spelled
  obtain ⟨_, same⟩ := shows (1 / 4) (by decide +kernel) (by decide +kernel)
  have computed : along ([" #036 ".toList, "4080fF".toList, "#f00".toList].map
      fun text => .text (String.ofList text)) (.finite (1 / 4) : Number .exact) blendColor =
        .ok (some (.text "rgb(32, 90, 179)")) := by with_unfolding_all rfl
  exact ⟨several, (same _ sky_respelled).trans ((same _ sky_spelled).symm.trans computed)⟩

end Gradient

end Keyframe

end DeclarativeAnimation
