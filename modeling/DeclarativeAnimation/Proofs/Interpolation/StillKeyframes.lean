import DeclarativeAnimation.Proofs.Animation.Authored
import DeclarativeAnimation.Proofs.Interpolation.KeyedSegments
import Mathlib.Algebra.Order.Floor.Ring
import Mathlib.Data.Rat.Floor

/-! Single keyframes.  A blend shows a keyframe itself at either end of the way to it, and a
    discrete track shows nothing else, so that a track that has come to one of its keyframes
    contributes that keyframe. -/
namespace DeclarativeAnimation

namespace Keyframe

theorem switch_start {α : Type} (first second : α) :
    switch first second (0 : Number .exact) = first := if_pos (by decide +kernel)

theorem switch_stop {α : Type} (first second : α) :
    switch first second (1 : Number .exact) = second := if_neg (by decide +kernel)

theorem roundHalfUp_exact (q : Rat) : roundHalfUp (.finite q : Number .exact) = .ok ⌊q + 1 / 2⌋ := by
  have half : (0.5 : Number .exact) = .finite (1 / 2) := by decide +kernel
  rw [roundHalfUp, half, Number.add_exact rfl rfl]
  rfl

theorem roundHalfUp_nat (n : Nat) : roundHalfUp (.finite n : Number .exact) = .ok (n : Int) := by
  rw [roundHalfUp_exact]
  exact congrArg Except.ok (floor_of_grid (by norm_num) (by norm_num))

/-- How a color slot may write a keyframe: as it stands, or by the channels of its color. -/
def colorTexts (text : List Char) : List String :=
  String.ofList text :: (colorOf? text).toList.map fun c => Color.text c.red c.green c.blue

theorem color?_text (text : List Char) :
    color? (.text (String.ofList text) : Value .exact) = .ok (colorOf? text) := by
  simp [color?, Value.isNull, Value.chars, Value.asText]

theorem spelling_texts (texts : List (List Char)) :
    (Value.list (texts.map fun text => (.text (String.ofList text) : Value .exact))).spelling
        ((texts.map fun text => (.text (String.ofList text) : Value .exact)).map
          fun k => (.text k.asText : Value .exact)) =
      .ok (texts.map fun text => .text (String.ofList text)) := by
  rw [Value.spelling_ok (Value.isSpellable_list.mpr (by simp)), List.map_map]
  rfl

theorem leadingNumber_shown {text : List Char} {x : Rat} {discrete : Bool}
    (here : leadingNumberOf text = some (.finite x : Number .exact)) :
    leadingNumber (if discrete = true then .text (String.ofList text) else .number (.finite x)) =
      .ok (some (.finite x : Number .exact)) := by
  split
  · simp only [leadingNumber, String.toList_ofList, here]
  · rfl

section
variable (first second : List Char)

theorem blendColor_start :
    Answers (blendColor (.text (String.ofList first)) (.text (String.ofList second))
      (0 : Number .exact)) fun shown => ∃ text ∈ colorTexts first, shown = .text text := by
  have kept (x y : Nat) : lerp (.finite x) (.finite y) 0 = (.finite x : Number .exact) := by
    refine (lerp_exact x y 0).trans (congrArg Number.finite ?_)
    ring
  unfold blendColor
  rw [color?_text, color?_text, switch_start]
  dsimp only [bind, Except.bind]
  cases read : colorOf? first with
  | none => exact .ok ⟨_, List.mem_cons_self, rfl⟩
  | some a =>
    cases colorOf? second with
    | none => exact .ok ⟨_, List.mem_cons_self, rfl⟩
    | some b =>
      simp only [kept, roundHalfUp_nat]
      exact .ok ⟨Color.text a.red a.green a.blue, by simp [colorTexts, read], rfl⟩

theorem blendColor_stop :
    Answers (blendColor (.text (String.ofList first)) (.text (String.ofList second))
      (1 : Number .exact)) fun shown => ∃ text ∈ colorTexts second, shown = .text text := by
  have kept (x y : Nat) : lerp (.finite x) (.finite y) 1 = (.finite y : Number .exact) := by
    refine (lerp_exact x y 1).trans (congrArg Number.finite ?_)
    ring
  unfold blendColor
  rw [color?_text, color?_text, switch_stop]
  dsimp only [bind, Except.bind]
  cases colorOf? first with
  | none => exact .ok ⟨_, List.mem_cons_self, rfl⟩
  | some a =>
    cases read : colorOf? second with
    | none => exact .ok ⟨_, List.mem_cons_self, rfl⟩
    | some b =>
      simp only [kept, roundHalfUp_nat]
      exact .ok ⟨Color.text b.red b.green b.blue, by simp [colorTexts, read], rfl⟩

end

section
variable {first second : List Char} {a b : Rat}
  (is_a : leadingNumberOf first = some (.finite a : Number .exact))
  (is_b : leadingNumberOf second = some (.finite b : Number .exact))
include is_a is_b

theorem blendNumber_start :
    blendNumber (.text (String.ofList first)) (.text (String.ofList second)) (0 : Number .exact) =
      .ok (.number (.finite a)) := by
  refine (blendNumber_texts is_a is_b (t := 0)).trans ?_
  simp

theorem blendNumber_stop :
    blendNumber (.text (String.ofList first)) (.text (String.ofList second)) (1 : Number .exact) =
      .ok (.number (.finite b)) := by
  refine (blendNumber_texts is_a is_b (t := 1)).trans ?_
  simp

end
end Keyframe

/-- A contribution is that of one keyframe, with this text and this number.  A discrete track takes
    it as it is written. -/
def Slot.Shows {A : Arithmetic} (slot : Slot) (discrete : Bool) (name : Value A)
    (text : List Char) (x : Number A) (c : Contribution A) : Prop :=
  match slot with
  | .styleNumber property => c = .style property (.number x)
  | .styleColor property => ∃ shown ∈ Keyframe.colorTexts text, c = .style property (.text shown)
  | .color => ∃ shown ∈ Keyframe.colorTexts text, c = .attribute name (.text shown)
  | .path => c = .path (String.ofList text)
  | .plain => c = .attribute name (if discrete then .text (String.ofList text) else .number x)

namespace Track
variable {track : Track .exact} {k : Nat} {p : Number .exact}

structure RestsAt (track : Track .exact) (count k : Nat) (p : Number .exact) : Prop where
  begun : 0 < k
  inside : k < count
  picked : track.isDiscrete = true →
    Keyframe.discreteIndex count p (Listing.numbers? track.keyTimes) = .ok k
  placed : track.isDiscrete = false → p = .finite (k / (count - 1 : Nat))

section
variable {texts : List (List Char)} (rests : track.RestsAt texts.length k p)
include rests

theorem pick_at_rest {blend : Keyframe.Blend .exact} {P : Value .exact → Prop}
    (chosen : track.isDiscrete = true → P (.text (String.ofList (texts.getD k []))))
    (stop : track.isDiscrete = false → ∀ text ∈ texts,
      Answers (blend (.text (String.ofList text)) (.text (String.ofList (texts.getD k []))) 1) P)
    (start : track.isDiscrete = false → ∀ text ∈ texts,
      Answers (blend (.text (String.ofList (texts.getD k []))) (.text (String.ofList text)) 0) P) :
    Answers (track.pick (texts.map fun text => .text (String.ofList text)) p blend) P := by
  have inside := rests.inside
  have shown (i : Nat) (there : i < texts.length) : texts.getD i [] ∈ texts ∧
      (texts.map fun text => (.text (String.ofList text) : Value .exact)).getD i .null =
        .text (String.ofList (texts.getD i [])) := by
    rw [← List.getElem_eq_getD (h := there),
      ← List.getElem_eq_getD (h := by rwa [List.length_map]), List.getElem_map]
    exact ⟨List.getElem_mem there, rfl⟩
  unfold pick
  cases discrete : track.isDiscrete with
  | true =>
    rw [if_pos rfl, discreteKeyframe, List.length_map, rests.picked discrete]
    refine .ok ?_
    rw [Int.toNat_natCast, (shown k inside).2]
    exact chosen discrete
  | false =>
    obtain ⟨j, rfl⟩ : ∃ j, k = j + 1 := ⟨k - 1, (Nat.sub_add_cancel rests.begun).symm⟩
    have place := rests.placed discrete
    push_cast at place
    obtain ⟨value, found, held⟩ : ∃ value,
        Keyframe.along (texts.map fun text => .text (String.ofList text))
          (.finite ((j + 1) / (texts.length - 1 : Nat))) blend = .ok (some value) ∧ P value := by
      apply Keyframe.along_of_grid
      · rw [List.length_map, Nat.sub_add_cancel (Nat.zero_lt_of_lt inside)]
      · exact Nat.lt_sub_of_add_lt inside
      · exact zero_le_one
      · exact le_rfl
      · rw [(shown j (by omega)).2, (shown (j + 1) inside).2]
        exact stop discrete _ (shown j (by omega)).1
      · intro _ more
        rw [(shown (j + 1) inside).2, (shown (j + 1 + 1) (by omega)).2]
        exact start discrete _ (shown (j + 1 + 1) (by omega)).1
    rw [if_neg Bool.false_ne_true, place, found]
    exact .ok held

theorem pick_color_at_rest :
    Answers (track.pick (texts.map fun text => .text (String.ofList text)) p Keyframe.blendColor)
      fun value => ∃ shown ∈ Keyframe.colorTexts (texts.getD k []), value = .text shown :=
  pick_at_rest rests (fun _ => ⟨_, List.mem_cons_self, rfl⟩)
    (fun _ _ _ => Keyframe.blendColor_stop _ _) (fun _ _ _ => Keyframe.blendColor_start _ _)

theorem pick_switch_at_rest :
    track.pick (texts.map fun text => .text (String.ofList text)) p Keyframe.blendSwitch =
      .ok (.text (String.ofList (texts.getD k []))) := by
  obtain ⟨value, found, rfl⟩ : Answers
      (track.pick (texts.map fun text => .text (String.ofList text)) p Keyframe.blendSwitch)
      (· = .text (String.ofList (texts.getD k []))) := by
    apply pick_at_rest rests
    · exact fun _ => rfl
    · exact fun _ _ _ => .ok (Keyframe.switch_stop _ _)
    · exact fun _ _ _ => .ok (Keyframe.switch_start _ _)
  exact found

theorem pick_number_at_rest {x : Rat}
    (numeric : ∀ text ∈ texts, ∃ a : Rat,
      Keyframe.leadingNumberOf text = some (.finite a : Number .exact))
    (here : Keyframe.leadingNumberOf (texts.getD k []) = some (.finite x : Number .exact)) :
    track.pick (texts.map fun text => .text (String.ofList text)) p Keyframe.blendNumber =
      .ok (if track.isDiscrete then .text (String.ofList (texts.getD k []))
        else .number (.finite x)) := by
  obtain ⟨value, found, rfl⟩ : Answers
      (track.pick (texts.map fun text => .text (String.ofList text)) p Keyframe.blendNumber)
      (· = if track.isDiscrete then .text (String.ofList (texts.getD k []))
        else .number (.finite x)) := by
    apply pick_at_rest rests
    · intro discrete
      rw [if_pos discrete]
    · intro blending text member
      obtain ⟨a, known⟩ := numeric text member
      rw [Keyframe.blendNumber_stop known here, blending]
      exact .ok rfl
    · intro blending text member
      obtain ⟨a, known⟩ := numeric text member
      rw [Keyframe.blendNumber_start here known, blending]
      exact .ok rfl
  exact found

end

section
variable {values : List Rat}
  (numeric : (Listing.entries track.values).map Keyframe.leadingNumberOf =
    values.map fun v => some (.finite v : Number .exact))
include numeric

theorem leadingNumberOf_getD (inside : k < values.length) :
    Keyframe.leadingNumberOf ((Listing.entries track.values).getD k []) =
      some (.finite (values.getD k 0) : Number .exact) := by
  have listed : (Listing.entries track.values).length = values.length := by
    simpa using congrArg List.length numeric
  have same := congrArg (·[k]?) numeric
  simp only [List.getElem?_map, List.getElem?_eq_getElem inside,
    List.getElem?_eq_getElem (listed ▸ inside), Option.map_some, Option.some.injEq] at same
  rw [← List.getElem_eq_getD (h := listed ▸ inside), ← List.getElem_eq_getD (h := inside), same]

theorem leadingNumberOf_of_mem {entry : List Char} (member : entry ∈ Listing.entries track.values) :
    ∃ a : Rat, Keyframe.leadingNumberOf entry = some (.finite a : Number .exact) := by
  have mapped := List.mem_map_of_mem (f := Keyframe.leadingNumberOf (A := .exact)) member
  rw [numeric] at mapped
  obtain ⟨a, _, same⟩ := List.mem_map.mp mapped
  exact ⟨a, same.symm⟩

theorem attributeContributions_at_rest {name : String} (some_name : name ≠ "")
    (texts : track.HasTexts) (rests : track.RestsAt values.length k p)
    (base : Value .exact) :
    ∃ c, track.attributeContributions (.text name) base p = .ok [c] ∧
      ((Slot.names.lookup name).getD .plain).Shows track.isDiscrete (.text name)
        ((Listing.entries track.values).getD k []) (.finite (values.getD k 0)) c := by
  have listed : (Listing.entries track.values).length = values.length := by
    simpa using congrArg List.length numeric
  have inside := rests.inside
  have here := leadingNumberOf_getD numeric inside
  have others (entry : List Char) (member : entry ∈ Listing.entries track.values) :=
    leadingNumberOf_of_mem numeric member
  have some_value : values ≠ [] := List.ne_nil_of_length_pos (by omega)
  have keyframes := keyframes_of_entries (entries_of_values numeric some_value) base
  have present : (Value.text name : Value .exact).isPresent = true := decide_eq_true some_name
  have named : Slot.ofName (.text name : Value .exact) =
      .ok ((Slot.names.lookup name).getD .plain) := rfl
  rw [← listed] at rests
  unfold attributeContributions
  rw [present, named]
  dsimp only [bind, Except.bind]
  rw [keyframes, texts.pick]
  cases (Slot.names.lookup name).getD .plain with
  | styleNumber property =>
    dsimp only
    rw [pick_number_at_rest rests others here]
    dsimp only
    rw [Keyframe.leadingNumber_shown here]
    exact ⟨_, rfl, rfl⟩
  | styleColor property =>
    obtain ⟨value, found, shown, member, rfl⟩ := pick_color_at_rest rests
    dsimp only
    rw [found]
    exact ⟨_, rfl, shown, member, rfl⟩
  | color =>
    obtain ⟨value, found, shown, member, rfl⟩ := pick_color_at_rest rests
    dsimp only
    rw [found]
    exact ⟨_, rfl, shown, member, rfl⟩
  | path =>
    have some_text : (Value.text (String.ofList ((Listing.entries track.values).getD k [])) :
        Value .exact).isPresent = true := by
      refine decide_eq_true fun none => ?_
      rw [String.ofList_eq_empty_iff] at none
      rw [none] at here
      cases here
    dsimp only
    rw [Keyframe.spelling_texts]
    dsimp only
    rw [pick_switch_at_rest rests]
    dsimp only
    rw [some_text]
    exact ⟨_, rfl, rfl⟩
  | plain =>
    dsimp only
    rw [pick_number_at_rest rests others here]
    exact ⟨_, rfl, rfl⟩

end
end Track
end DeclarativeAnimation
