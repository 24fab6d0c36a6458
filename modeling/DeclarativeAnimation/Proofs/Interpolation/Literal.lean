import DeclarativeAnimation.Interpolation.Blend
import DeclarativeAnimation.Proofs.Number.Spelling

/-! Decimal literals as texts of their own.  A literal is written with digits and a few marks and
    begins, after its sign, with a digit or the point, so that it has no blank, is no list of
    several numbers and no name of a number: every reader of numbers takes the whole of it. -/
namespace DeclarativeAnimation

open Text

namespace Decimal

theorem digit_plain {c : Char} (digit : isDigit c = true) :
    isBlank c = false ∧ c ∉ ",;_".toList ∧ c.toLower ∉ "in".toList := by
  have known : ∀ start ∈ digitZeros, ∀ k ∈ List.range 10,
      isBlank (Char.ofNat (start + k)) = false ∧ Char.ofNat (start + k) ∉ ",;_".toList ∧
        (Char.ofNat (start + k)).toLower ∉ "in".toList := by decide +kernel
  unfold isDigit digit? at digit
  rw [Option.isSome_map, List.find?_isSome] at digit
  obtain ⟨start, member, range⟩ := digit
  simp only [Bool.and_eq_true, decide_eq_true_eq] at range
  have found := known start member (c.toNat - start) (List.mem_range.mpr (by omega))
  rwa [Nat.add_sub_cancel' range.1, Char.ofNat_toNat] at found

theorem IsMark.plain {c : Char} (mark : IsMark c) : isBlank c = false ∧ c ∉ ",;_".toList := by
  rcases mark with digit | sign
  · exact ⟨(digit_plain digit).1, (digit_plain digit).2.1⟩
  · have known : ∀ c ∈ "+-.eE".toList, isBlank c = false ∧ c ∉ ",;_".toList :=
      forall_chars (by decide)
    exact known c sign

theorem whole?_spelled {text : List Char} {d : Decimal} (read : whole? text = some d) :
    ∃ l : Spelling, text = l.chars ∧ d = l.decimal := by
  unfold whole? at read
  split at read
  · rename_i scanned
    cases read
    obtain ⟨l, spelled, same, -⟩ := scan?_spelled scanned
    exact ⟨l, by simpa using spelled, same⟩
  · cases read

theorem whole?_parts {text : List Char} {d : Decimal} (read : whole? text = some d) :
    (∃ c ∈ (scanSign text).2.head?, isDigit c = true ∨ c = '.') ∧ ∀ c ∈ text, IsMark c := by
  obtain ⟨l, rfl, -⟩ := whole?_spelled read
  refine ⟨?_, l.marks⟩
  rw [Spelling.chars, scanSign_chars l.sign l.size.unsigned]
  exact l.size.starts

section
variable {text : List Char} {d : Decimal} (read : whole? text = some d)
include read

theorem whole?_plain : ∀ c ∈ text, isBlank c = false ∧ c ∉ ",;_".toList :=
  fun c member => ((whole?_parts read).2 c member).plain

theorem whole?_ne_nil : text ≠ [] := by
  rintro rfl
  cases read

theorem ofText?_whole {A : Arithmetic} : Number.ofText? text = some (d.toNumber : Number A) := by
  have plain := whole?_plain read
  have trimmed : trimWhile isMargin text = text :=
    trimWhile_of_none fun c member => by simp [isMargin, (plain c member).1]
  have joined : joinDigits? false text = some text :=
    joinDigits?_plain (fun c member same => (plain c member).2 (by simp [same])) false
  obtain ⟨c, leads, first⟩ := (whole?_parts read).1
  have letter : c.toLower ∉ "in".toList := by
    rcases first with digit | rfl
    · exact (digit_plain digit).2.2
    · decide
  have named (name : String) (initial : ∃ l ∈ "in".toList, name.toList.head? = some l) :
      lowercase (String.ofList (scanSign text).2) ≠ name := by
    rintro rfl
    obtain ⟨l, member, starts⟩ := initial
    rw [lowercase, String.toList_ofList, String.toList_ofList, List.head?_map,
      Option.mem_def.mp leads] at starts
    cases starts
    exact letter member
  have inf := named "inf" ⟨'i', by decide, by decide⟩
  have infinity := named "infinity" ⟨'i', by decide, by decide⟩
  have nan := named "nan" ⟨'n', by decide, by decide⟩
  simp [Number.ofText?, trimmed, joined, read, inf, infinity, nan]

end

theorem map_of_literals {β : Type} {f : List Char → β} {g : Rat → β} {texts : List (List Char)}
    {values : List Rat} (written : texts.map (fun text => (whole? text).map value) = values.map some)
    (agrees : ∀ text ∈ texts, ∀ d, whole? text = some d → f text = g d.value) :
    texts.map f = values.map g := by
  induction texts generalizing values with
  | nil =>
    obtain rfl := List.map_eq_nil_iff.mp written.symm
    rfl
  | cons text rest ih =>
    obtain _ | ⟨v, values⟩ := values
    · cases written
    · obtain ⟨first, later⟩ := List.cons.inj written
      obtain ⟨d, read, rfl⟩ := Option.map_eq_some_iff.mp first
      rw [List.map_cons, List.map_cons, agrees text List.mem_cons_self d read,
        ih later fun t member => agrees t (List.mem_cons_of_mem _ member)]

end Decimal

namespace Keyframe

section
variable {text : List Char} {d : Decimal} (read : Decimal.whole? text = some d)
include read

theorem leadingNumberOf_whole :
    leadingNumberOf text = some (.finite d.value : Number .exact) := by
  have kept : text.dropWhile isBlank = text := by
    cases text with
    | nil => rfl
    | cons c rest =>
      have solid := (Decimal.whole?_plain read c List.mem_cons_self).1
      rw [List.dropWhile_cons_of_neg (by simp [solid])]
  have scanned : Decimal.scan? text = some (d, []) := by
    unfold Decimal.whole? at read
    split at read
    · rename_i scanned
      cases read
      exact scanned
    · cases read
  unfold leadingNumberOf
  rw [kept, scanned]
  rfl

theorem numbersOf_whole : numbersOf text = some [(.finite d.value : Number .exact)] := by
  have plain := Decimal.whole?_plain read
  have solid : ∀ c ∈ text, isSeparator c = false := by
    intro c member
    have known := plain c member
    have comma : c ≠ ',' := fun same => known.2 (by simp [same])
    simp [isSeparator, known.1, comma]
  have trimmed : trim text = text := trimWhile_of_none fun c member => (plain c member).1
  have one : words isSeparator text = [text] := by
    rw [words, pieces_of_none solid, List.filter_cons_of_pos]
    · rfl
    · simpa using Decimal.whole?_ne_nil read
  unfold numbersOf
  rw [trimmed, one]
  dsimp only
  rw [List.mapM_cons, Decimal.ofText?_whole read]
  rfl

end
end Keyframe
end DeclarativeAnimation
