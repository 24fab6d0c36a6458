import DeclarativeAnimation.Proofs.Outcome
import DeclarativeAnimation.State.Evaluation

/-! Where animations write.  Styles and attributes are only written by animations that have their
    names, so that all who write to one place find the same value of the element there. -/
namespace DeclarativeAnimation
variable {A : Arithmetic}

def StyleProperty.attributeName : StyleProperty → String
  | .opacity => "opacity"
  | .fillColor => "fill"
  | .strokeColor => "stroke"
  | .strokeWidth => "stroke-width"
  | .strokeDashoffset => "stroke-dashoffset"

def Contribution.IsNamed (name : Value A) : Contribution A → Prop
  | .style property _ => name = .text property.attributeName
  | .attribute key _ => key = name ∧ name.isPresent = true
  | _ => True

theorem Slot.name_of_property {name : Value A} {slot : Slot} {property : StyleProperty}
    (styles : slot = .styleNumber property ∨ slot = .styleColor property)
    (named : Slot.ofName name = .ok slot) : name = .text property.attributeName := by
  have known : ∀ property : StyleProperty, ∀ entry ∈ Slot.names,
      entry.2 = .styleNumber property ∨ entry.2 = .styleColor property →
        entry.1 = property.attributeName := by
    intro property
    cases property <;> decide
  obtain ⟨key, keyed, found⟩ := bind_eq_ok named
  obtain rfl : key = name := by cases name <;> cases keyed <;> rfl
  split at found
  · rename_i s
    have looked : (Slot.names.lookup s).getD .plain = slot := Except.ok.inj found
    cases listed : Slot.names.lookup s with
    | none =>
      rw [listed] at looked
      subst looked
      rcases styles with other | other <;> cases other
    | some slot' =>
      rw [listed] at looked
      obtain rfl : slot' = slot := looked
      obtain ⟨before, after, all, _⟩ := List.lookup_eq_some_iff.mp listed
      have member : (s, slot') ∈ Slot.names := by
        rw [all]
        exact List.mem_append_right before List.mem_cons_self
      exact congrArg Value.text (known property (s, slot') member styles)
  · obtain rfl : .plain = slot := Except.ok.inj found
    rcases styles with other | other <;> cases other

section
variable {track : Track A} {name : Value A} {found : List (Contribution A)}

theorem attributeContributions_named {base : Value A} {progress : Number A}
    (done : track.attributeContributions name base progress = .ok found) :
    ∀ c ∈ found, c.IsNamed name := by
  unfold Track.attributeContributions at done
  split at done
  · cases done
    simp
  · rename_i present
    have some_name : name.isPresent = true := by simpa using present
    obtain ⟨slot, named, done⟩ := bind_eq_ok done
    obtain ⟨keyframes, _, done⟩ := bind_eq_ok done
    cases slot with
    | path =>
      obtain ⟨texts, _, done⟩ := bind_eq_ok done
      obtain ⟨chosen, _, done⟩ := bind_eq_ok done
      cases done
      split <;> simp [Contribution.IsNamed]
    | styleColor property =>
      obtain ⟨value, _, done⟩ := bind_eq_ok done
      cases done
      simpa [Contribution.IsNamed] using Slot.name_of_property (.inr rfl) named
    | color =>
      obtain ⟨value, _, done⟩ := bind_eq_ok done
      cases done
      simpa [Contribution.IsNamed] using some_name
    | styleNumber property =>
      obtain ⟨value, _, done⟩ := bind_eq_ok done
      obtain ⟨x, _, done⟩ := bind_eq_ok done
      split at done
      · cases done
        simpa [Contribution.IsNamed] using Slot.name_of_property (.inl rfl) named
      · cases done
        simpa [Contribution.IsNamed] using some_name
    | plain =>
      obtain ⟨value, _, done⟩ := bind_eq_ok done
      cases done
      simpa [Contribution.IsNamed] using some_name

theorem setContributions_named (done : track.setContributions name = .ok found) :
    ∀ c ∈ found, c.IsNamed name := by
  unfold Track.setContributions at done
  split at done
  · cases done
    simp
  · rename_i present
    have some_name : name.isPresent = true := by
      simp only [Bool.or_eq_true, Bool.not_eq_true', not_or, Bool.not_eq_false] at present
      exact present.1
    obtain ⟨slot, named, done⟩ := bind_eq_ok done
    split at done
    · obtain ⟨x, _, done⟩ := bind_eq_ok done
      split at done
      · cases done
        simpa [Contribution.IsNamed] using Slot.name_of_property (.inl rfl) named
      · cases done
        simp
    · cases done
      simpa [Contribution.IsNamed] using Slot.name_of_property (.inr rfl) named
    · obtain ⟨text, _, done⟩ := bind_eq_ok done
      cases done
      simp [Contribution.IsNamed]
    · cases done
      simpa [Contribution.IsNamed] using some_name

end

theorem Keyframe.blended_of_along {β : Type} {values : List (Value A)} {progress : Number A}
    {blend : Value A → Value A → Number A → Except Fault β} {shown : β}
    (done : along values progress blend = .ok (some shown)) :
    ∃ first second t, blend first second t = .ok shown := by
  unfold along at done
  split at done
  · cases done
  · obtain ⟨only, blended, done⟩ := bind_eq_ok done
    cases done
    exact ⟨_, _, _, blended⟩
  · obtain ⟨⟨i, part⟩, _, done⟩ := bind_eq_ok done
    obtain ⟨mixed, blended, done⟩ := bind_eq_ok done
    cases done
    exact ⟨_, _, _, blended⟩

section
variable {track : Track A} {name : Value A} {found : List (Contribution A)}

theorem blend_named {kind : TransformKind} {first second : Value A} {t : Number A}
    (done : kind.blend first second t = .ok found) : ∀ c ∈ found, c.IsNamed name := by
  obtain ⟨a, _, done⟩ := bind_eq_ok done
  obtain ⟨b, _, done⟩ := bind_eq_ok done
  cases kind <;> cases done <;> simp [Contribution.IsNamed]

theorem rotationCenter_named {keyframe : Value A} (done : rotationCenter keyframe = .ok found) :
    ∀ c ∈ found, c.IsNamed name := by
  obtain ⟨parts, _, done⟩ := bind_eq_ok done
  split at done <;> cases done <;> simp [Contribution.IsNamed]

theorem transformContributions_named {kind : Value A} {progress : Number A}
    (done : track.transformContributions kind progress = .ok found) :
    ∀ c ∈ found, c.IsNamed name := by
  obtain ⟨known, _, done⟩ := bind_eq_ok done
  cases known with
  | none =>
    cases done
    simp
  | some kind =>
    obtain ⟨keyframes, _, done⟩ := bind_eq_ok done
    have centered {moved : List (Contribution A)} (moves : ∀ c ∈ moved, c.IsNamed name)
        (done : (if kind = .rotate then do
          return moved ++ (← rotationCenter (keyframes.headD .null)) else pure moved) =
            .ok found) : ∀ c ∈ found, c.IsNamed name := by
      split at done
      · obtain ⟨center, centered, done⟩ := bind_eq_ok done
        cases done
        exact List.forall_mem_append.mpr ⟨moves, rotationCenter_named centered⟩
      · cases done
        exact moves
    dsimp only at done
    split at done
    · obtain ⟨chosen, _, done⟩ := bind_eq_ok done
      obtain ⟨moved, blends, done⟩ := bind_eq_ok done
      exact centered (blend_named blends) done
    · obtain ⟨blended, along, done⟩ := bind_eq_ok done
      refine centered ?_ done
      cases blended with
      | none => simp
      | some blended =>
        obtain ⟨first, second, t, blends⟩ := Keyframe.blended_of_along along
        exact blend_named blends

end

namespace Animation

theorem accumulated_named {name : Value A} {iteration : Int}
    {finals current found : List (Contribution A)}
    (done : accumulated iteration finals current = .ok found)
    (named : ∀ c ∈ current, c.IsNamed name) : ∀ c ∈ found, c.IsNamed name := by
  intro grown member
  obtain ⟨c, listed, done⟩ := mem_of_forall₂ (forall₂_of_ok done) member
  have own := named c listed
  rcases c with ⟨property, value⟩ | ⟨key, value⟩ | data | ⟨property, amount⟩ | ⟨x, y⟩ | placement
  · obtain ⟨v, _, done⟩ := bind_eq_ok done
    cases done
    exact own
  · obtain ⟨v, _, done⟩ := bind_eq_ok done
    cases done
    exact own
  · cases done
    exact own
  · obtain ⟨v, _, done⟩ := bind_eq_ok done
    split at done <;> cases done <;> exact own
  · cases done
    exact own
  · cases done
    exact own

section
variable {a : Animation A} {element : Option (Element A)} {resolver : MotionResolver A}
  {found : List (Contribution A)}

theorem contributions_named {progress : Number A}
    (done : a.contributions element resolver progress = .ok found) :
    ∀ c ∈ found, c.IsNamed a.subject.attributeName := by
  unfold contributions at done
  rcases subject : a.subject with name | kind | ⟨path, reference, rotate, keyPoints⟩ | name | _ <;>
    rw [subject] at done
  · dsimp only at done
    split at done
    · split at done
      · obtain ⟨base, _, done⟩ := bind_eq_ok done
        exact attributeContributions_named done
      · exact attributeContributions_named done
    · exact attributeContributions_named done
  · exact transformContributions_named done
  · obtain ⟨placement, _, done⟩ := bind_eq_ok done
    split at done <;> cases done <;> simp [Contribution.IsNamed]
  · cases done
    simp
  · cases done
    simp

theorem evaluate_named {time : Number A} (done : a.evaluate element resolver time = .ok found) :
    ∀ c ∈ found, c.IsNamed a.subject.attributeName := by
  unfold evaluate at done
  split at done
  · rename_i name is_set
    obtain ⟨active, _, done⟩ := bind_eq_ok done
    rw [is_set]
    split at done
    · exact setContributions_named done
    · cases done
      simp
  · obtain ⟨moment, _, done⟩ := bind_eq_ok done
    obtain ⟨progress, _, done⟩ := bind_eq_ok done
    obtain ⟨current, contributed, done⟩ := bind_eq_ok done
    split at done
    · obtain ⟨finals, _, done⟩ := bind_eq_ok done
      exact accumulated_named done (contributions_named contributed)
    · cases done
      exact contributions_named contributed

end
end Animation
end DeclarativeAnimation
