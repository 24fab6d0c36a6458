import DeclarativeAnimation.Proofs.Chain.ChainRange
import DeclarativeAnimation.Proofs.Markup.CompleteMarkup
import DeclarativeAnimation.Proofs.Timing.ProgressRange
import DeclarativeAnimation.Service

/-! What reading a body can find wrong with it.  All of it is the body's own fault, apart from
    whole numbers beyond the doubles where a number is read. -/
namespace DeclarativeAnimation

namespace Service
variable {A : Arithmetic} {fault : Fault} {v : Value A}

def Answered {α : Type} (outcome : Except Refusal α) : Prop :=
  (∃ v, outcome = .ok v) ∨ ∃ rejection, outcome = .error (.rejected rejection)

section Outcomes
variable {α β : Type}

theorem Answered.bind {outcome : Except Refusal α} {next : α → Except Refusal β}
    (first : Answered outcome) (rest : ∀ a, outcome = .ok a → Answered (next a)) :
    Answered (outcome >>= next) := by
  rcases first with ⟨a, rfl⟩ | ⟨rejection, rfl⟩
  · exact rest a rfl
  · exact Or.inr ⟨rejection, rfl⟩

theorem refusing_answered {isOfBody : Fault → Bool} {result : Except Fault α}
    (own : ∀ fault, result = .error fault → isOfBody fault = true) :
    Answered (refusing isOfBody result) := by
  cases result with
  | ok a => exact Or.inl ⟨a, rfl⟩
  | error fault =>
    right
    refine ⟨.invalid fault, ?_⟩
    unfold refusing
    simp only [Except.mapError, own fault rfl, ↓reduceIte]

theorem list?_answered (body : Body A) (name : String) : Answered (list? body name) := by
  unfold list?
  split
  · exact Or.inl ⟨_, rfl⟩
  · exact Or.inl ⟨_, rfl⟩
  · exact Or.inl ⟨_, rfl⟩
  · exact Or.inr ⟨_, rfl⟩

theorem list_answered (body : Body A) (name : String) : Answered (list body name) := by
  unfold list
  apply (list?_answered body name).bind
  intro items _
  cases items with
  | none => exact Or.inr ⟨_, rfl⟩
  | some items => exact Or.inl ⟨items, rfl⟩

theorem mem_of_list? {body : Body A} {name : String} {items : List (Value A)}
    (read : list? body name = .ok (some items)) {item : Value A} (member : item ∈ items) :
    ∃ listed, body.lookup name = some (.list listed) ∧ item ∈ listed := by
  unfold list? at read
  split at read
  · cases read
  · cases read
    cases member
  · rename_i listed found
    cases read
    exact ⟨items, found, member⟩
  · cases read

theorem mem_of_list {body : Body A} {name : String} {items : List (Value A)}
    (read : list body name = .ok items) {item : Value A} (member : item ∈ items) :
    ∃ listed, body.lookup name = some (.list listed) ∧ item ∈ listed := by
  unfold list at read
  cases found : list? body name with
  | error refusal =>
    rw [found] at read
    cases read
  | ok given =>
    rw [found] at read
    cases given with
    | none => cases read
    | some listed =>
      cases read
      exact mem_of_list? found member

end Outcomes

section Faults

theorem isOfDocument_of_value (bad : fault.isOfValue = true) : isOfDocument fault = true := by
  unfold Fault.isOfValue at bad
  unfold isOfDocument
  cases category : fault.category <;> simp_all

theorem toNumber_ofDocument (fits : v.Fits) (refused : v.toNumber = .error fault) :
    isOfDocument fault = true := by
  cases v with
  | int n =>
    rw [Value.toNumber, Value.numberOfInt_of_finite (fits n rfl)] at refused
    cases refused
  | text s =>
    unfold Value.toNumber at refused
    dsimp only at refused
    split at refused
    · cases refused
    · cases refused
      rfl
  | bool b => cases refused
  | number x => cases refused
  | null =>
    cases refused
    rfl
  | list items =>
    cases refused
    rfl
  | object members =>
    cases refused
    rfl

theorem get_ofDocument {name : String} {otherwise : Value A}
    (refused : v.get name otherwise = .error fault) : isOfDocument fault = true := by
  unfold Value.get at refused
  split at refused
  · cases refused
  · cases refused
    rfl

theorem spelling_ofDocument {α : Type} {result : α} (refused : v.spelling result = .error fault) :
    isOfDocument fault = true := by
  obtain ⟨-, rfl⟩ := Value.spelling_fault refused
  rfl

theorem items_ofDocument (refused : v.items = .error fault) : isOfDocument fault = true := by
  unfold Value.items at refused
  split at refused
  · cases refused
  · cases refused
  · cases refused
  · cases refused
    rfl

end Faults

section Animations
variable {label : String} {data : Value A}

theorem animation_ofDocument (fits : (Markup.Source.wire data).Fits)
    (refused : Animation.ofWire label data = .error fault) : isOfDocument fault = true := by
  by_cases object : ∃ members, data = .object members
  · exact isOfDocument_of_value (Markup.ofWire_fault object fits.1 fits.2 refused)
  have untyped : Animation.wireType data = .error fault := by
    rcases bind_eq_error refused with untyped | ⟨type, typed, _⟩
    · exact untyped
    · unfold Animation.wireType at typed
      split at typed
      · exact absurd ⟨_, rfl⟩ object
      · cases typed
      · cases typed
      · cases typed
  unfold Animation.wireType at untyped
  split at untyped
  · exact absurd ⟨_, rfl⟩ object
  · cases untyped
    split <;> rfl
  · cases untyped
    split <;> rfl
  · cases untyped
    rfl

theorem animations_ofDocument {label : Nat → String} {position : Nat} {items : List (Value A)}
    (fits : ∀ item ∈ items, (Markup.Source.wire item).Fits)
    (refused : (Animation.listOfWire.go label position items).1 = .error fault) :
    isOfDocument fault = true := by
  induction items generalizing position with
  | nil => cases refused
  | cons item rest ih =>
    obtain ⟨here, later⟩ := List.forall_mem_cons.mp fits
    unfold Animation.listOfWire.go at refused
    split at refused
    · cases tail : (Animation.listOfWire.go label (position + 1) rest).1 with
      | ok animations =>
        dsimp only at refused
        rw [tail] at refused
        cases refused
      | error other =>
        dsimp only at refused
        rw [tail] at refused
        cases refused
        exact ih later tail
    · rename_i unread
      split at refused
      · split at refused
        · exact ih later refused
        · rename_i worse
          cases refused
          exact get_ofDocument worse
      · cases refused
        exact animation_ofDocument here unread

structure IsRead (a : Animation A) : Prop where
  id : ∃ s, a.id = .text s
  target : ∃ s, a.target = .text s
  count : Schedule.IsCount a.schedule.repeatCount

theorem isText_textOr (v : Value A) (otherwise : String) : ∃ s, v.textOr otherwise = .text s := by
  unfold Value.textOr
  split
  · exact ⟨_, rfl⟩
  · exact ⟨_, rfl⟩

theorem isNumber_wireNumber {member : String} {count : Value A}
    (read : Animation.wireNumber member v = .ok count) : ∃ x, count = .number x := by
  unfold Animation.wireNumber at read
  split at read
  · cases read
  · split at read
    · cases read
      exact ⟨_, rfl⟩
    · cases read
    · cases read

theorem isCount_wireRepeatCount {count : Value A} (read : Animation.wireRepeatCount v = .ok count) :
    Schedule.IsCount count := by
  unfold Animation.wireRepeatCount at read
  split at read
  · cases read
    exact Or.inl (Or.inl rfl)
  · split at read
    · cases read
      exact Or.inl (Or.inl rfl)
    · split at read
      · cases read
        exact Or.inl (Or.inr ⟨_, rfl⟩)
      · split at read
        · cases read
          exact Or.inr ⟨_, rfl⟩
        · cases read
  · exact Or.inr (isNumber_wireNumber read)

theorem animation_isRead {a : Animation A} (read : Animation.ofWire label data = .ok a) :
    IsRead a := by
  obtain ⟨type, _, read⟩ := bind_eq_ok read
  obtain ⟨kind, _, read⟩ := bind_eq_ok read
  obtain ⟨subject, _, read⟩ := bind_eq_ok read
  obtain ⟨count, counts, read⟩ := bind_eq_ok read
  obtain ⟨-, rfl⟩ := Value.spelling_eq_ok.mp read
  exact ⟨isText_textOr _ _, isText_textOr _ _, isCount_wireRepeatCount counts⟩

theorem animations_areRead {label : Nat → String} {position : Nat} {items : List (Value A)}
    {animations : List (Animation A)}
    (read : (Animation.listOfWire.go label position items).1 = .ok animations) :
    ∀ a ∈ animations, IsRead a := by
  induction items generalizing position animations with
  | nil =>
    cases read
    intro a member
    cases member
  | cons item rest ih =>
    unfold Animation.listOfWire.go at read
    split at read
    · rename_i animation found
      dsimp only at read
      cases tail : (Animation.listOfWire.go label (position + 1) rest).1 with
      | error other =>
        rw [tail] at read
        cases read
      | ok others =>
        rw [tail] at read
        cases read
        exact List.forall_mem_cons.mpr ⟨animation_isRead found, ih tail⟩
    · split at read
      · split at read
        · exact ih read
        · cases read
      · cases read

end Animations

section Elements
variable {data : Value A}

theorem element_ofDocument (refused : Element.ofWire data = .error fault) :
    isOfDocument fault = true := by
  rcases bind_eq_error refused with missing | ⟨id, _, refused⟩
  · exact get_ofDocument missing
  rcases bind_eq_error refused with unwritten | ⟨text, _, refused⟩
  · exact spelling_ofDocument unwritten
  dsimp only at refused
  split at refused
  · cases refused
    rfl
  rcases bind_eq_error refused with missing | ⟨payload, _, refused⟩
  · exact get_ofDocument missing
  split at refused
  · rcases bind_eq_error refused with missing | ⟨type, _, refused⟩
    · exact get_ofDocument missing
    rcases bind_eq_error refused with unwritten | ⟨name, _, refused⟩
    · exact spelling_ofDocument unwritten
    · cases refused
  · cases refused
    rfl

theorem elements_ofDocument {items : List (Value A)}
    (refused : Elements.listed <$> items.mapM Element.ofWire = .error fault) :
    isOfDocument fault = true := by
  cases unread : items.mapM (Element.ofWire (A := A)) with
  | ok elements =>
    rw [unread] at refused
    cases refused
  | error other =>
    rw [unread] at refused
    cases refused
    obtain ⟨item, _, unread⟩ := exists_of_mapM_error unread
    exact element_ofDocument unread

end Elements

section Chains
variable {label : String} {data item : Value A}

theorem entry_ofDocument (fits : (item.member "delay").Fits)
    (refused : ChainEntry.ofWire item = .error fault) : isOfDocument fault = true := by
  rcases bind_eq_error refused with missing | ⟨trigger, _, refused⟩
  · exact get_ofDocument missing
  rcases bind_eq_error refused with unwritten | ⟨name, _, refused⟩
  · exact spelling_ofDocument unwritten
  by_cases listed : ChainEntry.triggers.contains name = true
  swap
  · rw [if_pos (by simpa using listed)] at refused
    cases refused
    rfl
  rw [if_neg (by simpa using listed)] at refused
  dsimp only at refused
  split at refused
  · cases refused
    rfl
  rcases bind_eq_error refused with unwritten | ⟨animation, _, refused⟩
  · exact spelling_ofDocument unwritten
  rcases bind_eq_error refused with missing | ⟨delay, found, refused⟩
  · exact get_ofDocument missing
  rcases bind_eq_error refused with unread | ⟨x, _, refused⟩
  · have same : delay.Fits := by
      cases item with
      | object members =>
        cases listed : members.lookup "delay" with
        | none =>
          simp only [Value.get, listed, Option.getD_none] at found
          cases found
          intro n whole
          cases whole
        | some v =>
          simp only [Value.get, listed, Option.getD_some] at found
          cases found
          simpa [Value.member, Value.member?, listed] using fits
      | _ => cases found
    exact toNumber_ofDocument same unread
  · cases refused

def DelaysFit (chain : Value A) : Prop :=
  ∀ entries, chain.member "animations" = .list entries → ∀ entry ∈ entries,
    (entry.member "delay").Fits

theorem delay_fits (fits : DelaysFit data) {listed : Value A} {items : List (Value A)}
    (found : data.get "animations" (.list []) = .ok listed)
    (gone : (listed.orElse (.list [])).items = .ok items) (member : item ∈ items) :
    (item.member "delay").Fits := by
  have unnamed : ∀ s, ((Value.text s : Value A).member "delay").Fits := by
    intro s
    exact Value.IsPlain.fits (Or.inl rfl)
  have given : ∀ entries, listed = .list entries → entries = [] ∨
      data.member "animations" = .list entries := by
    intro entries same
    cases data with
    | object members =>
      cases there : members.lookup "animations" with
      | none =>
        simp only [Value.get, there, Option.getD_none, Except.ok.injEq] at found
        rw [← found] at same
        cases same
        exact Or.inl rfl
      | some v =>
        simp only [Value.get, there, Option.getD_some, Except.ok.injEq] at found
        right
        simp only [Value.member, Value.member?, there, Option.getD_some, found, same]
    | _ => cases found
  unfold Value.orElse at gone
  split at gone
  · cases listed with
    | list entries =>
      cases gone
      rcases given items rfl with rfl | entries
      · cases member
      · exact fits items entries item member
    | text s =>
      cases gone
      obtain ⟨c, _, rfl⟩ := List.mem_map.mp member
      exact unnamed _
    | object members =>
      cases gone
      obtain ⟨⟨name, v⟩, _, rfl⟩ := List.mem_map.mp member
      exact unnamed _
    | _ => cases gone
  · cases gone
    cases member

theorem chain_ofDocument (fits : DelaysFit data)
    (refused : Chain.ofWire label data = .error fault) : isOfDocument fault = true := by
  rcases bind_eq_error refused with missing | ⟨listed, found, refused⟩
  · exact get_ofDocument missing
  rcases bind_eq_error refused with unlisted | ⟨items, gone, refused⟩
  · exact items_ofDocument unlisted
  rcases bind_eq_error refused with unread | ⟨entries, _, refused⟩
  · obtain ⟨item, member, unread⟩ := exists_of_mapM_error unread
    exact entry_ofDocument (delay_fits fits found gone member) unread
  · exact spelling_ofDocument refused

theorem entry_isRead {entry : ChainEntry A} (read : ChainEntry.ofWire item = .ok entry) :
    entry.IsRead := by
  obtain ⟨trigger, _, read⟩ := bind_eq_ok read
  obtain ⟨name, _, read⟩ := bind_eq_ok read
  dsimp only at read
  split at read
  · cases read
  split at read
  · cases read
  obtain ⟨animation, _, read⟩ := bind_eq_ok read
  obtain ⟨given, _, read⟩ := bind_eq_ok read
  obtain ⟨delay, _, read⟩ := bind_eq_ok read
  cases read
  exact ⟨⟨_, rfl⟩, _, rfl⟩

theorem chain_isRead {chain : Chain A} (read : Chain.ofWire label data = .ok chain) :
    chain.IsRead := by
  obtain ⟨listed, _, read⟩ := bind_eq_ok read
  obtain ⟨items, _, read⟩ := bind_eq_ok read
  obtain ⟨entries, each, read⟩ := bind_eq_ok read
  obtain ⟨-, rfl⟩ := Value.spelling_eq_ok.mp read
  intro entry member
  obtain ⟨item, _, read⟩ := mem_of_forall₂ (forall₂_of_ok each) member
  exact entry_isRead read

theorem chains_ofDocument {label : Nat → String} {items : List (Value A)}
    (fits : ∀ chain ∈ items, DelaysFit chain)
    (refused : Chain.listOfWire label items = .error fault) : isOfDocument fault = true := by
  obtain ⟨⟨chain, position⟩, member, unread⟩ := exists_of_mapM_error refused
  exact chain_ofDocument (fits chain (List.fst_mem_of_mem_zipIdx member)) unread

theorem chains_areRead {label : Nat → String} {items : List (Value A)} {chains : List (Chain A)}
    (read : Chain.listOfWire label items = .ok chains) : ∀ chain ∈ chains, chain.IsRead := by
  intro chain member
  obtain ⟨item, _, read⟩ := mem_of_forall₂ (forall₂_of_ok read) member
  exact chain_isRead read

end Chains

section Scenes
variable {body : Body A}

/-- The whole numbers in a body that are read as numbers are among them. -/
structure Body.IsReadable (body : Body A) : Prop where
  time : ((body.lookup "time").getD (.number 0)).Fits
  animations : ∀ items, body.lookup "animations" = some (.list items) →
    ∀ item ∈ items, (Markup.Source.wire item).Fits
  chains : ∀ items, body.lookup "chains" = some (.list items) → ∀ chain ∈ items, DelaysFit chain

structure Scene.IsRead (scene : Scene A) : Prop where
  animations : ∀ a ∈ scene.animations, Service.IsRead a
  chains : ∀ chain ∈ scene.chains, chain.IsRead

theorem scene_answered (readable : Body.IsReadable body) : Answered (scene body).1 := by
  have lists : Answered (do
      return (← list body "animations", ← list? body "elements", ← list? body "chains")) :=
    (list_answered body "animations").bind fun animations _ =>
      (list?_answered body "elements").bind fun elements _ =>
        (list?_answered body "chains").bind fun chains _ => Or.inl ⟨_, rfl⟩
  unfold scene
  dsimp only
  split
  · rename_i refusal failed
    rcases lists with ⟨found, same⟩ | ⟨rejection, same⟩
    · rw [same] at failed
      cases failed
    · rw [same] at failed
      cases failed
      exact Or.inr ⟨rejection, rfl⟩
  · rename_i animations elements chains given
    obtain ⟨_, animated, given⟩ := bind_eq_ok given
    obtain ⟨_, shown, given⟩ := bind_eq_ok given
    obtain ⟨_, chained, given⟩ := bind_eq_ok given
    cases given
    split
    · rename_i fault untimed
      dsimp only
      apply refusing_answered
      intro other same
      cases same
      exact toNumber_ofDocument readable.time untimed
    · dsimp only
      apply refusing_answered
      intro fault refused
      rcases bind_eq_error refused with unread | ⟨read, _, refused⟩
      · refine animations_ofDocument (fun item member => ?_) unread
        obtain ⟨listed, there, inside⟩ := mem_of_list animated member
        exact readable.animations listed there item inside
      have later : Chain.listOfWire Chain.label (chains.getD []) = .error fault →
          isOfDocument fault = true := by
        apply chains_ofDocument
        intro chain member
        cases chains with
        | none => cases member
        | some items =>
          obtain ⟨listed, there, inside⟩ := mem_of_list? chained member
          exact readable.chains listed there chain inside
      cases elements with
      | none =>
        rcases bind_eq_error refused with unlisted | ⟨known, _, refused⟩
        · cases unlisted
        rcases bind_eq_error refused with unread | ⟨orders, _, refused⟩
        · exact later unread
        · cases refused
      | some items =>
        rcases bind_eq_error refused with unread | ⟨known, _, refused⟩
        · exact elements_ofDocument unread
        rcases bind_eq_error refused with unread | ⟨orders, _, refused⟩
        · exact later unread
        · cases refused

theorem scene_isRead {read : Scene A} (done : (scene body).1 = .ok read) : read.IsRead := by
  unfold scene at done
  dsimp only at done
  split at done
  · cases done
  split at done
  · cases done
  dsimp only at done
  obtain ⟨animations, found, done⟩ := bind_eq_ok (mapError_eq_ok done)
  have areRead := animations_areRead found
  split at done
  all_goals
    obtain ⟨elements, _, done⟩ := bind_eq_ok done
    obtain ⟨chains, chained, done⟩ := bind_eq_ok done
    cases done
    exact ⟨areRead, chains_areRead chained⟩

end Scenes

end Service
end DeclarativeAnimation
