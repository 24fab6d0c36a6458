import DeclarativeAnimation.Interpolation.Contribution

/-! The animated values of one element at one time, and how contributions build them up.  Each
    animation either replaces what is there or adds to it; scales add by multiplication, and
    the first addition to a number that nothing has written yet starts from the value that the
    element has by itself. -/
namespace DeclarativeAnimation

structure Transform (A : Arithmetic) where
  translateX : Number A := 0
  translateY : Number A := 0
  rotate : Number A := 0
  center : Option (Number A × Number A) := none
  scaleX : Number A := 1
  scaleY : Number A := 1
  skewX : Number A := 0
  skewY : Number A := 0

structure Style (A : Arithmetic) where
  opacity : Value A := .null
  fillColor : Value A := .null
  strokeColor : Value A := .null
  strokeWidth : Value A := .null
  strokeDashoffset : Value A := .null

structure ElementState (A : Arithmetic) where
  id : Value A
  time : Number A
  transform : Option (Transform A) := none
  style : Option (Style A) := none
  attributes : List (Value A × Value A) := []
  path : Option String := none
  motion : Option (Placement A) := none

variable {A : Arithmetic}

namespace Transform

def get (t : Transform A) : TransformProperty → Number A
  | .translateX => t.translateX
  | .translateY => t.translateY
  | .rotate => t.rotate
  | .scaleX => t.scaleX
  | .scaleY => t.scaleY
  | .skewX => t.skewX
  | .skewY => t.skewY

def set (t : Transform A) (property : TransformProperty) (x : Number A) : Transform A :=
  match property with
  | .translateX => { t with translateX := x }
  | .translateY => { t with translateY := x }
  | .rotate => { t with rotate := x }
  | .scaleX => { t with scaleX := x }
  | .scaleY => { t with scaleY := x }
  | .skewX => { t with skewX := x }
  | .skewY => { t with skewY := x }

@[simp] theorem get_set_self (t : Transform A) (p : TransformProperty) (x : Number A) :
    (t.set p x).get p = x := by cases p <;> rfl

theorem get_set_other (t : Transform A) {p q : TransformProperty} (ne : p ≠ q) (x : Number A) :
    (t.set q x).get p = t.get p := by cases p <;> cases q <;> first | rfl | exact absurd rfl ne

end Transform

namespace Style

def get (s : Style A) : StyleProperty → Value A
  | .opacity => s.opacity
  | .fillColor => s.fillColor
  | .strokeColor => s.strokeColor
  | .strokeWidth => s.strokeWidth
  | .strokeDashoffset => s.strokeDashoffset

def set (s : Style A) (property : StyleProperty) (v : Value A) : Style A :=
  match property with
  | .opacity => { s with opacity := v }
  | .fillColor => { s with fillColor := v }
  | .strokeColor => { s with strokeColor := v }
  | .strokeWidth => { s with strokeWidth := v }
  | .strokeDashoffset => { s with strokeDashoffset := v }

@[simp] theorem get_set_self (s : Style A) (p : StyleProperty) (v : Value A) :
    (s.set p v).get p = v := by cases p <;> rfl

theorem get_set_other (s : Style A) {p q : StyleProperty} (ne : p ≠ q) (v : Value A) :
    (s.set q v).get p = s.get p := by cases p <;> cases q <;> first | rfl | exact absurd rfl ne

end Style

/-- Scales are combined by multiplication, everything else by addition. -/
def TransformProperty.combine (property : TransformProperty) (x y : Number A) : Number A :=
  match property with
  | .scaleX | .scaleY => x * y
  | _ => x + y

def baseNumber (animation : Animation A) (element : Option (Element A)) :
    Except Fault (Option (Number A)) :=
  let name := animation.subject.attributeName
  match element with
  | some element =>
    if name.isPresent then do Keyframe.leadingNumber (← element.baseValue name) else .ok none
  | none => .ok none

def compose (animation : Animation A) (element : Option (Element A)) (previous value : Value A) :
    Except Fault (Value A) :=
  if !animation.composition.isAdditive || !value.isNumeric then .ok value
  else if previous.isNumeric then previous.sum value
  else do
    match ← baseNumber animation element with
    | some base => Value.sum (.number base) value
    | none => return value

namespace ElementState

def apply (animation : Animation A) (element : Option (Element A)) (state : ElementState A)
    (contribution : Contribution A) : Except Fault (ElementState A) := do
  match contribution with
  | .transform property amount =>
    let t := state.transform.getD {}
    let x := if animation.composition.isAdditive then property.combine (t.get property) amount
      else amount
    return { state with transform := some (t.set property x) }
  | .rotationCenter x y =>
    return { state with transform := some { state.transform.getD {} with center := some (x, y) } }
  | .style property value =>
    let s := state.style.getD {}
    let v ← compose animation element (s.get property) value
    return { state with style := some (s.set property v) }
  | .attribute name value =>
    let previous := (Keyed.get? name state.attributes).getD .null
    let v ← compose animation element previous value
    return { state with attributes := Keyed.put name v state.attributes }
  | .path data => return { state with path := some data }
  | .motion placement => return { state with motion := some placement }

def applyAll (animation : Animation A) (element : Option (Element A)) (state : ElementState A)
    (contributions : List (Contribution A)) : Except Fault (ElementState A) :=
  contributions.foldlM (apply animation element) state

end ElementState
end DeclarativeAnimation
