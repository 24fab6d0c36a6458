import DeclarativeAnimation.Animation.Basic
import DeclarativeAnimation.Interpolation.Blend

/-! From the part of a run that has passed to the part of the keyframes that has passed.  The
    pace is bent by key times, by timing curves, or by the distances between keyframes. -/
namespace DeclarativeAnimation
variable {A : Arithmetic}

namespace Curve

def tolerance : Number A := 1e-5

def mostSteps : Nat := 24

def sample (first second t : Number A) : Number A :=
  let c := 3 * first
  let b := 3 * (second - first) - c
  let a := 1 - c - b
  ((a * t + b) * t + c) * t

def sampleX (curve : Curve A) (t : Number A) : Number A := sample curve.x1 curve.x2 t

def sampleY (curve : Curve A) (t : Number A) : Number A := sample curve.y1 curve.y2 t

/-- The parameter whose abscissa is the progress, by halving the interval that holds it. -/
def parameter (curve : Curve A) (progress : Number A) : Number A :=
  go mostSteps 0 1 progress
where
  go : Nat → Number A → Number A → Number A → Number A
    | 0, _, _, middle => middle
    | fuel + 1, low, high, middle =>
      let x := curve.sampleX middle
      if (x - progress).abs < tolerance then middle
      else
        let (low, high) := if x < progress then (middle, high) else (low, middle)
        go fuel low high ((low + high) / 2)

/-- The ordinate of the curve over a progress; outside the unit interval its ends. -/
def ease (curve : Curve A) (progress : Number A) : Number A :=
  if progress ≤ 0 then 0
  else if (1 : Number A) ≤ progress then 1
  else curve.sampleY (curve.parameter progress)

end Curve

namespace Pace

def distance (p q : List (Number A)) : Number A :=
  let squares := (p.zip q).map fun (a, b) => (b - a) * (b - a)
  (squares.foldl (· + ·) (0 : Number A)).sqrt

def steps : List (List (Number A)) → List (Number A)
  | a :: b :: rest => distance a b :: steps (b :: rest)
  | _ => []

def partialSums (sum : Number A) : List (Number A) → List (Number A)
  | [] => []
  | x :: rest => sum :: partialSums (sum + x) rest

/-- When each point of a path is reached at constant speed, the last one at 1.  There has to be
    a step, all points have to be of one dimension, and the path of positive finite length. -/
def keyTimes? (points : List (Option (List (Number A)))) : Option (List (Number A)) := do
  let points ← points.mapM id
  match points with
  | first :: _ :: _ =>
    if points.any (·.length ≠ first.length) then none
    else
      let lengths := steps points
      let total := lengths.foldl (· + ·) 0
      if !total.isFinite || total ≤ 0 then none
      else some ((partialSums 0 lengths).map (· / total) ++ [1])
  | _ => none

def keyTimesOf (keyframes : List (Value A)) : Except Fault (Option (List (Number A))) :=
  match keyframes with
  | _ :: _ :: _ => do return keyTimes? (← keyframes.mapM Keyframe.vector)
  | _ => .ok none

/-- The segment of the key times that holds the progress is eased by its curve and laid onto a
    grid of equal segments, which the keyframes share out. -/
def alongSegments (keyTimes : List (Number A)) (curves : List (Curve A)) (progress : Number A) :
    Number A :=
  go 0 keyTimes curves
where
  segments : Nat := keyTimes.length - 1
  go (i : Nat) : List (Number A) → List (Curve A) → Number A
    | start :: stop :: rest, curves =>
      if progress ≤ stop || rest.isEmpty then
        let span := stop - start
        let part := if (0 : Number A) < span then (progress - start) / span else 1
        let part := part.clampUnit
        let part := match curves with
          | curve :: _ => curve.ease part
          | [] => part
        (.ofInt i + part) / .ofInt segments
      else go (i + 1) (stop :: rest) curves.tail
    | _, _ => progress

end Pace

namespace Track

/-- The part of the keyframes that has passed.  A discrete track is not bent, as it picks its
    keyframe by itself; a paced one takes its key times from the keyframes; curves bend single
    segments, or the whole run where no key times part it. -/
def ease (track : Track A) (progress : Number A) : Number A :=
  if track.mode.isTheText "discrete" then progress
  else if track.mode.isTheText "paced" then
    match Pace.keyTimes? ((Listing.entries track.values).map Keyframe.vectorOf) with
    | none => progress
    | some keyTimes => (Pace.alongSegments keyTimes [] progress).clampUnit
  else
    let curves := if track.mode.isTheText "spline" then Listing.curves track.keySplines else []
    let keyTimes := (Listing.numbers? track.keyTimes).getD []
    if keyTimes.length < 2 then
      match curves with
      | curve :: _ => (curve.ease progress).clampUnit
      | [] => progress
    else (Pace.alongSegments keyTimes curves progress).clampUnit

/-- The fields that the pace is read from. -/
def paceFields (track : Track A) : Value A :=
  if track.mode.isTheText "discrete" then .null
  else if track.mode.isTheText "paced" then track.values
  else .list (if track.mode.isTheText "spline" then [track.keySplines, track.keyTimes]
    else [track.keyTimes])

def eased (track : Track A) (progress : Number A) : Except Fault (Number A) :=
  track.paceFields.spelling (track.ease progress)

end Track
end DeclarativeAnimation
