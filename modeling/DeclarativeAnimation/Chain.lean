import DeclarativeAnimation.Timing.Schedule
import DeclarativeAnimation.Animation.Wire

/-! Chains: animations that start after one another.  An entry triggered by an end starts when
    the entries before it have ended; any other entry starts by its own delay.  The offsets of a
    chain are then added to the begin of its animations. -/
namespace DeclarativeAnimation

structure ChainEntry (A : Arithmetic) where
  animation : Value A
  delay : Value A := .number 0
  trigger : Value A := .text "start"
  dependsOn : Value A := .null

structure Chain (A : Arithmetic) where
  id : Value A
  entries : List (ChainEntry A) := []
  name : Value A := .null

variable {A : Arithmetic}

namespace ChainEntry

def delaySeconds (entry : ChainEntry A) : Except Fault (Number A) := do
  return Number.larger 0 (← entry.delay.toNumber)

def followsEnd (entry : ChainEntry A) : Bool := entry.trigger.isTheText "end"

end ChainEntry

namespace Chain

def label (count : Nat) : String := generatedLabel "anim-chain-" count

def ofEntries (label : String) (entries : List (ChainEntry A)) (name : Value A) :
    Except Fault (Chain A) := do
  let entries ← entries.mapM fun e => do return { e with delay := .number (← e.delaySeconds) }
  return ⟨.text label, entries, name⟩

/-- How long an animation of a chain takes: nothing when it is unknown or without end. -/
def duration (animations : List (Value A × Animation A)) (id : Value A) :
    Except Fault (Number A) := do
  match Keyed.get? (← id.key) animations with
  | none => return 0
  | some animation =>
    let total ← animation.schedule.activeDuration
    return if total.isFinite then total else 0

/-- Offsets of the entries after a cursor, the time at which an entry that waits may start. -/
def offsetsFrom (animations : List (Value A × Animation A)) (cursor : Number A) :
    List (ChainEntry A) → Except Fault (List (Value A × Number A))
  | [] => .ok []
  | entry :: rest => do
    let duration ← duration animations entry.animation
    let delay ← entry.delaySeconds
    let start := if entry.followsEnd then cursor + delay else delay
    let next := if entry.followsEnd then start + duration else cursor.larger start
    return (entry.animation, start) :: (← offsetsFrom animations next rest)

/-- The offset of every animation that occurs in a chain; of several the last one counts. -/
def delays (chains : List (Chain A)) (animations : List (Animation A)) :
    Except Fault (List (Value A × Number A)) := do
  let entries ← animations.mapM fun a => do return ((← a.id.key), a)
  let table := Keyed.ofList entries
  let offsets ← chains.mapM fun chain => offsetsFrom table 0 chain.entries
  return Keyed.ofList offsets.flatten

end Chain

def secondsText (x : Number A) : String :=
  let text := (x.fixed 6).toList
  let text := Text.trimEndWhile (· == '.') (Text.trimEndWhile (· == '0') text)
  String.ofList (text ++ ['s'])

namespace Animation

def delayIn (animation : Animation A) (delays : List (Value A × Number A)) :
    Except Fault (Number A) := do
  return (Keyed.get? (← animation.id.key) delays).getD 0

def shifted (animation : Animation A) (delay : Number A) : Except Fault (Animation A) := do
  if delay.isZero then return animation
  let begin ← animation.schedule.beginSeconds
  return { animation with
    schedule := { animation.schedule with begin := .text (secondsText (begin + delay)) } }

def withDelays (animations : List (Animation A)) (delays : List (Value A × Number A)) :
    Except Fault (List (Animation A)) :=
  animations.mapM fun a => do a.shifted (← a.delayIn delays)

def withChains (animations : List (Animation A)) (chains : List (Chain A)) :
    Except Fault (List (Animation A)) :=
  if chains.isEmpty then .ok animations
  else do withDelays animations (← Chain.delays chains animations)

end Animation

namespace ChainEntry

def toWire (entry : ChainEntry A) : Except Fault (Value A) := do
  let delay ← entry.delay.toNumber
  let last := if entry.dependsOn.isPresent then [("dependsOn", entry.dependsOn)] else []
  return .object ([("animationId", entry.animation), ("delay", .number delay),
    ("trigger", entry.trigger)] ++ last)

def triggers : List String := ["start", "end", "repeat"]

def ofWire (item : Value A) : Except Fault (ChainEntry A) := do
  let trigger ← (← item.get "trigger" (.text "start")).written
  if !triggers.contains trigger then throw (.invalidTrigger (Text.quoted trigger))
  match item.member? "animationId" with
  | none => throw (.missingKey (Text.quoted "animationId"))
  | some id =>
    let animation ← id.written
    let delay ← (← item.get "delay" (.number 0)).toNumber
    return {
      animation := .text animation
      delay := .number (Number.larger 0 delay)
      trigger := .text trigger
      dependsOn := item.member "dependsOn" }

end ChainEntry

namespace Chain

def toWire (chain : Chain A) : Except Fault (Value A) := do
  return .object [("id", chain.id), ("name", chain.name),
    ("animations", .list (← chain.entries.mapM ChainEntry.toWire))]

def ofWire (label : String) (data : Value A) : Except Fault (Chain A) := do
  let items ← (← data.get "animations" (.list [])).orElse (.list []) |>.items
  let entries ← items.mapM ChainEntry.ofWire
  let id := data.member "id"
  id.spelling ⟨id.textOr label, entries, data.member "name"⟩

def listOfWire (label : Nat → String) (items : List (Value A)) : Except Fault (List (Chain A)) :=
  items.zipIdx.mapM fun (item, i) => ofWire (label i) item

end Chain
end DeclarativeAnimation
