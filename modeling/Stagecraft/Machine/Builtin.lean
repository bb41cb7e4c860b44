import Stagecraft.Machine.Arguments
import Stagecraft.Machine.Format
import Stagecraft.Machine.Random
import Stagecraft.Signature

/-!
A call is understood first: its arguments are taken and give a `Request`, or the call fails. A
request is then carried out and cannot fail, so a call that fails has no effect.
-/

namespace Stagecraft

inductive Builtin where
  | wait | waitKey | createProcess | request | delete | createColor | createTexture | createText
  | createSound | setVolume | setLoop | setLoopPoint | fade | move | zoom | drawTransition
  | setAlias | remainTime | passageTime | imageHorizon | imageVertical | random | string | time
  | mouseClicked
  deriving DecidableEq, Repr

inductive Wait where
  | time (deadline : Nat)
  | input (deadline : Option Nat)
  | token (id : Nat)
  deriving DecidableEq, Repr

structure Spawn where
  name : String
  module : Module
  routine : UInt16

inductive Question where
  | remaining | passage | width | height
  deriving DecidableEq, Repr

inductive Request where
  | reply (value : Value)
  | pause (duration : Nat)
  | awaitInput (timeout : Option Nat)
  | spawn (thread : Spawn)
  | perform (cue : Cue)
  | performAll (pattern : String) (cue : String → Cue) (duration : Option Nat)
  | load (asset : Asset)
  | random (bound : UInt32)
  | time
  | clicked
  | ask (question : Question) (pattern : String)

namespace Builtin

def all : Array Builtin := #[
  wait, waitKey, createProcess, request, delete, createColor, createTexture, createText,
  createSound, setVolume, setLoop, setLoopPoint, fade, move, zoom, drawTransition,
  setAlias, remainTime, passageTime, imageHorizon, imageVertical, random, string, time,
  mouseClicked]

def bound (x : Float) : UInt32 :=
  if Number.isFinite x && 1.0 ≤ x then UInt32.ofNat (Number.truncateWithin 0 4294967295 x).toNat
  else 0

def pauseIf (wait : Bool) (duration : Nat) : Option Nat :=
  if wait then some duration else none

def understand (module : Module) : Builtin → Take Request
  | wait => do pure (.pause (← Take.millis))
  | waitKey => do
    match ← Take.value with
    | .null => pure (.awaitInput none)
    | .number x | .delta x => pure (.awaitInput (some (Take.wholeMillis x)))
    | v => Take.reject "a number or null" v
  | createProcess => do
    let function ← Take.text
    let name ← Take.text
    match module.find? function with
    | some routine => pure (.spawn { name, module, routine })
    | none => throw (.functionNotFound function module.name)
  | request => do
    let action ← Take.action
    let name ← Take.text
    pure (.performAll name (.request · action) none)
  | delete => do
    let name ← Take.text
    pure (.performAll name .delete none)
  | createColor => do
    let rgba ← Take.color
    let height ← Take.number
    let width ← Take.number
    let y ← Take.coordinate
    let x ← Take.coordinate
    let priority ← Take.priority
    let name ← Take.text
    pure (.perform (.color name priority x y width height rgba))
  | createTexture => do
    let source ← Take.text
    let y ← Take.coordinate
    let x ← Take.coordinate
    let priority ← Take.priority
    let name ← Take.text
    pure (.load (.texture name priority x y source))
  | createText => do
    let content ← Take.asText
    let height ← Take.extent
    let width ← Take.extent
    let y ← Take.coordinate
    let x ← Take.coordinate
    let priority ← Take.priority
    let name ← Take.text
    pure (.perform (.text name priority x y width height content))
  | createSound => do
    let file ← Take.text
    let kind ← Take.soundKind
    let name ← Take.text
    pure (.load (.sound name kind file))
  | setVolume => do
    let volume ← Take.number
    let duration ← Take.millis
    let name ← Take.text
    pure (.performAll name (.volume · duration volume) none)
  | setLoop => do
    let on ← Take.asFlag
    let name ← Take.text
    pure (.performAll name (.looping · on) none)
  | setLoopPoint => do
    let stop ← Take.millis
    let start ← Take.millis
    let name ← Take.text
    if stop != 0 && stop < start then throw (.loopPoint start stop)
    else pure (.performAll name (.loopPoint · start stop) none)
  | fade => do
    let wait ← Take.flagOr false
    let easing ← Take.easing
    let opacity ← Take.number
    let duration ← Take.millis
    let name ← Take.text
    pure (.performAll name (.fade · duration opacity easing) (pauseIf wait duration))
  | move => do
    let wait ← Take.flagOr false
    let easing ← Take.easing
    let y ← Take.coordinate
    let x ← Take.coordinate
    let duration ← Take.millis
    let name ← Take.text
    pure (.performAll name (.move · duration x y easing) (pauseIf wait duration))
  | zoom => do
    let wait ← Take.flagOr false
    let easing ← Take.easing
    let y ← Take.number
    let x ← Take.number
    let duration ← Take.millis
    let name ← Take.text
    pure (.performAll name (.zoom · duration x y easing) (pauseIf wait duration))
  | drawTransition => do
    let wait ← Take.flagOr true
    let mask ← Take.text?
    let easing ← Take.easing
    let feather ← Take.number
    let stop ← Take.number
    let start ← Take.number
    let duration ← Take.millis
    let name ← Take.text
    let look : Transition := { duration, start, stop, feather, easing, mask }
    pure (.performAll name (.transition · look) (pauseIf wait duration))
  | setAlias => do
    let nickname ← Take.text
    let name ← Take.text
    pure (.perform (.nickname name nickname))
  | remainTime => do pure (.ask .remaining (← Take.text))
  | passageTime => do pure (.ask .passage (← Take.text))
  | imageHorizon => do pure (.ask .width (← Take.text))
  | imageVertical => do pure (.ask .height (← Take.text))
  | random => do pure (.random (bound (← Take.asNumber)))
  | string => do
    match ← Take.all with
    | [] => pure (.reply (.text (Format.fill "" [])))
    | format :: values => pure (.reply (.text (Format.fill format.toText values)))
  | time => pure .time
  | mouseClicked => pure .clicked

end Builtin

structure Registry where
  entries : Array (Option Builtin)

namespace Registry

def empty : Registry :=
  { entries := Array.replicate Signature.all.size none }

def standard : Registry :=
  { entries := Builtin.all.map some }

def register (r : Registry) (name : String) (b : Builtin) :
    Except MachineError (UInt16 × Registry) :=
  match Signature.idOf? name with
  | none => .error (.undeclaredBuiltin name)
  | some id => .ok (id, { entries := r.entries.setIfInBounds id.toNat (some b) })

def count (r : Registry) : Nat :=
  (r.entries.filter Option.isSome).size

/-- What a call with the given arguments asks for. Arguments that are left out are null. -/
def understand (r : Registry) (module : Module) (id : UInt16) (values : List Value) :
    Except MachineError Request :=
  match (r.entries[id.toNat]?).join, Signature.ofId id with
  | some builtin, some signature =>
    if !signature.accepts values.length then
      .error (.argumentCount signature.name values.length)
    else
      let missing := if signature.isVariadic then 0 else signature.parameters.length - values.length
      let rest := (values ++ List.replicate missing Value.null).reverse
      ((builtin.understand module).run { builtin := signature.name, rest }).1
  | _, _ => .error (.unknownBuiltin id)

end Registry

structure World (σ : Type) where
  stage : σ
  random : Random
  spawns : Array Spawn := #[]

def Question.answer [Stage σ] (s : σ) (entity? : Option String) (q : Question) : Nat :=
  match entity? with
  | none => 0
  | some entity =>
    match q with
    | remaining => (Stage.remaining? s entity).getD 0
    | passage => (Stage.passage? s entity).getD 0
    | width => ((Stage.size? s entity).map (·.1)).getD 0
    | height => ((Stage.size? s entity).map (·.2)).getD 0

def Value.ofNat (n : Nat) : Value :=
  .number (UInt64.ofNat n).toFloat

namespace Request

def after (now duration : Nat) : Nat :=
  min (now + duration) Take.timeLimit

def run [Stage σ] (now : Nat) (w : World σ) : Request → Value × Option Wait × World σ
  | reply value => (value, none, w)
  | pause duration => (.null, some (.time (after now duration)), w)
  | awaitInput timeout => (.null, some (.input (timeout.map (after now))), w)
  | spawn thread => (.null, none, { w with spawns := w.spawns.push thread })
  | perform cue => (.null, none, { w with stage := Stage.perform cue w.stage })
  | performAll pattern cue duration =>
    let entities := Stage.entities w.stage pattern
    (.null, duration.map fun d => .time (after now d),
      { w with stage := entities.foldl (fun s entity => Stage.perform (cue entity) s) w.stage })
  | load asset =>
    let (token, stage) := Stage.load asset w.stage
    (.null, token.map .token, { w with stage })
  | random bound =>
    let (n, generator) := w.random.below bound
    (.ofNat n.toNat, none, { w with random := generator })
  | time => (.ofNat now, none, w)
  | clicked => (.flag (Stage.input w.stage).clicked, none, w)
  | ask question pattern =>
    (.ofNat (question.answer w.stage (Stage.entities w.stage pattern).head?), none, w)

end Request

end Stagecraft
