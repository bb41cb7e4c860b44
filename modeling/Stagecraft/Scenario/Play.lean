import Stagecraft.Project.Folder
import Stagecraft.Scenario.Problem
import Stagecraft.Stage.Recording

/-!
In every tick each offer of choices takes one action that chooses, in the order of the offers; then,
if threads wait for the player, one action that advances. The play is over when no thread is left,
and then all actions have to be used.
-/

namespace Stagecraft.Scenario

structure Report where
  events : Array Event
  actionsUsed : Nat
  ticks : Nat
  globals : Std.TreeMap String Value

structure Play where
  machine : Machine
  stage : RecordingStage := {}
  actions : List Action

def takeChoice (index : Nat) : List Action → Except Problem (String × List Action)
  | [] => .error (.missingAction index "choose")
  | .choose label :: rest => .ok (label, rest)
  | action :: _ => .error (.wrongAction index "choose" action.kind)

def takeAdvance (index : Nat) : List Action → Except Problem (List Action)
  | [] => .error (.missingAction index "advance")
  | .advance :: rest => .ok rest
  | action :: _ => .error (.wrongAction index "advance" action.kind)

namespace Play

def record (e : Event) (p : Play) : Play :=
  { p with stage := p.stage.record e }

def lastIndex (p : Play) : Nat :=
  p.stage.events.size - 1

def advanceMachine (p : Play) : Except Problem Play :=
  match p.machine.tick p.stage with
  | (.error e, _) => .error (.engine (.machine e))
  | (.ok _, machine, stage) =>
    let (errors, machine) := machine.takeErrors
    let stage := { stage with input := { stage.input with advance := false } }
    let p := { p with machine, stage }
    .ok (errors.foldl (fun p e => p.record (.error e.thread e.error.code)) p)

def answerOffer (p : Play) (offer : Offer) : Except Problem Play := do
  let choices := offer.choices.toList
  let p := p.record (.select offer.thread choices)
  let (label, actions) ← takeChoice p.lastIndex p.actions
  if choices.contains label then
    .ok { p with stage := p.stage.choose offer.thread label, actions }
  else .error (.unknownChoice p.lastIndex label choices)

def answerOffers (p : Play) : Except Problem Play :=
  let (offers, stage) := p.stage.takeOffers
  offers.foldlM answerOffer { p with stage }

def isWaiting (t : Thread) : Bool :=
  match t.status with
  | .waiting (.input _) => true
  | _ => false

def answerWaits (p : Play) : Except Problem Play := do
  let waiting := p.machine.live.filter isWaiting
  if waiting.isEmpty then .ok p
  else
    let p := waiting.foldl (fun p t => p.record (.waitKey t.name)) p
    let actions ← takeAdvance p.lastIndex p.actions
    let input := { p.stage.input with advance := true }
    .ok { p with stage := { p.stage with input }, actions }

def tick (p : Play) : Except Problem Play := do
  answerWaits (← answerOffers (← p.advanceMachine))

def moveClock (length : Nat) (p : Play) : Play :=
  { p with stage := { p.stage with now := Clock.later p.stage.now length } }

def finish (s : Scenario) (ticks : Nat) (p : Play) : Except Problem Report :=
  let p := p.record .done
  let used := s.actions.length - p.actions.length
  if p.actions.isEmpty then
    .ok { events := p.stage.events, actionsUsed := used, ticks, globals := p.stage.globals }
  else .error (.unusedActions used s.actions.length)

def goOn (s : Scenario) : Nat → Play → Except Problem Report
  | 0, _ => .error (.tooLong s.maxTicks)
  | left + 1, p => do
    let p ← p.tick
    if p.machine.live.isEmpty then p.finish s (s.maxTicks - left)
    else goOn s left (p.moveClock s.tickLength)

end Play

def play (s : Scenario) (files : Files) : Except Problem Report := do
  let launched ← (Launch.launch { files, seed := some s.seed, module? := some s.module
                                  start? := s.start? }).mapError .engine
  Play.goOn s s.maxTicks { machine := launched.machine, actions := s.actions }

def checkEvents (index : Nat) : List Event → List Event → Except Problem Unit
  | expected :: rest, actual :: others =>
    if expected == actual then checkEvents (index + 1) rest others
    else .error (.differentEvent index expected actual)
  | _, _ => .ok ()

def checkGlobals (actual : Std.TreeMap String Value) :
    List (String × Value) → Except Problem Unit
  | [] => .ok ()
  | (name, expected) :: rest =>
    let found := actual[name]?.getD .null
    if expected == found then checkGlobals actual rest
    else .error (.differentGlobal name expected found)

def check (s : Scenario) (r : Report) : Except Problem Unit := do
  if s.events.length != r.events.size then .error (.eventCount s.events.length r.events.toList)
  checkEvents 0 s.events r.events.toList
  checkGlobals r.globals s.globals.toList

def ofText (path text : String) : Except Problem Scenario :=
  match (Json.read? text).bind ofJson? with
  | none => .error (.malformed path)
  | some s => if s.version == currentVersion then .ok s else .error (.wrongVersion s.version)

def read [Monad m] [FileSystem m] (path : String) : m (Except Problem Scenario) := do
  match ← Folder.readText path with
  | .error _ => return .error (.unreadable path)
  | .ok text => return ofText path text

def playFolder [Monad m] [FileSystem m] (s : Scenario) (folder : String) :
    m (Except Problem Report) := do
  match ← Folder.readScripts folder with
  | .error _ => return .error (.unreadable folder)
  | .ok files => return if files.isEmpty then .error (.noScripts folder) else s.play files

def checkFolder [Monad m] [FileSystem m] (folder path : String) : m (Except Problem Unit) := do
  match ← read path with
  | .error e => return .error e
  | .ok s => return (← s.playFolder folder).bind s.check

end Stagecraft.Scenario
