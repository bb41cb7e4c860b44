import Stagecraft.Scenario.Event
import Stagecraft.Stage.Basic
import Stagecraft.Text.Wildcard
import Std.Data.TreeMap
import Std.Data.TreeSet

namespace Stagecraft

open Scenario (Event)

structure Offer where
  thread : String
  choices : Array String := #[]
  deriving DecidableEq, Repr, Inhabited

structure RecordingStage where
  now : Nat := 0
  input : Input := {}
  events : Array Event := #[]
  globals : Std.TreeMap String Value := ∅
  entities : Std.TreeSet String := ∅
  aliases : Std.TreeMap String String := ∅
  offers : List Offer := []
  chosen : Std.TreeMap String String := ∅

namespace RecordingStage

/-- The entities a name stands for: the one it is an alias of, those that have the form of a
pattern, or the entity of that name. -/
def resolve (s : RecordingStage) (name : String) : List String :=
  match s.aliases[name]? with
  | some entity => [entity]
  | none =>
    if name.contains '*' then s.entities.toList.filter (Text.Wildcard.hasForm name) else [name]

def record (e : Event) (s : RecordingStage) : RecordingStage :=
  { s with events := s.events.push e }

def line (words : List String) : String :=
  Text.join " " words

def note (words : List String) (s : RecordingStage) : RecordingStage :=
  s.record (.host (line words))

def register (name : String) (s : RecordingStage) : RecordingStage :=
  { s with entities := s.entities.insert name }

def unregister (name : String) (s : RecordingStage) : RecordingStage :=
  { s with
    entities := s.entities.erase name
    aliases := s.aliases.filter fun _ entity => entity != name }

def coordinateText : Coordinate → String
  | .absolute x => Number.display x
  | .relative x => "@" ++ Number.display x
  | .anchor c => c.name

def flagText (b : Bool) : String :=
  if b then "true" else "false"

def perform (cue : Cue) (s : RecordingStage) : RecordingStage :=
  match cue with
  | .color name _ _ _ _ _ rgba =>
    (s.register name).note ["color", name, Text.padZero 8 (Text.hex rgba.toNat)]
  | .text name _ _ _ _ _ content => (s.register name).note ["text", name, content]
  | .delete entity => (s.unregister entity).note ["delete", entity]
  | .request entity action => s.note ["request", entity, action.name]
  | .nickname entity nickname =>
    { s with aliases := s.aliases.insert nickname entity }.note ["alias", entity, nickname]
  | .fade entity duration opacity _ =>
    s.note ["fade", entity, toString duration, Number.display opacity]
  | .move entity duration x y _ =>
    s.note ["move", entity, toString duration, coordinateText x, coordinateText y]
  | .zoom entity duration x y _ =>
    s.note ["zoom", entity, toString duration, Number.display x, Number.display y]
  | .transition entity t => s.note ["transition", entity, toString t.duration]
  | .volume entity duration volume =>
    s.note ["volume", entity, toString duration, Number.display volume]
  | .looping entity on => s.note ["loop", entity, flagText on]
  | .loopPoint entity start stop => s.note ["loopPoint", entity, toString start, toString stop]
  | .beginDialogue thread name => s.record (.dialogue thread name)
  | .present thread content => s.record (.text thread (Text.trim content))
  | .beginSelect thread => { s with offers := { thread } :: s.offers }
  | .setGlobal name value => { s with globals := s.globals.insert name value }

def load (asset : Asset) (s : RecordingStage) : Option Nat × RecordingStage :=
  match asset with
  | .texture name _ x y source =>
    (none, (s.register name).note ["texture", name, coordinateText x, coordinateText y, source])
  | .sound name kind file => (none, (s.register name).note ["sound", name, kind.name, file])

def addChoice (thread label : String) : List Offer → List Offer
  | [] => []
  | offer :: rest =>
    if offer.thread == thread then
      (if offer.choices.contains label then offer
        else { offer with choices := offer.choices.push label }) :: rest
    else offer :: addChoice thread label rest

/-- A choice is found taken once after it was chosen; before that it is offered. -/
def poll (thread label : String) (s : RecordingStage) : Bool × RecordingStage :=
  if s.chosen[thread]? == some label then (true, { s with chosen := s.chosen.erase thread })
  else (false, { s with offers := addChoice thread label s.offers })

instance : Stage RecordingStage where
  now s := s.now
  input s := s.input
  entities := resolve
  remaining? _ _ := none
  passage? _ _ := none
  size? _ _ := none
  global? s name := s.globals[name]?
  perform := perform
  load := load
  poll := poll

def takeOffers (s : RecordingStage) : List Offer × RecordingStage :=
  (s.offers.reverse, { s with offers := [] })

def choose (thread label : String) (s : RecordingStage) : RecordingStage :=
  { s with chosen := s.chosen.insert thread label }

end RecordingStage

end Stagecraft
