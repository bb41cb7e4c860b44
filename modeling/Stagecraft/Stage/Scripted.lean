import Stagecraft.Stage.Basic
import Std.Data.TreeMap

namespace Stagecraft

inductive StageEvent where
  | cue (cue : Cue)
  | load (asset : Asset)
  | poll (thread label : String) (pressed : Bool)

structure ScriptedStage where
  now : Nat := 0
  input : Input := {}
  patterns : Std.TreeMap String (List String) := ∅
  remaining : Std.TreeMap String Nat := ∅
  passage : Std.TreeMap String Nat := ∅
  sizes : Std.TreeMap String (Nat × Nat) := ∅
  pending : Bool := false
  lastToken : Nat := 0
  pressed : List String := []
  globals : Std.TreeMap String Value := ∅
  log : Array StageEvent := #[]

namespace ScriptedStage

def record (e : StageEvent) (s : ScriptedStage) : ScriptedStage :=
  { s with log := s.log.push e }

def perform (cue : Cue) (s : ScriptedStage) : ScriptedStage :=
  match cue with
  | .setGlobal name value =>
    record (.cue cue) { s with globals := s.globals.insert name value }
  | _ => record (.cue cue) s

def load (asset : Asset) (s : ScriptedStage) : Option Nat × ScriptedStage :=
  let s := record (.load asset) s
  if s.pending then
    let token := s.lastToken + 1
    (some token, { s with lastToken := token })
  else (none, s)

def poll (thread label : String) (s : ScriptedStage) : Bool × ScriptedStage :=
  let pressed := s.pressed.contains label
  (pressed, record (.poll thread label pressed) s)

instance : Stage ScriptedStage where
  now s := s.now
  input s := s.input
  entities s name := s.patterns[name]?.getD [name]
  remaining? s entity := s.remaining[entity]?
  passage? s entity := s.passage[entity]?
  size? s entity := s.sizes[entity]?
  global? s name := s.globals[name]?
  perform := perform
  load := load
  poll := poll

def takeLog (s : ScriptedStage) : Array StageEvent × ScriptedStage :=
  (s.log, { s with log := #[] })

end ScriptedStage

end Stagecraft
