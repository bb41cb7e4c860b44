import Stagecraft.Json.Basic
import Stagecraft.Stage.Basic
import Std.Data.TreeMap
import Std.Data.TreeSet

namespace Stagecraft

structure HeadlessStage where
  now : Nat := 0
  lines : Array String := #[]
  globals : Std.TreeMap String Value := ∅
  selecting : Std.TreeSet String := ∅

namespace HeadlessStage

def write (line : String) (s : HeadlessStage) : HeadlessStage :=
  { s with lines := s.lines.push line }

def perform (cue : Cue) (s : HeadlessStage) : HeadlessStage :=
  match cue with
  | .beginDialogue thread name => s.write s!"DIALOGUE:{thread}:{name}"
  | .present _ content => s.write ("TEXT_JSON:" ++ Json.quote (Text.trim content))
  | .beginSelect thread =>
    { s with selecting := s.selecting.insert thread }.write s!"SELECT:{thread}"
  | .setGlobal name value => { s with globals := s.globals.insert name value }
  | _ => s

def poll (thread label : String) (s : HeadlessStage) : Bool × HeadlessStage :=
  if s.selecting.contains thread then
    (true, { s with selecting := s.selecting.erase thread }.write s!"CHOICE:{thread}:{label}")
  else (false, s)

instance : Stage HeadlessStage where
  now s := s.now
  input _ := { advance := true }
  entities _ name := [name]
  remaining? _ _ := none
  passage? _ _ := none
  size? _ _ := none
  global? s name := s.globals[name]?
  perform := perform
  load _ s := (none, s)
  poll := poll

end HeadlessStage

end Stagecraft
