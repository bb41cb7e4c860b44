import Stagecraft.Machine.Builtin

namespace Stagecraft

/-- A routine that has been called and has not returned. `base` is how many values were on the stack
when it was called. -/
structure Frame where
  module : Module
  routine : UInt16
  position : Nat := 0
  arguments : Array Value
  base : Nat := 0

inductive Status where
  | running
  | waiting (reason : Wait)
  | held
  | terminated
  deriving DecidableEq, Repr

/-- A thread, with its innermost call first. `dialogue` is the dialogue block it entered last. -/
structure Thread where
  id : Nat
  name : String
  home : Module
  frames : List Frame
  stack : Array Value := #[]
  status : Status := .running
  dialogue : Option String := none

namespace Thread

def isLive (t : Thread) : Bool :=
  t.status != .terminated

def isSuspended (t : Thread) : Bool :=
  t.status != .running && t.status != .terminated

def terminate (t : Thread) : Thread :=
  { t with status := .terminated, frames := [], stack := #[] }

def start (id : Nat) (s : Spawn) (arguments : Array Value) : Thread :=
  { id, name := s.name, home := s.module,
    frames := [{ module := s.module, routine := s.routine, arguments }] }

def base (t : Thread) : Nat :=
  match t.frames with
  | frame :: _ => frame.base
  | [] => 0

def push (v : Value) (t : Thread) : Thread :=
  { t with stack := t.stack.push v }

def pop (t : Thread) : Except MachineError (Value × Thread) :=
  if t.stack.size ≤ t.base then .error (.noOperand t.name)
  else match t.stack.back? with
    | some v => .ok (v, { t with stack := t.stack.pop })
    | none => .error (.noOperand t.name)

def popMany (n : Nat) (t : Thread) : Except MachineError (List Value × Thread) :=
  let size := t.stack.size
  if size < t.base + n then .error (.fewOperands t.name n (size - t.base))
  else
    let values := (t.stack.extract (size - n) size).toList
    .ok (values, { t with stack := t.stack.take (size - n) })

def goTo (position : Nat) (t : Thread) : Thread :=
  match t.frames with
  | frame :: rest => { t with frames := { frame with position } :: rest }
  | [] => t

end Thread

end Stagecraft
