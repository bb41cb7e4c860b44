import Stagecraft.Module.Basic
import Stagecraft.Value.Basic

namespace Stagecraft

inductive Operand where
  | text | enumerator | preset | argument
  deriving DecidableEq, Repr

def Operand.name : Operand → String
  | text => "string"
  | enumerator => "enum"
  | preset => "constant"
  | argument => "argument"

inductive MachineError where
  | noOperand (thread : String)
  | fewOperands (thread : String) (count present : Nat)
  | tooManyCalls (thread : String)
  | codeOverrun (thread : String) (routine : UInt16) (module : String)
  | badJump (next : Nat) (offset : Int16)
  | badOperand (operand : Operand) (id : UInt16)
  | value (error : ValueError)
  | trap (message : String)
  | module (error : ModuleError)
  | importNotLoaded (module imported : String)
  | moduleNotLoaded (module : String)
  | entryNotFound (entry module : String)
  | threadNotFound (thread : String)
  | invalidBudget
  | undeclaredBuiltin (name : String)
  | unknownBuiltin (id : UInt16)
  | argumentCount (builtin : String) (count : Nat)
  | argumentMissing (builtin : String)
  | argumentType (builtin expected : String) (found : Value)
  | loopPoint (start stop : Nat)
  | functionNotFound (function module : String)
  deriving Repr

namespace MachineError

def callLimit : Nat := 256

def code : MachineError → String
  | noOperand _ | fewOperands _ _ _ => "VM_STACK_UNDERFLOW"
  | tooManyCalls _ => "VM_STACK_OVERFLOW"
  | codeOverrun _ _ _ => "VM_CODE_OVERRUN"
  | badJump _ _ => "VM_BAD_JUMP"
  | badOperand _ _ => "VM_BAD_OPERAND"
  | value _ => "VM_TYPE_ERROR"
  | trap _ => "VM_TRAP"
  | module e => e.code
  | importNotLoaded _ _ | moduleNotLoaded _ => "VM_MODULE_NOT_LOADED"
  | entryNotFound _ _ => "VM_ENTRY_NOT_FOUND"
  | threadNotFound _ => "VM_THREAD_NOT_FOUND"
  | invalidBudget => "VM_INVALID_BUDGET"
  | undeclaredBuiltin _ => "VM_BUILTIN_UNDECLARED"
  | unknownBuiltin _ => "VM_UNKNOWN_BUILTIN"
  | argumentCount _ _ => "VM_ARGUMENT_COUNT"
  | argumentMissing _ => "VM_ARGUMENT_MISSING"
  | argumentType _ _ _ => "VM_ARGUMENT_TYPE"
  | loopPoint _ _ => "VM_ARGUMENT_RANGE"
  | functionNotFound _ _ => "VM_FUNCTION_NOT_FOUND"

def message : MachineError → String
  | noOperand thread => s!"Thread {thread} popped an empty operand stack."
  | fewOperands thread count present =>
    s!"Thread {thread} needs {count} operand(s), has {present}."
  | tooManyCalls thread => s!"Thread {thread} exceeded {callLimit} nested calls."
  | codeOverrun thread routine home =>
    s!"{thread} ran past the end of subroutine {routine.toNat} in {home}."
  | badJump next offset => s!"Jump from {next} by {offset.toInt} leaves the subroutine."
  | badOperand operand id =>
    s!"Instruction refers to {operand.name} {id.toNat} which does not exist."
  | value e => e.message
  | trap message => message
  | module e => e.message
  | importNotLoaded home imported => s!"{home} imports \"{imported}\", which is not loaded."
  | moduleNotLoaded name => s!"Module \"{name}\" is not loaded."
  | entryNotFound entry home => s!"\"{entry}\" is not defined in {home}."
  | threadNotFound thread => s!"Thread \"{thread}\" does not exist."
  | invalidBudget => "Step budget must be at least one instruction."
  | undeclaredBuiltin name => s!"Built-in \"{name}\" has no declaration."
  | unknownBuiltin id => s!"Built-in id {id.toNat} is not registered."
  | argumentCount builtin count => s!"{builtin} does not take {count} argument(s)."
  | argumentMissing builtin => s!"{builtin} received too few arguments."
  | argumentType builtin expected found =>
    s!"{builtin} expected {expected} but got {found.typeName} ({found.display})."
  | loopPoint start stop => s!"SetLoopPoint: end {stop} precedes start {start}."
  | functionNotFound function home =>
    s!"CreateProcess: \"{function}\" is not defined in {home}."

end MachineError

end Stagecraft
