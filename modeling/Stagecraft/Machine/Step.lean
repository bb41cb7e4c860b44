import Stagecraft.Machine.Thread
import Std.Data.TreeMap

namespace Stagecraft

inductive Flow where
  | next | yield | finished
  deriving DecidableEq, Repr

structure Setting where
  modules : Std.TreeMap String Module
  registry : Registry
  now : Nat

abbrev Outcome (σ : Type) := Except MachineError (Flow × Thread) × World σ

namespace Thread

def textOf (m : Module) (token : UInt16) : Except MachineError String :=
  match m.text token with
  | .ok s => .ok s
  | .error _ => .error (.badOperand .text token)

def immediateValue (m : Module) : Immediate → Except MachineError Value
  | .null => .ok .null
  | .flag b => .ok (.flag b)
  | .integer n => .ok (.number (Number.ofInt n.toInt))
  | .float bits => .ok (.number (Float.ofBits bits))
  | .deltaInteger n => .ok (.delta (Number.ofInt n.toInt))
  | .deltaFloat bits => .ok (.delta (Float.ofBits bits))
  | .text token => (textOf m token).map .text
  | .enumerator id =>
    match Enumerator.ofId id with
    | some c => .ok (.enumerator c)
    | none => .error (.badOperand .enumerator id)
  | .preset id =>
    match Preset.ofId id with
    | some c => .ok (.preset c)
    | none => .error (.badOperand .preset id)

def jump (next : Nat) (offset : Int16) (size : Nat) (t : Thread) : Except MachineError Thread :=
  let target : Int := next + offset.toInt
  if target < 0 ∨ (size : Int) < target then .error (.badJump next offset)
  else .ok (t.goTo target.toNat)

def jumpIf (wanted : Bool) (next : Nat) (offset : Int16) (size : Nat) (t : Thread) :
    Except MachineError Thread := do
  let (v, t) ← t.pop
  let truth ← v.toBool.mapError .value
  if truth == wanted then t.jump next offset size else .ok t

def call (m : Module) (routine : UInt16) (t : Thread) : Except MachineError Thread := do
  if MachineError.callLimit ≤ t.frames.length then .error (.tooManyCalls t.name)
  else
    let parameters ← (m.parameters routine).mapError .module
    let (arguments, t) ← t.popMany parameters.length
    let frame : Frame :=
      { module := m, routine, arguments := arguments.toArray, base := t.stack.size }
    .ok { t with frames := frame :: t.frames }

def callFar (modules : Std.TreeMap String Module) (caller : Module) (importIndex routine : UInt16)
    (t : Thread) : Except MachineError Thread := do
  let name ← (caller.import? importIndex).mapError .module
  match modules[name]? with
  | none => .error (.importNotLoaded caller.name name)
  | some m => t.call m routine

/-- Leaves the innermost routine. Its last value, or null, is put on the stack for the caller; a
thread whose outermost routine is left ends. -/
def leave (t : Thread) : Flow × Thread :=
  let base := t.base
  let value := if base < t.stack.size then t.stack.back?.getD .null else .null
  match t.frames with
  | [] | [_] => (.finished, t.terminate)
  | _ :: rest => (.next, { t with frames := rest, stack := (t.stack.take base).push value })

def argument (index : UInt16) (t : Thread) : Except MachineError Value :=
  match t.frames with
  | frame :: _ =>
    match frame.arguments[index.toNat]? with
    | some v => .ok v
    | none => .error (.badOperand .argument index)
  | [] => .error (.badOperand .argument index)

def setArgument (index : UInt16) (v : Value) (t : Thread) : Except MachineError Thread :=
  match t.frames with
  | frame :: rest =>
    if index.toNat < frame.arguments.size then
      let arguments := frame.arguments.setIfInBounds index.toNat v
      .ok { t with frames := { frame with arguments } :: rest }
    else .error (.badOperand .argument index)
  | [] => .error (.badOperand .argument index)

def dispatch [Stage σ] (s : Setting) (caller : Module) (builtin : UInt16) (count : Nat) (t : Thread)
    (w : World σ) : Outcome σ :=
  match t.popMany count with
  | .error e => (.error e, w)
  | .ok (values, t) =>
    match s.registry.understand caller builtin values with
    | .error e => (.error e, w)
    | .ok request =>
      let (v, wait?, w) := request.run s.now w
      let t := t.push v
      match wait? with
      | some reason => (.ok (.yield, { t with status := .waiting reason }), w)
      | none => (.ok (.next, t), w)

def dialogueName (m : Module) (routine index : UInt16) : Except MachineError String := do
  let entry ← (m.entry routine).mapError .module
  .ok (entry.dialogues[index.toNat]?.getD entry.name)

def quietly (w : World σ) (r : Except MachineError Thread) : Outcome σ :=
  (r.map (.next, ·), w)

def tell [Stage σ] (w : World σ) (t : Thread) (cue : Cue) : Outcome σ :=
  (.ok (.next, t), { w with stage := Stage.perform cue w.stage })

def execute [Stage σ] (s : Setting) (m : Module) (routine : UInt16) (next size : Nat) (t : Thread)
    (w : World σ) : Instruction → Outcome σ
  | .load value => quietly w do .ok (t.push (← immediateValue m value))
  | .loadArgument index => quietly w do .ok (t.push (← t.argument index))
  | .storeArgument index => quietly w do
    let (v, t) ← t.pop
    t.setArgument index v
  | .loadGlobal token => quietly w do
    let name ← textOf m token
    .ok (t.push ((Stage.global? w.stage name).getD .null))
  | .storeGlobal token =>
    match textOf m token, t.pop with
    | .error e, _ => (.error e, w)
    | .ok _, .error e => (.error e, w)
    | .ok name, .ok (v, t) => tell w t (.setGlobal name v)
  | .binary op => quietly w do
    let (right, t) ← t.pop
    let (left, t) ← t.pop
    .ok (t.push (← (op.apply left right).mapError .value))
  | .unary op => quietly w do
    let (v, t) ← t.pop
    .ok (t.push (← (op.apply v).mapError .value))
  | .jump offset => quietly w (t.jump next offset size)
  | .jumpIfTrue offset => quietly w (t.jumpIf true next offset size)
  | .jumpIfFalse offset => quietly w (t.jumpIf false next offset size)
  | .call index => quietly w (t.call m index)
  | .callFar importIndex index => quietly w (t.callFar s.modules m importIndex index)
  | .dispatch builtin count => t.dispatch s m builtin count.toNat w
  | .present token =>
    match textOf m token with
    | .error e => (.error e, w)
    | .ok content => tell w t (.present t.name content)
  | .beginDialogue index =>
    match dialogueName m routine index with
    | .error e => (.error e, w)
    | .ok name => tell w { t with dialogue := some name } (.beginDialogue t.name name)
  | .selectStart => tell w t (.beginSelect t.name)
  | .isPressed token =>
    match textOf m token with
    | .error e => (.error e, w)
    | .ok label =>
      let (pressed, stage) := Stage.poll t.name label w.stage
      (.ok (.next, t.push (.flag pressed)), { w with stage })
  | .selectEnd => (.ok (.yield, t), w)
  | .pop => quietly w do .ok (← t.pop).2
  | .dup => quietly w do
    let (v, t) ← t.pop
    .ok ((t.push v).push v)
  | .trap token => quietly w do throw (.trap (← textOf m token))
  | .ret => (.ok t.leave, w)

def fetch (name : String) (frame : Frame) : Except MachineError (Instruction × Nat) := do
  let body ← (frame.module.body frame.routine).mapError .module
  if body.code.size ≤ frame.position then
    .error (.codeOverrun name frame.routine frame.module.name)
  else
    let i ← (Instruction.decode body.code frame.position).mapError fun e => .module (.instruction e)
    .ok (i, body.code.size)

def step [Stage σ] (s : Setting) (t : Thread) (w : World σ) : Outcome σ :=
  match t.frames with
  | [] => (.ok (.finished, t.terminate), w)
  | frame :: rest =>
    match fetch t.name frame with
    | .error e => (.error e, w)
    | .ok (i, size) =>
      let next := frame.position + i.size
      let m := frame.module
      let routine := frame.routine
      let t := { t with frames := { frame with position := next } :: rest }
      t.execute s m routine next size w i

end Thread

end Stagecraft
