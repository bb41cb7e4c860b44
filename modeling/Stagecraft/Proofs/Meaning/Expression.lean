import Mathlib
import Stagecraft.Project.Bindings
import Stagecraft.Stage.Basic

/-!
An expression is evaluated from left to right on the arguments of its routine and the global
variables of the stage; calls have no meaning here.
-/

namespace Stagecraft

inductive Fault where
  | value (error : ValueError)
  | noArgument (index : UInt16)
  | noMeaning (name : String)
  deriving DecidableEq, Repr

/-- What expressions read and change: the arguments, and the stage together with what has been
written to its global variables since, in that order. -/
structure Memory (σ : Type) where
  arguments : Array Value
  start : σ
  writes : List (String × Value) := []

def Memory.stage [Stage σ] (m : Memory σ) : σ :=
  m.writes.foldl (fun stage write => Stage.perform (.setGlobal write.1 write.2) stage) m.start

abbrev Evaluation (σ : Type) := ExceptT Fault (StateM (Memory σ))

namespace Evaluation

def ofValue (r : Except ValueError α) : Evaluation σ α :=
  match r with
  | .ok a => pure a
  | .error e => throw (.value e)

def argument (index : UInt16) : Evaluation σ Value := fun m =>
  match m.arguments[index.toNat]? with
  | some v => (.ok v, m)
  | none => (.error (.noArgument index), m)

def setArgument (index : UInt16) (v : Value) : Evaluation σ Unit := fun m =>
  if index.toNat < m.arguments.size then
    (.ok (), { m with arguments := m.arguments.setIfInBounds index.toNat v })
  else (.error (.noArgument index), m)

def global [Stage σ] (name : String) : Evaluation σ Value := fun m =>
  (.ok ((Stage.global? m.stage name).getD .null), m)

def setGlobal (name : String) (v : Value) : Evaluation σ Unit := fun m =>
  (.ok (), { m with writes := m.writes ++ [(name, v)] })

def read [Stage σ] (bindings : Bindings) (node : Node) (name : String) : Evaluation σ Value :=
  match bindings.references[node.id]? with
  | some (.parameter symbol) => argument symbol.index
  | some .global => global name
  | some (.constant v) => pure v
  | _ => throw (.noMeaning name)

def write (bindings : Bindings) (target : Target) (v : Value) : Evaluation σ Unit :=
  match bindings.references[target.node.id]? with
  | some (.parameter symbol) => setArgument symbol.index v
  | some .global => setGlobal target.name v
  | _ => throw (.noMeaning target.name)

end Evaluation

def Literal.value : Literal → Value
  | null => .null
  | flag b => .flag b
  | number x => .number x
  | delta x => .delta x
  | text s => .text s

def unsignedZero (x : Float) : Float :=
  if x = -0.0 then 0.0 else x

def Literal.unsigned : Literal → Value
  | number x => .number (unsignedZero x)
  | delta x => .delta (unsignedZero x)
  | literal => literal.value

def Literal.isNegativeZero : Literal → Bool
  | number x | delta x => decide (x = -0.0)
  | _ => false

lemma Literal.unsigned_eq_iff (l : Literal) : l.unsigned = l.value ↔ l.isNegativeZero = false := by
  have h : (0.0 : Float) ≠ -0.0 := by decide +kernel
  cases l with
  | number x | delta x =>
    simp only [unsigned, value, unsignedZero, isNegativeZero, decide_eq_false_iff_not,
      Value.number.injEq, Value.delta.injEq]
    split
    · next hx => simp [hx, h]
    · next hx => simp [hx]
  | _ => simp [unsigned, isNegativeZero]

namespace Expression

open Evaluation

/-- The value of an expression, where `reading` gives the values of literals. -/
def evaluate [Stage σ] (reading : Literal → Value) (bindings : Bindings) :
    Expression → Evaluation σ Value
  | literal _ l => pure (reading l)
  | name node text => read bindings node text
  | unary _ op operand => do
    let v ← operand.evaluate reading bindings
    ofValue (op.apply v)
  | binary _ .and left right => do
    let a ← left.evaluate reading bindings
    if ← ofValue a.toBool then
      let b ← right.evaluate reading bindings
      pure (.flag (← ofValue b.toBool))
    else pure (.flag false)
  | binary _ .or left right => do
    let a ← left.evaluate reading bindings
    if ← ofValue a.toBool then pure (.flag true)
    else
      let b ← right.evaluate reading bindings
      pure (.flag (← ofValue b.toBool))
  | binary _ op left right => do
    let a ← left.evaluate reading bindings
    let b ← right.evaluate reading bindings
    ofValue (op.apply a b)
  | assign _ target op value =>
    match op.binary? with
    | some arithmetic => do
      let old ← read bindings target.node target.name
      let operand ← value.evaluate reading bindings
      let new ← ofValue (arithmetic.apply old operand)
      write bindings target new
      pure new
    | none => do
      let new ← value.evaluate reading bindings
      write bindings target new
      pure new
  | step _ target op => do
    let old ← read bindings target.node target.name
    let new ← ofValue (op.binary.apply old (.number 1.0))
    write bindings target new
    pure new
  | call _ callee _ => throw (.noMeaning callee)

@[elab_as_elim] theorem shallow {P : Expression → Prop}
    (literal : ∀ node l, P (literal node l)) (name : ∀ node text, P (name node text))
    (unary : ∀ node op operand, P operand → P (unary node op operand))
    (binary : ∀ node op left right, P left → P right → P (binary node op left right))
    (assign : ∀ node target op value, P value → P (assign node target op value))
    (step : ∀ node target op, P (step node target op))
    (call : ∀ node callee arguments, P (call node callee arguments)) : ∀ e, P e
  | .literal node l => literal node l
  | .name node text => name node text
  | .unary node op operand =>
    unary node op operand (shallow literal name unary binary assign step call operand)
  | .binary node op left right =>
    binary node op left right (shallow literal name unary binary assign step call left)
      (shallow literal name unary binary assign step call right)
  | .assign node target op value =>
    assign node target op value (shallow literal name unary binary assign step call value)
  | .step node target op => step node target op
  | .call node callee arguments => call node callee arguments

def isCallFree : Expression → Bool
  | literal _ _ | name _ _ | step _ _ _ => true
  | unary _ _ operand => operand.isCallFree
  | binary _ _ left right => left.isCallFree && right.isCallFree
  | assign _ _ _ value => value.isCallFree
  | call _ _ _ => false

def noNegativeZero : Expression → Bool
  | literal _ l => !l.isNegativeZero
  | name _ _ | step _ _ _ | call _ _ _ => true
  | unary _ _ operand => operand.noNegativeZero
  | binary _ _ left right => left.noNegativeZero && right.noNegativeZero
  | assign _ _ _ value => value.noNegativeZero

lemma evaluate_unsigned [Stage σ] {e : Expression} (h : e.noNegativeZero) (bindings : Bindings) :
    (e.evaluate Literal.unsigned bindings : Evaluation σ Value) =
      e.evaluate Literal.value bindings := by
  induction e using shallow with
  | literal node l =>
    simp only [noNegativeZero, Bool.not_eq_true'] at h
    rw [evaluate, evaluate, (Literal.unsigned_eq_iff l).mpr h]
  | name node text => rfl
  | unary node op operand ih =>
    rw [evaluate, evaluate, ih h]
  | binary node op left right ihl ihr =>
    simp only [noNegativeZero, Bool.and_eq_true] at h
    cases op <;> simp only [evaluate, ihl h.1, ihr h.2]
  | assign node target op value ih =>
    simp only [evaluate, ih h]
  | step node target op => rfl
  | call node callee arguments => rfl

end Expression

end Stagecraft
