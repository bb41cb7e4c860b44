import Stagecraft.Proofs.Instruction
import Stagecraft.Proofs.Machine.Calls

/-!
Runs of a thread inside the code of one routine. A spot is a thread in a routine apart from what
running changes.
-/

namespace Stagecraft

open Bytes (Holds)

structure Spot where
  thread : Thread
  frame : Frame
  callers : List Frame
  body : Body
  isBody : frame.module.body frame.routine = .ok body

structure Moment (σ : Type) where
  position : Nat
  arguments : Array Value
  stack : Array Value
  world : World σ

namespace Spot

variable {σ : Type} {s : Setting} {k : Spot} {w : World σ} {position : Nat}
  {arguments stack : Array Value}

def at_ (k : Spot) (a : Moment σ) : Thread :=
  { k.thread with
    frames := { k.frame with position := a.position, arguments := a.arguments } :: k.callers
    stack := a.stack }

@[simp] lemma base_at (a : Moment σ) : (k.at_ a).base = k.frame.base := rfl

@[simp] lemma push_at (v : Value) :
    (k.at_ ⟨position, arguments, stack, w⟩).push v =
      k.at_ ⟨position, arguments, stack.push v, w⟩ := rfl

lemma pop_at (v : Value) (hb : k.frame.base ≤ stack.size) :
    (k.at_ ⟨position, arguments, stack.push v, w⟩).pop =
      .ok (v, k.at_ ⟨position, arguments, stack, w⟩) := by
  simp [Thread.pop, at_, Thread.base, hb]

lemma jump_at {next size target : Nat} {offset : Int16} (ht : (next + offset.toInt : Int) = target)
    (hs : target ≤ size) :
    Thread.jump next offset size (k.at_ ⟨position, arguments, stack, w⟩) =
      .ok (k.at_ ⟨target, arguments, stack, w⟩) := by
  have h : ¬((target : Int) < 0 ∨ (size : Int) < target) := by omega
  simp only [Thread.jump, ht, if_neg h, Int.toNat_natCast]
  rfl

lemma at_injective {a b : Moment σ} (h : k.at_ a = k.at_ b) (hw : a.world = b.world) : a = b := by
  obtain ⟨position, arguments, stack, world⟩ := a
  obtain ⟨position', arguments', stack', world'⟩ := b
  simp only [at_, Thread.mk.injEq, List.cons.injEq, Frame.mk.injEq] at h
  obtain ⟨-, -, -, ⟨⟨-, -, rfl, rfl, -⟩, -⟩, rfl, -⟩ := h
  cases hw
  rfl

variable [Stage σ]

def Next (s : Setting) (k : Spot) (a b : Moment σ) : Prop :=
  (k.at_ a).step s a.world = (.ok (.next, k.at_ b), b.world)

def Fails (s : Setting) (k : Spot) (a : Moment σ) (e : MachineError) : Prop :=
  (k.at_ a).step s a.world = (.error e, a.world)

inductive Run (s : Setting) (k : Spot) (low high : Nat) : Nat → Moment σ → Moment σ → Prop
  | refl (a : Moment σ) : Run s k low high 0 a a
  | step {n : Nat} {a b c : Moment σ} (inside : low ≤ a.position ∧ a.position < high)
      (next : Next s k a b) (rest : Run s k low high n b c) : Run s k low high (n + 1) a c

namespace Run

variable {low high low' high' m n : Nat} {a b c : Moment σ}

lemma one (inside : low ≤ a.position ∧ a.position < high) (next : Next s k a b) :
    Run s k low high 1 a b :=
  .step inside next (.refl b)

lemma trans (h : Run s k low high m a b) (h' : Run s k low high n b c) :
    Run s k low high (m + n) a c := by
  induction h with
  | refl a => simpa using h'
  | step inside next _ ih =>
    rw [Nat.add_right_comm]
    exact .step inside next (ih h')

lemma mono (h : Run s k low high n a b) (hl : low' ≤ low) (hh : high ≤ high') :
    Run s k low' high' n a b := by
  induction h with
  | refl a => exact .refl a
  | step inside next _ ih => exact .step (by omega) next ih

end Run

lemma Next.unique {a b c : Moment σ} (h : Next s k a b) (h' : Next s k a c) : b = c := by
  rw [Next] at h
  rw [Next, h] at h'
  simp only [Prod.mk.injEq, Except.ok.injEq, true_and] at h'
  exact at_injective h'.1 h'.2

lemma Fails.unique {a : Moment σ} {e e' : MachineError} (h : Fails s k a e)
    (h' : Fails s k a e') : e = e' := by
  rw [Fails] at h
  rw [Fails, h] at h'
  simpa using h'

lemma Next.not_fails {a b : Moment σ} {e : MachineError} (h : Next s k a b) : ¬Fails s k a e := by
  intro h'
  rw [Next, h'] at h
  simp at h

def Stops (s : Setting) (k : Spot) (low high : Nat) (a : Moment σ) : Prop :=
  low ≤ a.position ∧ a.position < high → ∀ b, ¬Next s k a b

lemma Stops.of_outside {low high : Nat} {a : Moment σ} (h : high ≤ a.position) :
    Stops s k low high a :=
  fun inside => absurd inside.2 (Nat.not_lt.mpr h)

lemma Stops.of_fails {low high : Nat} {a : Moment σ} {e : MachineError} (h : Fails s k a e) :
    Stops s k low high a :=
  fun _ _ next => next.not_fails h

lemma Run.unique {low high m n : Nat} {a b c : Moment σ} (h : Run s k low high m a b)
    (h' : Run s k low high n a c) (hb : Stops s k low high b) (hc : Stops s k low high c) :
    b = c := by
  induction h generalizing n with
  | refl a =>
    cases h' with
    | refl => rfl
    | step inside next rest => exact absurd next (hb inside _)
  | step inside next rest ih =>
    cases h' with
    | refl => exact absurd next (hc inside _)
    | step _ next' rest' =>
      cases next.unique next'
      exact ih rest' hb

lemma Run.le_of_stops {low high m n : Nat} {a b c : Moment σ} (h : Run s k low high m a b)
    (hb : Stops s k low high b) (h' : Run s k low high n a c) : n ≤ m := by
  induction h generalizing n with
  | refl a =>
    cases h' with
    | refl => exact Nat.le_refl 0
    | step inside next rest => exact absurd next (hb inside _)
  | step inside next rest ih =>
    cases h' with
    | refl => exact Nat.zero_le _
    | step _ next' rest' =>
      cases next.unique next'
      exact Nat.succ_le_succ (ih hb rest')

lemma Run.take {low high m n : Nat} {a b : Moment σ} (h : Run s k low high n a b) (hm : m ≤ n) :
    ∃ c, Run s k low high m a c := by
  induction h generalizing m with
  | refl a =>
    cases Nat.le_zero.mp hm
    exact ⟨a, .refl a⟩
  | step inside next rest ih =>
    cases m with
    | zero => exact ⟨_, .refl _⟩
    | succ m =>
      obtain ⟨c, hc⟩ := ih (Nat.le_of_succ_le_succ hm)
      exact ⟨c, .step inside next hc⟩

lemma Run.not_fails {low high m n : Nat} {a b c : Moment σ} {e : MachineError}
    (h : Run s k low high m a b) (hb : high ≤ b.position) (h' : Run s k low high n a c)
    (hc : low ≤ c.position ∧ c.position < high) : ¬Fails s k c e := by
  intro hfail
  cases h.unique h' (.of_outside hb) (.of_fails hfail)
  omega

lemma step_eq {i : Instruction} (h : Holds k.body.code position i.encode) :
    (k.at_ ⟨position, arguments, stack, w⟩).step s w =
      (k.at_ ⟨position + i.size, arguments, stack, w⟩).execute s k.frame.module k.frame.routine
        (position + i.size) k.body.code.size w i := by
  have hsize : position < k.body.code.size := by
    have := Instruction.le_size_of_holds h
    have := i.size_pos
    omega
  have hfetch : Thread.fetch k.thread.name
      { k.frame with position := position, arguments := arguments } =
        .ok (i, k.body.code.size) := by
    simp [Thread.fetch, k.isBody, Except.mapError, Nat.not_le.mpr hsize,
      Instruction.decode_of_holds h]
  simp [Thread.step, at_, hfetch]

section Instructions

variable {m : Module} {v : Value}

lemma next_load {i : Immediate} (h : Holds k.body.code position (Instruction.load i).encode)
    (hv : Thread.immediateValue k.frame.module i = .ok v) :
    k.Next s ⟨position, arguments, stack, w⟩
      ⟨position + (Instruction.load i).size, arguments, stack.push v, w⟩ := by
  simp [Next, step_eq h, Thread.execute, Thread.quietly, hv, Except.map]

lemma next_loadArgument {index : UInt16}
    (h : Holds k.body.code position (Instruction.loadArgument index).encode)
    (hv : arguments[index.toNat]? = some v) :
    k.Next s ⟨position, arguments, stack, w⟩ ⟨position + 3, arguments, stack.push v, w⟩ := by
  have ha : (k.at_ ⟨position + 3, arguments, stack, w⟩).argument index = .ok v := by
    simp [Thread.argument, at_, hv]
  rw [Next, step_eq h]
  simp [Thread.execute, Thread.quietly, Instruction.size, ha, Except.map]

lemma fails_loadArgument {index : UInt16}
    (h : Holds k.body.code position (Instruction.loadArgument index).encode)
    (hv : arguments[index.toNat]? = none) :
    k.Fails s ⟨position, arguments, stack, w⟩ (.badOperand .argument index) := by
  have ha : (k.at_ ⟨position + 3, arguments, stack, w⟩).argument index =
      .error (.badOperand .argument index) := by
    simp [Thread.argument, at_, hv]
  rw [Fails, step_eq h]
  simp [Thread.execute, Thread.quietly, Instruction.size, ha, Except.map, bind, Except.bind]

lemma next_storeArgument {index : UInt16}
    (h : Holds k.body.code position (Instruction.storeArgument index).encode)
    (hb : k.frame.base ≤ stack.size) (hi : index.toNat < arguments.size) :
    k.Next s ⟨position, arguments, stack.push v, w⟩
      ⟨position + 3, arguments.setIfInBounds index.toNat v, stack, w⟩ := by
  have ha : (k.at_ ⟨position + 3, arguments, stack, w⟩).setArgument index v =
      .ok (k.at_ ⟨position + 3, arguments.setIfInBounds index.toNat v, stack, w⟩) := by
    simp [Thread.setArgument, at_, hi]
  rw [Next, step_eq h]
  simp [Thread.execute, Thread.quietly, Instruction.size, pop_at v hb, ha, Except.map]

lemma fails_storeArgument {index : UInt16}
    (h : Holds k.body.code position (Instruction.storeArgument index).encode)
    (hb : k.frame.base ≤ stack.size) (hi : arguments.size ≤ index.toNat) :
    k.Fails s ⟨position, arguments, stack.push v, w⟩ (.badOperand .argument index) := by
  have ha : (k.at_ ⟨position + 3, arguments, stack, w⟩).setArgument index v =
      .error (.badOperand .argument index) := by
    simp [Thread.setArgument, at_, Nat.not_lt.mpr hi]
  rw [Fails, step_eq h]
  simp [Thread.execute, Thread.quietly, Instruction.size, pop_at v hb, ha, Except.map]

lemma next_loadGlobal {token : UInt16} {name : String}
    (h : Holds k.body.code position (Instruction.loadGlobal token).encode)
    (ht : k.frame.module.text token = .ok name) :
    k.Next s ⟨position, arguments, stack, w⟩
      ⟨position + 3, arguments, stack.push ((Stage.global? w.stage name).getD .null), w⟩ := by
  rw [Next, step_eq h]
  simp [Thread.execute, Thread.quietly, Instruction.size, Thread.textOf, ht, Except.map]

lemma next_storeGlobal {token : UInt16} {name : String}
    (h : Holds k.body.code position (Instruction.storeGlobal token).encode)
    (hb : k.frame.base ≤ stack.size) (ht : k.frame.module.text token = .ok name) :
    k.Next s ⟨position, arguments, stack.push v, w⟩
      ⟨position + 3, arguments, stack,
        { w with stage := Stage.perform (.setGlobal name v) w.stage }⟩ := by
  rw [Next, step_eq h]
  simp [Thread.execute, Thread.tell, Instruction.size, Thread.textOf, ht, pop_at v hb]
  rfl

lemma next_unary {op : UnaryOperator} {a : Value}
    (h : Holds k.body.code position (Instruction.unary op).encode) (hb : k.frame.base ≤ stack.size)
    (hv : op.apply a = .ok v) :
    k.Next s ⟨position, arguments, stack.push a, w⟩ ⟨position + 2, arguments, stack.push v, w⟩ := by
  rw [Next, step_eq h]
  simp [Thread.execute, Thread.quietly, Instruction.size, pop_at a hb, hv, Except.map,
    Except.mapError]

lemma fails_unary {op : UnaryOperator} {a : Value} {e : ValueError}
    (h : Holds k.body.code position (Instruction.unary op).encode) (hb : k.frame.base ≤ stack.size)
    (hv : op.apply a = .error e) :
    k.Fails s ⟨position, arguments, stack.push a, w⟩ (.value e) := by
  rw [Fails, step_eq h]
  simp [Thread.execute, Thread.quietly, Instruction.size, pop_at a hb, hv, Except.map,
    Except.mapError, bind, Except.bind]

lemma next_binary {op : BinaryOperator} {a b : Value}
    (h : Holds k.body.code position (Instruction.binary op).encode)
    (hb : k.frame.base ≤ stack.size) (hv : op.apply a b = .ok v) :
    k.Next s ⟨position, arguments, (stack.push a).push b, w⟩
      ⟨position + 2, arguments, stack.push v, w⟩ := by
  have hb' : k.frame.base ≤ (stack.push a).size := by
    rw [Array.size_push]
    omega
  rw [Next, step_eq h]
  simp [Thread.execute, Thread.quietly, Instruction.size, pop_at b hb', pop_at a hb, hv, Except.map,
    Except.mapError]

lemma fails_binary {op : BinaryOperator} {a b : Value} {e : ValueError}
    (h : Holds k.body.code position (Instruction.binary op).encode)
    (hb : k.frame.base ≤ stack.size) (hv : op.apply a b = .error e) :
    k.Fails s ⟨position, arguments, (stack.push a).push b, w⟩ (.value e) := by
  have hb' : k.frame.base ≤ (stack.push a).size := by
    rw [Array.size_push]
    omega
  rw [Fails, step_eq h]
  simp [Thread.execute, Thread.quietly, Instruction.size, pop_at b hb', pop_at a hb, hv, Except.map,
    Except.mapError, bind, Except.bind]

lemma next_pop (h : Holds k.body.code position Instruction.pop.encode)
    (hb : k.frame.base ≤ stack.size) :
    k.Next s ⟨position, arguments, stack.push v, w⟩ ⟨position + 1, arguments, stack, w⟩ := by
  rw [Next, step_eq h]
  simp [Thread.execute, Thread.quietly, Instruction.size, pop_at v hb, Except.map]

lemma next_dup (h : Holds k.body.code position Instruction.dup.encode)
    (hb : k.frame.base ≤ stack.size) :
    k.Next s ⟨position, arguments, stack.push v, w⟩
      ⟨position + 1, arguments, (stack.push v).push v, w⟩ := by
  rw [Next, step_eq h]
  simp [Thread.execute, Thread.quietly, Instruction.size, pop_at v hb, Except.map]

lemma next_jump {offset : Int16} {target : Nat}
    (h : Holds k.body.code position (Instruction.jump offset).encode)
    (ht : (position + 3 + offset.toInt : Int) = target) (hs : target ≤ k.body.code.size) :
    k.Next s ⟨position, arguments, stack, w⟩ ⟨target, arguments, stack, w⟩ := by
  rw [Next, step_eq h]
  simp only [Thread.execute, Thread.quietly, Instruction.size]
  rw [jump_at (by exact_mod_cast ht) hs]
  rfl

def branch (wanted : Bool) : Int16 → Instruction :=
  if wanted then .jumpIfTrue else .jumpIfFalse

lemma step_branch {wanted : Bool} {offset : Int16}
    (h : Holds k.body.code position (branch wanted offset).encode) :
    (k.at_ ⟨position, arguments, stack, w⟩).step s w =
      Thread.quietly w ((k.at_ ⟨position + 3, arguments, stack, w⟩).jumpIf wanted (position + 3)
        offset k.body.code.size) := by
  rw [step_eq h]
  cases wanted <;> rfl

lemma next_branch {wanted truth : Bool} {offset : Int16} {target : Nat}
    (h : Holds k.body.code position (branch wanted offset).encode)
    (hb : k.frame.base ≤ stack.size) (hv : v.toBool = .ok truth)
    (ht : (position + 3 + offset.toInt : Int) = target) (hs : target ≤ k.body.code.size) :
    k.Next s ⟨position, arguments, stack.push v, w⟩
      ⟨if truth = wanted then target else position + 3, arguments, stack, w⟩ := by
  rw [Next, step_branch h, Thread.jumpIf, pop_at v hb]
  simp only [Except.ok_bind, hv, Except.mapError, beq_iff_eq]
  split
  · rw [jump_at (by exact_mod_cast ht) hs]
    rfl
  · rfl

lemma fails_branch {wanted : Bool} {offset : Int16} {e : ValueError}
    (h : Holds k.body.code position (branch wanted offset).encode)
    (hb : k.frame.base ≤ stack.size) (hv : v.toBool = .error e) :
    k.Fails s ⟨position, arguments, stack.push v, w⟩ (.value e) := by
  rw [Fails, step_branch h, Thread.jumpIf, pop_at v hb]
  simp only [Except.ok_bind, hv]
  rfl

lemma next_selectStart (h : Holds k.body.code position Instruction.selectStart.encode) :
    k.Next s ⟨position, arguments, stack, w⟩ ⟨position + 1, arguments, stack,
      { w with stage := Stage.perform (.beginSelect k.thread.name) w.stage }⟩ := by
  rw [Next, step_eq h]
  rfl

lemma next_isPressed {token : UInt16} {label : String} {pressed : Bool} {stage : σ}
    (h : Holds k.body.code position (Instruction.isPressed token).encode)
    (ht : k.frame.module.text token = .ok label)
    (hpoll : Stage.poll k.thread.name label w.stage = (pressed, stage)) :
    k.Next s ⟨position, arguments, stack, w⟩
      ⟨position + 3, arguments, stack.push (.flag pressed), { w with stage }⟩ := by
  have hname : (k.at_ ⟨position + 3, arguments, stack, w⟩).name = k.thread.name := rfl
  rw [Next, step_eq h]
  simp [Thread.execute, Instruction.size, Thread.textOf, ht, hname, hpoll]
  rfl

lemma step_selectEnd (h : Holds k.body.code position Instruction.selectEnd.encode) :
    (k.at_ ⟨position, arguments, stack, w⟩).step s w =
      (.ok (.yield, k.at_ ⟨position + 1, arguments, stack, w⟩), w) := by
  rw [step_eq h]
  rfl

section Return

variable {a b : Moment σ} (h : Holds k.body.code a.position Instruction.ret.encode)

include h

lemma step_ret :
    (k.at_ a).step s a.world =
      (.ok (k.at_ { a with position := a.position + 1 }).leave, a.world) :=
  step_eq h

lemma not_next_ret : ¬k.Next s a b := by
  intro hn
  rw [Next, step_ret h] at hn
  have hleave := Except.ok.inj (congrArg Prod.fst hn)
  cases hc : k.callers with
  | nil => simp [Thread.leave, at_, hc] at hleave
  | cons caller rest => simp [Thread.leave, at_, hc] at hleave

lemma not_fails_ret {e : MachineError} : ¬k.Fails s a e := by
  intro hf
  rw [Fails, step_ret h] at hf
  simp at hf

end Return

end Instructions

end Spot

end Stagecraft
