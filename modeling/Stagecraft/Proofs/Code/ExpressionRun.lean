import Stagecraft.Proofs.Code.Emitted
import Stagecraft.Proofs.Machine.Run
import Stagecraft.Proofs.Meaning.Expression
import Stagecraft.Proofs.Module.Loaded
import Stagecraft.Proofs.Number.Integral
import Stagecraft.Stage.Headless

namespace Stagecraft

open Bytes (Holds)

def Fault.Causes : Fault → MachineError → Prop
  | value e, error => error = .value e
  | noArgument index, error => error = .badOperand .argument index
  | noMeaning _, _ => False

lemma Fault.Causes.unique {f f' : Fault} {e : MachineError} (h : f.Causes e) (h' : f'.Causes e) :
    f = f' := by
  cases f <;> cases f' <;> simp_all [Fault.Causes]

structure Place where
  position : Nat
  stack : Array Value

def Memory.at_ [Stage σ] (w : World σ) (m : Memory σ) (p : Place) : Moment σ :=
  ⟨p.position, m.arguments, p.stack, { w with stage := m.stage }⟩

def Moment.memory (a : Moment σ) : Memory σ :=
  { arguments := a.arguments, start := a.world.stage }

def Memory.Same [Stage σ] (r r' : Except Fault α × Memory σ) : Prop :=
  r.1 = r'.1 ∧ r.2.arguments = r'.2.arguments ∧ r.2.stage = r'.2.stage

lemma Memory.Same.of_at [Stage σ] {w : World σ} {m m' : Memory σ} {p p' : Place}
    (h : m.at_ w p = m'.at_ w p') : m.arguments = m'.arguments ∧ m.stage = m'.stage ∧ p = p' := by
  obtain ⟨position, stack⟩ := p
  obtain ⟨position', stack'⟩ := p'
  simp only [Memory.at_, Moment.mk.injEq, World.mk.injEq] at h
  obtain ⟨rfl, ha, rfl, hs, -⟩ := h
  exact ⟨ha, hs, rfl⟩

def Builder.TextsIn (b : Builder) (m : Module) : Prop :=
  ∀ token s, b.HasText token s → m.text token = .ok s

namespace Spot

variable {σ : Type} [Stage σ] {s : Setting} {k : Spot} {w : World σ} {low high : Nat}

def Follows (s : Setting) (k : Spot) (w : World σ) (low high : Nat)
    (r : Except Fault α × Memory σ) (start : Moment σ) (finish : α → Place) : Prop :=
  match r with
  | (.ok a, m) => ∃ n, k.Run s low high n start (m.at_ w (finish a))
  | (.error f, m) => ∃ n p e, k.Run s low high n start (m.at_ w p) ∧
      (low ≤ p.position ∧ p.position < high) ∧ f.Causes e ∧ k.Fails s (m.at_ w p) e

def Computes (s : Setting) (k : Spot) (w : World σ) (low high : Nat) (x : Evaluation σ α)
    (start : Place) (finish : α → Place) : Prop :=
  ∀ m, k.Follows s w low high (x m) (m.at_ w start) finish

namespace Computes

variable {x : Evaluation σ α} {f : α → Evaluation σ β} {start : Place}

lemma pure (a : α) (finish : α → Place) :
    Computes s k w low high (pure a) (finish a) finish :=
  fun _ => ⟨0, .refl _⟩

lemma bind {mid : α → Place} {finish : β → Place} (hx : Computes s k w low high x start mid)
    (hf : ∀ a, Computes s k w low high (f a) (mid a) finish) :
    Computes s k w low high (x >>= f) start finish := by
  intro m
  have hm := hx m
  rw [StateExcept.bind_apply]
  rcases hr : x m with ⟨r, m₁⟩
  rw [hr] at hm
  cases r with
  | error e => exact hm
  | ok a =>
    obtain ⟨n, hrun⟩ := hm
    have hfm := hf a m₁
    simp only
    rcases hr' : f a m₁ with ⟨r', m₂⟩
    rw [hr'] at hfm
    cases r' with
    | ok b =>
      obtain ⟨n', hrun'⟩ := hfm
      exact ⟨n + n', hrun.trans hrun'⟩
    | error e =>
      obtain ⟨n', p, e', hrun', hfail⟩ := hfm
      exact ⟨n + n', p, e', hrun.trans hrun', hfail⟩

lemma mono {finish : α → Place} {low' high' : Nat} (h : Computes s k w low high x start finish)
    (hl : low' ≤ low) (hh : high ≤ high') : Computes s k w low' high' x start finish := by
  intro m
  have hm := h m
  rcases hr : x m with ⟨r, m'⟩
  rw [hr] at hm
  cases r with
  | ok a =>
    obtain ⟨n, hrun⟩ := hm
    exact ⟨n, hrun.mono hl hh⟩
  | error f =>
    obtain ⟨n, p, e, hrun, inside, hfail⟩ := hm
    exact ⟨n, p, e, hrun.mono hl hh, by omega, hfail⟩

lemma next {mid : Place} {finish : α → Place}
    (inside : low ≤ start.position ∧ start.position < high)
    (hn : ∀ m : Memory σ, k.Next s (m.at_ w start) (m.at_ w mid))
    (h : Computes s k w low high x mid finish) : Computes s k w low high x start finish := by
  have hfirst : Computes s k w low high (Pure.pure () : Evaluation σ Unit) start fun _ => mid :=
    fun m => ⟨1, .one inside (hn m)⟩
  exact hfirst.bind fun _ => h

lemma ofValue {r : Except ValueError α} {finish : α → Place}
    (inside : low ≤ start.position ∧ start.position < high)
    (hok : ∀ a, r = .ok a → ∀ m : Memory σ, k.Next s (m.at_ w start) (m.at_ w (finish a)))
    (herror : ∀ e, r = .error e → ∀ m : Memory σ, k.Fails s (m.at_ w start) (.value e)) :
    Computes s k w low high (Evaluation.ofValue r) start finish := by
  intro m
  cases r with
  | ok a => exact ⟨1, .one inside (hok a rfl m)⟩
  | error e => exact ⟨0, start, .value e, .refl _, inside, rfl, herror e rfl m⟩

end Computes

section Instructions

variable {position : Nat} {stack : Array Value} {c : Emit.Context} {b : Builder}

lemma Computes.load {i : Immediate} {v : Value} {x : Evaluation σ α} {finish : α → Place}
    (h : Holds k.body.code position (Instruction.load i).encode)
    (hv : Thread.immediateValue k.frame.module i = .ok v)
    (inside : low ≤ position ∧ position < high)
    (hx : Computes s k w low high x ⟨position + (Instruction.load i).size, stack.push v⟩ finish) :
    Computes s k w low high x ⟨position, stack⟩ finish :=
  .next inside (fun _ => next_load h hv) hx

lemma computes_read {node : Node} {name : String} {i : Instruction} (hb : b.TextsIn k.frame.module)
    (hi : Emit.Loads c b node name i) (h : Holds k.body.code position i.encode)
    (hl : low ≤ position) (hh : position + i.size ≤ high) :
    Computes s k w low high (Evaluation.read c.bindings node name) ⟨position, stack⟩
      fun v => ⟨position + i.size, stack.push v⟩ := by
  have inside : low ≤ position ∧ position < high := ⟨hl, by have := i.size_pos; omega⟩
  unfold Emit.Loads at hi
  unfold Evaluation.read
  split at hi
  · next symbol hr =>
    subst hi
    rw [hr]
    intro m
    simp only [Evaluation.argument]
    cases ha : m.arguments[symbol.index.toNat]? with
    | some v => exact ⟨1, .one inside (next_loadArgument h ha)⟩
    | none => exact ⟨0, _, _, .refl _, inside, rfl, fails_loadArgument h ha⟩
  · next hr =>
    obtain ⟨token, ht, rfl⟩ := hi
    rw [hr]
    intro m
    exact ⟨1, .one inside (next_loadGlobal h (hb token name ht))⟩
  · next e hr =>
    subst hi
    rw [hr]
    intro m
    exact ⟨1, .one inside (next_load h (by simp [Thread.immediateValue, Enumerator.ofId_id]))⟩
  · next p hr =>
    subst hi
    rw [hr]
    intro m
    exact ⟨1, .one inside (next_load h (by simp [Thread.immediateValue, Preset.ofId_id]))⟩
  · cases hi

lemma computes_write {target : Target} {v : Value} {i : Instruction}
    (hb : b.TextsIn k.frame.module) (hi : Emit.Stores c b target i)
    (h : Holds k.body.code position i.encode) (hs : k.frame.base ≤ stack.size)
    (hl : low ≤ position) (hh : position + i.size ≤ high) :
    Computes s k w low high (Evaluation.write c.bindings target v) ⟨position, stack.push v⟩
      fun _ => ⟨position + i.size, stack⟩ := by
  have inside : low ≤ position ∧ position < high := ⟨hl, by have := i.size_pos; omega⟩
  unfold Emit.Stores at hi
  split at hi
  · next symbol hr =>
    subst hi
    rw [Evaluation.write, hr]
    intro m
    simp only [Evaluation.setArgument]
    by_cases ha : symbol.index.toNat < m.arguments.size
    · rw [if_pos ha]
      exact ⟨1, .one inside (next_storeArgument h hs ha)⟩
    · rw [if_neg ha]
      exact ⟨0, _, _, .refl _, inside, rfl, fails_storeArgument h hs (Nat.not_lt.mp ha)⟩
  · next hr =>
    obtain ⟨token, ht, rfl⟩ := hi
    rw [Evaluation.write, hr]
    intro m
    refine ⟨1, .one inside ?_⟩
    have hstage : ({ m with writes := m.writes ++ [(target.name, v)] } : Memory σ).stage =
        Stage.perform (.setGlobal target.name v) m.stage := by
      simp [Memory.stage]
    simp only [Memory.at_, hstage]
    exact next_storeGlobal h hs (hb token target.name ht)
  · cases hi

lemma immediateValue_of_constant {l : Literal} {i : Immediate} {m : Module} (hb : b.TextsIn m)
    (hi : Emit.Constant b l i) : Thread.immediateValue m i = .ok l.unsigned := by
  have hzero : Emit.integral? (-0.0) = some 0 := by decide +kernel
  have hfloat {x : Float} (hx : Emit.integral? x = none) : unsignedZero x = x := by
    rw [unsignedZero, if_neg]
    rintro rfl
    simp [hzero] at hx
  have hinteger {x : Float} {n : Int32} (hx : Emit.integral? x = some n) :
      Number.ofInt n.toInt = unsignedZero x := by
    unfold unsignedZero
    split
    · next hz =>
      rw [hz, hzero, Option.some.injEq] at hx
      rw [← hx]
      decide +kernel
    · next hz => exact Number.ofInt_integral hx hz
  cases l with
  | null | flag v =>
    cases hi
    rfl
  | number x | delta x =>
    cases hi
    cases hx : Emit.integral? x with
    | none => simp [Thread.immediateValue, Literal.unsigned, hfloat hx]
    | some n => simp [Thread.immediateValue, Literal.unsigned, hinteger hx]
  | text t =>
    obtain ⟨token, ht, rfl⟩ := hi
    simp [Thread.immediateValue, Thread.textOf, hb token t ht, Except.map, Literal.unsigned,
      Literal.value]

lemma computes_truth {v : Value} {wanted : Bool} {distance : Int} {target : Nat} {i : Instruction}
    (hi : Emit.Jumps (branch wanted) distance i) (h : Holds k.body.code position i.encode)
    (hs : k.frame.base ≤ stack.size) (ht : (position + 3 + distance : Int) = target)
    (hsize : target ≤ k.body.code.size) (inside : low ≤ position ∧ position < high) :
    Computes s k w low high (Evaluation.ofValue v.toBool) ⟨position, stack.push v⟩
      fun truth => ⟨if truth = wanted then target else position + 3, stack⟩ := by
  obtain ⟨hd, rfl⟩ := hi
  have hoffset : (Int16.ofInt distance).toInt = distance :=
    Int16.toInt_ofInt_of_le hd.1 (by omega)
  refine .ofValue inside (fun truth hv m => ?_) (fun e hv m => ?_)
  · exact next_branch h hs hv (by rw [hoffset, ht]) hsize
  · exact fails_branch h hs hv

lemma computes_unary {op : UnaryOperator} {v : Value}
    (h : Holds k.body.code position (Instruction.unary op).encode) (hs : k.frame.base ≤ stack.size)
    (inside : low ≤ position ∧ position < high) :
    Computes s k w low high (Evaluation.ofValue (op.apply v)) ⟨position, stack.push v⟩
      fun r => ⟨position + 2, stack.push r⟩ :=
  .ofValue inside (fun _ hr _ => next_unary h hs hr) fun _ hr _ => fails_unary h hs hr

lemma computes_binary {op : BinaryOperator} {a b : Value}
    (h : Holds k.body.code position (Instruction.binary op).encode)
    (hs : k.frame.base ≤ stack.size) (inside : low ≤ position ∧ position < high) :
    Computes s k w low high (Evaluation.ofValue (op.apply a b)) ⟨position, (stack.push a).push b⟩
      fun r => ⟨position + 2, stack.push r⟩ :=
  .ofValue inside (fun _ hr _ => next_binary h hs hr) fun _ hr _ => fails_binary h hs hr

lemma computes_keep {target : Target} {v : Value} {i : Instruction} {exit : Nat}
    (hb : b.TextsIn k.frame.module) (hi : Emit.Stores c b target i)
    (h : Placed k.body.code exit position [.run .dup, .run i]) (hs : k.frame.base ≤ stack.size)
    (hl : low ≤ position) (hh : position + 1 + i.size ≤ high) :
    Computes s k w low high
      (do Evaluation.write c.bindings target v; pure v) ⟨position, stack.push v⟩
      fun r => ⟨position + 1 + i.size, stack.push r⟩ := by
  obtain ⟨hdup, hkeep, -⟩ := h
  have hs' : k.frame.base ≤ (stack.push v).size := by
    rw [Array.size_push]
    omega
  have hwrite : Computes s k w low high (Evaluation.write c.bindings target v)
      ⟨position + 1, (stack.push v).push v⟩ fun _ => ⟨position + 1 + i.size, stack.push v⟩ :=
    computes_write hb hi hkeep hs' (by omega) hh
  refine .next ⟨hl, by simp only; omega⟩ (fun m => next_dup hdup hs) (.bind hwrite fun _ => ?_)
  exact .pure v fun r => ⟨position + 1 + i.size, stack.push r⟩

end Instructions

def shortEvaluation (decisive : Bool) (left right : Evaluation σ Value) : Evaluation σ Value := do
  let a ← left
  let truth ← Evaluation.ofValue a.toBool
  if truth = decisive then pure (.flag decisive)
  else
    let b ← right
    let truth ← Evaluation.ofValue b.toBool
    pure (.flag truth)

lemma evaluate_and {reading : Literal → Value} {bindings : Bindings} {node : Node}
    {left right : Expression} :
    (Expression.evaluate reading bindings (.binary node .and left right) : Evaluation σ Value) =
      shortEvaluation false (left.evaluate reading bindings) (right.evaluate reading bindings) := by
  rw [Expression.evaluate, shortEvaluation]
  congr 1
  funext a
  congr 1
  funext truth
  cases truth <;> rfl

lemma evaluate_or {reading : Literal → Value} {bindings : Bindings} {node : Node}
    {left right : Expression} :
    (Expression.evaluate reading bindings (.binary node .or left right) : Evaluation σ Value) =
      shortEvaluation true (left.evaluate reading bindings) (right.evaluate reading bindings) := by
  rw [Expression.evaluate, shortEvaluation]

lemma computes_shortCircuit {decisive : Bool} {position exit : Nat} {stack : Array Value}
    {left right code : Code} {x y : Evaluation σ Value}
    (hcode : Emit.ShortCircuits (branch decisive) decisive left right code)
    (hplaced : Placed k.body.code exit position code.toList) (hs : k.frame.base ≤ stack.size)
    (hx : Placed k.body.code exit position left.toList →
      Computes s k w position (position + left.extent) x ⟨position, stack⟩
        fun v => ⟨position + left.extent, stack.push v⟩)
    (hy : ∀ start, Placed k.body.code exit start right.toList →
      Computes s k w start (start + right.extent) y ⟨start, stack⟩
        fun v => ⟨start + right.extent, stack.push v⟩) :
    Computes s k w position (position + code.extent) (shortEvaluation decisive x y)
      ⟨position, stack⟩ fun v => ⟨position + code.extent, stack.push v⟩ := by
  have hextent := hcode.extent (by cases decisive <;> exact fun _ => rfl)
  obtain ⟨first, second, leap, hfirst, hsecond, hleap, rfl⟩ := hcode
  have hfs : first.size = 3 := hfirst.size (by cases decisive <;> exact fun _ => rfl)
  have hss : second.size = 3 := hsecond.size (by cases decisive <;> exact fun _ => rfl)
  have hls : leap.size = 3 := hleap.size fun _ => rfl
  rw [hextent]
  rw [Placed.code_append_iff, Placed.code_append_iff, Placed.code_append_iff, Placed.one_iff]
    at hplaced
  obtain ⟨⟨⟨hpl, hpf⟩, hpr⟩, hps, hpw, hpleap, hpshort, -⟩ := hplaced
  simp only [Code.extent_append, Code.extent_one, hfs, hss, hls, Instruction.size_load_flag,
    ← Nat.add_assoc] at hpr hps hpw hpleap hpshort ⊢
  generalize hsat : position + left.extent + 3 + right.extent = secondAt at *
  have hend := Instruction.le_size_of_holds hpshort
  rw [Instruction.size_load_flag] at hend
  -- from the end of the code backwards: the decisive value, the jump past it, and the other value
  have hshort : Computes s k w position (secondAt + 10) (pure (.flag decisive))
      ⟨secondAt + 8, stack⟩ fun v => ⟨secondAt + 10, stack.push v⟩ :=
    .load hpshort rfl (by omega) (.pure _ _)
  have hjump : Computes s k w position (secondAt + 10) (pure (.flag !decisive))
      ⟨secondAt + 5, stack.push (.flag !decisive)⟩ fun v => ⟨secondAt + 10, stack.push v⟩ := by
    obtain ⟨_, rfl⟩ := hleap
    refine .next (by constructor <;> simp only <;> omega) (fun m => ?_) (.pure _ _)
    have ht : ((secondAt + 5 : Nat) + 3 + (Int16.ofInt 2).toInt : Int) = (secondAt + 10 : Nat) := by
      rw [show (Int16.ofInt 2).toInt = 2 from rfl]
      omega
    exact next_jump hpleap ht hend
  have hwhole : Computes s k w position (secondAt + 10) (pure (.flag !decisive))
      ⟨secondAt + 3, stack⟩ fun v => ⟨secondAt + 10, stack.push v⟩ :=
    .load hpw rfl (by omega) hjump
  have hfirstRun (a : Value) : Computes s k w position (secondAt + 10)
      (Evaluation.ofValue a.toBool) ⟨position + left.extent, stack.push a⟩
      fun truth => ⟨if truth = decisive then secondAt + 8 else position + left.extent + 3, stack⟩ :=
    computes_truth hfirst hpf hs (by omega) (by omega) (by omega)
  have hsecondRun (b : Value) : Computes s k w position (secondAt + 10)
      (Evaluation.ofValue b.toBool) ⟨secondAt, stack.push b⟩
      fun truth => ⟨if truth = decisive then secondAt + 8 else secondAt + 3, stack⟩ :=
    computes_truth hsecond hps hs (by omega) (by omega) (by omega)
  have hright := hy _ hpr
  rw [hsat] at hright
  refine .bind ((hx hpl).mono (Nat.le_refl _) (by omega)) fun a =>
    .bind (hfirstRun a) fun truth => ?_
  split
  · exact hshort
  · refine .bind (hright.mono (by omega) (by omega)) fun b => .bind (hsecondRun b) fun truth => ?_
    split
    · next ht =>
      rw [ht]
      exact hshort
    · next ht =>
      rw [Bool.eq_not_of_ne ht]
      exact hwhole

lemma computes_expression {c : Emit.Context} {b : Builder} {exit : Nat}
    (hb : b.TextsIn k.frame.module) {e : Expression} (he : e.isCallFree) :
    ∀ {code : Code} {position : Nat} {stack : Array Value}, Emit.ExpressionCode c b e code →
      Placed k.body.code exit position code.toList → k.frame.base ≤ stack.size →
      Computes s k w position (position + code.extent) (e.evaluate Literal.unsigned c.bindings)
        ⟨position, stack⟩ fun v => ⟨position + code.extent, stack.push v⟩ := by
  induction e using Expression.shallow with
  | literal node l =>
    rintro _ position stack ⟨i, hi, rfl⟩ hplaced hs
    rw [Placed.one_iff] at hplaced
    rw [Code.extent_one]
    exact .load hplaced (immediateValue_of_constant hb hi)
      ⟨Nat.le_refl _, Nat.lt_add_of_pos_right (Instruction.size_pos _)⟩ (.pure _ _)
  | name node text =>
    rintro _ position stack ⟨i, hi, rfl⟩ hplaced hs
    rw [Placed.one_iff] at hplaced
    rw [Code.extent_one]
    exact computes_read hb hi hplaced (Nat.le_refl _) (Nat.le_refl _)
  | unary node op operand ih =>
    rintro _ position stack ⟨inner, hi, rfl⟩ hplaced hs
    rw [Placed.code_append_iff, Placed.one_iff] at hplaced
    rw [Code.extent_append, Code.extent_one, ← Nat.add_assoc]
    refine .bind ((ih he hi hplaced.1 hs).mono (Nat.le_refl _) (by omega)) fun v => ?_
    exact computes_unary hplaced.2 hs ⟨by omega, by simp [Instruction.size]⟩
  | binary node op left right ihl ihr =>
    rintro code position stack ⟨l, r, hleft, hright, hcode⟩ hplaced hs
    simp only [Expression.isCallFree, Bool.and_eq_true] at he
    have hs' (a : Value) : k.frame.base ≤ (stack.push a).size := by
      rw [Array.size_push]
      omega
    cases op with
    | and =>
      have hcode : Emit.ShortCircuits (branch false) false l r code := hcode
      rw [evaluate_and]
      exact computes_shortCircuit hcode hplaced hs (fun h => ihl he.1 hleft h hs)
        fun start h => ihr he.2 hright h hs
    | or =>
      have hcode : Emit.ShortCircuits (branch true) true l r code := hcode
      rw [evaluate_or]
      exact computes_shortCircuit hcode hplaced hs (fun h => ihl he.1 hleft h hs)
        fun start h => ihr he.2 hright h hs
    | _ =>
      cases hcode
      rw [Placed.code_append_iff, Placed.code_append_iff, Placed.one_iff] at hplaced
      obtain ⟨⟨hpl, hpr⟩, hpo⟩ := hplaced
      simp only [Code.extent_append, Code.extent_one, ← Nat.add_assoc] at hpo ⊢
      refine .bind ((ihl he.1 hleft hpl hs).mono (Nat.le_refl _) (by omega)) fun a => ?_
      refine .bind ((ihr he.2 hright hpr (hs' a)).mono (by omega) (by omega)) fun b => ?_
      exact computes_binary hpo hs ⟨by omega, by simp [Instruction.size]⟩
  | assign node target op value ih =>
    rintro code position stack ⟨keep, new, hkeep, hnew, hcode⟩ hplaced hs
    have hs' (a : Value) : k.frame.base ≤ (stack.push a).size := by
      rw [Array.size_push]
      omega
    cases hop : op.binary? with
    | none =>
      simp only [hop] at hcode
      subst hcode
      rw [Placed.code_append_iff] at hplaced
      simp only [Expression.evaluate, hop, Code.extent_append, Code.extent_toArray, List.map_cons,
        List.map_nil, List.sum_cons, List.sum_nil, Step.size, Nat.add_zero, ← Nat.add_assoc]
      refine .bind ((ih he hnew hplaced.1 hs).mono (Nat.le_refl _) (by omega)) fun v => ?_
      exact computes_keep hb hkeep hplaced.2 hs (by omega) (Nat.le_refl _)
    | some arithmetic =>
      simp only [hop] at hcode
      obtain ⟨old, hold, rfl⟩ := hcode
      rw [Placed.code_append_iff, Placed.code_append_iff, Placed.one_iff] at hplaced
      obtain ⟨⟨hpold, hpnew⟩, hpop, hpkeep⟩ := hplaced
      simp only [Expression.evaluate, hop, Code.extent_append, Code.extent_one,
        Code.extent_toArray, List.map_cons, List.map_nil, List.sum_cons, List.sum_nil, Step.size,
        Nat.add_zero, ← Nat.add_assoc] at hpnew hpop hpkeep ⊢
      refine .bind (computes_read hb hold hpold (Nat.le_refl _) (by omega)) fun v => ?_
      refine .bind ((ih he hnew hpnew (hs' v)).mono (by omega) (by omega)) fun operand => ?_
      have hinside : position + old.size + new.extent < position + old.size + new.extent +
          (Instruction.binary arithmetic).size := Nat.lt_add_of_pos_right (Instruction.size_pos _)
      refine .bind (computes_binary hpop hs ⟨by omega, by omega⟩) fun r => ?_
      exact computes_keep hb hkeep hpkeep hs (by omega) (Nat.le_refl _)
  | step node target op =>
    rintro code position stack ⟨keep, old, hkeep, hold, rfl⟩ hplaced hs
    obtain ⟨hpold, hpone, hpop, hpkeep⟩ := hplaced
    simp only [Expression.evaluate, Code.extent_toArray, List.map_cons, List.map_nil,
      List.sum_cons, List.sum_nil, Step.size, Nat.add_zero, ← Nat.add_assoc,
      Instruction.size_load_integer] at hpop hpkeep ⊢
    refine .bind (computes_read hb hold hpold (Nat.le_refl _) (by omega)) fun v => ?_
    -- the code has the integer 1 where the meaning has the number 1
    have hnumber : Number.ofInt (1 : Int32).toInt = 1.0 := by decide +kernel
    have hone : Thread.immediateValue k.frame.module (.integer 1) = .ok (.number 1.0) := by
      rw [Thread.immediateValue, hnumber]
    refine .load hpone hone ⟨by omega, by omega⟩ ?_
    rw [Instruction.size_load_integer]
    have hinside : position + old.size + 6 < position + old.size + 6 +
        (Instruction.binary op.binary).size := Nat.lt_add_of_pos_right (Instruction.size_pos _)
    refine .bind (computes_binary hpop hs ⟨by omega, by omega⟩) fun r => ?_
    exact computes_keep hb hkeep hpkeep hs (by omega) (Nat.le_refl _)
  | call node callee arguments => cases he

lemma Follows.same {r r' : Except Fault α × Memory σ} {start : Moment σ} {finish : α → Place}
    (h : k.Follows s w low high r start finish) (h' : k.Follows s w low high r' start finish)
    (hout : ∀ a, high ≤ (finish a).position) (hinj : ∀ a b, finish a = finish b → a = b) :
    Memory.Same r r' := by
  obtain ⟨_ | a, m⟩ := r <;> obtain ⟨_ | a', m'⟩ := r'
  case error.error f f' =>
    obtain ⟨n, p, e, hrun, -, hc, hfail⟩ := h
    obtain ⟨n', p', e', hrun', -, hc', hfail'⟩ := h'
    have hat := hrun.unique hrun' (.of_fails hfail) (.of_fails hfail')
    obtain ⟨ha, hs, rfl⟩ := Memory.Same.of_at hat
    rw [hat] at hfail
    cases hfail.unique hfail'
    exact ⟨by rw [hc.unique hc'], ha, hs⟩
  case error.ok f =>
    obtain ⟨n, p, e, hrun, inside, -, hfail⟩ := h
    obtain ⟨n', hrun'⟩ := h'
    exact absurd hfail (hrun'.not_fails (hout a') hrun inside)
  case ok.error f =>
    obtain ⟨n, hrun⟩ := h
    obtain ⟨n', p, e, hrun', inside, -, hfail⟩ := h'
    exact absurd hfail (hrun.not_fails (hout a) hrun' inside)
  case ok.ok =>
    obtain ⟨n, hrun⟩ := h
    obtain ⟨n', hrun'⟩ := h'
    obtain ⟨ha, hs, hp⟩ := Memory.Same.of_at
      (hrun.unique hrun' (.of_outside (hout a)) (.of_outside (hout a')))
    exact ⟨by rw [hinj a a' hp], ha, hs⟩

lemma Follows.fails_iff {r : Except Fault α × Memory σ} {start : Moment σ} {finish : α → Place}
    (h : k.Follows s w low high r start finish) (hout : ∀ a, high ≤ (finish a).position)
    (e : ValueError) :
    (∃ n b, k.Run s low high n start b ∧ (low ≤ b.position ∧ b.position < high) ∧
      k.Fails s b (.value e)) ↔ r.1 = .error (.value e) := by
  obtain ⟨_ | a, m⟩ := r
  case error f =>
    obtain ⟨n, p, e', hrun, inside, hc, hfail⟩ := h
    constructor
    · rintro ⟨n', b, hrun', -, hfail'⟩
      cases hrun.unique hrun' (.of_fails hfail) (.of_fails hfail')
      cases hfail.unique hfail'
      rw [show f = .value e from hc.unique rfl]
    · rintro ⟨⟩
      cases hc
      exact ⟨n, _, hrun, inside, hfail⟩
  case ok =>
    obtain ⟨n, hrun⟩ := h
    constructor
    · rintro ⟨n', b, hrun', inside, hfail⟩
      exact absurd hfail (hrun.not_fails (hout a) hrun' inside)
    · rintro ⟨⟩

/-- Running `length` bytes of code from a moment on is a computation of a value: the value is put on
the stack, or the machine fails, with an error of a value exactly if the computation meets one. -/
structure Evaluates (s : Setting) (k : Spot) (length : Nat) (start : Moment σ)
    (x : Evaluation σ Value) : Prop where
  follows : k.Follows s start.world start.position (start.position + length) (x start.memory) start
    fun v => ⟨start.position + length, start.stack.push v⟩
  fails_iff : ∀ e : ValueError,
    (∃ n b, k.Run s start.position (start.position + length) n start b ∧
      (start.position ≤ b.position ∧ b.position < start.position + length) ∧
      k.Fails s b (.value e)) ↔ (x start.memory).1 = .error (.value e)

lemma Evaluates.of_follows {length : Nat} {start : Moment σ} {x : Evaluation σ Value}
    (h : k.Follows s start.world start.position (start.position + length) (x start.memory) start
      fun v => ⟨start.position + length, start.stack.push v⟩) : k.Evaluates s length start x :=
  ⟨h, h.fails_iff fun _ => Nat.le_refl _⟩

lemma Evaluates.iff_same {length : Nat} {start : Moment σ} {x y : Evaluation σ Value}
    (h : k.Evaluates s length start x) :
    k.Evaluates s length start y ↔ Memory.Same (x start.memory) (y start.memory) := by
  constructor
  · intro h'
    refine h.follows.same h'.follows (fun _ => Nat.le_refl _) fun a b hp => ?_
    exact Array.push_inj_right.mp (congrArg Place.stack hp)
  · intro hsame
    refine .of_follows ?_
    have hx := h.follows
    generalize x start.memory = r at hx hsame
    generalize y start.memory = r' at hsame ⊢
    obtain ⟨a, m⟩ := r
    obtain ⟨a', m'⟩ := r'
    obtain ⟨rfl, ha, hs⟩ := hsame
    have hat (p : Place) : m.at_ start.world p = m'.at_ start.world p := by
      simp only at ha hs
      simp only [Memory.at_, ha, hs]
    cases a <;> simpa only [Follows, hat] using hx

lemma evaluates_unsigned {c : Emit.Context} {e : Expression} {d d' : Draft} {code : Code}
    (start : Moment σ) (hs : d.builder.Sound) (he : e.isCallFree)
    (h : Emit.expression c e d = (.ok code, d')) (hb : d'.builder.TextsIn k.frame.module)
    (hcode : Holds k.body.code start.position code.encode.data.toList)
    (hbase : k.frame.base ≤ start.stack.size) :
    k.Evaluates s code.encode.size start (e.evaluate Literal.unsigned c.bindings) := by
  have hemitted := (Emit.expression_ok e hs h).2 _ (.refl _)
  have hplaced : Placed k.body.code 0 start.position code.toList :=
    .of_encode (Emit.ExpressionCode.closed e hemitted) hcode
  rw [Code.size_encode]
  exact .of_follows (computes_expression hb he hemitted hplaced hbase start.memory)

/-- Running the code of a call-free expression evaluates the expression exactly if the sign of a
negative zero among its literals makes no difference, and so if there is none. -/
theorem evaluates_expression {c : Emit.Context} {e : Expression} {d d' : Draft} {code : Code}
    (start : Moment σ) (hs : d.builder.Sound) (he : e.isCallFree)
    (h : Emit.expression c e d = (.ok code, d')) (hb : d'.builder.TextsIn k.frame.module)
    (hcode : Holds k.body.code start.position code.encode.data.toList)
    (hbase : k.frame.base ≤ start.stack.size) :
    k.Evaluates s code.encode.size start (e.evaluate Literal.unsigned c.bindings) ∧
      (k.Evaluates s code.encode.size start (e.evaluate Literal.value c.bindings) ↔
        Memory.Same (e.evaluate Literal.unsigned c.bindings start.memory)
          (e.evaluate Literal.value c.bindings start.memory)) ∧
      (e.noNegativeZero →
        k.Evaluates s code.encode.size start (e.evaluate Literal.value c.bindings)) := by
  have hunsigned := evaluates_unsigned (s := s) start hs he h hb hcode hbase
  refine ⟨hunsigned, hunsigned.iff_same, fun hz => ?_⟩
  rwa [← Expression.evaluate_unsigned hz]

def alone (code : ByteArray) : Spot :=
  let main : Definition :=
    { kind := .chapter, name := "main", parameters := [], dialogues := [], code }
  let module := Module.ofBuilder "main.nss" { routines := #[main] }
  { thread := { id := 1, name := "main", home := module, frames := [] }
    frame := { module, routine := 0, arguments := #[] }
    callers := []
    body := main.body
    isBody := by simp [module, Module.body, Module.lookup, Module.ofBuilder] }

def aloneSetting : Setting :=
  { modules := ∅, registry := .standard, now := 0 }

def aloneStart (arguments : Array Value) : Moment HeadlessStage :=
  ⟨0, arguments, #[], { stage := {}, random := { state := 0 } }⟩

def aloneContext : Emit.Context where
  table := { path := "main.nss", includes := [] }
  bindings :=
    { path := "main.nss", visible := []
      references := (∅ : Std.TreeMap Nat Symbol).insert 0 (.parameter ⟨"$a", 0⟩) }

lemma textsIn_alone (code : ByteArray) : Builder.TextsIn {} (alone code).frame.module := by
  intro token s h
  simp [Builder.HasText] at h

def addition : Expression :=
  .assign ⟨1, .unplaced⟩ ⟨⟨0, .unplaced⟩, "$a"⟩ .add (.literal ⟨2, .unplaced⟩ (.number 2.0))

def additionCode : Code :=
  #[.run (.loadArgument 0), .run (.load (.integer 2)), .run (.binary .add), .run .dup,
    .run (.storeArgument 0)]

theorem evaluates_addition :
    Emit.expression aloneContext addition {} = (.ok additionCode, {}) ∧
      ∃ n, (alone additionCode.encode).Run aloneSetting 0 (0 + additionCode.encode.size) n
        (aloneStart #[.number 1.0])
        ⟨0 + additionCode.encode.size, #[.number (1.0 + 2.0)], #[.number (1.0 + 2.0)],
          (aloneStart #[]).world⟩ := by
  have hemit : Emit.expression aloneContext addition {} = (.ok additionCode, {}) := rfl
  have h := evaluates_expression (s := aloneSetting) (aloneStart #[.number 1.0])
    Builder.sound_empty rfl hemit (textsIn_alone _) (Bytes.holds_self _) (Nat.le_refl _)
  exact ⟨hemit, (h.2.2 (by decide +kernel)).follows⟩

def negativeZero : Expression :=
  .literal ⟨1, .unplaced⟩ (.delta (-0.0))

def negativeZeroCode : Code :=
  Code.one (.load (.deltaInteger 0))

lemma unsigned_negativeZero_ne :
    Literal.unsigned (.delta (-0.0)) ≠ Literal.value (.delta (-0.0)) := by
  rw [Ne, Literal.unsigned_eq_iff]
  decide +kernel

lemma emit_negativeZero (d : Draft) :
    Emit.expression aloneContext negativeZero d = (.ok negativeZeroCode, d) := by
  have hinteger : Emit.integral? (-0.0) = some 0 := by decide +kernel
  rw [negativeZero, Emit.expression, Emit.immediate, hinteger]
  rfl

/-- The literal of a negative zero is a positive zero when its code runs. -/
theorem not_evaluates_negativeZero :
    Emit.expression aloneContext negativeZero {} = (.ok negativeZeroCode, {}) ∧
      ¬(alone negativeZeroCode.encode).Evaluates aloneSetting negativeZeroCode.encode.size
        (aloneStart #[]) (negativeZero.evaluate Literal.value aloneContext.bindings) := by
  refine ⟨emit_negativeZero {}, fun h => ?_⟩
  have hzero := evaluates_unsigned (s := aloneSetting) (aloneStart #[])
    Builder.sound_empty rfl (emit_negativeZero {}) (textsIn_alone _) (Bytes.holds_self _)
    (Nat.le_refl _)
  exact unsigned_negativeZero_ne (Except.ok.inj (hzero.iff_same.mp h).1)

end Spot

end Stagecraft
