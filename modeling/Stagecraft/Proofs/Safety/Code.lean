import Stagecraft.Machine.Basic
import Stagecraft.Proofs.Code.Structured
import Stagecraft.Proofs.Machine.Run
import Stagecraft.Proofs.Script.Names

/-!
From a position and a number of values on the stack, every instruction that can be reached finds
what it needs there. The code of every tree is such code.
-/

namespace Stagecraft

open Bytes (Holds)

structure Site where
  modules : Std.TreeMap String Module
  module : Module
  parameters : Nat
  code : ByteArray

namespace Site

variable {s : Site} {next depth : Nat} {K K' : Nat → Nat → Prop}

def HasText (s : Site) (token : UInt16) : Prop :=
  ∃ t, s.module.text token = .ok t

def Leads (s : Site) (next : Nat) (offset : Int16) (depth : Nat) (K : Nat → Nat → Prop) : Prop :=
  ∃ target : Nat, (next + offset.toInt : Int) = target ∧ target ≤ s.code.size ∧ K target depth

def Calls (m : Module) (routine : UInt16) (next depth : Nat) (K : Nat → Nat → Prop) : Prop :=
  ∃ parameters, m.parameters routine = .ok parameters ∧ parameters.length ≤ depth ∧
    K next (depth - parameters.length + 1)

/-- An instruction finds what it needs with `depth` values on the stack, and `K` holds wherever it
leads, if nothing else goes wrong. The instruction after it is at `next`. -/
def Allows (s : Site) (next depth : Nat) (K : Nat → Nat → Prop) : Instruction → Prop
  | .load v => (∃ x, Thread.immediateValue s.module v = .ok x) ∧ K next (depth + 1)
  | .loadArgument i => i.toNat < s.parameters ∧ K next (depth + 1)
  | .loadGlobal token | .isPressed token => s.HasText token ∧ K next (depth + 1)
  | .storeArgument i => i.toNat < s.parameters ∧ 1 ≤ depth ∧ K next (depth - 1)
  | .storeGlobal token => s.HasText token ∧ 1 ≤ depth ∧ K next (depth - 1)
  | .binary _ => 2 ≤ depth ∧ K next (depth - 1)
  | .unary _ => 1 ≤ depth ∧ K next depth
  | .pop => 1 ≤ depth ∧ K next (depth - 1)
  | .dup => 1 ≤ depth ∧ K next (depth + 1)
  | .jump offset => s.Leads next offset depth K
  | .jumpIfTrue offset | .jumpIfFalse offset =>
    1 ≤ depth ∧ K next (depth - 1) ∧ s.Leads next offset (depth - 1) K
  | .call routine => Calls s.module routine next depth K
  | .callFar i routine => ∃ name m, s.module.import? i = .ok name ∧ s.modules[name]? = some m ∧
      Calls m routine next depth K
  | .dispatch id count => ∃ signature, Signature.ofId id = some signature ∧
      signature.accepts count.toNat ∧ count.toNat ≤ depth ∧ K next (depth - count.toNat + 1)
  | .present token => s.HasText token ∧ K next depth
  | .beginDialogue _ | .selectStart | .selectEnd => K next depth
  | .trap token => s.HasText token
  | .ret => True

lemma Leads.mono {offset : Int16} (h : s.Leads next offset depth K)
    (hK : ∀ p d, K p d → K' p d) : s.Leads next offset depth K' := by
  obtain ⟨target, ht, hs, h⟩ := h
  exact ⟨target, ht, hs, hK _ _ h⟩

lemma Calls.mono {m : Module} {routine : UInt16} (h : Calls m routine next depth K)
    (hK : ∀ p d, K p d → K' p d) : Calls m routine next depth K' := by
  obtain ⟨parameters, hp, hd, h⟩ := h
  exact ⟨parameters, hp, hd, hK _ _ h⟩

lemma Allows.mono {i : Instruction} (h : s.Allows next depth K i) (hK : ∀ p d, K p d → K' p d) :
    s.Allows next depth K' i := by
  cases i with
  | load _ | loadArgument _ | loadGlobal _ | isPressed _ | present _ | binary _ | unary _ | pop
  | dup => exact ⟨h.1, hK _ _ h.2⟩
  | storeArgument _ | storeGlobal _ => exact ⟨h.1, h.2.1, hK _ _ h.2.2⟩
  | jump _ => exact Leads.mono h hK
  | jumpIfTrue _ | jumpIfFalse _ => exact ⟨h.1, hK _ _ h.2.1, h.2.2.mono hK⟩
  | call _ => exact Calls.mono h hK
  | callFar _ _ =>
    obtain ⟨name, m, hname, hm, h⟩ := h
    exact ⟨name, m, hname, hm, h.mono hK⟩
  | dispatch _ _ =>
    obtain ⟨signature, hs, ha, hd, h⟩ := h
    exact ⟨signature, hs, ha, hd, hK _ _ h⟩
  | beginDialogue _ | selectStart | selectEnd => exact hK _ _ h
  | trap _ | ret => exact h

def Good (s : Site) : Nat → Nat → Nat → Prop
  | 0, _, _ => True
  | n + 1, position, depth => ∃ i, Holds s.code position i.encode ∧
      s.Allows (position + i.size) depth (s.Good n) i

def Clear (s : Site) (E : Nat → Nat → Prop) : Nat → Nat → Nat → Prop
  | 0, _, _ => True
  | n + 1, position, depth => E position depth ∨ ∃ i, Holds s.code position i.encode ∧
      s.Allows (position + i.size) depth (s.Clear E n) i

variable {E : Nat → Nat → Prop}

lemma Clear.pred {n position depth : Nat} (h : s.Clear E (n + 1) position depth) :
    s.Clear E n position depth := by
  induction n generalizing position depth with
  | zero => trivial
  | succ n ih =>
    obtain hend | ⟨i, hi, ha⟩ := h
    · exact .inl hend
    · exact .inr ⟨i, hi, ha.mono fun _ _ => ih⟩

lemma Clear.cons {n position depth : Nat} {i : Instruction} (hi : Holds s.code position i.encode)
    (ha : s.Allows (position + i.size) depth (s.Clear E n) i) : s.Clear E n position depth :=
  Clear.pred (.inr ⟨i, hi, ha⟩)

lemma Clear.ended {n position depth : Nat} (h : E position depth) : s.Clear E n position depth :=
  Clear.pred (.inl h)

lemma good_iff_clear {n position depth : Nat} :
    s.Good n position depth ↔ s.Clear (fun _ _ => False) n position depth := by
  induction n generalizing position depth with
  | zero => exact Iff.rfl
  | succ n ih =>
    constructor
    · rintro ⟨i, hi, ha⟩
      exact .inr ⟨i, hi, ha.mono fun _ _ => ih.mp⟩
    · rintro (⟨⟨⟩⟩ | ⟨i, hi, ha⟩)
      exact ⟨i, hi, ha.mono fun _ _ => ih.mpr⟩

/-- What the code of a tree relies on: the numbers in it mean something where it runs, the nodes
with the property `P` that stand for parameters stand for parameters of the routine, and the
routines that nodes stand for are there. -/
structure Links (s : Site) (c : Emit.Context) (b : Builder) (P : Nat → Prop) : Prop where
  texts : ∀ token t, b.HasText token t → s.HasText token
  imports : ∀ i name, b.HasImport i name → s.module.import? i = .ok name
  home : s.modules[c.table.path]? = some s.module
  parameters : ∀ id symbol, P id → c.bindings.references[id]? = some (.parameter symbol) →
    symbol.index.toNat < s.parameters
  routines : ∀ (id : Nat) symbol routine, c.bindings.references[id]? = some symbol →
    symbol.routine? = some routine → ∃ m parameters, s.modules[routine.module]? = some m ∧
      m.parameters routine.index = .ok parameters ∧ parameters.length = routine.parameterCount

section Trees

variable {c : Emit.Context} {b : Builder} {P : Nat → Prop} {n position exit : Nat}

lemma Clear.load {v : Immediate} (hi : Holds s.code position (Instruction.load v).encode)
    (hv : ∃ x, Thread.immediateValue s.module v = .ok x)
    (h : s.Clear E n (position + (Instruction.load v).size) (depth + 1)) :
    s.Clear E n position depth :=
  .cons hi ⟨hv, h⟩

lemma value_of_constant (links : s.Links c b P) {l : Literal} {v : Immediate}
    (hv : Emit.Constant b l v) : ∃ x, Thread.immediateValue s.module v = .ok x := by
  cases l with
  | null | flag _ =>
    cases hv
    exact ⟨_, rfl⟩
  | number x | delta x =>
    cases hv
    cases Emit.integral? x <;> exact ⟨_, rfl⟩
  | text t =>
    obtain ⟨token, ht, rfl⟩ := hv
    obtain ⟨t, ht⟩ := links.texts token t ht
    exact ⟨.text t, by simp [Thread.immediateValue, Thread.textOf, ht, Except.map]⟩

lemma Clear.of_loads (links : s.Links c b P) {node : Node} {name : String} {i : Instruction}
    (hn : P node.id) (hl : Emit.Loads c b node name i) (hi : Holds s.code position i.encode)
    (h : s.Clear E n (position + i.size) (depth + 1)) : s.Clear E n position depth := by
  unfold Emit.Loads at hl
  split at hl
  · next symbol hr =>
    subst hl
    exact .cons hi ⟨links.parameters _ _ hn hr, h⟩
  · obtain ⟨token, ht, rfl⟩ := hl
    exact .cons hi ⟨links.texts _ _ ht, h⟩
  · subst hl
    exact .cons hi ⟨by simp [Thread.immediateValue, Enumerator.ofId_id], h⟩
  · subst hl
    exact .cons hi ⟨by simp [Thread.immediateValue, Preset.ofId_id], h⟩
  · cases hl

lemma Clear.of_stores (links : s.Links c b P) {target : Target} {i : Instruction}
    (hn : P target.node.id) (hl : Emit.Stores c b target i) (hi : Holds s.code position i.encode)
    (h : s.Clear E n (position + i.size) depth) : s.Clear E n position (depth + 1) := by
  unfold Emit.Stores at hl
  split at hl
  · next symbol hr =>
    subst hl
    exact .cons hi ⟨links.parameters _ _ hn hr, by omega, h⟩
  · obtain ⟨token, ht, rfl⟩ := hl
    exact .cons hi ⟨links.texts _ _ ht, by omega, h⟩
  · cases hl

lemma Clear.of_keeps (links : s.Links c b P) {target : Target} {i : Instruction}
    (hn : P target.node.id) (hl : Emit.Stores c b target i)
    (hi : Placed s.code exit position [.run .dup, .run i])
    (h : s.Clear E n (position + 1 + i.size) (depth + 1)) : s.Clear E n position (depth + 1) :=
  .cons hi.1 ⟨by omega, .of_stores links hn hl hi.2.1 h⟩

lemma leads_of_jumps {make : Int16 → Instruction} {distance : Int} {i : Instruction} {target : Nat}
    (hj : Emit.Jumps make distance i) (ht : (position + 3 + distance : Int) = target)
    (hs : target ≤ s.code.size) (h : K target depth) :
    ∃ offset, i = make offset ∧ s.Leads (position + 3) offset depth K := by
  obtain ⟨hd, rfl⟩ := hj
  refine ⟨_, rfl, target, ?_, hs, h⟩
  rw [Int16.toInt_ofInt_of_le hd.1 (by omega)]
  exact_mod_cast ht

lemma Clear.of_jump {distance : Int} {i : Instruction} {target : Nat}
    (hj : Emit.Jumps .jump distance i) (hi : Holds s.code position i.encode)
    (ht : (position + 3 + distance : Int) = target) (hs : target ≤ s.code.size)
    (h : s.Clear E n target depth) : s.Clear E (n + 1) position depth := by
  obtain ⟨offset, rfl, hl⟩ := leads_of_jumps hj ht hs h
  exact .inr ⟨_, hi, hl⟩

lemma Clear.of_branch {wanted : Bool} {distance : Int} {i : Instruction} {target : Nat}
    (hj : Emit.Jumps (Spot.branch wanted) distance i) (hi : Holds s.code position i.encode)
    (ht : (position + 3 + distance : Int) = target) (hs : target ≤ s.code.size)
    (h : s.Clear E n target depth) (hnext : s.Clear E n (position + 3) depth) :
    s.Clear E n position (depth + 1) := by
  obtain ⟨offset, rfl, hl⟩ := leads_of_jumps hj ht hs h
  cases wanted <;> exact .cons hi ⟨by omega, hnext, hl⟩

lemma Clear.of_callsRoutine (links : s.Links c b P) {id : Nat} {symbol : Symbol}
    {routine : RoutineSymbol} {count : Nat} {i : Instruction}
    (hs : c.bindings.references[id]? = some symbol) (hr : symbol.routine? = some routine)
    (hc : Emit.CallsRoutine c b routine count i) (hi : Holds s.code position i.encode)
    (h : s.Clear E n (position + i.size) (depth + 1)) : s.Clear E n position (depth + count) := by
  obtain ⟨m, parameters, hm, hp, hlength⟩ := links.routines id symbol routine hs hr
  obtain ⟨rfl, ⟨hpath, rfl⟩ | ⟨k, -, hk, rfl⟩⟩ := hc
  · rw [hpath, links.home, Option.some.injEq] at hm
    refine .cons hi ⟨parameters, hm ▸ hp, by omega, ?_⟩
    rwa [hlength, Nat.add_sub_cancel]
  · refine .cons hi ⟨routine.module, m, links.imports k _ hk, hm, parameters, hp, by omega, ?_⟩
    rwa [hlength, Nat.add_sub_cancel]

lemma Clear.of_calls (links : s.Links c b P) {node : Node} {count : Nat} {i : Instruction}
    (hc : Emit.Calls c b node count i) (hi : Holds s.code position i.encode)
    (h : s.Clear E n (position + i.size) (depth + 1)) : s.Clear E n position (depth + count) := by
  obtain ⟨id, signature, -, hsig, haccepts, hcount, rfl⟩ | ⟨symbol, routine, hs, hr, hc⟩ := hc
  · have hnat : (UInt8.ofNat count).toNat = count := UInt8.toNat_ofNat_of_lt' hcount
    refine .cons hi ⟨signature, hsig, by rwa [hnat], by omega, ?_⟩
    rwa [hnat, Nat.add_sub_cancel]
  · exact .of_callsRoutine links hs hr hc hi h

lemma Clear.of_shortCircuit {decisive : Bool} {left right code : Code}
    (hcode : Emit.ShortCircuits (Spot.branch decisive) decisive left right code)
    (hplaced : Placed s.code exit position code.toList)
    (h : s.Clear E n (position + code.extent) (depth + 1))
    (hleft : Placed s.code exit position left.toList →
      s.Clear E n (position + left.extent) (depth + 1) → s.Clear E n position depth)
    (hright : ∀ start, Placed s.code exit start right.toList →
      s.Clear E n (start + right.extent) (depth + 1) → s.Clear E n start depth) :
    s.Clear E n position depth := by
  have hextent := hcode.extent (by cases decisive <;> exact fun _ => rfl)
  obtain ⟨first, second, leap, hfirst, hsecond, hleap, rfl⟩ := hcode
  have hfs : first.size = 3 := hfirst.size (by cases decisive <;> exact fun _ => rfl)
  have hss : second.size = 3 := hsecond.size (by cases decisive <;> exact fun _ => rfl)
  have hls : leap.size = 3 := hleap.size fun _ => rfl
  rw [hextent] at h
  rw [Placed.code_append_iff, Placed.code_append_iff, Placed.code_append_iff, Placed.one_iff]
    at hplaced
  obtain ⟨⟨⟨hpl, hpf⟩, hpr⟩, hps, hpw, hpleap, hpshort, -⟩ := hplaced
  simp only [Code.extent_append, Code.extent_one, hfs, hss, hls, Instruction.size_load_flag,
    ← Nat.add_assoc] at hpr hps hpw hpleap hpshort h
  have hright := hright _ hpr
  generalize hsat : position + left.extent + 3 + right.extent = secondAt at *
  have hend := Instruction.le_size_of_holds hpshort
  rw [Instruction.size_load_flag] at hend
  have hshort : s.Clear E n (secondAt + 8) depth := .load hpshort ⟨_, rfl⟩ h
  have hjump : s.Clear E n (secondAt + 5) (depth + 1) :=
    (Clear.of_jump hleap hpleap (by push_cast; omega) hend h).pred
  have hwhole : s.Clear E n (secondAt + 3) depth := .load hpw ⟨_, rfl⟩ hjump
  have hsecondGood : s.Clear E n secondAt (depth + 1) :=
    .of_branch hsecond hps (by push_cast; omega) (by omega) hshort hwhole
  have hfirstEnd : ((position + left.extent : Nat) + 3 + (right.extent + 3 + (2 + 3)) : Int) =
      (secondAt + 8 : Nat) := by
    push_cast
    omega
  exact hleft hpl (.of_branch hfirst hpf hfirstEnd (by omega) hshort (hright hsecondGood))

mutual

theorem Clear.of_expression (links : s.Links c b P) (e : Expression)
    (hn : Names P (e.uses #[])) {code : Code} {position depth : Nat}
    (hcode : Emit.ExpressionCode c b e code)
    (hplaced : Placed s.code exit position code.toList)
    (h : s.Clear E n (position + code.extent) (depth + 1)) : s.Clear E n position depth := by
  cases e with
  | literal node value =>
    obtain ⟨v, hv, rfl⟩ := hcode
    rw [Placed.one_iff] at hplaced
    rw [Code.extent_one] at h
    exact .load hplaced (value_of_constant links hv) h
  | name node text =>
    obtain ⟨i, hi, rfl⟩ := hcode
    rw [Placed.one_iff] at hplaced
    rw [Code.extent_one] at h
    simp only [Expression.uses, names_push] at hn
    exact .of_loads links hn.2 hi hplaced h
  | unary node op operand =>
    obtain ⟨inner, hi, rfl⟩ := hcode
    rw [Placed.code_append_iff, Placed.one_iff] at hplaced
    rw [Code.extent_append, Code.extent_one, ← Nat.add_assoc] at h
    exact Clear.of_expression links operand hn hi hplaced.1 (.cons hplaced.2 ⟨by omega, h⟩)
  | binary node op left right =>
    obtain ⟨l, r, hleft, hright, hcode⟩ := hcode
    rw [Expression.uses, names_expression] at hn
    cases op with
    | and =>
      have hcode : Emit.ShortCircuits (Spot.branch false) false l r code := hcode
      exact .of_shortCircuit hcode hplaced h
        (fun hp => Clear.of_expression links left hn.1 hleft hp)
        fun start hp => Clear.of_expression links right hn.2 hright hp
    | or =>
      have hcode : Emit.ShortCircuits (Spot.branch true) true l r code := hcode
      exact .of_shortCircuit hcode hplaced h
        (fun hp => Clear.of_expression links left hn.1 hleft hp)
        fun start hp => Clear.of_expression links right hn.2 hright hp
    | _ =>
      cases hcode
      rw [Placed.code_append_iff, Placed.code_append_iff, Placed.one_iff] at hplaced
      obtain ⟨⟨hpl, hpr⟩, hpo⟩ := hplaced
      simp only [Code.extent_append, Code.extent_one, ← Nat.add_assoc] at hpo h
      refine Clear.of_expression links left hn.1 hleft hpl
        (Clear.of_expression links right hn.2 hright hpr (.cons hpo ⟨by omega, h⟩))
  | assign node target op value =>
    obtain ⟨keep, new, hkeep, hnew, hcode⟩ := hcode
    rw [Expression.uses, names_expression, names_push] at hn
    obtain ⟨⟨-, htarget⟩, hvalue⟩ := hn
    cases hop : op.binary? with
    | none =>
      simp only [hop] at hcode
      subst hcode
      rw [Placed.code_append_iff] at hplaced
      simp only [Code.extent_append, Code.extent_toArray, List.map_cons, List.map_nil,
        List.sum_cons, List.sum_nil, Step.size, Nat.add_zero, ← Nat.add_assoc] at h
      exact Clear.of_expression links value hvalue hnew hplaced.1
        (.of_keeps links htarget hkeep hplaced.2 h)
    | some arithmetic =>
      simp only [hop] at hcode
      obtain ⟨old, hold, rfl⟩ := hcode
      rw [Placed.code_append_iff, Placed.code_append_iff, Placed.one_iff] at hplaced
      obtain ⟨⟨hpold, hpnew⟩, hpop, hpkeep⟩ := hplaced
      simp only [Code.extent_append, Code.extent_one, Code.extent_toArray, List.map_cons,
        List.map_nil, List.sum_cons, List.sum_nil, Step.size, Nat.add_zero, ← Nat.add_assoc]
        at hpnew hpop hpkeep h
      refine .of_loads links htarget hold hpold
        (Clear.of_expression links value hvalue hnew hpnew (.cons hpop ⟨by omega, ?_⟩))
      exact .of_keeps links htarget hkeep hpkeep h
  | step node target op =>
    obtain ⟨keep, old, hkeep, hold, rfl⟩ := hcode
    simp only [Expression.uses, names_push] at hn
    obtain ⟨hpold, hpone, hpop, hpkeep⟩ := hplaced
    simp only [Code.extent_toArray, List.map_cons, List.map_nil, List.sum_cons, List.sum_nil,
      Step.size, Nat.add_zero, ← Nat.add_assoc] at hpop hpkeep h
    refine .of_loads links hn.2 hold hpold (.load hpone ⟨_, rfl⟩ (.cons hpop ⟨by omega, ?_⟩))
    exact .of_keeps links hn.2 hkeep hpkeep h
  | call node callee arguments =>
    obtain ⟨inner, i, hinner, hi, rfl⟩ := hcode
    rw [Placed.code_append_iff, Placed.one_iff] at hplaced
    rw [Code.extent_append, Code.extent_one, ← Nat.add_assoc] at h
    simp only [Expression.uses, names_push] at hn
    refine Clear.of_expressions links arguments hn.1 hinner hplaced.1 ?_
    exact .of_calls links hi hplaced.2 h

theorem Clear.of_expressions (links : s.Links c b P) (es : List Expression)
    (hn : Names P (Expression.usesAll #[] es)) {code : Code} {position depth : Nat}
    (hcode : Emit.ExpressionsCode c b es code)
    (hplaced : Placed s.code exit position code.toList)
    (h : s.Clear E n (position + code.extent) (depth + es.length)) :
    s.Clear E n position depth := by
  cases es with
  | nil =>
    cases hcode
    exact h
  | cons e rest =>
    obtain ⟨first, more, hfirst, hmore, rfl⟩ := hcode
    rw [Expression.usesAll, names_expressions] at hn
    rw [Placed.code_append_iff] at hplaced
    rw [Code.extent_append, ← Nat.add_assoc, List.length_cons, Nat.add_comm rest.length,
      ← Nat.add_assoc] at h
    exact Clear.of_expression links e hn.1 hfirst hplaced.1
      (Clear.of_expressions links rest hn.2 hmore hplaced.2 h)

end

lemma Clear.of_condition (links : s.Links c b P) {condition : Expression} {test : Code}
    {skip : Instruction} {distance : Int} {target : Nat} (hn : Names P (condition.uses #[]))
    (htest : Emit.ExpressionCode c b condition test)
    (hskip : Emit.Jumps .jumpIfFalse distance skip)
    (hplaced : Placed s.code exit position (test ++ Code.one skip).toList)
    (ht : (position + test.extent + 3 + distance : Int) = target) (hs : target ≤ s.code.size)
    (h : s.Clear E n target depth) (hnext : s.Clear E n (position + test.extent + 3) depth) :
    s.Clear E n position depth := by
  have hskip : Emit.Jumps (Spot.branch false) distance skip := hskip
  rw [Placed.code_append_iff, Placed.one_iff] at hplaced
  refine .of_expression links condition hn htest hplaced.1 ?_
  exact .of_branch hskip hplaced.2 (by exact_mod_cast ht) hs h hnext

lemma Clear.of_loop (links : s.Links c b P) {condition : Expression} {test closed : Code}
    {skip back : Instruction} (hn : Names P (condition.uses #[]))
    (htest : Emit.ExpressionCode c b condition test)
    (hskip : Emit.Jumps .jumpIfFalse (closed.extent + 3 : Nat) skip)
    (hback : Emit.Jumps .jump (-(test.extent + 3 + closed.extent + 3 : Nat)) back)
    (hplaced : Placed s.code exit position
      (test ++ Code.one skip ++ closed ++ Code.one back).toList)
    (hbody : ∀ n, s.Clear E n (position + test.extent + 3 + closed.extent) depth →
      s.Clear E n (position + test.extent + 3 + closed.extent + 3) depth →
      s.Clear E n (position + test.extent + 3) depth)
    (h : s.Clear E n (position + test.extent + 3 + closed.extent + 3) depth) :
    s.Clear E n position depth := by
  have hskipSize : skip.size = 3 := hskip.size fun _ => rfl
  have hbackSize : back.size = 3 := hback.size fun _ => rfl
  have hend := hplaced.le_size_of_one
  rw [Placed.code_append_iff, Placed.code_append_iff, Placed.one_iff] at hplaced
  obtain ⟨⟨hptest, -⟩, hpback⟩ := hplaced
  simp only [Code.extent_append, Code.extent_one, hskipSize, hbackSize, ← Nat.add_assoc]
    at hpback hend
  -- the jump back is a step, so the next round has to be good for one step less
  induction n with
  | zero => trivial
  | succ n ih =>
    have hagain : s.Clear E (n + 1) (position + test.extent + 3 + closed.extent) depth :=
      .of_jump hback hpback (by push_cast; omega) (by omega) (ih h.pred)
    exact .of_condition links hn htest hskip hptest (by push_cast; omega) hend h
      (hbody (n + 1) hagain h)

lemma Clear.of_select {start wait : Nat} {distance : Int} {back : Instruction}
    (hwait : Holds s.code wait Instruction.selectEnd.encode)
    (hback : Emit.Jumps .jump distance back) (hholds : Holds s.code (wait + 1) back.encode)
    (ht : ((wait + 1 : Nat) + 3 + distance : Int) = start) (hs : start ≤ s.code.size)
    (hcases : ∀ n, s.Clear E n wait depth → s.Clear E n (wait + 4) depth → s.Clear E n start depth)
    (h : s.Clear E n (wait + 4) depth) : s.Clear E n start depth := by
  induction n with
  | zero => trivial
  | succ n ih =>
    have hagain : s.Clear E (n + 1) (wait + 1) depth := .of_jump hback hholds ht hs (ih h.pred)
    exact hcases (n + 1) (.cons hwait hagain) h

mutual

theorem Clear.of_statement (links : s.Links c b P) (statement : Statement)
    (hn : Names P (statement.uses #[])) {inLoop : Bool} {code : Code} {n exit position depth : Nat}
    (hcode : Emit.StatementCode c b inLoop statement code)
    (hplaced : Placed s.code exit position code.toList)
    (hexit : inLoop → exit ≤ s.code.size ∧ s.Clear E n exit depth)
    (h : s.Clear E n (position + code.extent) depth) : s.Clear E n position depth := by
  cases statement with
  | block node body => exact Clear.of_block links body hn hcode hplaced hexit h
  | ifThen node condition yes =>
    obtain ⟨test, skip, first, htest, hskip, hfirst, rfl⟩ := hcode
    rw [Statement.uses, names_statement] at hn
    have hsize : skip.size = 3 := hskip.size fun _ => rfl
    rw [Placed.code_append_iff] at hplaced
    obtain ⟨hptest, hpfirst⟩ := hplaced
    have hend := hpfirst.le_size hptest.le_size_of_one
    simp only [Code.extent_append, Code.extent_one, hsize, ← Nat.add_assoc] at hpfirst hend h
    exact .of_condition links hn.1 htest hskip hptest (by push_cast; omega) hend h
      (Clear.of_statement links yes hn.2 hfirst hpfirst hexit h)
  | ifElse node condition yes no =>
    obtain ⟨test, skip, first, leap, second, htest, hskip, hfirst, hleap, hsecond, rfl⟩ := hcode
    rw [Statement.uses, names_statement, names_statement] at hn
    obtain ⟨⟨hncondition, hnyes⟩, hnno⟩ := hn
    have hskipSize : skip.size = 3 := hskip.size fun _ => rfl
    have hleapSize : leap.size = 3 := hleap.size fun _ => rfl
    rw [Placed.code_append_iff, Placed.code_append_iff, Placed.code_append_iff, Placed.one_iff]
      at hplaced
    obtain ⟨⟨⟨hptest, hpfirst⟩, hpleap⟩, hpsecond⟩ := hplaced
    have hmiddle := Instruction.le_size_of_holds hpleap
    simp only [Code.extent_append, Code.extent_one, hskipSize, hleapSize, ← Nat.add_assoc]
      at hpfirst hpleap hpsecond hmiddle h
    have hend := hpsecond.le_size hmiddle
    have hno := Clear.of_statement links no hnno hsecond hpsecond hexit h
    refine .of_condition links hncondition htest hskip hptest (by push_cast; omega) hmiddle hno
      (Clear.of_statement links yes hnyes hfirst hpfirst hexit ?_)
    -- the jump over the second branch is a step of its own
    exact (Clear.of_jump hleap hpleap (by push_cast; omega) hend h).pred
  | loop node condition body =>
    obtain ⟨test, skip, inner, closed, back, htest, hskip, hinner, hclosed, hback, rfl⟩ := hcode
    rw [Statement.uses, names_statement] at hn
    have hskipSize : skip.size = 3 := hskip.size fun _ => rfl
    have hbackSize : back.size = 3 := hback.size fun _ => rfl
    rw [← hclosed.extent] at hskip hback
    have hend := hplaced.le_size_of_one
    have hpinner := hclosed.placed _ _ _ (Placed.code_append_iff.mp (Placed.code_append_iff.mp
      hplaced).1).2
    simp only [Code.extent_append, Code.extent_one, hskipSize, hbackSize, ← hclosed.extent,
      ← Nat.add_assoc] at hpinner hend h
    refine .of_loop links hn.1 htest hskip hback hplaced (fun n hagain hleft => ?_) h
    rw [hclosed.extent] at hagain
    exact Clear.of_statement links body hn.2 hinner hpinner (fun _ => ⟨hend, hleft⟩) hagain
  | select node cases =>
    obtain ⟨inner, closed, back, hinner, hclosed, hback, rfl⟩ := hcode
    have hbackSize : back.size = 3 := hback.size fun _ => rfl
    rw [Placed.code_append_iff, Placed.code_append_iff, Placed.one_iff] at hplaced
    obtain ⟨⟨hpbegin, hpclosed⟩, hpwait, hpback, -⟩ := hplaced
    have hend := Instruction.le_size_of_holds hpback
    have hpinner := hclosed.placed _ _ _ hpclosed
    simp only [Code.extent_append, Code.extent_one, Code.extent_toArray, List.map_cons,
      List.map_nil, List.sum_cons, List.sum_nil, Step.size, Nat.add_zero, hclosed.extent,
      hbackSize, ← Nat.add_assoc] at hpinner hpwait hpback hend h
    refine .cons hpbegin (.of_select hpwait hback hpback (by push_cast; omega) (by omega)
      (fun n hagain hleft => ?_) h)
    exact Clear.of_choices links cases hn hinner hpinner ⟨hend, hleft⟩ hagain
  | callChapter node target | callScene node target =>
    obtain ⟨symbol, routine, i, hs, hr, hc, rfl⟩ := hcode
    obtain ⟨hi, hpop, -⟩ := hplaced
    simp only [Code.extent_toArray, List.map_cons, List.map_nil, List.sum_cons, List.sum_nil,
      Step.size, Nat.add_zero, ← Nat.add_assoc] at h
    exact .of_callsRoutine links hs hr hc hi (.cons hpop ⟨by omega, h⟩)
  | ret node value =>
    cases value with
    | none =>
      cases hcode
      exact .load hplaced.1 ⟨_, rfl⟩ (.cons hplaced.2.1 trivial)
    | some value =>
      obtain ⟨inner, hinner, rfl⟩ := hcode
      rw [Placed.code_append_iff, Placed.one_iff] at hplaced
      exact .of_expression links value hn hinner hplaced.1 (.cons hplaced.2 trivial)
  | exit node =>
    obtain ⟨hloop, rfl⟩ := hcode
    obtain ⟨⟨offset, hjump, ht⟩, -⟩ := hplaced
    exact .cons hjump ⟨exit, ht, hexit hloop⟩
  | expression node value =>
    obtain ⟨inner, hinner, rfl⟩ := hcode
    rw [Placed.code_append_iff, Placed.one_iff] at hplaced
    rw [Code.extent_append, Code.extent_one, ← Nat.add_assoc] at h
    exact .of_expression links value hn hinner hplaced.1 (.cons hplaced.2 ⟨by omega, h⟩)
  | dialogue node value => exact Clear.of_dialogue links value hn hcode hplaced hexit h
  | empty node =>
    cases hcode
    exact h

theorem Clear.of_statements (links : s.Links c b P) (body : List Statement)
    (hn : Names P (Statement.usesAll #[] body)) {inLoop : Bool} {code : Code}
    {n exit position depth : Nat} (hcode : Emit.StatementsCode c b inLoop body code)
    (hplaced : Placed s.code exit position code.toList)
    (hexit : inLoop → exit ≤ s.code.size ∧ s.Clear E n exit depth)
    (h : s.Clear E n (position + code.extent) depth) : s.Clear E n position depth := by
  cases body with
  | nil =>
    cases hcode
    exact h
  | cons first rest =>
    obtain ⟨code₁, code₂, hfirst, hrest, rfl⟩ := hcode
    rw [Statement.usesAll, names_statements] at hn
    rw [Placed.code_append_iff] at hplaced
    rw [Code.extent_append, ← Nat.add_assoc] at h
    exact Clear.of_statement links first hn.1 hfirst hplaced.1 hexit
      (Clear.of_statements links rest hn.2 hrest hplaced.2 hexit h)

theorem Clear.of_block (links : s.Links c b P) (body : Block) (hn : Names P (body.uses #[]))
    {inLoop : Bool} {code : Code} {n exit position depth : Nat}
    (hcode : Emit.BlockCode c b inLoop body code)
    (hplaced : Placed s.code exit position code.toList)
    (hexit : inLoop → exit ≤ s.code.size ∧ s.Clear E n exit depth)
    (h : s.Clear E n (position + code.extent) depth) : s.Clear E n position depth := by
  cases body with
  | mk node body => exact Clear.of_statements links body hn hcode hplaced hexit h

theorem Clear.of_choice (links : s.Links c b P) (case : Choice) (hn : Names P (case.uses #[]))
    {code : Code} {n exit position depth : Nat} (hcode : Emit.ChoiceCode c b case code)
    (hplaced : Placed s.code exit position code.toList)
    (hexit : exit ≤ s.code.size ∧ s.Clear E n exit depth)
    (h : s.Clear E n (position + code.extent) depth) : s.Clear E n position depth := by
  cases case with
  | mk node label body =>
    obtain ⟨token, skip, inner, ht, hskip, hinner, rfl⟩ := hcode
    have hskipSize : skip.size = 3 := hskip.size fun _ => rfl
    have hskip : Emit.Jumps (Spot.branch false) (inner.extent + 3 : Nat) skip := hskip
    rw [Placed.code_append_iff, Placed.code_append_iff] at hplaced
    obtain ⟨⟨⟨hptest, hpskip, -⟩, hpinner⟩, ⟨offset, hpleave, hoffset⟩, -⟩ := hplaced
    have hend := Instruction.le_size_of_holds hpleave
    simp only [Code.extent_append, Code.extent_toArray, List.map_cons, List.map_nil,
      List.sum_cons, List.sum_nil, Step.size, Nat.add_zero, hskipSize, ← Nat.add_assoc]
      at hpinner hpleave hoffset hend h
    refine .cons hptest ⟨links.texts _ _ ht, .of_branch hskip hpskip ?_ hend h ?_⟩
    · simp only [Instruction.size]
      push_cast
      omega
    · refine Clear.of_statement links body hn hinner hpinner (fun _ => hexit) ?_
      exact .cons hpleave ⟨exit, hoffset, hexit⟩

theorem Clear.of_choices (links : s.Links c b P) (cases : List Choice)
    (hn : Names P (Choice.usesAll #[] cases)) {code : Code} {n exit position depth : Nat}
    (hcode : Emit.ChoicesCode c b cases code)
    (hplaced : Placed s.code exit position code.toList)
    (hexit : exit ≤ s.code.size ∧ s.Clear E n exit depth)
    (h : s.Clear E n (position + code.extent) depth) : s.Clear E n position depth := by
  cases cases with
  | nil =>
    cases hcode
    exact h
  | cons case rest =>
    obtain ⟨code₁, code₂, hfirst, hrest, rfl⟩ := hcode
    rw [Choice.usesAll, names_choices] at hn
    rw [Placed.code_append_iff] at hplaced
    rw [Code.extent_append, ← Nat.add_assoc] at h
    exact Clear.of_choice links case hn.1 hfirst hplaced.1 hexit
      (Clear.of_choices links rest hn.2 hrest hplaced.2 hexit h)

theorem Clear.of_dialogue (links : s.Links c b P) (value : Dialogue)
    (hn : Names P (value.uses #[])) {inLoop : Bool} {code : Code} {n exit position depth : Nat}
    (hcode : Emit.DialogueCode c b inLoop value code)
    (hplaced : Placed s.code exit position code.toList)
    (hexit : inLoop → exit ≤ s.code.size ∧ s.Clear E n exit depth)
    (h : s.Clear E n (position + code.extent) depth) : s.Clear E n position depth := by
  cases value with
  | mk node box name parts =>
    obtain ⟨index, inner, hinner, rfl⟩ := hcode
    rw [Placed.code_append_iff, Placed.one_iff] at hplaced
    rw [Code.extent_append, Code.extent_one, ← Nat.add_assoc] at h
    exact .cons hplaced.1 (Clear.of_dialogueParts links parts hn hinner hplaced.2 hexit h)

theorem Clear.of_dialoguePart (links : s.Links c b P) (part : DialoguePart)
    (hn : Names P (part.uses #[])) {inLoop : Bool} {code : Code} {n exit position depth : Nat}
    (hcode : Emit.DialoguePartCode c b inLoop part code)
    (hplaced : Placed s.code exit position code.toList)
    (hexit : inLoop → exit ≤ s.code.size ∧ s.Clear E n exit depth)
    (h : s.Clear E n (position + code.extent) depth) : s.Clear E n position depth := by
  cases part with
  | markup pieces span =>
    obtain ⟨token, ht, rfl⟩ := hcode
    rw [Placed.one_iff] at hplaced
    rw [Code.extent_one] at h
    exact .cons hplaced ⟨links.texts _ _ ht, h⟩
  | code body => exact Clear.of_block links body hn hcode hplaced hexit h

theorem Clear.of_dialogueParts (links : s.Links c b P) (parts : List DialoguePart)
    (hn : Names P (DialoguePart.usesAll #[] parts)) {inLoop : Bool} {code : Code}
    {n exit position depth : Nat} (hcode : Emit.DialoguePartsCode c b inLoop parts code)
    (hplaced : Placed s.code exit position code.toList)
    (hexit : inLoop → exit ≤ s.code.size ∧ s.Clear E n exit depth)
    (h : s.Clear E n (position + code.extent) depth) : s.Clear E n position depth := by
  cases parts with
  | nil =>
    cases hcode
    exact h
  | cons part rest =>
    obtain ⟨code₁, code₂, hfirst, hrest, rfl⟩ := hcode
    rw [DialoguePart.usesAll, names_dialogueParts] at hn
    rw [Placed.code_append_iff] at hplaced
    rw [Code.extent_append, ← Nat.add_assoc] at h
    exact Clear.of_dialoguePart links part hn.1 hfirst hplaced.1 hexit
      (Clear.of_dialogueParts links rest hn.2 hrest hplaced.2 hexit h)

end

lemma Clear.of_member (links : s.Links c b P) (member : Member) (hn : Names P member.uses)
    {code : Code} (hcode : Emit.MemberCode c b member code)
    (hplaced : Placed s.code exit position code.toList) : s.Clear E n position 0 := by
  obtain ⟨inner, hinner, rfl⟩ := hcode
  rw [Placed.code_append_iff] at hplaced
  obtain ⟨hpinner, hpnull, hpret, -⟩ := hplaced
  have hlast : s.Clear E n (position + inner.extent) 0 :=
    .load hpnull ⟨_, rfl⟩ (.cons hpret trivial)
  have hexit : false = true → exit ≤ s.code.size ∧ s.Clear E n exit 0 := fun h => by cases h
  cases member with
  | chapter node name body | scene node name body | function node name parameters body =>
    exact .of_block links body hn hinner hpinner hexit hlast
  | dialogue value => exact .of_dialogue links value hn hinner hpinner hexit hlast

end Trees

def Safe (s : Site) (position depth : Nat) : Prop :=
  ∀ n, s.Good n position depth

lemma Leads.forall {offset : Int16} {K : Nat → Nat → Nat → Prop}
    (h : ∀ n, s.Leads next offset depth (K n)) :
    s.Leads next offset depth fun p d => ∀ n, K n p d := by
  obtain ⟨target, ht, hs, -⟩ := h 0
  refine ⟨target, ht, hs, fun n => ?_⟩
  obtain ⟨target', ht', -, hn⟩ := h n
  rwa [show target = target' by omega]

lemma Calls.forall {m : Module} {routine : UInt16} {K : Nat → Nat → Nat → Prop}
    (h : ∀ n, Calls m routine next depth (K n)) :
    Calls m routine next depth fun p d => ∀ n, K n p d := by
  obtain ⟨parameters, hp, hd, -⟩ := h 0
  refine ⟨parameters, hp, hd, fun n => ?_⟩
  obtain ⟨parameters', hp', -, hn⟩ := h n
  rw [hp, Except.ok.injEq] at hp'
  rwa [hp']

lemma Allows.forall {i : Instruction} {K : Nat → Nat → Nat → Prop}
    (h : ∀ n, s.Allows next depth (K n) i) :
    s.Allows next depth (fun p d => ∀ n, K n p d) i := by
  cases i with
  | load _ | loadArgument _ | loadGlobal _ | isPressed _ | present _ | binary _ | unary _ | pop
  | dup => exact ⟨(h 0).1, fun n => (h n).2⟩
  | storeArgument _ | storeGlobal _ => exact ⟨(h 0).1, (h 0).2.1, fun n => (h n).2.2⟩
  | jump _ => exact Leads.forall h
  | jumpIfTrue _ | jumpIfFalse _ =>
    exact ⟨(h 0).1, fun n => (h n).2.1, Leads.forall fun n => (h n).2.2⟩
  | call _ => exact Calls.forall h
  | callFar _ _ =>
    obtain ⟨name, m, hname, hm, -⟩ := h 0
    refine ⟨name, m, hname, hm, Calls.forall fun n => ?_⟩
    obtain ⟨name', m', hname', hm', hc⟩ := h n
    rw [hname, Except.ok.injEq] at hname'
    subst hname'
    rw [hm, Option.some.injEq] at hm'
    rwa [hm']
  | dispatch _ _ =>
    obtain ⟨signature, hs, ha, hd, -⟩ := h 0
    refine ⟨signature, hs, ha, hd, fun n => ?_⟩
    obtain ⟨_, _, _, _, hn⟩ := h n
    exact hn
  | beginDialogue _ | selectStart | selectEnd => exact h
  | trap _ | ret => exact h 0

def Free (s : Site) (E : Nat → Nat → Prop) (position depth : Nat) : Prop :=
  ∀ n, s.Clear E n position depth

lemma Free.step {position depth : Nat} (h : s.Free E position depth) :
    E position depth ∨
      ∃ i, Holds s.code position i.encode ∧ s.Allows (position + i.size) depth (s.Free E) i := by
  obtain hend | ⟨i, hi, -⟩ := h 1
  · exact .inl hend
  · by_cases hend : E position depth
    · exact .inl hend
    refine .inr ⟨i, hi, Allows.forall fun n => ?_⟩
    obtain ⟨i', hi', ha⟩ := (h (n + 1)).resolve_left hend
    cases Instruction.eq_of_holds hi hi'
    exact ha

lemma safe_iff_free {position depth : Nat} :
    s.Safe position depth ↔ s.Free (fun _ _ => False) position depth :=
  forall_congr' fun _ => good_iff_clear

lemma Safe.step {position depth : Nat} (h : s.Safe position depth) :
    ∃ i, Holds s.code position i.encode ∧ s.Allows (position + i.size) depth s.Safe i := by
  obtain ⟨⟨⟩⟩ | ⟨i, hi, ha⟩ := (safe_iff_free.mp h).step
  exact ⟨i, hi, ha.mono fun _ _ => safe_iff_free.mpr⟩

def UpTo (s : Site) (stop left : Nat) : Nat → Nat → Prop :=
  Site.Free { s with code := s.code.extract 0 stop } fun p d => p = stop ∧ d = left

variable {stop left pos : Nat} {j : Instruction}

lemma UpTo.eq_left (h : s.UpTo stop left stop depth) : depth = left := by
  obtain ⟨-, hd⟩ | ⟨i, hi, -⟩ := Free.step h
  · exact hd
  · have hend : stop + i.size ≤ (s.code.extract 0 stop).size := Instruction.le_size_of_holds hi
    have hpos := i.size_pos
    rw [ByteArray.size_extract] at hend
    omega

lemma UpTo.allows (h : s.UpTo stop left pos depth) (hne : pos ≠ stop)
    (hj : Holds s.code pos j.encode) :
    Site.Allows { s with code := s.code.extract 0 stop } (pos + j.size) depth (s.UpTo stop left)
      j := by
  obtain ⟨hstop, -⟩ | ⟨i, hi, hallows⟩ := Free.step h
  · exact absurd hstop hne
  · cases Instruction.eq_of_holds (Holds.of_cut hi) hj
    exact hallows

end Site

end Stagecraft
