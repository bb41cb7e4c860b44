import Stagecraft.Proofs.Code.ExpressionRun
import Stagecraft.Proofs.Code.Structured
import Stagecraft.Proofs.Meaning.Statement

/-!
The machine goes through the code of a statement as the statement is executed: it comes to the end
of the code, to where the loop around it is left, to a return or to a fault, and it stays in the
code forever if the execution never finishes.
-/

namespace Stagecraft

open Bytes (Holds)

structure Ways where
  next : Nat
  exit : Nat
  stack : Array Value

def Memory.Ends [Stage σ] (x : Nat → Evaluation σ Completion) (m : Memory σ)
    (r : Except Fault Completion) (arguments : Array Value) (stage : σ) : Prop :=
  r ≠ .ok .unfinished ∧ ∃ bound m', x bound m = (r, m') ∧ m'.arguments = arguments ∧
    m'.stage = stage

namespace Spot

variable {σ : Type} [Stage σ] {s : Setting} {k : Spot} {w : World σ} {low high least : Nat}
  {ways : Ways}

/-- A run of `n` steps has come to where an execution with the result `r` leads. One that is not
finished leads nowhere, but it takes at least a number of steps. -/
def Arrives (s : Setting) (k : Spot) (w : World σ) (low high least : Nat) (ways : Ways)
    (r : Except Fault Completion × Memory σ) (n : Nat) (b : Moment σ) : Prop :=
  match r with
  | (.ok .normal, m) => b = m.at_ w ⟨ways.next, ways.stack⟩
  | (.ok .broke, m) => b = m.at_ w ⟨ways.exit, ways.stack⟩
  | (.ok (.returned v), m) => ∃ p, b = m.at_ w ⟨p, ways.stack.push v⟩ ∧ (low ≤ p ∧ p < high) ∧
      Holds k.body.code p Instruction.ret.encode
  | (.ok .unfinished, _) => least ≤ n
  | (.error f, m) => ∃ p e, b = m.at_ w p ∧ (low ≤ p.position ∧ p.position < high) ∧
      f.Causes e ∧ k.Fails s b e

def Performs (s : Setting) (k : Spot) (w : World σ) (low high least : Nat) (ways : Ways)
    (x : Evaluation σ Completion) (start : Place) : Prop :=
  ∀ m, ∃ n b, k.Run s low high n (m.at_ w start) b ∧
    k.Arrives s w low high least ways (x m) n b

lemma Arrives.mono {low' high' least' n n' : Nat} {r : Except Fault Completion × Memory σ}
    {b : Moment σ} (h : k.Arrives s w low high least ways r n b) (hl : low' ≤ low)
    (hh : high ≤ high') (hn : least ≤ n → least' ≤ n') :
    k.Arrives s w low' high' least' ways r n' b := by
  match r, h with
  | (.ok .normal, m), h | (.ok .broke, m), h => exact h
  | (.ok (.returned v), m), ⟨p, hb, inside, hret⟩ => exact ⟨p, hb, by omega, hret⟩
  | (.ok .unfinished, m), h => exact hn h
  | (.error f, m), ⟨p, e, hb, inside, hfail⟩ => exact ⟨p, e, hb, by omega, hfail⟩

namespace Performs

variable {x : Evaluation σ Completion} {start : Place}

lemma mono {low' high' least' : Nat} (h : Performs s k w low high least ways x start)
    (hl : low' ≤ low) (hh : high ≤ high') (hn : least' ≤ least) :
    Performs s k w low' high' least' ways x start := by
  intro m
  obtain ⟨n, b, hrun, harrives⟩ := h m
  exact ⟨n, b, hrun.mono hl hh, harrives.mono hl hh (Nat.le_trans hn)⟩

lemma normal : Performs s k w low high least ways (pure .normal) ⟨ways.next, ways.stack⟩ :=
  fun _ => ⟨0, _, .refl _, rfl⟩

lemma broke : Performs s k w low high least ways (pure .broke) ⟨ways.exit, ways.stack⟩ :=
  fun _ => ⟨0, _, .refl _, rfl⟩

lemma returned {p : Nat} {v : Value} (inside : low ≤ p ∧ p < high)
    (h : Holds k.body.code p Instruction.ret.encode) :
    Performs s k w low high least ways (pure (.returned v)) ⟨p, ways.stack.push v⟩ :=
  fun _ => ⟨0, _, .refl _, p, rfl, inside, h⟩

lemma after {y : Evaluation σ α} {f : α → Evaluation σ Completion} {mid : α → Place}
    (hy : Computes s k w low high y start mid)
    (hf : ∀ a, Performs s k w low high least ways (f a) (mid a)) :
    Performs s k w low high least ways (y >>= f) start := by
  intro m
  have hm := hy m
  rw [StateExcept.bind_apply]
  rcases hr : y m with ⟨r, m₁⟩
  rw [hr] at hm
  cases r with
  | error f =>
    obtain ⟨n, p, e, hrun, inside, hc, hfail⟩ := hm
    exact ⟨n, _, hrun, p, e, rfl, inside, hc, hfail⟩
  | ok a =>
    obtain ⟨n, hrun⟩ := hm
    obtain ⟨n', b, hrun', harrives⟩ := hf a m₁
    exact ⟨n + n', b, hrun.trans hrun', harrives.mono (Nat.le_refl _) (Nat.le_refl _) (by omega)⟩

lemma next {mid : Place} (inside : low ≤ start.position ∧ start.position < high)
    (hn : ∀ m : Memory σ, k.Next s (m.at_ w start) (m.at_ w mid))
    (h : Performs s k w low high least ways x mid) :
    Performs s k w low high (least + 1) ways x start := by
  intro m
  obtain ⟨n, b, hrun, harrives⟩ := h m
  exact ⟨n + 1, b, .step inside (hn m) hrun,
    harrives.mono (Nat.le_refl _) (Nat.le_refl _) Nat.succ_le_succ⟩

lemma bind {f : Completion → Evaluation σ Completion} {inner : Ways}
    (hx : Performs s k w low high least inner x start) (hstack : inner.stack = ways.stack)
    (hnormal : Performs s k w low high least ways (f .normal) ⟨inner.next, inner.stack⟩)
    (hbroke : Performs s k w low high least ways (f .broke) ⟨inner.exit, inner.stack⟩)
    (hreturned : ∀ v, f (.returned v) = pure (.returned v))
    (hunfinished : f .unfinished = pure .unfinished) :
    Performs s k w low high least ways (x >>= f) start := by
  intro m
  obtain ⟨n, b, hrun, harrives⟩ := hx m
  rw [StateExcept.bind_apply]
  rcases hr : x m with ⟨r, m₁⟩
  rw [hr] at harrives
  match r, harrives with
  | .error f, harrives => exact ⟨n, b, hrun, harrives⟩
  | .ok .normal, hb =>
    cases hb
    obtain ⟨n', b, hrun', harrives⟩ := hnormal m₁
    exact ⟨n + n', b, hrun.trans hrun', harrives.mono (Nat.le_refl _) (Nat.le_refl _) (by omega)⟩
  | .ok .broke, hb =>
    cases hb
    obtain ⟨n', b, hrun', harrives⟩ := hbroke m₁
    exact ⟨n + n', b, hrun.trans hrun', harrives.mono (Nat.le_refl _) (Nat.le_refl _) (by omega)⟩
  | .ok (.returned v), ⟨p, hb, inside, hret⟩ =>
    refine ⟨n, b, hrun, ?_⟩
    simp only [hreturned]
    exact ⟨p, hstack ▸ hb, inside, hret⟩
  | .ok .unfinished, hn =>
    refine ⟨n, b, hrun, ?_⟩
    simp only [hunfinished]
    exact hn

lemma finish {mid : Nat} (hx : Performs s k w low high least { ways with next := mid } x start)
    (inside : low ≤ mid ∧ mid < high)
    (hn : ∀ m : Memory σ,
      k.Next s (m.at_ w ⟨mid, ways.stack⟩) (m.at_ w ⟨ways.next, ways.stack⟩)) :
    Performs s k w low high least ways x start := by
  intro m
  obtain ⟨n, b, hrun, harrives⟩ := hx m
  rcases hr : x m with ⟨r, m₁⟩
  rw [hr] at harrives
  match r, harrives with
  | .ok .normal, hb =>
    cases hb
    exact ⟨n + 1, _, hrun.trans (.one inside (hn m₁)), rfl⟩
  | .ok .broke, harrives | .ok (.returned v), harrives | .ok .unfinished, harrives
  | .error f, harrives => exact ⟨n, b, hrun, harrives⟩

lemma andThen {y : Evaluation σ Completion} {mid : Nat}
    (hx : Performs s k w low high least { ways with next := mid } x start)
    (hy : Performs s k w low high least ways y ⟨mid, ways.stack⟩) :
    Performs s k w low high least ways (Evaluation.andThen x y) start :=
  hx.bind rfl hy .broke (fun _ => rfl) rfl

lemma iterate {test : Evaluation σ Value} {body : Evaluation σ Completion} {bound : Nat}
    {branchAt bodyAt backAt : Nat}
    (htest : Computes s k w low high test ⟨low, ways.stack⟩
      fun v => ⟨branchAt, ways.stack.push v⟩)
    (hbranch : ∀ v : Value, Computes s k w low high (Evaluation.ofValue v.toBool)
      ⟨branchAt, ways.stack.push v⟩
      fun truth => ⟨if truth = false then ways.next else bodyAt, ways.stack⟩)
    (hbody : Performs s k w low high bound ⟨backAt, ways.next, ways.stack⟩ body
      ⟨bodyAt, ways.stack⟩)
    (hback : ∀ m : Memory σ, k.Next s (m.at_ w ⟨backAt, ways.stack⟩) (m.at_ w ⟨low, ways.stack⟩))
    (inside : low ≤ backAt ∧ backAt < high) {n : Nat} (hn : n ≤ bound) :
    Performs s k w low high n ways (Evaluation.iterate test body n) ⟨low, ways.stack⟩ := by
  induction n with
  | zero => exact fun m => ⟨0, _, .refl _, Nat.le_refl 0⟩
  | succ n ih =>
    refine .after htest fun v => .after (hbranch v) fun truth => ?_
    cases truth with
    | false => exact .normal
    | true =>
      refine (hbody.mono (Nat.le_refl _) (Nat.le_refl _) hn).bind rfl ?_ .normal (fun _ => rfl) rfl
      exact .next inside hback (ih (Nat.le_of_succ_le hn))

end Performs

lemma next_of_jumps {position target : Nat} {distance : Int} {i : Instruction}
    {stack : Array Value} {m : Memory σ} (h : Emit.Jumps .jump distance i)
    (hholds : Holds k.body.code position i.encode)
    (ht : (position + 3 + distance : Int) = target) (hs : target ≤ k.body.code.size) :
    k.Next s (m.at_ w ⟨position, stack⟩) (m.at_ w ⟨target, stack⟩) := by
  obtain ⟨hd, rfl⟩ := h
  refine next_jump hholds ?_ hs
  rw [Int16.toInt_ofInt_of_le hd.1 (by omega), ht]

section Statements

variable {c : Emit.Context} {b : Builder} {inLoop : Bool} {bound exit position : Nat}
  {stack : Array Value} {code : Code}

lemma computes_condition {condition : Expression} {test : Code} {skip : Instruction}
    {distance : Int} (target high : Nat) (hb : b.TextsIn k.frame.module)
    (hs : k.frame.base ≤ stack.size) (he : condition.isCallFree)
    (htest : Emit.ExpressionCode c b condition test)
    (hskip : Emit.Jumps .jumpIfFalse distance skip)
    (hplaced : Placed k.body.code exit position (test ++ Code.one skip).toList)
    (ht : (position + test.extent + 3 + distance : Int) = target)
    (hsize : target ≤ k.body.code.size) (hh : position + test.extent + 3 ≤ high) :
    Computes s k w position high (condition.evaluate Literal.unsigned c.bindings)
        ⟨position, stack⟩ (fun v => ⟨position + test.extent, stack.push v⟩) ∧
      ∀ v : Value, Computes s k w position high (Evaluation.ofValue v.toBool)
        ⟨position + test.extent, stack.push v⟩
        fun truth => ⟨if truth = false then target else position + test.extent + 3, stack⟩ := by
  rw [Placed.code_append_iff, Placed.one_iff] at hplaced
  have hskip : Emit.Jumps (branch false) distance skip := hskip
  refine ⟨(computes_expression hb he htest hplaced.1 hs).mono (Nat.le_refl _) (by omega),
    fun v => ?_⟩
  exact computes_truth hskip hplaced.2 hs (by exact_mod_cast ht) hsize ⟨by omega, by omega⟩

mutual

theorem performs_statement (hb : b.TextsIn k.frame.module) (hs : k.frame.base ≤ stack.size)
    (statement : Statement) (hp : statement.isPlain Expression.isCallFree) {inLoop : Bool}
    {exit position : Nat} {code : Code} (hcode : Emit.StatementCode c b inLoop statement code)
    (hplaced : Placed k.body.code exit position code.toList)
    (hexit : inLoop → exit ≤ k.body.code.size) :
    Performs s k w position (position + code.extent) bound
      ⟨position + code.extent, exit, stack⟩
      (statement.execute Literal.unsigned c.bindings bound) ⟨position, stack⟩ := by
  cases statement with
  | block node body => exact performs_block hb hs body hp hcode hplaced hexit
  | ifThen node condition yes =>
    simp only [Statement.isPlain, Bool.and_eq_true] at hp
    obtain ⟨test, skip, first, htest, hskip, hfirst, rfl⟩ := hcode
    have hsize : skip.size = 3 := hskip.size fun _ => rfl
    rw [Placed.code_append_iff] at hplaced
    obtain ⟨hptest, hpfirst⟩ := hplaced
    have hend := hpfirst.le_size (hptest.le_size_of_one)
    simp only [Code.extent_append, Code.extent_one, hsize, ← Nat.add_assoc] at hpfirst hend ⊢
    obtain ⟨hvalue, htruth⟩ := computes_condition (s := s) (w := w)
      (position + test.extent + 3 + first.extent) (position + test.extent + 3 + first.extent)
      hb hs hp.1 htest hskip hptest (by push_cast; omega) hend (by omega)
    refine .after hvalue fun v => .after (htruth v) fun truth => ?_
    cases truth with
    | false => exact .normal
    | true =>
      exact (performs_statement hb hs yes hp.2 hfirst hpfirst hexit).mono (by omega)
        (Nat.le_refl _) (Nat.le_refl _)
  | ifElse node condition yes no =>
    simp only [Statement.isPlain, Bool.and_eq_true] at hp
    obtain ⟨test, skip, first, leap, second, htest, hskip, hfirst, hleap, hsecond, rfl⟩ := hcode
    have hskipSize : skip.size = 3 := hskip.size fun _ => rfl
    have hleapSize : leap.size = 3 := hleap.size fun _ => rfl
    rw [Placed.code_append_iff, Placed.code_append_iff, Placed.code_append_iff, Placed.one_iff]
      at hplaced
    obtain ⟨⟨⟨hptest, hpfirst⟩, hpleap⟩, hpsecond⟩ := hplaced
    have hend := Instruction.le_size_of_holds hpleap
    simp only [Code.extent_append, Code.extent_one, hskipSize, hleapSize, ← Nat.add_assoc]
      at hpfirst hpleap hpsecond hend ⊢
    have hstop := hpsecond.le_size hend
    generalize hsecondAt : position + test.extent + 3 + first.extent + 3 = secondAt at *
    obtain ⟨hvalue, htruth⟩ := computes_condition (s := s) (w := w) secondAt
      (secondAt + second.extent) hb hs hp.1.1 htest hskip hptest (by push_cast; omega) hend
      (by omega)
    refine .after hvalue fun v => .after (htruth v) fun truth => ?_
    cases truth with
    | false =>
      exact (performs_statement hb hs no hp.2 hsecond hpsecond hexit).mono (by omega)
        (Nat.le_refl _) (Nat.le_refl _)
    | true =>
      have hyes := performs_statement hb hs yes hp.1.2 hfirst hpfirst hexit
      refine (hyes.mono (by omega) (by omega) (Nat.le_refl _)).finish ⟨by omega, by omega⟩
        fun m => ?_
      exact next_of_jumps hleap hpleap (by push_cast; omega) hstop
  | loop node condition body =>
    simp only [Statement.isPlain, Bool.and_eq_true] at hp
    obtain ⟨test, skip, inner, closed, back, htest, hskip, hinner, hclosed, hback, rfl⟩ := hcode
    have hskipSize : skip.size = 3 := hskip.size fun _ => rfl
    have hbackSize : back.size = 3 := hback.size fun _ => rfl
    rw [Placed.code_append_iff, Placed.code_append_iff, Placed.one_iff] at hplaced
    obtain ⟨⟨hptest, hpclosed⟩, hpback⟩ := hplaced
    have hpinner := hclosed.placed _ _ _ hpclosed
    have hend := Instruction.le_size_of_holds hpback
    simp only [Code.extent_append, Code.extent_one, hskipSize, hbackSize, hclosed.extent,
      ← Nat.add_assoc] at hpinner hpback hend ⊢
    generalize hbackAt : position + test.extent + 3 + inner.extent = backAt at *
    obtain ⟨hvalue, htruth⟩ := computes_condition (s := s) (w := w) (backAt + 3) (backAt + 3)
      hb hs hp.1 htest hskip hptest (by push_cast; omega) hend (by omega)
    -- `break` leaves the body for the place behind the jump back
    have hbody := performs_statement hb hs body hp.2 hinner hpinner fun _ => hend
    rw [hbackAt] at hbody
    refine .iterate hvalue htruth (hbody.mono (by omega) (by omega) (Nat.le_refl _)) (fun m => ?_)
      ⟨by omega, by omega⟩ (Nat.le_refl _)
    exact next_of_jumps hback hpback (by push_cast; omega) (by omega)
  | ret node value =>
    cases value with
    | none =>
      cases hcode
      obtain ⟨hload, hret, -⟩ := hplaced
      have hextent : Code.extent #[.run (.load .null), .run .ret] = 3 := rfl
      have hnull : Performs s k w position (position + 3) bound ⟨position + 3, exit, stack⟩
          (pure (.returned .null)) ⟨position + 2, stack.push .null⟩ :=
        .returned ⟨by omega, by omega⟩ hret
      rw [hextent]
      exact (hnull.next ⟨Nat.le_refl _, by simp⟩ fun m => next_load hload rfl).mono
        (Nat.le_refl _) (Nat.le_refl _) (Nat.le_succ _)
    | some value =>
      obtain ⟨inner, hinner, rfl⟩ := hcode
      rw [Placed.code_append_iff, Placed.one_iff] at hplaced
      simp only [Code.extent_append, Code.extent_one, ← Nat.add_assoc]
      refine .after ((computes_expression hb hp hinner hplaced.1 hs).mono (Nat.le_refl _)
        (Nat.le_add_right _ _)) fun v => ?_
      exact .returned ⟨Nat.le_add_right _ _, by simp [Instruction.size]⟩ hplaced.2
  | exit node =>
    obtain ⟨hloop, rfl⟩ := hcode
    obtain ⟨⟨offset, hjump, ht⟩, -⟩ := hplaced
    -- the open jump stands there filled in, and leads to `exit`
    refine fun m => ⟨1, _, .one ?_ (next_jump hjump ht (hexit hloop)), rfl⟩
    simp [Memory.at_, Step.size, Step.jumpSize]
  | expression node value =>
    obtain ⟨inner, hinner, rfl⟩ := hcode
    rw [Placed.code_append_iff, Placed.one_iff] at hplaced
    simp only [Code.extent_append, Code.extent_one, ← Nat.add_assoc]
    refine .after ((computes_expression hb hp hinner hplaced.1 hs).mono (Nat.le_refl _)
      (Nat.le_add_right _ _)) fun v => ?_
    have hpop : Performs s k w position (position + inner.extent + 1) (bound + 1)
        ⟨position + inner.extent + 1, exit, stack⟩ (pure .normal)
        ⟨position + inner.extent, stack.push v⟩ :=
      .next ⟨Nat.le_add_right _ _, by simp⟩ (fun m => next_pop hplaced.2 hs) .normal
    exact hpop.mono (Nat.le_refl _) (Nat.le_refl _) (Nat.le_succ _)
  | empty node =>
    cases hcode
    exact .normal
  | _ => cases hp

theorem performs_statements (hb : b.TextsIn k.frame.module) (hs : k.frame.base ≤ stack.size)
    (body : List Statement) (hp : Statement.arePlain Expression.isCallFree body) {inLoop : Bool}
    {exit position : Nat} {code : Code} (hcode : Emit.StatementsCode c b inLoop body code)
    (hplaced : Placed k.body.code exit position code.toList)
    (hexit : inLoop → exit ≤ k.body.code.size) :
    Performs s k w position (position + code.extent) bound
      ⟨position + code.extent, exit, stack⟩
      (Statement.executeAll Literal.unsigned c.bindings bound body) ⟨position, stack⟩ := by
  cases body with
  | nil =>
    cases hcode
    exact .normal
  | cons first rest =>
    simp only [Statement.arePlain, Bool.and_eq_true] at hp
    obtain ⟨code₁, code₂, hfirst, hrest, rfl⟩ := hcode
    rw [Placed.code_append_iff] at hplaced
    rw [Code.extent_append, ← Nat.add_assoc]
    have hx := performs_statement hb hs first hp.1 hfirst hplaced.1 hexit
    have hy := performs_statements hb hs rest hp.2 hrest hplaced.2 hexit
    exact (hx.mono (Nat.le_refl _) (by omega) (Nat.le_refl _)).andThen
      (hy.mono (by omega) (Nat.le_refl _) (Nat.le_refl _))

theorem performs_block (hb : b.TextsIn k.frame.module) (hs : k.frame.base ≤ stack.size)
    (body : Block) (hp : body.isPlain Expression.isCallFree) {inLoop : Bool}
    {exit position : Nat} {code : Code} (hcode : Emit.BlockCode c b inLoop body code)
    (hplaced : Placed k.body.code exit position code.toList)
    (hexit : inLoop → exit ≤ k.body.code.size) :
    Performs s k w position (position + code.extent) bound
      ⟨position + code.extent, exit, stack⟩
      (body.execute Literal.unsigned c.bindings bound) ⟨position, stack⟩ := by
  cases body with
  | mk node body => exact performs_statements hb hs body hp hcode hplaced hexit

end

end Statements

def Finished (r : Except Fault Completion × Memory σ) : Prop :=
  r.1 ≠ .ok .unfinished

section Arrival

variable {r r' : Except Fault Completion × Memory σ} {n n' : Nat} {b : Moment σ}

lemma Arrives.stops (h : k.Arrives s w low high least ways r n b) (hr : Finished r)
    (hnext : high ≤ ways.next) (hexit : high ≤ ways.exit) : k.Stops s low high b := by
  match r, h with
  | (.ok .normal, m), hb =>
    subst hb
    exact .of_outside hnext
  | (.ok .broke, m), hb =>
    subst hb
    exact .of_outside hexit
  | (.ok (.returned v), m), ⟨p, hb, _, hret⟩ =>
    subst hb
    exact fun _ _ => not_next_ret hret
  | (.ok .unfinished, m), _ => exact absurd rfl hr
  | (.error f, m), ⟨p, e, hb, _, _, hfail⟩ => exact .of_fails hfail

lemma Arrives.of_same (h : k.Arrives s w low high least ways r n b) (hr : Memory.Same r r') :
    k.Arrives s w low high least ways r' n b := by
  obtain ⟨r, m⟩ := r
  obtain ⟨r', m'⟩ := r'
  obtain ⟨rfl, ha, hs⟩ := hr
  have hat (p : Place) : m.at_ w p = m'.at_ w p := by
    simp only at ha hs
    simp only [Memory.at_, ha, hs]
  rcases r with f | (_ | _ | v | _) <;> simpa only [Arrives, hat] using h

lemma Arrives.value_error (h : k.Arrives s w low high least ways r n b) (hr : Finished r)
    (hnext : high ≤ ways.next) (hexit : high ≤ ways.exit) {e : ValueError}
    (inside : low ≤ b.position ∧ b.position < high) (hfail : k.Fails s b (.value e)) :
    r.1 = .error (.value e) := by
  match r, h with
  | (.ok .normal, m), hb =>
    subst hb
    exact absurd inside.2 (Nat.not_lt.mpr hnext)
  | (.ok .broke, m), hb =>
    subst hb
    exact absurd inside.2 (Nat.not_lt.mpr hexit)
  | (.ok (.returned v), m), ⟨p, hb, _, hret⟩ =>
    subst hb
    exact absurd hfail (not_fails_ret hret)
  | (.ok .unfinished, m), _ => exact absurd rfl hr
  | (.error f, m), ⟨p, e', hb, _, hc, hfail'⟩ =>
    cases hfail.unique hfail'
    rw [show f = .value e from hc.unique rfl]

lemma Arrives.same (h : k.Arrives s w low high least ways r n b)
    (h' : k.Arrives s w low high least ways r' n' b) (hr : Finished r) (hr' : Finished r')
    (hnext : high ≤ ways.next) (hexit : ways.next < ways.exit) : Memory.Same r r' := by
  have hposition {m m' : Memory σ} {p p' : Place} (hb : b = m.at_ w p) (hb' : b = m'.at_ w p') :
      p.position = p'.position :=
    congrArg Moment.position (hb.symm.trans hb')
  match r, r', h, h' with
  | (.ok .unfinished, _), _, _, _ => exact absurd rfl hr
  | _, (.ok .unfinished, _), _, _ => exact absurd rfl hr'
  | (.ok .normal, m), (.ok .normal, m'), hb, hb' | (.ok .broke, m), (.ok .broke, m'), hb, hb' =>
    obtain ⟨ha, hs, -⟩ := Memory.Same.of_at (hb.symm.trans hb')
    exact ⟨rfl, ha, hs⟩
  | (.ok (.returned v), m), (.ok (.returned v'), m'), ⟨p, hb, _⟩, ⟨p', hb', _⟩ =>
    obtain ⟨ha, hs, hp⟩ := Memory.Same.of_at (hb.symm.trans hb')
    cases Array.push_inj_right.mp (congrArg Place.stack hp)
    exact ⟨rfl, ha, hs⟩
  | (.error f, m), (.error f', m'), ⟨p, e, hb, _, hc, hfail⟩, ⟨p', e', hb', _, hc', hfail'⟩ =>
    obtain ⟨ha, hs, -⟩ := Memory.Same.of_at (hb.symm.trans hb')
    cases hfail.unique hfail'
    exact ⟨by rw [hc.unique hc'], ha, hs⟩
  | (.ok .normal, m), (.ok .broke, m'), hb, hb' | (.ok .broke, m), (.ok .normal, m'), hb', hb =>
    have := hposition hb hb'
    simp only at this
    omega
  | (.ok .normal, m), (.ok (.returned v), m'), hb, ⟨p, hb', inside, _⟩
  | (.ok (.returned v), m), (.ok .normal, m'), ⟨p, hb', inside, _⟩, hb
  | (.ok .broke, m), (.ok (.returned v), m'), hb, ⟨p, hb', inside, _⟩
  | (.ok (.returned v), m), (.ok .broke, m'), ⟨p, hb', inside, _⟩, hb
  | (.ok .normal, m), (.error f, m'), hb, ⟨p, _, hb', inside, _⟩
  | (.error f, m), (.ok .normal, m'), ⟨p, _, hb', inside, _⟩, hb
  | (.ok .broke, m), (.error f, m'), hb, ⟨p, _, hb', inside, _⟩
  | (.error f, m), (.ok .broke, m'), ⟨p, _, hb', inside, _⟩, hb =>
    have := hposition hb hb'
    simp only at this
    omega
  | (.ok (.returned v), m), (.error f, m'), ⟨p, hb, _, hret⟩, ⟨p', e, hb', _, _, hfail⟩
  | (.error f, m), (.ok (.returned v), m'), ⟨p', e, hb', _, _, hfail⟩, ⟨p, hb, _, hret⟩ =>
    subst hb
    exact absurd hfail (not_fails_ret hret)

end Arrival

/-- Running `length` bytes of code from a moment on is the execution of a statement, under ever
greater bounds: the machine arrives where the execution leads, it fails with an error of a value
exactly if the execution meets one, and it stays in the code exactly if the execution never
finishes. -/
structure Executes (s : Setting) (k : Spot) (length exit : Nat) (start : Moment σ)
    (x : Nat → Evaluation σ Completion) : Prop where
  arrives : ∀ bound, ∃ n b, k.Run s start.position (start.position + length) n start b ∧
    k.Arrives s start.world start.position (start.position + length) 0
      ⟨start.position + length, exit, start.stack⟩ (x bound start.memory) n b
  fails_iff : ∀ e : ValueError,
    (∃ n b, k.Run s start.position (start.position + length) n start b ∧
      (start.position ≤ b.position ∧ b.position < start.position + length) ∧
      k.Fails s b (.value e)) ↔ ∃ bound, (x bound start.memory).1 = .error (.value e)
  forever_iff : (∀ n, ∃ b, k.Run s start.position (start.position + length) n start b) ↔
    ∀ bound, (x bound start.memory).1 = .ok .unfinished

section Whole

variable {length exit : Nat} {start : Moment σ} {x y : Nat → Evaluation σ Completion}

lemma Executes.of_performs (hexit : start.position + length < exit)
    (h : ∀ bound, k.Performs s start.world start.position (start.position + length) bound
      ⟨start.position + length, exit, start.stack⟩ (x bound) ⟨start.position, start.stack⟩) :
    k.Executes s length exit start x := by
  have harrives (bound : Nat) := h bound start.memory
  refine ⟨fun bound => ?_, fun e => ⟨?_, ?_⟩, ?_, ?_⟩
  · obtain ⟨n, b, hrun, hb⟩ := harrives bound
    exact ⟨n, b, hrun, hb.mono (Nat.le_refl _) (Nat.le_refl _) fun _ => Nat.zero_le _⟩
  · rintro ⟨n, b, hrun, inside, hfail⟩
    -- a run of `n` steps ends with the failure, so the bound `n + 1` is not reached
    obtain ⟨n', b', hrun', hb⟩ := harrives (n + 1)
    have hr : Finished (x (n + 1) start.memory) := by
      intro hr
      rcases hx : x (n + 1) start.memory with ⟨r, m⟩
      rw [hx] at hr hb
      cases hr
      have hle := hrun.le_of_stops (.of_fails hfail) hrun'
      have hn : n + 1 ≤ n' := hb
      omega
    cases hrun.unique hrun' (.of_fails hfail)
      (hb.stops hr (Nat.le_refl _) (Nat.le_of_lt hexit))
    exact ⟨n + 1, hb.value_error hr (Nat.le_refl _) (Nat.le_of_lt hexit) inside hfail⟩
  · rintro ⟨bound, hr⟩
    obtain ⟨n, b, hrun, hb⟩ := harrives bound
    rcases hx : x bound start.memory with ⟨r, m⟩
    rw [hx] at hr hb
    cases hr
    obtain ⟨p, e', rfl, inside, hc, hfail⟩ := hb
    cases hc
    exact ⟨n, _, hrun, inside, hfail⟩
  · intro hall bound
    by_contra hr
    obtain ⟨n, b, hrun, hb⟩ := harrives bound
    obtain ⟨b', hrun'⟩ := hall (n + 1)
    have hle := hrun.le_of_stops (hb.stops hr (Nat.le_refl _) (Nat.le_of_lt hexit)) hrun'
    omega
  · intro hall n
    obtain ⟨n', b, hrun, hb⟩ := harrives n
    have hr := hall n
    rcases hx : x n start.memory with ⟨r, m⟩
    rw [hx] at hr hb
    cases hr
    exact hrun.take hb

lemma Executes.ends (h : k.Executes s length exit start x) (h' : k.Executes s length exit start y)
    (hexit : start.position + length < exit) {r : Except Fault Completion}
    {arguments : Array Value} {stage : σ} (he : Memory.Ends x start.memory r arguments stage) :
    Memory.Ends y start.memory r arguments stage := by
  obtain ⟨hr, bound, m, hx, rfl, rfl⟩ := he
  obtain ⟨n, b, hrun, hb⟩ := h.arrives bound
  rw [hx] at hb
  have hstops := hb.stops hr (Nat.le_refl _) (Nat.le_of_lt hexit)
  have hfinished : ∃ bound', Finished (y bound' start.memory) := by
    by_contra hnone
    simp only [Finished, not_exists, not_not] at hnone
    obtain ⟨b', hrun'⟩ := h'.forever_iff.mpr hnone (n + 1)
    have hle := hrun.le_of_stops hstops hrun'
    omega
  obtain ⟨bound', hr'⟩ := hfinished
  obtain ⟨n', b', hrun', hb'⟩ := h'.arrives bound'
  cases hrun.unique hrun' hstops (hb'.stops hr' (Nat.le_refl _) (Nat.le_of_lt hexit))
  obtain ⟨hsame, ha, hs⟩ := hb.same hb' hr hr' (Nat.le_refl _) hexit
  exact ⟨hr, bound', (y bound' start.memory).2, Prod.ext hsame.symm rfl, ha.symm, hs.symm⟩

lemma Executes.iff_ends (h : k.Executes s length exit start x)
    (hexit : start.position + length < exit) :
    k.Executes s length exit start y ↔ ∀ r arguments stage,
      Memory.Ends x start.memory r arguments stage ↔
        Memory.Ends y start.memory r arguments stage := by
  refine ⟨fun h' r arguments stage => ⟨h.ends h' hexit, h'.ends h hexit⟩, fun heq => ?_⟩
  have hends (z : Nat → Evaluation σ Completion) (r : Except Fault Completion)
      (hr : r ≠ .ok .unfinished) : (∃ bound, (z bound start.memory).1 = r) ↔
        ∃ arguments stage, Memory.Ends z start.memory r arguments stage := by
    constructor
    · rintro ⟨bound, rfl⟩
      exact ⟨_, _, hr, bound, _, rfl, rfl, rfl⟩
    · rintro ⟨_, _, -, bound, m, hz, -⟩
      exact ⟨bound, by rw [hz]⟩
  have hresult (r : Except Fault Completion) (hr : r ≠ .ok .unfinished) :
      (∃ bound, (x bound start.memory).1 = r) ↔ ∃ bound, (y bound start.memory).1 = r := by
    rw [hends x r hr, hends y r hr]
    exact exists_congr fun arguments => exists_congr fun stage => heq r arguments stage
  refine ⟨fun bound => ?_, fun e => ?_, ?_⟩
  · rcases hy : y bound start.memory with ⟨r, m⟩
    by_cases hr : r = .ok .unfinished
    · subst hr
      exact ⟨0, start, .refl _, Nat.zero_le _⟩
    · obtain ⟨-, bound', m', hx, ha, hs⟩ :=
        (heq r m.arguments m.stage).mpr ⟨hr, bound, m, hy, rfl, rfl⟩
      obtain ⟨n, b, hrun, hb⟩ := h.arrives bound'
      rw [hx] at hb
      exact ⟨n, b, hrun, hb.of_same ⟨rfl, ha, hs⟩⟩
  · rw [h.fails_iff, hresult _ (by simp)]
  · rw [h.forever_iff]
    constructor
    · intro hall bound
      by_contra hr
      obtain ⟨bound', hx⟩ := (hresult _ hr).mpr ⟨bound, rfl⟩
      exact hr (hx.symm.trans (hall bound'))
    · intro hall bound
      by_contra hr
      obtain ⟨bound', hy⟩ := (hresult _ hr).mp ⟨bound, rfl⟩
      exact hr (hy.symm.trans (hall bound'))

end Whole

lemma executes_unsigned {c : Emit.Context} {statement : Statement} {inLoop : Bool} {offset : Nat}
    {d d' : Draft} {code : Code} {exit : Nat} (start : Moment σ) (hs : d.builder.Sound)
    (hp : statement.isPlain Expression.isCallFree)
    (h : Emit.statement c inLoop offset statement d = (.ok code, d'))
    (hb : d'.builder.TextsIn k.frame.module)
    (hcode : Placed k.body.code exit start.position code.toList)
    (hexit : start.position + code.extent < exit) (hsize : inLoop → exit ≤ k.body.code.size)
    (hbase : start.stack.size = k.frame.base) :
    k.Executes s code.extent exit start (statement.execute Literal.unsigned c.bindings) := by
  have hemitted := (Emit.statement_ok statement hs h).2 _ (.refl _)
  exact .of_performs hexit fun bound =>
    performs_statement hb (Nat.le_of_eq hbase.symm) statement hp hemitted hcode hsize

/-- Running the code of a plain statement executes the statement exactly if the sign of a negative
zero among its literals makes no difference to how it ends, and so if there is none. The open jumps
of the code lead to `exit`, behind the code. -/
theorem executes_statement {c : Emit.Context} {statement : Statement} {inLoop : Bool}
    {offset : Nat} {d d' : Draft} {code : Code} {exit : Nat} (start : Moment σ)
    (hs : d.builder.Sound) (hp : statement.isPlain Expression.isCallFree)
    (h : Emit.statement c inLoop offset statement d = (.ok code, d'))
    (hb : d'.builder.TextsIn k.frame.module)
    (hcode : Placed k.body.code exit start.position code.toList)
    (hexit : start.position + code.extent < exit) (hsize : inLoop → exit ≤ k.body.code.size)
    (hbase : start.stack.size = k.frame.base) :
    k.Executes s code.extent exit start (statement.execute Literal.unsigned c.bindings) ∧
      (k.Executes s code.extent exit start (statement.execute Literal.value c.bindings) ↔
        ∀ r arguments stage,
          Memory.Ends (statement.execute Literal.unsigned c.bindings) start.memory r arguments
              stage ↔
            Memory.Ends (statement.execute Literal.value c.bindings) start.memory r arguments
              stage) ∧
      (statement.isPlain Expression.noNegativeZero →
        k.Executes s code.extent exit start (statement.execute Literal.value c.bindings)) := by
  have hunsigned := executes_unsigned (s := s) start hs hp h hb hcode hexit hsize hbase
  refine ⟨hunsigned, hunsigned.iff_ends hexit, fun hz => ?_⟩
  have heq : statement.execute Literal.value c.bindings =
      statement.execute (σ := σ) Literal.unsigned c.bindings :=
    funext fun bound => (statement.execute_unsigned hz).symm
  rw [heq]
  exact hunsigned

def markingLoop : Statement :=
  .loop ⟨1, .unplaced⟩ (.literal ⟨2, .unplaced⟩ (.flag true))
    (.block ⟨3, .unplaced⟩ (.mk ⟨3, .unplaced⟩ [
      .expression ⟨4, .unplaced⟩ (.assign ⟨4, .unplaced⟩ ⟨⟨0, .unplaced⟩, "$a"⟩ .set
        (.literal ⟨5, .unplaced⟩ (.flag true))),
      .exit ⟨6, .unplaced⟩]))

def markingLoopCode : Code :=
  #[.run (.load (.flag true)), .run (.jumpIfFalse 13), .run (.load (.flag true)), .run .dup,
    .run (.storeArgument 0), .run .pop, .run (.jump 3), .run (.jump (-18))]

theorem executes_markingLoop :
    Emit.statement aloneContext false 0 markingLoop {} = (.ok markingLoopCode, {}) ∧
      ∃ n, (alone markingLoopCode.encode).Run aloneSetting 0 (0 + markingLoopCode.extent) n
        (aloneStart #[.null])
        ⟨0 + markingLoopCode.extent, #[.flag true], #[], (aloneStart #[]).world⟩ := by
  have hemit : Emit.statement aloneContext false 0 markingLoop {} =
      (.ok markingLoopCode, {}) := by cbv
  have hclosed : markingLoopCode.Closed := by
    simp [markingLoopCode]
  have h := executes_statement (s := aloneSetting) (aloneStart #[.null])
    Builder.sound_empty (by decide +kernel) hemit (textsIn_alone markingLoopCode.encode)
    (.of_encode hclosed (Bytes.holds_self _)) (Nat.lt_succ_self _) (by simp) rfl
  obtain ⟨n, b, hrun, rfl⟩ := (h.2.2 (by decide +kernel)).arrives 1
  exact ⟨hemit, n, hrun⟩

def negativeZeroBranch : Statement :=
  .ifThen ⟨2, .unplaced⟩ (.literal ⟨3, .unplaced⟩ (.flag true))
    (.block ⟨4, .unplaced⟩ (.mk ⟨4, .unplaced⟩ [
      .expression ⟨5, .unplaced⟩ (.assign ⟨5, .unplaced⟩ ⟨⟨0, .unplaced⟩, "$a"⟩ .set
        negativeZero)]))

def negativeZeroBranchCode : Code :=
  #[.run (.load (.flag true)), .run (.jumpIfFalse 11)] ++ negativeZeroCode ++
    #[.run .dup, .run (.storeArgument 0), .run .pop]

theorem not_executes_negativeZeroBranch :
    Emit.statement aloneContext false 0 negativeZeroBranch {} =
        (.ok negativeZeroBranchCode, {}) ∧
      ¬(alone negativeZeroBranchCode.encode).Executes aloneSetting
        negativeZeroBranchCode.extent (0 + negativeZeroBranchCode.extent + 1) (aloneStart #[.null])
        (negativeZeroBranch.execute Literal.value aloneContext.bindings) := by
  have hemit : Emit.statement aloneContext false 0 negativeZeroBranch {} =
      (.ok negativeZeroBranchCode, {}) := by
    have hassign : Emit.expression aloneContext (.assign ⟨5, .unplaced⟩
        ⟨⟨0, .unplaced⟩, "$a"⟩ .set negativeZero) {} =
          (.ok (negativeZeroCode ++ #[.run .dup, .run (.storeArgument 0)]), {}) :=
      Emit.bind_ok.mpr ⟨_, _, rfl, Emit.bind_ok.mpr ⟨_, _, emit_negativeZero {}, rfl⟩⟩
    rw [negativeZeroBranch, Emit.statement]
    refine Emit.bind_ok.mpr ⟨_, _, rfl, Emit.bind_ok.mpr
      ⟨negativeZeroCode ++ #[.run .dup, .run (.storeArgument 0), .run .pop], {}, ?_, ?_⟩⟩
    · rw [Emit.statement, Emit.block, Emit.statements]
      exact Emit.bind_ok.mpr ⟨_, _, Emit.bind_ok.mpr ⟨_, _, hassign, rfl⟩, rfl⟩
    · cbv
  have hclosed : negativeZeroBranchCode.Closed := by
    simp [negativeZeroBranchCode, negativeZeroCode, Code.one]
  refine ⟨hemit, fun h => ?_⟩
  have hzero := executes_unsigned (s := aloneSetting) (aloneStart #[.null])
    Builder.sound_empty (by decide +kernel) hemit (textsIn_alone negativeZeroBranchCode.encode)
    (.of_encode hclosed (Bytes.holds_self _)) (Nat.lt_succ_self _) (by simp) rfl
  obtain ⟨-, bound, m, hm, harguments, -⟩ :=
    ((hzero.iff_ends (Nat.lt_succ_self _)).mp h (.ok .normal)
      #[Literal.unsigned (.delta (-0.0))] (aloneStart #[]).world.stage).mp
      ⟨by simp, 0, _, rfl, rfl, rfl⟩
  cases hm
  have hsame : #[Literal.value (.delta (-0.0))] = #[Literal.unsigned (.delta (-0.0))] := harguments
  simp only [Array.mk.injEq, List.cons.injEq, and_true] at hsame
  exact unsigned_negativeZero_ne hsame.symm

end Spot

end Stagecraft
