import Stagecraft.Proofs.Meaning.Expression

/-!
A statement is executed with a bound on how often each loop goes round; one that runs forever stays
unfinished under every bound.
-/

namespace Stagecraft

inductive Completion where
  | normal
  | broke
  | returned (v : Value)
  | unfinished

namespace Evaluation

def andThen (x y : Evaluation σ Completion) : Evaluation σ Completion := do
  match ← x with
  | .normal => y
  | other => pure other

def iterate (test : Evaluation σ Value) (body : Evaluation σ Completion) :
    Nat → Evaluation σ Completion
  | 0 => pure .unfinished
  | n + 1 => do
    let v ← test
    if ← ofValue v.toBool then
      match ← body with
      | .normal => iterate test body n
      | .broke => pure .normal
      | other => pure other
    else pure .normal

end Evaluation

open Evaluation

mutual

def Statement.execute [Stage σ] (reading : Literal → Value) (bindings : Bindings) (bound : Nat) :
    Statement → Evaluation σ Completion
  | .block _ body => body.execute reading bindings bound
  | .ifThen _ condition yes => do
    let v ← condition.evaluate reading bindings
    if ← ofValue v.toBool then yes.execute reading bindings bound else pure .normal
  | .ifElse _ condition yes no => do
    let v ← condition.evaluate reading bindings
    if ← ofValue v.toBool then yes.execute reading bindings bound
    else no.execute reading bindings bound
  | .loop _ condition body =>
    iterate (condition.evaluate reading bindings) (body.execute reading bindings bound) bound
  | .ret _ (some value) => do
    let v ← value.evaluate reading bindings
    pure (.returned v)
  | .ret _ none => pure (.returned .null)
  | .exit _ => pure .broke
  | .expression _ value => do
    let _ ← value.evaluate reading bindings
    pure .normal
  | .empty _ => pure .normal
  | .callChapter _ target | .callScene _ target => throw (.noMeaning target)
  | .select _ _ | .dialogue _ _ => throw (.noMeaning "")

def Statement.executeAll [Stage σ] (reading : Literal → Value) (bindings : Bindings)
    (bound : Nat) : List Statement → Evaluation σ Completion
  | [] => pure .normal
  | s :: rest =>
    andThen (s.execute reading bindings bound) (Statement.executeAll reading bindings bound rest)

def Block.execute [Stage σ] (reading : Literal → Value) (bindings : Bindings) (bound : Nat) :
    Block → Evaluation σ Completion
  | .mk _ body => Statement.executeAll reading bindings bound body

end

mutual

/-- Whether a statement has a meaning, and all expressions in it pass a test. -/
def Statement.isPlain (p : Expression → Bool) : Statement → Bool
  | .block _ body => body.isPlain p
  | .ifThen _ condition yes => p condition && yes.isPlain p
  | .ifElse _ condition yes no => p condition && yes.isPlain p && no.isPlain p
  | .loop _ condition body => p condition && body.isPlain p
  | .ret _ (some value) | .expression _ value => p value
  | .ret _ none | .exit _ | .empty _ => true
  | .callChapter _ _ | .callScene _ _ | .select _ _ | .dialogue _ _ => false

def Statement.arePlain (p : Expression → Bool) : List Statement → Bool
  | [] => true
  | s :: rest => s.isPlain p && Statement.arePlain p rest

def Block.isPlain (p : Expression → Bool) : Block → Bool
  | .mk _ body => Statement.arePlain p body

end

mutual

theorem Statement.execute_unsigned [Stage σ] {bindings : Bindings} {bound : Nat} (s : Statement)
    (h : s.isPlain Expression.noNegativeZero) :
    (s.execute Literal.unsigned bindings bound : Evaluation σ Completion) =
      s.execute Literal.value bindings bound := by
  cases s with
  | block node body =>
    rw [Statement.execute, Statement.execute, Block.execute_unsigned body h]
  | ifThen node condition yes =>
    simp only [Statement.isPlain, Bool.and_eq_true] at h
    rw [Statement.execute, Statement.execute, Expression.evaluate_unsigned h.1,
      Statement.execute_unsigned yes h.2]
  | ifElse node condition yes no =>
    simp only [Statement.isPlain, Bool.and_eq_true] at h
    rw [Statement.execute, Statement.execute, Expression.evaluate_unsigned h.1.1,
      Statement.execute_unsigned yes h.1.2, Statement.execute_unsigned no h.2]
  | loop node condition body =>
    simp only [Statement.isPlain, Bool.and_eq_true] at h
    rw [Statement.execute, Statement.execute, Expression.evaluate_unsigned h.1,
      Statement.execute_unsigned body h.2]
  | ret node value =>
    cases value with
    | none => rfl
    | some value => rw [Statement.execute, Statement.execute, Expression.evaluate_unsigned h]
  | expression node value =>
    rw [Statement.execute, Statement.execute, Expression.evaluate_unsigned h]
  | _ => rfl

theorem Statement.executeAll_unsigned [Stage σ] {bindings : Bindings} {bound : Nat}
    (body : List Statement) (h : Statement.arePlain Expression.noNegativeZero body) :
    (Statement.executeAll Literal.unsigned bindings bound body : Evaluation σ Completion) =
      Statement.executeAll Literal.value bindings bound body := by
  cases body with
  | nil => rfl
  | cons s rest =>
    simp only [Statement.arePlain, Bool.and_eq_true] at h
    rw [Statement.executeAll, Statement.executeAll, Statement.execute_unsigned s h.1,
      Statement.executeAll_unsigned rest h.2]

theorem Block.execute_unsigned [Stage σ] {bindings : Bindings} {bound : Nat} (body : Block)
    (h : body.isPlain Expression.noNegativeZero) :
    (body.execute Literal.unsigned bindings bound : Evaluation σ Completion) =
      body.execute Literal.value bindings bound := by
  cases body with
  | mk node body => rw [Block.execute, Block.execute, Statement.executeAll_unsigned body h]

end

end Stagecraft
