import Stagecraft.Proofs.Basic
import Stagecraft.Script.Parse

namespace Stagecraft

deriving instance DecidableEq for TokenValue

abbrev Shape := TokenKind × TokenValue

def Token.shape (t : Token) : Shape :=
  (t.kind, t.value)

def Scanner.shapes (source : String) : List Shape :=
  (tokens source).1.map Token.shape

def ReadsAs (source : String) (shape : Shape) : Prop :=
  Scanner.shapes source = [shape, (.endOfFile, .none)]

instance (source : String) (shape : Shape) : Decidable (ReadsAs source shape) :=
  inferInstanceAs (Decidable (_ = _))

def IsIdentifier (name : String) : Prop :=
  ReadsAs name (.identifier, .text name)

instance (name : String) : Decidable (IsIdentifier name) :=
  inferInstanceAs (Decidable (ReadsAs _ _))

section Legible

-- Which numbers count as the same; a number may be written as one that counts as the same.
variable (same : Float → Float → Prop)

def Literal.Legible : Literal → Prop
  | null | flag _ => True
  | number x => ∃ y, same y x ∧ ReadsAs (Number.display x) (.numericLiteral, .number y)
  | delta x => ∃ y, same y x ∧ ReadsAs ("@" ++ Number.display x) (.numericLiteral, .delta y)
  | text s => Lexeme.isSigiled s.toList = false

mutual

def Expression.Legible : Expression → Prop
  | .literal _ value => value.Legible same
  | .name _ n => IsIdentifier n
  | .unary _ _ e => e.Legible
  | .binary _ _ a b => a.Legible ∧ b.Legible
  | .assign _ target _ e => IsIdentifier target.name ∧ e.Legible
  | .step _ target _ => IsIdentifier target.name
  | .call _ callee arguments => IsIdentifier callee ∧ Expression.AllLegible arguments

def Expression.AllLegible : List Expression → Prop
  | [] => True
  | e :: rest => e.Legible ∧ Expression.AllLegible rest

end

/-- Whether a statement ends in an `if` without an `else`, which would take an `else` that follows
the statement. -/
def Statement.endsOpen : Statement → Bool
  | .ifThen _ _ _ => true
  | .ifElse _ _ _ t => t.endsOpen
  | .loop _ _ s => s.endsOpen
  | _ => false

mutual

def Statement.Legible : Statement → Prop
  | .block _ b => b.Legible
  | .ifThen _ c s => c.Legible same ∧ s.Legible
  | .ifElse _ c s t => c.Legible same ∧ s.Legible ∧ t.Legible ∧ s.endsOpen = false
  | .loop _ c s => c.Legible same ∧ s.Legible
  | .select _ cases => Choice.AllLegible cases
  | .ret _ (some e) => e.Legible same
  | .expression _ e => e.Legible same
  | .callChapter _ _ | .callScene _ _ | .ret _ none | .exit _ | .empty _ => True
  | .dialogue _ _ => False

def Statement.AllLegible : List Statement → Prop
  | [] => True
  | s :: rest => s.Legible ∧ Statement.AllLegible rest

def Block.Legible : Block → Prop
  | .mk _ ss => Statement.AllLegible ss

def Choice.Legible : Choice → Prop
  | .mk _ label body =>
    TokenKind.keyword? label = none ∧ label.toList ≠ Lexeme.includeWord ∧ body.Legible

def Choice.AllLegible : List Choice → Prop
  | [] => True
  | c :: rest => c.Legible ∧ Choice.AllLegible rest

end

end Legible

section Alike

variable (same : Float → Float → Prop)

inductive Literal.Alike : Literal → Literal → Prop
  | null : Alike null null
  | flag (b : Bool) : Alike (flag b) (flag b)
  | number {x y : Float} : same x y → Alike (number x) (number y)
  | delta {x y : Float} : same x y → Alike (delta x) (delta y)
  | text (s : String) : Alike (text s) (text s)

/-- Two expressions are the same up to the numbers and places of their nodes. -/
inductive Expression.Alike : Expression → Expression → Prop
  | literal {n n' : Node} {a b : Literal} : a.Alike same b → Alike (.literal n a) (.literal n' b)
  | name {n n' : Node} (s : String) : Alike (.name n s) (.name n' s)
  | unary {n n' : Node} {a b : Expression} (op : UnaryOperator) :
    Alike a b → Alike (.unary n op a) (.unary n' op b)
  | binary {n n' : Node} {a a' b b' : Expression} (op : BinaryOperator) :
    Alike a a' → Alike b b' → Alike (.binary n op a b) (.binary n' op a' b')
  | assign {n n' : Node} {t t' : Target} {a b : Expression} (op : AssignOperator) :
    t.name = t'.name → Alike a b → Alike (.assign n t op a) (.assign n' t' op b)
  | step {n n' : Node} {t t' : Target} (op : StepOperator) :
    t.name = t'.name → Alike (.step n t op) (.step n' t' op)
  | call {n n' : Node} {as bs : List Expression} (callee : String) :
    List.Forall₂ Alike as bs → Alike (.call n callee as) (.call n' callee bs)

mutual

inductive Statement.Alike : Statement → Statement → Prop
  | block {n n' : Node} {a b : Block} :
    Block.Alike a b → Statement.Alike (.block n a) (.block n' b)
  | ifThen {n n' : Node} {c c' : Expression} {s s' : Statement} :
    c.Alike same c' → Statement.Alike s s' →
      Statement.Alike (.ifThen n c s) (.ifThen n' c' s')
  | ifElse {n n' : Node} {c c' : Expression} {s s' t t' : Statement} :
    c.Alike same c' → Statement.Alike s s' → Statement.Alike t t' →
      Statement.Alike (.ifElse n c s t) (.ifElse n' c' s' t')
  | loop {n n' : Node} {c c' : Expression} {s s' : Statement} :
    c.Alike same c' → Statement.Alike s s' →
      Statement.Alike (.loop n c s) (.loop n' c' s')
  | select {n n' : Node} {as bs : List Choice} :
    List.Forall₂ Choice.Alike as bs → Statement.Alike (.select n as) (.select n' bs)
  | callChapter {n n' : Node} (target : String) :
    Statement.Alike (.callChapter n target) (.callChapter n' target)
  | callScene {n n' : Node} (target : String) :
    Statement.Alike (.callScene n target) (.callScene n' target)
  | ret {n n' : Node} {a b : Option Expression} :
    Option.Rel (Expression.Alike same) a b → Statement.Alike (.ret n a) (.ret n' b)
  | exit {n n' : Node} : Statement.Alike (.exit n) (.exit n')
  | expression {n n' : Node} {a b : Expression} :
    a.Alike same b → Statement.Alike (.expression n a) (.expression n' b)
  | empty {n n' : Node} : Statement.Alike (.empty n) (.empty n')

inductive Block.Alike : Block → Block → Prop
  | mk {n n' : Node} {as bs : List Statement} :
    List.Forall₂ Statement.Alike as bs → Block.Alike (.mk n as) (.mk n' bs)

inductive Choice.Alike : Choice → Choice → Prop
  | mk {n n' : Node} {a b : Statement} (label : String) :
    Statement.Alike a b → Choice.Alike (.mk n label a) (.mk n' label b)

end

end Alike

end Stagecraft
