import Stagecraft.Markup
import Stagecraft.Value.Operator

namespace Stagecraft

structure Node where
  id : Nat
  span : Span
  deriving DecidableEq, Repr, Inhabited

inductive Literal where
  | null
  | flag (b : Bool)
  | number (x : Float)
  | delta (x : Float)
  | text (s : String)
  deriving Repr, Inhabited

inductive AssignOperator where
  | set | add | subtract | multiply | divide
  deriving DecidableEq, Repr, Inhabited

inductive StepOperator where
  | increment | decrement
  deriving DecidableEq, Repr, Inhabited

namespace AssignOperator

def binary? : AssignOperator → Option BinaryOperator
  | set => none
  | add => some .add
  | subtract => some .subtract
  | multiply => some .multiply
  | divide => some .divide

def symbol : AssignOperator → String
  | set => "="
  | add => "+="
  | subtract => "-="
  | multiply => "*="
  | divide => "/="

end AssignOperator

namespace StepOperator

def binary : StepOperator → BinaryOperator
  | increment => .add
  | decrement => .subtract

def symbol : StepOperator → String
  | increment => "++"
  | decrement => "--"

end StepOperator

structure Target where
  node : Node
  name : String
  deriving DecidableEq, Repr, Inhabited

inductive Expression where
  | literal (node : Node) (value : Literal)
  | name (node : Node) (name : String)
  | unary (node : Node) (op : UnaryOperator) (operand : Expression)
  | binary (node : Node) (op : BinaryOperator) (left right : Expression)
  | assign (node : Node) (target : Target) (op : AssignOperator) (value : Expression)
  | step (node : Node) (target : Target) (op : StepOperator)
  | call (node : Node) (callee : String) (arguments : List Expression)
  deriving Repr, Inhabited

def Expression.node : Expression → Node
  | literal n _ | name n _ | unary n _ _ | binary n _ _ _ | assign n _ _ _ | step n _ _
  | call n _ _ => n

mutual

inductive Statement where
  | block (node : Node) (body : Block)
  | ifThen (node : Node) (condition : Expression) (thenBranch : Statement)
  | ifElse (node : Node) (condition : Expression) (thenBranch elseBranch : Statement)
  | loop (node : Node) (condition : Expression) (body : Statement)
  | select (node : Node) (cases : List Choice)
  | callChapter (node : Node) (target : String)
  | callScene (node : Node) (target : String)
  | ret (node : Node) (value : Option Expression)
  | exit (node : Node)
  | expression (node : Node) (value : Expression)
  | dialogue (node : Node) (value : Dialogue)
  | empty (node : Node)

inductive Block where
  | mk (node : Node) (statements : List Statement)

inductive Choice where
  | mk (node : Node) (label : String) (body : Statement)

inductive Dialogue where
  | mk (node : Node) (box : String) (name : Option String) (parts : List DialoguePart)

inductive DialoguePart where
  | markup (pieces : List Markup) (span : Span)
  | code (body : Block)

end

instance : Inhabited Block := ⟨.mk default []⟩

instance : Inhabited Statement := ⟨.empty default⟩

instance : Inhabited Dialogue := ⟨.mk default "" none []⟩

namespace Statement

def node : Statement → Node
  | block n _ | ifThen n _ _ | ifElse n _ _ _ | loop n _ _ | select n _ | callChapter n _
  | callScene n _ | ret n _ | exit n | expression n _ | dialogue n _ | empty n => n

end Statement

namespace Block

def node : Block → Node
  | mk n _ => n

def statements : Block → List Statement
  | mk _ ss => ss

end Block

namespace Choice

def node : Choice → Node
  | mk n _ _ => n

def label : Choice → String
  | mk _ s _ => s

def body : Choice → Statement
  | mk _ _ s => s

end Choice

namespace Dialogue

def node : Dialogue → Node
  | mk n _ _ _ => n

def box : Dialogue → String
  | mk _ b _ _ => b

def name? : Dialogue → Option String
  | mk _ _ n _ => n

def parts : Dialogue → List DialoguePart
  | mk _ _ _ ps => ps

end Dialogue

structure FormalParameter where
  node : Node
  name : String
  deriving DecidableEq, Repr

inductive Member where
  | chapter (node : Node) (name : String) (body : Block)
  | scene (node : Node) (name : String) (body : Block)
  | function (node : Node) (name : String) (parameters : List FormalParameter) (body : Block)
  | dialogue (value : Dialogue)

namespace Member

def node : Member → Node
  | chapter n _ _ | scene n _ _ | function n _ _ _ => n
  | dialogue d => d.node

def parameterNames : Member → List String
  | function _ _ ps _ => ps.map (·.name)
  | _ => []

end Member

structure Include where
  path : String
  span : Span
  deriving DecidableEq, Repr

structure Script where
  path : String
  includes : List Include
  members : List Member

end Stagecraft
