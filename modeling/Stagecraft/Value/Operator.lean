import Stagecraft.Value.Basic

/-!
Arithmetic keeps the relative kind of its left operand; comparison of two texts is by code points;
the logical operators look at their right operand only when they need it.
-/

namespace Stagecraft

inductive BinaryOperator where
  | add | subtract | multiply | divide | remainder
  | equal | notEqual | less | lessEqual | greater | greaterEqual
  | and | or
  deriving DecidableEq, Repr, Inhabited

inductive UnaryOperator where
  | negate | plus | not
  deriving DecidableEq, Repr, Inhabited

namespace BinaryOperator

def table : Array BinaryOperator :=
  #[add, subtract, multiply, divide, remainder, equal, notEqual, less, lessEqual, greater,
    greaterEqual, and, or]

def id : BinaryOperator → UInt8
  | add => 0
  | subtract => 1
  | multiply => 2
  | divide => 3
  | remainder => 4
  | equal => 5
  | notEqual => 6
  | less => 7
  | lessEqual => 8
  | greater => 9
  | greaterEqual => 10
  | and => 11
  | or => 12

def ofId (id : UInt8) : Option BinaryOperator :=
  table[id.toNat]?

def symbol : BinaryOperator → String
  | add => "+"
  | subtract => "-"
  | multiply => "*"
  | divide => "/"
  | remainder => "%"
  | equal => "=="
  | notEqual => "!="
  | less => "<"
  | lessEqual => "<="
  | greater => ">"
  | greaterEqual => ">="
  | and => "&&"
  | or => "||"

end BinaryOperator

namespace UnaryOperator

def id : UnaryOperator → UInt8
  | negate => 0
  | plus => 1
  | not => 2

def ofId (id : UInt8) : Option UnaryOperator :=
  if id == 0 then some negate else if id == 1 then some plus else if id == 2 then some not else none

def symbol : UnaryOperator → String
  | negate => "-"
  | plus => "+"
  | not => "!"

end UnaryOperator

namespace Value

def isNumeric : Value → Bool
  | number _ | delta _ | flag _ => true
  | _ => false

/-- Equality as scripts see it: values of unlike kinds differ, and nothing is converted from text.
-/
def same (a b : Value) : Bool :=
  match a, b with
  | null, null => true
  | text s, text t => s == t
  | enumerator c, enumerator d => c == d
  | preset c, preset d => c == d
  | a, b =>
    if a.isNumeric && b.isNumeric then
      match a.toNumber, b.toNumber with
      | .ok x, .ok y => x == y
      | _, _ => false
    else false

end Value

namespace BinaryOperator

def operands (op : BinaryOperator) (a b : Value) : Except ValueError (Float × Float) :=
  match a.toNumber, b.toNumber with
  | .ok x, .ok y => .ok (x, y)
  | _, _ => .error (.operator op.symbol a.typeName b.typeName)

def kindOf (left : Value) (x : Float) : Value :=
  match left with
  | .delta _ => .delta x
  | _ => .number x

def arithmetic (op : BinaryOperator) (f : Float → Float → Float) (a b : Value) :
    Except ValueError Value := do
  let (x, y) ← op.operands a b
  pure (kindOf a (f x y))

def division (op : BinaryOperator) (f : Float → Float → Float) (a b : Value) :
    Except ValueError Value := do
  let (x, y) ← op.operands a b
  if y == 0.0 then .error .divisionByZero else pure (kindOf a (f x y))

def comparison (op : BinaryOperator) (texts : Ordering → Bool) (numbers : Float → Float → Bool)
    (a b : Value) : Except ValueError Value :=
  match a, b with
  | .text s, .text t => .ok (.flag (texts (compare s t)))
  | a, b => do
    let (x, y) ← op.operands a b
    pure (.flag (numbers x y))

def apply (op : BinaryOperator) (a b : Value) : Except ValueError Value :=
  match op with
  | add =>
    match a, b with
    | .text s, v => .ok (.text (s ++ v.toText))
    | v, .text s => .ok (.text (v.toText ++ s))
    | a, b => op.arithmetic (· + ·) a b
  | subtract => op.arithmetic (· - ·) a b
  | multiply => op.arithmetic (· * ·) a b
  | divide => op.division (· / ·) a b
  | remainder => op.division Number.remainder a b
  | equal => .ok (.flag (a.same b))
  | notEqual => .ok (.flag (!a.same b))
  | less => op.comparison (·.isLT) (· < ·) a b
  | lessEqual => op.comparison (·.isLE) (· ≤ ·) a b
  | greater => op.comparison (·.isGT) (· > ·) a b
  | greaterEqual => op.comparison (·.isGE) (· ≥ ·) a b
  | and => do
    let x ← a.toBool
    if x then (do let y ← b.toBool; pure (.flag y)) else pure (.flag false)
  | or => do
    let x ← a.toBool
    if x then pure (.flag true) else (do let y ← b.toBool; pure (.flag y))

end BinaryOperator

namespace UnaryOperator

def apply (op : UnaryOperator) (v : Value) : Except ValueError Value :=
  match op, v with
  | not, v => do
    let b ← v.toBool
    pure (.flag (!b))
  | negate, .delta x => .ok (.delta (-x))
  | plus, .delta x => .ok (.delta x)
  | negate, v => do
    let x ← v.toNumber
    pure (.number (-x))
  | plus, v => do
    let x ← v.toNumber
    pure (.number x)

end UnaryOperator

end Stagecraft
