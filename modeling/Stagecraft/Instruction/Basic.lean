import Stagecraft.Bytes
import Stagecraft.Value.Operator

/-!
Instructions of the stack machine and their byte codes. A jump counts from the first byte of the
instruction after it.
-/

namespace Stagecraft

inductive Immediate where
  | null
  | flag (b : Bool)
  | integer (n : Int32)
  | float (bits : UInt64)
  | deltaInteger (n : Int32)
  | deltaFloat (bits : UInt64)
  | text (token : UInt16)
  | enumerator (id : UInt16)
  | preset (id : UInt16)
  deriving DecidableEq, Repr, Inhabited

inductive Instruction where
  | load (value : Immediate)
  | loadArgument (index : UInt16)
  | loadGlobal (token : UInt16)
  | storeArgument (index : UInt16)
  | storeGlobal (token : UInt16)
  | binary (op : BinaryOperator)
  | unary (op : UnaryOperator)
  | jump (offset : Int16)
  | jumpIfTrue (offset : Int16)
  | jumpIfFalse (offset : Int16)
  | call (routine : UInt16)
  | callFar (importIndex routine : UInt16)
  | dispatch (builtin : UInt16) (count : UInt8)
  | present (token : UInt16)
  | beginDialogue (index : UInt16)
  | selectStart
  | isPressed (token : UInt16)
  | selectEnd
  | pop
  | dup
  | trap (token : UInt16)
  | ret
  deriving DecidableEq, Repr, Inhabited

namespace Immediate

def tag : Immediate → UInt8
  | null => 0
  | flag false => 1
  | flag true => 2
  | integer _ => 3
  | float _ => 4
  | deltaInteger _ => 5
  | deltaFloat _ => 6
  | text _ => 7
  | enumerator _ => 8
  | preset _ => 9

def payload : Immediate → List UInt8
  | null | flag _ => []
  | integer n | deltaInteger n => Bytes.of32 n.toUInt32
  | float bits | deltaFloat bits => Bytes.of64 bits
  | text n | enumerator n | preset n => Bytes.of16 n

def payloadSize : Immediate → Nat
  | null | flag _ => 0
  | integer _ | deltaInteger _ => 4
  | float _ | deltaFloat _ => 8
  | text _ | enumerator _ | preset _ => 2

def render : Immediate → String
  | null => "null"
  | flag b => if b then "true" else "false"
  | integer n => toString n.toInt
  | float bits => Number.Layout.listing.render (Float.ofBits bits)
  | deltaInteger n => "@" ++ toString n.toInt
  | deltaFloat bits => "@" ++ Number.Layout.listing.render (Float.ofBits bits)
  | text token => s!"str#{token.toNat}"
  | enumerator id => s!"enum#{id.toNat}"
  | preset id => s!"const#{id.toNat}"

end Immediate

namespace Instruction

def size : Instruction → Nat
  | load value => 2 + value.payloadSize
  | loadArgument _ | loadGlobal _ | storeArgument _ | storeGlobal _ | jump _ | jumpIfTrue _
  | jumpIfFalse _ | call _ | present _ | beginDialogue _ | isPressed _ | trap _ => 3
  | binary _ | unary _ => 2
  | callFar _ _ => 5
  | dispatch _ _ => 4
  | selectStart | selectEnd | pop | dup | ret => 1

def isJump : Instruction → Bool
  | jump _ | jumpIfTrue _ | jumpIfFalse _ => true
  | _ => false

def encode : Instruction → List UInt8
  | load value => 0x01 :: value.tag :: value.payload
  | loadArgument n => 0x02 :: Bytes.of16 n
  | loadGlobal n => 0x03 :: Bytes.of16 n
  | storeArgument n => 0x04 :: Bytes.of16 n
  | storeGlobal n => 0x05 :: Bytes.of16 n
  | binary op => [0x06, op.id]
  | unary op => [0x07, op.id]
  | jump n => 0x08 :: Bytes.of16 n.toUInt16
  | jumpIfTrue n => 0x09 :: Bytes.of16 n.toUInt16
  | jumpIfFalse n => 0x0a :: Bytes.of16 n.toUInt16
  | call n => 0x0b :: Bytes.of16 n
  | callFar i n => 0x0c :: (Bytes.of16 i ++ Bytes.of16 n)
  | dispatch n count => 0x0d :: (Bytes.of16 n ++ [count])
  | present n => 0x0e :: Bytes.of16 n
  | beginDialogue n => 0x0f :: Bytes.of16 n
  | selectStart => [0x10]
  | isPressed n => 0x11 :: Bytes.of16 n
  | selectEnd => [0x12]
  | pop => [0x13]
  | dup => [0x14]
  | trap n => 0x15 :: Bytes.of16 n
  | ret => [0x16]

def encodeAll (code : List Instruction) : ByteArray :=
  (code.flatMap encode).toByteArray

def signed (n : Int16) : String :=
  if 0 ≤ n.toInt then "+" ++ toString n.toInt else toString n.toInt

def render : Instruction → String
  | load value => s!"LoadImm {value.render}"
  | loadArgument n => s!"LoadArg {n.toNat}"
  | loadGlobal n => s!"LoadVar str#{n.toNat}"
  | storeArgument n => s!"StoreArg {n.toNat}"
  | storeGlobal n => s!"StoreVar str#{n.toNat}"
  | binary op => s!"Binary {op.symbol}"
  | unary op => s!"Unary {op.symbol}"
  | jump n => s!"Jump {signed n}"
  | jumpIfTrue n => s!"JumpIfTrue {signed n}"
  | jumpIfFalse n => s!"JumpIfFalse {signed n}"
  | call n => s!"Call {n.toNat}"
  | callFar i n => s!"CallFar {i.toNat}:{n.toNat}"
  | dispatch n count => s!"Dispatch {n.toNat}/{count.toNat}"
  | present n => s!"PresentText str#{n.toNat}"
  | beginDialogue n => s!"BeginDialogue {n.toNat}"
  | selectStart => "SelectStart"
  | isPressed n => s!"IsPressed str#{n.toNat}"
  | selectEnd => "SelectEnd"
  | pop => "Pop"
  | dup => "Dup"
  | trap n => s!"Trap str#{n.toNat}"
  | ret => "Return"

end Instruction

end Stagecraft
