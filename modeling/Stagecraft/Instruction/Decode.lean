import Stagecraft.Instruction.Basic

namespace Stagecraft

inductive DecodeError where
  | truncated (offset : Nat)
  | unknownOpcode (byte : UInt8) (offset : Nat)
  | unknownTag (byte : UInt8) (offset : Nat)
  | unknownBinary (id : UInt8) (offset : Nat)
  | unknownUnary (id : UInt8) (offset : Nat)
  deriving DecidableEq, Repr

namespace DecodeError

def code : DecodeError → String
  | truncated _ => "VM_TRUNCATED_INSTRUCTION"
  | _ => "VM_UNREACHABLE_OPCODE"

def hexByte (b : UInt8) : String :=
  "0x" ++ Text.padZero 2 (Text.hex b.toNat)

def message : DecodeError → String
  | truncated offset => s!"Instruction at offset {offset} is truncated."
  | unknownOpcode byte offset => s!"Unknown opcode {hexByte byte} at offset {offset}."
  | unknownTag byte offset => s!"Unknown immediate tag {hexByte byte} at offset {offset}."
  | unknownBinary id offset => s!"Unknown binary operator {id.toNat} at offset {offset}."
  | unknownUnary id offset => s!"Unknown unary operator {id.toNat} at offset {offset}."

end DecodeError

namespace Instruction

def need (offset : Nat) : Option α → Except DecodeError α
  | some a => .ok a
  | none => .error (.truncated offset)

def decodeImmediate (code : ByteArray) (offset : Nat) : Except DecodeError Immediate := do
  let tag ← need offset (Bytes.at? code (offset + 1))
  let payload := offset + 2
  match tag with
  | 0 => pure .null
  | 1 => pure (.flag false)
  | 2 => pure (.flag true)
  | 3 => do let n ← need offset (Bytes.at32? code payload); pure (.integer n.toInt32)
  | 4 => do let n ← need offset (Bytes.at64? code payload); pure (.float n)
  | 5 => do let n ← need offset (Bytes.at32? code payload); pure (.deltaInteger n.toInt32)
  | 6 => do let n ← need offset (Bytes.at64? code payload); pure (.deltaFloat n)
  | 7 => do let n ← need offset (Bytes.at16? code payload); pure (.text n)
  | 8 => do let n ← need offset (Bytes.at16? code payload); pure (.enumerator n)
  | 9 => do let n ← need offset (Bytes.at16? code payload); pure (.preset n)
  | tag => .error (.unknownTag tag offset)

def decode (code : ByteArray) (offset : Nat) : Except DecodeError Instruction := do
  let byte ← need offset (Bytes.at? code offset)
  let operand : Except DecodeError UInt16 := need offset (Bytes.at16? code (offset + 1))
  match byte with
  | 0x01 => do let value ← decodeImmediate code offset; pure (.load value)
  | 0x02 => do let n ← operand; pure (.loadArgument n)
  | 0x03 => do let n ← operand; pure (.loadGlobal n)
  | 0x04 => do let n ← operand; pure (.storeArgument n)
  | 0x05 => do let n ← operand; pure (.storeGlobal n)
  | 0x06 => do
    let id ← need offset (Bytes.at? code (offset + 1))
    match BinaryOperator.ofId id with
    | some op => pure (.binary op)
    | none => .error (.unknownBinary id offset)
  | 0x07 => do
    let id ← need offset (Bytes.at? code (offset + 1))
    match UnaryOperator.ofId id with
    | some op => pure (.unary op)
    | none => .error (.unknownUnary id offset)
  | 0x08 => do let n ← operand; pure (.jump n.toInt16)
  | 0x09 => do let n ← operand; pure (.jumpIfTrue n.toInt16)
  | 0x0a => do let n ← operand; pure (.jumpIfFalse n.toInt16)
  | 0x0b => do let n ← operand; pure (.call n)
  | 0x0c => do
    let i ← operand
    let n ← need offset (Bytes.at16? code (offset + 3))
    pure (.callFar i n)
  | 0x0d => do
    let n ← operand
    let count ← need offset (Bytes.at? code (offset + 3))
    pure (.dispatch n count)
  | 0x0e => do let n ← operand; pure (.present n)
  | 0x0f => do let n ← operand; pure (.beginDialogue n)
  | 0x10 => pure .selectStart
  | 0x11 => do let n ← operand; pure (.isPressed n)
  | 0x12 => pure .selectEnd
  | 0x13 => pure .pop
  | 0x14 => pure .dup
  | 0x15 => do let n ← operand; pure (.trap n)
  | 0x16 => pure .ret
  | byte => .error (.unknownOpcode byte offset)

theorem size_pos (i : Instruction) : 0 < i.size := by
  unfold size
  split <;> omega

def decodeFrom (code : ByteArray) (offset : Nat) (found : Array (Nat × Instruction)) :
    Except DecodeError (Array (Nat × Instruction)) :=
  if offset < code.size then
    match decode code offset with
    | .ok i => decodeFrom code (offset + i.size) (found.push (offset, i))
    | .error e => .error e
  else .ok found
termination_by code.size - offset
decreasing_by
  have := size_pos i
  omega

def decodeAll (code : ByteArray) : Except DecodeError (List (Nat × Instruction)) :=
  (decodeFrom code 0 #[]).map Array.toList

end Instruction

end Stagecraft
