namespace Stagecraft.Bytes

def of16 (n : UInt16) : List UInt8 :=
  [n.toUInt8, (n >>> 8).toUInt8]

def of32 (n : UInt32) : List UInt8 :=
  [n.toUInt8, (n >>> 8).toUInt8, (n >>> 16).toUInt8, (n >>> 24).toUInt8]

def of64 (n : UInt64) : List UInt8 :=
  of32 n.toUInt32 ++ of32 (n >>> 32).toUInt32

def to16 (a b : UInt8) : UInt16 :=
  a.toUInt16 ||| b.toUInt16 <<< 8

def to32 (a b c d : UInt8) : UInt32 :=
  a.toUInt32 ||| b.toUInt32 <<< 8 ||| c.toUInt32 <<< 16 ||| d.toUInt32 <<< 24

def at? (bytes : ByteArray) (i : Nat) : Option UInt8 :=
  if h : i < bytes.size then some (bytes.get i h) else none

def at16? (bytes : ByteArray) (i : Nat) : Option UInt16 := do
  let a ← at? bytes i
  let b ← at? bytes (i + 1)
  pure (to16 a b)

def at32? (bytes : ByteArray) (i : Nat) : Option UInt32 := do
  let a ← at? bytes i
  let b ← at? bytes (i + 1)
  let c ← at? bytes (i + 2)
  let d ← at? bytes (i + 3)
  pure (to32 a b c d)

def at64? (bytes : ByteArray) (i : Nat) : Option UInt64 := do
  let low ← at32? bytes i
  let high ← at32? bytes (i + 4)
  pure (low.toUInt64 ||| high.toUInt64 <<< 32)

def slice? (bytes : ByteArray) (i n : Nat) : Option ByteArray :=
  if i + n ≤ bytes.size then some (bytes.extract i (i + n)) else none

end Stagecraft.Bytes
