namespace Stagecraft.Text.Utf8

structure Malformed where
  index : Nat
  length : Option Nat
  deriving DecidableEq, Repr

def Malformed.message (m : Malformed) : String :=
  match m.length with
  | some n => s!"invalid utf-8 sequence of {n} bytes from index {m.index}"
  | none => s!"incomplete utf-8 byte sequence from index {m.index}"

def isTail (b : UInt8) : Bool :=
  0x80 ≤ b && b ≤ 0xbf

def isSecond (a b : UInt8) : Bool :=
  if a == 0xe0 then 0xa0 ≤ b && b ≤ 0xbf
  else if a == 0xed then 0x80 ≤ b && b ≤ 0x9f
  else if a == 0xf0 then 0x90 ≤ b && b ≤ 0xbf
  else if a == 0xf4 then 0x80 ≤ b && b ≤ 0x8f
  else isTail b

def width (a : UInt8) : Option Nat :=
  if a < 0x80 then some 1
  else if 0xc2 ≤ a && a ≤ 0xdf then some 2
  else if 0xe0 ≤ a && a ≤ 0xef then some 3
  else if 0xf0 ≤ a && a ≤ 0xf4 then some 4
  else none

def front (bytes : List UInt8) : Except (Option Nat) Nat :=
  match bytes with
  | [] => .error none
  | a :: rest =>
    match width a with
    | none => .error (some 1)
    | some 1 => .ok 1
    | some n =>
      match rest with
      | [] => .error none
      | b :: rest =>
        if !isSecond a b then .error (some 1)
        else if n == 2 then .ok 2
        else match rest with
          | [] => .error none
          | c :: rest =>
            if !isTail c then .error (some 2)
            else if n == 3 then .ok 3
            else match rest with
              | [] => .error none
              | d :: _ => if !isTail d then .error (some 3) else .ok 4

def firstMalformed (fuel index : Nat) (bytes : List UInt8) : Option Malformed :=
  match fuel, bytes with
  | 0, _ => none
  | _, [] => none
  | fuel + 1, bytes =>
    match front bytes with
    | .ok n => firstMalformed fuel (index + n) (bytes.drop n)
    | .error length => some { index, length }

def decode (bytes : ByteArray) : Except Malformed String :=
  match String.fromUTF8? bytes with
  | some s => .ok s
  | none => .error ((firstMalformed bytes.size 0 bytes.toList).getD ⟨0, none⟩)

def decodeLossy (fuel : Nat) (bytes : List UInt8) : List Char :=
  match fuel, bytes with
  | 0, _ => []
  | _, [] => []
  | fuel + 1, bytes =>
    match front bytes with
    | .ok n =>
      let piece := match String.fromUTF8? (bytes.take n).toByteArray with
        | some s => s.toList
        | none => []
      piece ++ decodeLossy fuel (bytes.drop n)
    | .error (some n) => Char.ofNat 0xfffd :: decodeLossy fuel (bytes.drop n)
    | .error none => [Char.ofNat 0xfffd]

def lossy (bytes : ByteArray) : String :=
  String.ofList (decodeLossy bytes.size bytes.toList)

end Stagecraft.Text.Utf8
