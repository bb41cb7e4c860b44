import Stagecraft.Json.Basic
import Stagecraft.Number.Binary

namespace Stagecraft.Json

def isBlank (c : Char) : Bool :=
  c == ' ' || c == '\n' || c == '\t' || c == '\r'

def skipBlanks (cs : List Char) : List Char :=
  cs.dropWhile isBlank

def hexValue? (c : Char) : Option Nat :=
  if '0' ≤ c ∧ c ≤ '9' then some (c.toNat - 48)
  else if 'a' ≤ c ∧ c ≤ 'f' then some (c.toNat - 87)
  else if 'A' ≤ c ∧ c ≤ 'F' then some (c.toNat - 55)
  else none

def unit? : List Char → Option (Nat × List Char)
  | a :: b :: c :: d :: rest => do
    let a ← hexValue? a
    let b ← hexValue? b
    let c ← hexValue? c
    let d ← hexValue? d
    pure (4096 * a + 256 * b + 16 * c + d, rest)
  | _ => none

def escaped? : Char → Option Char
  | '"' => some '"'
  | '\\' => some '\\'
  | '/' => some '/'
  | 'b' => some '\x08'
  | 'f' => some '\x0c'
  | 'n' => some '\n'
  | 'r' => some '\r'
  | 't' => some '\t'
  | _ => none

def isHigh (n : Nat) : Bool :=
  0xd800 ≤ n && n < 0xdc00

def isLow (n : Nat) : Bool :=
  0xdc00 ≤ n && n < 0xe000

def lowHalf? : List Char → Option (Nat × List Char)
  | '\\' :: 'u' :: rest =>
    match unit? rest with
    | some (n, rest) => if isLow n then some (n, rest) else none
    | none => none
  | _ => none

/-- A text after its opening quote. `done` is what was read, last character first, and is `none`
after half of a surrogate pair. `fuel` is at least the number of characters. -/
def textFrom : Nat → List Char → Option (List Char) → Option (Option String × List Char)
  | 0, _, _ => none
  | _ + 1, [], _ => none
  | _ + 1, '"' :: rest, done => some (done.map fun cs => String.ofList cs.reverse, rest)
  | fuel + 1, '\\' :: 'u' :: rest, done =>
    match unit? rest with
    | none => none
    | some (n, rest) =>
      if isHigh n then
        match lowHalf? rest with
        | some (low, rest) =>
          let c := Char.ofNat (0x10000 + (n - 0xd800) * 0x400 + (low - 0xdc00))
          textFrom fuel rest (done.map (c :: ·))
        | none => textFrom fuel rest none
      else if isLow n then textFrom fuel rest none
      else textFrom fuel rest (done.map (Char.ofNat n :: ·))
  | fuel + 1, '\\' :: c :: rest, done =>
    match escaped? c with
    | some c => textFrom fuel rest (done.map (c :: ·))
    | none => none
  | fuel + 1, c :: rest, done =>
    if c.toNat < 32 || c == '\\' then none else textFrom fuel rest (done.map (c :: ·))

structure Numeral where
  negative : Bool
  whole : List Char
  fraction : List Char
  exponent : Option (Bool × List Char)

namespace Numeral

def whole? : List Char → Option (List Char × List Char)
  | '0' :: rest => some (['0'], rest)
  | cs =>
    let digits := cs.takeWhile Char.isDigit
    if digits.isEmpty then none else some (digits, cs.dropWhile Char.isDigit)

def fraction? : List Char → Option (List Char × List Char)
  | '.' :: rest =>
    let digits := rest.takeWhile Char.isDigit
    if digits.isEmpty then none else some (digits, rest.dropWhile Char.isDigit)
  | cs => some ([], cs)

def exponent? : List Char → Option (Option (Bool × List Char) × List Char)
  | c :: rest =>
    if c == 'e' || c == 'E' then
      let (negative, rest) := match rest with
        | '-' :: rest => (true, rest)
        | '+' :: rest => (false, rest)
        | rest => (false, rest)
      let digits := rest.takeWhile Char.isDigit
      if digits.isEmpty then none
      else some (some (negative, digits), rest.dropWhile Char.isDigit)
    else some (none, c :: rest)
  | [] => some (none, [])

def read? (cs : List Char) : Option (Numeral × List Char) := do
  let (negative, cs) := match cs with
    | '-' :: rest => (true, rest)
    | cs => (false, cs)
  let (whole, cs) ← whole? cs
  let (fraction, cs) ← fraction? cs
  let (exponent, cs) ← exponent? cs
  pure ({ negative, whole, fraction, exponent }, cs)

end Numeral

mutual

def valueFrom : Nat → List Char → Option (Json × List Char)
  | 0, _ => none
  | fuel + 1, cs =>
    match skipBlanks cs with
    | 'n' :: 'u' :: 'l' :: 'l' :: rest => some (null, rest)
    | 't' :: 'r' :: 'u' :: 'e' :: rest => some (flag true, rest)
    | 'f' :: 'a' :: 'l' :: 's' :: 'e' :: rest => some (flag false, rest)
    | '"' :: rest => (textFrom (rest.length + 1) rest (some [])).map fun (s, rest) => (text s, rest)
    | '[' :: rest =>
      match skipBlanks rest with
      | ']' :: rest => some (list [], rest)
      | rest => itemsFrom fuel rest #[]
    | '\x7b' :: rest =>
      match skipBlanks rest with
      | '\x7d' :: rest => some (object [], rest)
      | rest => entriesFrom fuel rest #[]
    | cs =>
      match Numeral.read? cs with
      | some (_, rest) => some (number (String.ofList (cs.take (cs.length - rest.length))), rest)
      | none => none

def itemsFrom : Nat → List Char → Array Json → Option (Json × List Char)
  | 0, _, _ => none
  | fuel + 1, cs, found =>
    match valueFrom fuel cs with
    | none => none
    | some (item, rest) =>
      match skipBlanks rest with
      | ',' :: rest => itemsFrom fuel rest (found.push item)
      | ']' :: rest => some (list (found.push item).toList, rest)
      | _ => none

def entriesFrom : Nat → List Char → Array (Option String × Json) → Option (Json × List Char)
  | 0, _, _ => none
  | fuel + 1, cs, found =>
    match skipBlanks cs with
    | '"' :: rest =>
      match textFrom (rest.length + 1) rest (some []) with
      | none => none
      | some (key, rest) =>
        match skipBlanks rest with
        | ':' :: rest =>
          match valueFrom fuel rest with
          | none => none
          | some (value, rest) =>
            match skipBlanks rest with
            | ',' :: rest => entriesFrom fuel rest (found.push (key, value))
            | '\x7d' :: rest => some (object (found.push (key, value)).toList, rest)
            | _ => none
        | _ => none
    | _ => none

end

def read? (s : String) : Option Json :=
  match valueFrom (s.length + 1) s.toList with
  | some (j, rest) => if (skipBlanks rest).isEmpty then some j else none
  | none => none

inductive NumberValue where
  | natural (n : Nat)
  | negative (n : Nat)
  | float (x : Float)

namespace Numeral

def limit : Nat := 0xffffffffffffffff

def accumulate (n : Nat) : List Char → Nat × Nat
  | [] => (n, 0)
  | c :: rest =>
    let next := 10 * n + (c.toNat - 48)
    if next ≤ limit then accumulate next rest else (n, rest.length + 1)

/-- `n · 10 ^ e`, with a rounding at the power of ten and one at the product or quotient. There is
no result if it is too large. -/
def scale : Nat → Float → Int → Option Float
  | 0, x, _ => some x
  | fuel + 1, x, e =>
    if e.natAbs ≤ 308 then
      let power := Number.ofRatio false (Nat.pow 10 e.natAbs) 1
      if 0 ≤ e then
        let y := x * power
        if Number.isFinite y then some y else none
      else some (x / power)
    else if x == 0.0 then some x
    else if 0 ≤ e then none
    else scale fuel (x / 1e308) (e + 308)

def float? (n : Numeral) : Option Float := do
  let (significand, dropped) := accumulate 0 n.whole
  let (significand, ignored) := accumulate significand n.fraction
  let taken : Int := n.fraction.length - ignored
  let written : Int := match n.exponent with
    | some (negative, digits) =>
      let e : Int := digits.foldl (fun e c => 10 * e + (c.toNat - 48)) 0
      if negative then -e else e
    | none => 0
  let x ← scale 8 (UInt64.ofNat significand).toFloat (dropped - taken + written)
  pure (if n.negative then -x else x)

def value? (n : Numeral) : Option NumberValue :=
  let (whole, dropped) := accumulate 0 n.whole
  if n.fraction.isEmpty && n.exponent.isNone && dropped == 0 then
    if !n.negative then some (.natural whole)
    else if 0 < whole && whole ≤ 0x8000000000000000 then some (.negative whole)
    else n.float?.map .float
  else n.float?.map .float

end Numeral

def numberValue? (written : String) : Option NumberValue :=
  (Numeral.read? written.toList).bind fun (n, _) => n.value?

end Stagecraft.Json
