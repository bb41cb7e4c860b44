import Stagecraft.Number.Binary

/-!
A decimal with `k` digits reads back as a number when it lies between the halfway points to the
neighbouring numbers. Of each length only the two decimals around the number matter: if any one lies
in between, one of these two does.
-/

namespace Stagecraft.Number

structure Decimal where
  digits : Nat
  exponent : Int
  deriving DecidableEq, Repr

def digitCount (n : Nat) : Nat :=
  if n == 0 then 0 else (Nat.toDigits 10 n).length

def leadingPower (n d : Nat) : Int :=
  if d ≤ n then (digitCount (n / d) : Int) - 1 else -(digitCount ((d - 1) / n) : Int)

def powerOfTen (k : Int) : Nat × Nat :=
  match k with
  | .ofNat j => (Nat.pow 10 j, 1)
  | .negSucc j => (1, Nat.pow 10 (j + 1))

inductive Tie where
  | up
  | even
  deriving DecidableEq, Repr

/-- The numbers that read back as one binary number: those between `(center - below) / unit` and
`(center + above) / unit`, the ends included when the mantissa is even. -/
structure Basin where
  center : Nat
  below : Nat
  above : Nat
  unit : Nat
  closed : Bool

def Basin.of (m : Nat) (e : Int) : Basin :=
  let below := if m == Nat.pow 2 fractionBits && leastExponent < e then 1 else 2
  let closed := m % 2 == 0
  match e with
  | .ofNat k =>
    let scale := Nat.pow 2 k
    { center := 4 * m * scale, below := below * scale, above := 2 * scale, unit := 4, closed }
  | .negSucc k => { center := 4 * m, below, above := 2, unit := 4 * Nat.pow 2 (k + 1), closed }

def Basin.contains (b : Basin) (digits : Nat) (exponent : Int) : Bool :=
  let (p, q) := powerOfTen exponent
  let x := digits * p * b.unit
  let low := (b.center - b.below) * q
  let high := (b.center + b.above) * q
  if b.closed then low ≤ x && x ≤ high else low < x && x < high

def Basin.pick (b : Basin) (tie : Tie) (exponent : Int) : Option Nat :=
  let (p, q) := powerOfTen exponent
  let n := b.center * q
  let d := b.unit * p
  let low := n / d
  let high := low + 1
  match b.contains low exponent, b.contains high exponent with
  | true, true =>
    let twice := 2 * (n % d)
    some (if twice > d || (twice == d && (tie == .up || low % 2 == 1)) then high else low)
  | true, false => some low
  | false, true => some high
  | false, false => none

def Decimal.strip (fuel : Nat) (d : Decimal) : Decimal :=
  match fuel with
  | 0 => d
  | fuel + 1 =>
    if d.digits ≠ 0 && d.digits % 10 == 0 then
      Decimal.strip fuel { digits := d.digits / 10, exponent := d.exponent + 1 }
    else d

def Basin.search (b : Basin) (tie : Tie) (left : Nat) (exponent : Int) : Decimal :=
  match b.pick tie exponent with
  | some digits => Decimal.strip 20 { digits, exponent }
  | none =>
    match left with
    | 0 => { digits := 0, exponent := 0 }
    | left + 1 => b.search tie left (exponent - 1)

/-- The shortest decimal that reads back as the positive number `m · 2 ^ e`, and of these the one
nearest to it. Seventeen digits always suffice. -/
def shortest (tie : Tie) (m : Nat) (e : Int) : Decimal :=
  let b := Basin.of m e
  b.search tie 17 (leadingPower b.center b.unit)

end Stagecraft.Number
