/-!
Binary floating-point numbers taken apart into sign, integer mantissa and power of two. Everything
that has to be exact is done on these parts in integer arithmetic.
-/

namespace Stagecraft.Number

inductive Parts where
  | nan
  | infinite (negative : Bool)
  | finite (negative : Bool) (mantissa : Nat) (exponent : Int)
  deriving DecidableEq, Repr

def fractionBits : Nat := 52

def leastExponent : Int := -1074

def partsOfBits (bits : Nat) : Parts :=
  let negative := bits >>> 63 == 1
  let field := (bits >>> fractionBits) % 2048
  let fraction := bits % Nat.pow 2 fractionBits
  if field == 2047 then (if fraction == 0 then .infinite negative else .nan)
  else if field == 0 then .finite negative fraction leastExponent
  else .finite negative (Nat.pow 2 fractionBits + fraction) (leastExponent + field - 1)

def parts (x : Float) : Parts :=
  partsOfBits x.toBits.toNat

def roundHalfEven (n d : Nat) : Nat :=
  let q := n / d
  let r := n % d
  if 2 * r > d || (2 * r == d && q % 2 == 1) then q + 1 else q

def scaled (n d : Nat) (e : Int) : Nat × Nat :=
  match e with
  | .ofNat k => (n, d * Nat.pow 2 k)
  | .negSucc k => (n * Nat.pow 2 (k + 1), d)

def exponentFor (n d : Nat) : Int :=
  let guess : Int := (n.log2 : Int) - d.log2 - fractionBits
  let (a, b) := scaled n d guess
  let fitted := if a / b < Nat.pow 2 fractionBits then guess - 1 else guess
  max fitted leastExponent

def bitsOfRatio (n d : Nat) : Nat :=
  if n == 0 then 0
  else
    let e := exponentFor n d
    let (a, b) := scaled n d e
    let mantissa := roundHalfEven a b
    if mantissa < Nat.pow 2 fractionBits then mantissa
    else
      let field := (e - leastExponent + 1).toNat
      if field ≥ 2047 then 2047 <<< fractionBits
      else
        min (field <<< fractionBits + (mantissa - Nat.pow 2 fractionBits)) (2047 <<< fractionBits)

def ofRatio (negative : Bool) (n d : Nat) : Float :=
  let bits := bitsOfRatio n d
  Float.ofBits (UInt64.ofNat (if negative then bits + 0x8000000000000000 else bits))

def ofParts (negative : Bool) (mantissa : Nat) (exponent : Int) : Float :=
  let (n, d) := scaled mantissa 1 (-exponent)
  ofRatio negative n d

def ofInt (n : Int) : Float :=
  ofParts (n < 0) n.natAbs 0

def isFinite (x : Float) : Bool :=
  match parts x with
  | .finite _ _ _ => true
  | _ => false

def isIntegral (x : Float) : Bool :=
  match parts x with
  | .finite _ m (.negSucc k) => m % Nat.pow 2 (k + 1) == 0
  | .finite _ _ (.ofNat _) => true
  | _ => false

def truncateParts (negative : Bool) (m : Nat) (e : Int) : Int :=
  let magnitude := match e with
    | .ofNat k => m * Nat.pow 2 k
    | .negSucc k => m / Nat.pow 2 (k + 1)
  if negative then -(magnitude : Int) else magnitude

def truncateWithin (low high : Int) (x : Float) : Int :=
  match parts x with
  | .nan => 0
  | .infinite negative => if negative then low else high
  | .finite negative m e => max low (min high (truncateParts negative m e))

def roundUpTie (m : Nat) (e : Int) : Nat :=
  match e with
  | .ofNat k => m * Nat.pow 2 k
  | .negSucc k => (2 * m + Nat.pow 2 (k + 1)) / Nat.pow 2 (k + 2)

def remainder (x y : Float) : Float :=
  match parts x, parts y with
  | .finite negative m e, .finite _ n f =>
    if n == 0 then 0.0 / 0.0
    else
      let least := min e f
      let a := m * Nat.pow 2 (e - least).toNat
      let b := n * Nat.pow 2 (f - least).toNat
      ofParts negative (a % b) least
  | .finite _ _ _, .infinite _ => x
  | _, _ => 0.0 / 0.0

end Stagecraft.Number
