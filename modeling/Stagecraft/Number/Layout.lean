import Stagecraft.Number.Shortest
import Stagecraft.Text.Class

namespace Stagecraft.Number

/-- How shortest decimals are written. A number whose leading digit stands at `10 ^ k` is written
positionally when `k` lies within the bounds, a missing bound being no bound. Whole numbers can keep
their point, and positive exponents can have a plus sign. -/
structure Layout where
  lowest : Option Int
  highest : Option Int
  keepPoint : Bool
  plusSign : Bool
  tie : Tie
  nan : String
  infinity : String
  negativeInfinity : String

def Layout.plain : Layout :=
  { lowest := none, highest := none, keepPoint := false, plusSign := false, tie := .up,
    nan := "NaN", infinity := "inf", negativeInfinity := "-inf" }

def Layout.listing : Layout :=
  { lowest := some (-4), highest := some 15, keepPoint := true, plusSign := false, tie := .up,
    nan := "NaN", infinity := "inf", negativeInfinity := "-inf" }

def Layout.json : Layout :=
  { lowest := some (-5), highest := some 15, keepPoint := true, plusSign := true, tie := .even,
    nan := "null", infinity := "null", negativeInfinity := "null" }

def zeros (n : Nat) : List Char :=
  List.replicate n '0'

def positional (keepPoint : Bool) (d : Decimal) : List Char :=
  let digits := Nat.toDigits 10 d.digits
  match d.exponent with
  | .ofNat k => digits ++ zeros k ++ (if keepPoint then ['.', '0'] else [])
  | .negSucc k =>
    let places := k + 1
    if digits.length ≤ places then
      ['0', '.'] ++ zeros (places - digits.length) ++ digits
    else
      digits.take (digits.length - places) ++ ['.'] ++ digits.drop (digits.length - places)

def exponential (plusSign : Bool) (d : Decimal) : List Char :=
  let digits := Nat.toDigits 10 d.digits
  let power := d.exponent + (digits.length : Int) - 1
  let head := match digits with
    | [] => []
    | c :: rest => c :: (if rest.isEmpty then [] else '.' :: rest)
  let sign := if plusSign && 0 < power then ['+'] else []
  head ++ ['e'] ++ sign ++ (toString power).toList

def Decimal.power (d : Decimal) : Int :=
  d.exponent + (digitCount d.digits : Int) - 1

def Layout.isPositional (l : Layout) (d : Decimal) : Bool :=
  d.digits == 0 || ((l.lowest.all (· ≤ d.power)) && (l.highest.all (d.power ≤ ·)))

def Layout.render (l : Layout) (x : Float) : String :=
  match parts x with
  | .nan => l.nan
  | .infinite negative => if negative then l.negativeInfinity else l.infinity
  | .finite negative m e =>
    let d := if m == 0 then { digits := 0, exponent := 0 } else shortest l.tie m e
    let body := if l.isPositional d then positional l.keepPoint d else exponential l.plusSign d
    String.ofList (if negative then '-' :: body else body)

def display (x : Float) : String :=
  if isIntegral x && x.abs < 1e15 then
    toString (truncateWithin (-0x8000000000000000) 0x7fffffffffffffff x)
  else Layout.plain.render x

/-- The text of a number with a fixed count of places; what is cut off is rounded to the nearest, a
tie to the even digit. -/
def fixed (places : Nat) (x : Float) : String :=
  match parts x with
  | .nan => "NaN"
  | .infinite negative => if negative then "-inf" else "inf"
  | .finite negative m e =>
    let (n, d) := scaled m 1 (-e)
    let units := roundHalfEven (n * Nat.pow 10 places) d
    let whole := Nat.toDigits 10 (units / Nat.pow 10 places)
    let part := (Text.padZero places (toString (units % Nat.pow 10 places))).toList
    let body := if places == 0 then whole else whole ++ ['.'] ++ part
    String.ofList (if negative then '-' :: body else body)

end Stagecraft.Number
