import Stagecraft.Value.Basic

/-!
A directive is a percent sign, an optional minus sign, an optional zero, an optional width, an
optional precision after a point, and a letter. Two percent signs stand for one.
-/

namespace Stagecraft.Format

structure Directive where
  alignLeft : Bool
  fillZero : Bool
  width : Nat
  precision : Option Nat
  conversion : Char
  deriving DecidableEq, Repr

/-- The number that digits stand for. Digits of other scripts and numbers beyond 64 bits do not
count. -/
def number? (digits : List Char) : Option Nat :=
  if digits.all Char.isDigit then
    let n := digits.foldl (fun n c => 10 * n + (c.toNat - 48)) 0
    if n < 0x10000000000000000 then some n else none
  else none

def flag (c : Char) : List Char → Bool × List Char
  | d :: rest => if c == d then (true, rest) else (false, d :: rest)
  | [] => (false, [])

def precision : List Char → List Char × List Char
  | '.' :: rest =>
    let digits := rest.takeWhile Text.isDecimalDigit
    if digits.isEmpty then ([], '.' :: rest) else (digits, rest.dropWhile Text.isDecimalDigit)
  | cs => ([], cs)

def directive? (cs : List Char) : Option (Directive × List Char) :=
  let (alignLeft, cs) := flag '-' cs
  let (fillZero, cs) := flag '0' cs
  let width := cs.takeWhile Text.isDecimalDigit
  let (places, cs) := precision (cs.dropWhile Text.isDecimalDigit)
  match cs with
  | c :: rest =>
    if ['d', 's', 'f', 'x', 'X', '%'].contains c then
      some ({ alignLeft, fillZero, width := (number? width).getD 0
              precision := if places.isEmpty then none else number? places
              conversion := c }, rest)
    else none
  | [] => none

def pad (d : Directive) (body : List Char) : List Char :=
  let fill := d.width - body.length
  if d.alignLeft then body ++ List.replicate fill ' '
  else if d.fillZero && d.conversion != 's' then
    match body with
    | '-' :: rest => '-' :: (List.replicate fill '0' ++ rest)
    | _ => List.replicate fill '0' ++ body
  else List.replicate fill ' ' ++ body

def integer (x : Float) : Int :=
  Number.truncateWithin (-0x8000000000000000) 0x7fffffffffffffff x

/-- The hexadecimal digits of a 64-bit integer; a negative one stands for its complement. -/
def hexDigits (upper : Bool) (n : Int) : List Char :=
  Text.digitsIn 16 (n % 0x10000000000000000).toNat upper

def body (d : Directive) (v : Value) : List Char :=
  match d.conversion, v.toNumber with
  | 'd', .ok x => (toString (integer x)).toList
  | 'f', .ok x => (Number.fixed (d.precision.getD 6) x).toList
  | 'x', .ok x => hexDigits false (integer x)
  | 'X', .ok x => hexDigits true (integer x)
  | _, _ => v.toText.toList

/-- A format with its directives replaced, after the text `done`, last character first. Directives
without a value take null. `fuel` is at least the length of the format. -/
def fillFrom : Nat → List Char → List Value → List Char → List Char
  | 0, _, _, done => done.reverse
  | _ + 1, [], _, done => done.reverse
  | fuel + 1, '%' :: rest, values, done =>
    match directive? rest with
    | none => fillFrom fuel rest values ('%' :: done)
    | some (d, rest) =>
      if d.conversion == '%' then fillFrom fuel rest values ('%' :: done)
      else
        fillFrom fuel rest values.tail ((pad d (body d (values.headD .null))).reverse ++ done)
  | fuel + 1, c :: rest, values, done => fillFrom fuel rest values (c :: done)

def fill (format : String) (values : List Value) : String :=
  String.ofList (fillFrom (format.length + 1) format.toList values [])

end Stagecraft.Format
