import Stagecraft.Text.Table

namespace Stagecraft.Text

def rankIn (bounds : Array Nat) (n lo hi : Nat) : Nat :=
  if lo < hi then
    let mid := (lo + hi) / 2
    if bounds.getD mid 0 ≤ n then rankIn bounds n (mid + 1) hi else rankIn bounds n lo mid
  else lo
termination_by hi - lo
decreasing_by all_goals omega

def inClass (bounds : Array Nat) (c : Char) : Bool :=
  rankIn bounds c.toNat 0 bounds.size % 2 == 1

def isAlphabetic (c : Char) : Bool :=
  if c.toNat < 128 then c.isAlpha else inClass alphabeticBounds c

def isNumeric (c : Char) : Bool :=
  if c.toNat < 128 then c.isDigit else inClass numericBounds c

def isAlphanumeric (c : Char) : Bool :=
  isAlphabetic c || isNumeric c

def isLetter (c : Char) : Bool :=
  if c.toNat < 128 then c.isAlpha else inClass letterBounds c

def isDecimalDigit (c : Char) : Bool :=
  if c.toNat < 128 then c.isDigit else inClass decimalDigitBounds c

def isWord (c : Char) : Bool :=
  inClass wordBounds c

def isBlank (c : Char) : Bool :=
  let n := c.toNat
  (9 ≤ n && n ≤ 13) || n == 0x20 || n == 0x85 || n == 0xa0 || n == 0x1680 ||
    (0x2000 ≤ n && n ≤ 0x200a) || n == 0x2028 || n == 0x2029 || n == 0x202f || n == 0x205f ||
    n == 0x3000

def isShown (c : Char) : Bool :=
  !inClass hiddenBounds c && !inClass extendBounds c

def trimStart (cs : List Char) : List Char :=
  cs.dropWhile isBlank

def trimEnd (cs : List Char) : List Char :=
  (cs.reverse.dropWhile isBlank).reverse

def trim (s : String) : String :=
  String.ofList (trimEnd (trimStart s.toList))

def split (sep : Char) (cs : List Char) : List (List Char) :=
  cs.foldr (fun c pieces =>
    if c == sep then [] :: pieces
    else match pieces with
      | [] => [[c]]
      | piece :: rest => (c :: piece) :: rest) [[]]

def join (sep : String) (parts : List String) : String :=
  sep.intercalate parts

def padZero (width : Nat) (s : String) : String :=
  String.ofList (List.replicate (width - s.length) '0') ++ s

def digitsIn (base n : Nat) (upper : Bool) : List Char :=
  (Nat.toDigits base n).map fun c => if upper then c.toUpper else c

def hex (n : Nat) : String :=
  String.ofList (digitsIn 16 n false)

end Stagecraft.Text
