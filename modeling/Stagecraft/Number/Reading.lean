import Stagecraft.Number.Binary

namespace Stagecraft.Number

def joinPairs (base : Nat) (done : List Nat) : List Nat → List Nat
  | low :: high :: rest => joinPairs base ((low + base * high) :: done) rest
  | [low] => (low :: done).reverse
  | [] => done.reverse

theorem length_joinPairs (base : Nat) (done digits : List Nat) :
    (joinPairs base done digits).length = done.length + (digits.length + 1) / 2 := by
  fun_induction joinPairs base done digits with
  | case1 done low high rest ih => simp only [ih, List.length_cons]; omega
  | case2 done low => simp
  | case3 done => simp

theorem foldr_joinPairs (base : Nat) (done digits : List Nat) :
    (joinPairs base done digits).foldr (fun d n => d + base * base * n) 0 =
      done.reverse.foldr (fun d n => d + base * base * n)
        (digits.foldr (fun d n => d + base * n) 0) := by
  fun_induction joinPairs base done digits with
  | case1 done low high rest ih =>
    rw [ih, List.reverse_cons, List.foldr_append]
    simp [Nat.mul_add, Nat.mul_assoc, Nat.add_assoc]
  | case2 done low => simp
  | case3 done => simp

def ofLowDigits (base : Nat) : List Nat → Nat
  | [] => 0
  | [digit] => digit
  | low :: high :: rest => ofLowDigits (base * base) (joinPairs base [] (low :: high :: rest))
termination_by digits => digits.length
decreasing_by simp only [length_joinPairs, List.length_cons, List.length_nil]; omega

theorem ofLowDigits_eq (base : Nat) (digits : List Nat) :
    ofLowDigits base digits = digits.foldr (fun d n => d + base * n) 0 := by
  fun_induction ofLowDigits base digits with
  | case1 => rfl
  | case2 base digit => simp
  | case3 base low high rest ih => simpa [foldr_joinPairs] using ih

def ofDigits (cs : List Char) : Nat :=
  ofLowDigits 10 ((cs.map fun c => c.toNat - '0'.toNat).reverse)

def ofDecimal (negative : Bool) (digits : List Char) (e : Int) : Float :=
  let digits := digits.dropWhile (· == '0')
  let power := e + (digits.length : Int)
  if digits.isEmpty || power < -330 then ofRatio negative 0 1
  else if power > 310 then ofRatio negative (Nat.pow 2 1100) 1
  else match e with
    | .ofNat k => ofRatio negative (ofDigits digits * Nat.pow 10 k) 1
    | .negSucc k => ofRatio negative (ofDigits digits) (Nat.pow 10 (k + 1))

def powerLimit : Nat := 0x10000

def powerOfDigits (cs : List Char) : Nat :=
  cs.foldl (fun n c => if n < powerLimit then 10 * n + (c.toNat - '0'.toNat) else n) 0

def readPower (cs : List Char) : Option Int :=
  let (negative, digits) := match cs with
    | '-' :: rest => (true, rest)
    | '+' :: rest => (false, rest)
    | _ => (false, cs)
  if digits.isEmpty || !digits.all Char.isDigit then none
  else
    let n : Int := powerOfDigits digits
    some (if negative then -n else n)

def readUnsigned (negative : Bool) (cs : List Char) : Option Float :=
  let whole := cs.takeWhile Char.isDigit
  let rest := cs.dropWhile Char.isDigit
  let (fraction, rest) := match rest with
    | '.' :: more => (more.takeWhile Char.isDigit, more.dropWhile Char.isDigit)
    | _ => ([], rest)
  if whole.isEmpty && fraction.isEmpty then none
  else
    let finish (power : Int) : Float :=
      ofDecimal negative (whole ++ fraction) (power - fraction.length)
    match rest with
    | [] => some (finish 0)
    | c :: more => if c == 'e' || c == 'E' then (readPower more).map finish else none

def read (cs : List Char) : Option Float :=
  let (negative, body) := match cs with
    | '-' :: rest => (true, rest)
    | '+' :: rest => (false, rest)
    | _ => (false, cs)
  let word := String.ofList (body.map Char.toLower)
  if word == "inf" || word == "infinity" then
    some (if negative then -(1.0 / 0.0) else 1.0 / 0.0)
  else if word == "nan" then some (0.0 / 0.0)
  else readUnsigned negative body

end Stagecraft.Number
