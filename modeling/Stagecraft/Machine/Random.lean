namespace Stagecraft

structure Random where
  state : UInt32
  deriving DecidableEq, Repr, Inhabited

namespace Random

def defaultSeed : UInt32 := 0x4e535856

def increment : UInt32 := 0x6d2b79f5

def scramble (s : UInt32) : UInt32 :=
  let a := (s ^^^ s >>> 15) * (s ||| 1)
  let b := a ^^^ (a + (a ^^^ a >>> 7) * (a ||| 61))
  b ^^^ b >>> 14

def next (r : Random) : UInt32 × Random :=
  let state := r.state + increment
  (scramble state, { state })

def accepted (bound : UInt32) : Nat :=
  0x100000000 / bound.toNat * bound.toNat

def draw (bound : UInt32) : Nat → Random → UInt32 × Random
  | 0, r => (0, r)
  | fuel + 1, r =>
    let (candidate, r) := r.next
    if candidate.toNat < accepted bound then (candidate % bound, r) else draw bound fuel r

/-- A random number below a bound; zero if the bound is zero. After `2 ^ 32` draws the states
repeat. -/
def below (r : Random) (bound : UInt32) : UInt32 × Random :=
  if bound == 0 then (0, r) else draw bound 0x100000000 r

end Random

end Stagecraft
