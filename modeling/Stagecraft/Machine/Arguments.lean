import Stagecraft.Machine.Error
import Stagecraft.Stage.Basic

namespace Stagecraft

structure Arguments where
  builtin : String
  rest : List Value

/-- Taking arguments. An argument of a wrong type is taken too. -/
abbrev Take := ExceptT MachineError (StateM Arguments)

namespace Take

def reject (expected : String) (found : Value) : Take α := do
  throw (.argumentType (← get).builtin expected found)

def value : Take Value := fun args =>
  match args.rest with
  | v :: rest => (.ok v, { args with rest })
  | [] => (.error (.argumentMissing args.builtin), args)

def value? : Take (Option Value) := fun args =>
  match args.rest with
  | .null :: rest => (.ok none, { args with rest })
  | v :: rest => (.ok (some v), { args with rest })
  | [] => (.ok none, args)

def all : Take (List Value) := fun args =>
  (.ok args.rest.reverse, { args with rest := [] })

def number : Take Float := do
  match ← value with
  | .number x | .delta x => pure x
  | v => reject "a number" v

def text : Take String := do
  match ← value with
  | .text s => pure s
  | v => reject "a string" v

def flag : Take Bool := do
  match ← value with
  | .flag b => pure b
  | v => reject "a boolean" v

def enumerator : Take Enumerator := do
  match ← value with
  | .enumerator c => pure c
  | v => reject "an enum constant" v

def numberOr (default : Float) : Take Float := do
  match ← value? with
  | none => pure default
  | some (.number x) | some (.delta x) => pure x
  | some v => reject "a number or null" v

def text? : Take (Option String) := do
  match ← value? with
  | none => pure none
  | some (.text s) => pure (some s)
  | some v => reject "a string or null" v

def flagOr (default : Bool) : Take Bool := do
  match ← value? with
  | none => pure default
  | some (.flag b) => pure b
  | some v => reject "a boolean or null" v

def enumerator? : Take (Option Enumerator) := do
  match ← value? with
  | none => pure none
  | some (.enumerator c) => pure (some c)
  | some v => reject "an enum constant or null" v

def asNumber : Take Float := do
  let v ← value
  match v.toNumber with
  | .ok x => pure x
  | .error _ => reject "something convertible to a number" v

def asText : Take String := do
  pure (← value).toText

def asFlag : Take Bool := do
  let v ← value
  match v.toBool with
  | .ok b => pure b
  | .error _ => reject "something convertible to a boolean" v

def timeLimit : Nat := 0xffffffffffffffff

/-- A number in whole milliseconds; what is not positive or not finite is zero. -/
def wholeMillis (x : Float) : Nat :=
  match Number.parts x with
  | .finite false m e => min (Number.roundUpTie m e) timeLimit
  | _ => 0

def millis : Take Nat := do
  pure (wholeMillis (← number))

def priority : Take Int := do
  pure (Number.truncateWithin (-2147483648) 2147483647 (← number))

def coordinate : Take Coordinate := do
  match ← value with
  | .number x => pure (.absolute x)
  | .delta x => pure (.relative x)
  | .enumerator c => pure (.anchor c)
  | v => reject "a coordinate" v

def extent : Take Extent := do
  match ← value with
  | .number x => pure (.fixed x)
  | .null | .preset .infinite => pure .unbounded
  | v => reject "a size or Infinite" v

def hexDigit? (c : Char) : Option Nat :=
  if '0' ≤ c ∧ c ≤ '9' then some (c.toNat - 48)
  else if 'a' ≤ c ∧ c ≤ 'f' then some (c.toNat - 87)
  else if 'A' ≤ c ∧ c ≤ 'F' then some (c.toNat - 55)
  else none

def hexColor? (s : String) : Option UInt32 :=
  match s.toList with
  | '#' :: digits => do
    let ns ← digits.mapM hexDigit?
    let n := ns.foldl (fun n d => 16 * n + d) 0
    if digits.length == 6 then some (UInt32.ofNat (256 * n + 255))
    else if digits.length == 8 then some (UInt32.ofNat n)
    else none
  | _ => none

def color? : Value → Option UInt32
  | .preset c => c.rgba
  | .number x =>
    if 0.0 ≤ x && x ≤ 16777215.0 then
      some (UInt32.ofNat (256 * (Number.truncateWithin 0 16777215 x).toNat + 255))
    else none
  | .text s => hexColor? s
  | _ => none

def color : Take UInt32 := do
  let v ← value
  match color? v with
  | some rgba => pure rgba
  | none => reject "a color" v

def easing : Take Easing := do
  match ← enumerator? with
  | none => pure .linear
  | some c =>
    match c.easing? with
    | some e => pure e
    | none => reject "an easing" (.enumerator c)

def action : Take Action := do
  let c ← enumerator
  match c.action? with
  | some a => pure a
  | none => reject "an entity action" (.enumerator c)

def soundKind : Take SoundKind := do
  let c ← enumerator
  match c with
  | .se => pure .effect
  | .bgm => pure .music
  | .voice => pure .voice
  | c => reject "SE, BGM or Voice" (.enumerator c)

end Take

end Stagecraft
