import Stagecraft.Json.Read

/-!
Records are written as objects, in which unknown keys are ignored and known ones must not be
repeated, or as lists of their fields.
-/

namespace Stagecraft.Json

def depthLimit : Nat := 127

mutual

def isProper (room : Nat) : Json → Bool
  | null | flag _ => true
  | number written => (numberValue? written).isSome
  | text s => s.isSome
  | list items => 0 < room && areProper (room - 1) items
  | object entries => 0 < room && entriesProper (room - 1) entries

def areProper (room : Nat) : List Json → Bool
  | [] => true
  | item :: rest => isProper room item && areProper room rest

def entriesProper (room : Nat) : List (Option String × Json) → Bool
  | [] => true
  | (key, value) :: rest => key.isSome && isProper room value && entriesProper room rest

end

def text? : Json → Option String
  | text s => s
  | _ => none

def flag? : Json → Option Bool
  | flag b => some b
  | _ => none

def natural? (limit : Nat) : Json → Option Nat
  | number written =>
    match numberValue? written with
    | some (.natural n) => if n ≤ limit then some n else none
    | _ => none
  | _ => none

def float? : Json → Option Float
  | number written =>
    match numberValue? written with
    | some (.natural n) => some (UInt64.ofNat n).toFloat
    | some (.negative n) => some (-(UInt64.ofNat n).toFloat)
    | some (.float x) => some x
    | none => none
  | _ => none

def list? (f : Json → Option α) : Json → Option (List α)
  | list items => items.mapM f
  | _ => none

def optional? (f : Json → Option α) : Json → Option (Option α)
  | null => some none
  | j => (f j).map some

def single? (entries : List (Option String × Json)) (key : String) : Option (Option Json) :=
  match entries.filter fun (k, _) => k == some key with
  | [] => some none
  | [(_, value)] => some (some value)
  | _ => none

def fields? (names : List String) : Json → Option (List (Option Json))
  | object entries =>
    if entries.all (·.1.isSome) then names.mapM (single? entries) else none
  | list items =>
    if items.length ≤ names.length then
      some (items.map some ++ List.replicate (names.length - items.length) none)
    else none
  | _ => none

def required (f : Json → Option α) : Option Json → Option α
  | some j => f j
  | none => none

def withDefault (default : α) (f : Json → Option α) : Option Json → Option α
  | some j => f j
  | none => some default

def tagged? : Json → Option (String × Json)
  | object entries => do
    let kind ← required text? (← single? entries "kind")
    pure (kind, object (entries.filter fun (k, _) => k != some "kind"))
  | list (kind :: rest) => do pure (← text? kind, list rest)
  | _ => none

def innerRoom : Nat := depthLimit - 3

/-- A record whose `kind` tells which fields it has, in a list of such records. All of it has to be
proper, also what is ignored. -/
def variant? (j : Json) : Option (String × Json) :=
  if j.isProper (innerRoom + 1) then j.tagged? else none

def isBare : Json → Bool
  | object _ => true
  | list items => items.isEmpty
  | _ => false

end Stagecraft.Json
