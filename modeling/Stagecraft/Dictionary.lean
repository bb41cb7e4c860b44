import Std.Data.HashMap

namespace Stagecraft

structure Dictionary (α : Type) where
  entries : Array (String × α) := #[]
  places : Std.HashMap String Nat := ∅

namespace Dictionary

def size (d : Dictionary α) : Nat :=
  d.entries.size

def contains (d : Dictionary α) (key : String) : Bool :=
  d.places.contains key

def get? (d : Dictionary α) (key : String) : Option α := do
  let i ← d.places[key]?
  let (_, a) ← d.entries[i]?
  pure a

/-- A new key goes to the end; a known one keeps its place. -/
def insert (key : String) (a : α) : Dictionary α → Dictionary α
  | { entries, places } =>
    match places[key]? with
    | some i => { entries := entries.setIfInBounds i (key, a), places }
    | none =>
      let i := entries.size
      { entries := entries.push (key, a), places := places.insert key i }

def toList (d : Dictionary α) : List (String × α) :=
  d.entries.toList

end Dictionary

end Stagecraft
