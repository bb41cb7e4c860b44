import Stagecraft.Value.Basic

namespace Stagecraft

/-- The time some milliseconds later. A clock has 64 bits and starts again after its greatest
value. -/
def Clock.later (now length : Nat) : Nat :=
  (now + length) % 0x10000000000000000

structure Input where
  advance : Bool := false
  clicked : Bool := false
  deriving DecidableEq, Repr, Inhabited

inductive Coordinate where
  | absolute (x : Float)
  | relative (x : Float)
  | anchor (c : Enumerator)
  deriving Repr, Inhabited

inductive Extent where
  | fixed (x : Float)
  | unbounded
  deriving Repr, Inhabited

inductive SoundKind where
  | effect | music | voice
  deriving DecidableEq, Repr, Inhabited

def SoundKind.name : SoundKind → String
  | effect => "Effect"
  | music => "Music"
  | voice => "Voice"

structure Transition where
  duration : Nat
  start : Float
  stop : Float
  feather : Float
  easing : Easing
  mask : Option String
  deriving Repr

inductive Cue where
  | color (name : String) (priority : Int) (x y : Coordinate) (width height : Float)
      (rgba : UInt32)
  | text (name : String) (priority : Int) (x y : Coordinate) (width height : Extent)
      (content : String)
  | delete (entity : String)
  | request (entity : String) (action : Action)
  | nickname (entity nickname : String)
  | fade (entity : String) (duration : Nat) (opacity : Float) (easing : Easing)
  | move (entity : String) (duration : Nat) (x y : Coordinate) (easing : Easing)
  | zoom (entity : String) (duration : Nat) (x y : Float) (easing : Easing)
  | transition (entity : String) (transition : Transition)
  | volume (entity : String) (duration : Nat) (volume : Float)
  | looping (entity : String) (on : Bool)
  | loopPoint (entity : String) (start stop : Nat)
  | beginDialogue (thread name : String)
  | present (thread content : String)
  | beginSelect (thread : String)
  | setGlobal (name : String) (value : Value)
  deriving Repr

inductive Asset where
  | texture (name : String) (priority : Int) (x y : Coordinate) (source : String)
  | sound (name : String) (kind : SoundKind) (file : String)
  deriving Repr

/-- The operations of a stage with states `σ`. Times are in milliseconds. -/
class Stage (σ : Type) where
  now : σ → Nat
  input : σ → Input
  entities : σ → String → List String
  remaining? : σ → String → Option Nat
  passage? : σ → String → Option Nat
  size? : σ → String → Option (Nat × Nat)
  global? : σ → String → Option Value
  perform : Cue → σ → σ
  load : Asset → σ → Option Nat × σ
  poll : String → String → σ → Bool × σ

end Stagecraft
