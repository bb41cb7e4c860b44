import Stagecraft.Number.Layout
import Stagecraft.Number.Reading

namespace Stagecraft

inductive Enumerator where
  | linear | axlAuto | axl1 | axl2 | axl3 | dxlAuto | dxl1 | dxl2 | dxl3
  | lock | unLock | play | stop | start | disused | erase | enter | leave | pushed | smoothing
  | hide | center | middle | inBottom | onTop | left | right | top | bottom
  | se | bgm | voice
  deriving DecidableEq, Repr, Inhabited

namespace Enumerator

def table : Array (Enumerator × String) := #[
  (linear, "Linear"), (axlAuto, "AxlAuto"), (axl1, "Axl1"), (axl2, "Axl2"), (axl3, "Axl3"),
  (dxlAuto, "DxlAuto"), (dxl1, "Dxl1"), (dxl2, "Dxl2"), (dxl3, "Dxl3"), (lock, "Lock"),
  (unLock, "UnLock"), (play, "Play"), (stop, "Stop"), (start, "Start"), (disused, "Disused"),
  (erase, "Erase"), (enter, "Enter"), (leave, "Leave"), (pushed, "Pushed"),
  (smoothing, "Smoothing"), (hide, "Hide"), (center, "Center"), (middle, "Middle"),
  (inBottom, "InBottom"), (onTop, "OnTop"), (left, "Left"), (right, "Right"), (top, "Top"),
  (bottom, "Bottom"), (se, "SE"), (bgm, "BGM"), (voice, "Voice")]

def id (c : Enumerator) : UInt16 :=
  UInt16.ofNat ((table.findIdx? (·.1 == c)).getD 65535)

def ofId (id : UInt16) : Option Enumerator :=
  table[id.toNat]?.map (·.1)

def name (c : Enumerator) : String :=
  ((table.find? (·.1 == c)).map (·.2)).getD "?"

def label : Enumerator → String
  | se => "Se"
  | bgm => "Bgm"
  | c => c.name

end Enumerator

inductive Preset where
  | black | white | red | green | blue | transparent | infinite
  deriving DecidableEq, Repr, Inhabited

namespace Preset

def table : Array (Preset × String) := #[
  (black, "Black"), (white, "White"), (red, "Red"), (green, "Green"), (blue, "Blue"),
  (transparent, "Transparent"), (infinite, "Infinite")]

def id (c : Preset) : UInt16 :=
  UInt16.ofNat ((table.findIdx? (·.1 == c)).getD 65535)

def ofId (id : UInt16) : Option Preset :=
  table[id.toNat]?.map (·.1)

def name (c : Preset) : String :=
  ((table.find? (·.1 == c)).map (·.2)).getD "?"

def rgba : Preset → Option UInt32
  | black => some 0x000000ff
  | white => some 0xffffffff
  | red => some 0xff0000ff
  | green => some 0x00ff00ff
  | blue => some 0x0000ffff
  | transparent => some 0
  | infinite => none

end Preset

/-- A value of a script. A `delta` is a number relative to what it is applied to. -/
inductive Value where
  | null
  | number (x : Float)
  | delta (x : Float)
  | text (s : String)
  | flag (b : Bool)
  | enumerator (c : Enumerator)
  | preset (c : Preset)
  deriving BEq, Repr, Inhabited

inductive ValueError where
  | conversion (source target : String)
  | operator (symbol left right : String)
  | divisionByZero
  deriving DecidableEq, Repr

namespace ValueError

def message : ValueError → String
  | conversion source target => s!"cannot convert {source} to {target}"
  | operator symbol left right => s!"operator {symbol} is not defined for {left} and {right}"
  | divisionByZero => "division by zero"

end ValueError

inductive Easing where
  | linear
  | sineIn | quadraticIn | cubicIn | quarticIn
  | sineOut | quadraticOut | cubicOut | quarticOut
  deriving DecidableEq, Repr, Inhabited

inductive Action where
  | lock | unlock | play | stop | start | disused | erase | enter | leave | pushed | smoothing
  | hide
  deriving DecidableEq, Repr, Inhabited

def Enumerator.easing? : Enumerator → Option Easing
  | linear => some .linear
  | axlAuto => some .sineIn
  | axl1 => some .quadraticIn
  | axl2 => some .cubicIn
  | axl3 => some .quarticIn
  | dxlAuto => some .sineOut
  | dxl1 => some .quadraticOut
  | dxl2 => some .cubicOut
  | dxl3 => some .quarticOut
  | _ => none

def Enumerator.action? : Enumerator → Option Action
  | lock => some .lock
  | unLock => some .unlock
  | play => some .play
  | stop => some .stop
  | start => some .start
  | disused => some .disused
  | erase => some .erase
  | enter => some .enter
  | leave => some .leave
  | pushed => some .pushed
  | smoothing => some .smoothing
  | hide => some .hide
  | _ => none

def Easing.name : Easing → String
  | linear => "Linear"
  | sineIn => "SineEaseIn"
  | quadraticIn => "QuadraticEaseIn"
  | cubicIn => "CubicEaseIn"
  | quarticIn => "QuarticEaseIn"
  | sineOut => "SineEaseOut"
  | quadraticOut => "QuadraticEaseOut"
  | cubicOut => "CubicEaseOut"
  | quarticOut => "QuarticEaseOut"

def Action.name : Action → String
  | lock => "Lock"
  | unlock => "Unlock"
  | play => "Play"
  | stop => "Stop"
  | start => "Start"
  | disused => "Disused"
  | erase => "Erase"
  | enter => "Enter"
  | leave => "Leave"
  | pushed => "Pushed"
  | smoothing => "Smoothing"
  | hide => "Hide"

namespace Value

def typeName : Value → String
  | null => "null"
  | number _ => "numeric"
  | delta _ => "delta"
  | text _ => "string"
  | flag _ => "boolean"
  | enumerator _ => "enum"
  | preset _ => "constant"

def isNull : Value → Bool
  | null => true
  | _ => false

/-- The number a value stands for; texts are read, blanks around the number being allowed. -/
def toNumber (v : Value) : Except ValueError Float :=
  match v with
  | null => .ok 0.0
  | number x | delta x => .ok x
  | flag b => .ok (if b then 1.0 else 0.0)
  | text s =>
    match Number.read (Text.trim s).toList with
    | some x => .ok x
    | none => .error (.conversion v.typeName "numeric")
  | _ => .error (.conversion v.typeName "numeric")

/-- The truth of a value: numbers other than zero are true, and so is the text `true`. -/
def toBool (v : Value) : Except ValueError Bool :=
  match v with
  | null => .ok false
  | number x | delta x => .ok (x != 0.0)
  | flag b => .ok b
  | text s =>
    if s == "true" then .ok true
    else if s == "false" then .ok false
    else .error (.conversion v.typeName "boolean")
  | _ => .error (.conversion v.typeName "boolean")

def text? : Value → Option String
  | text s => some s
  | _ => none

def toEasing (v : Value) : Except ValueError Easing :=
  match v with
  | null => .ok .linear
  | enumerator c =>
    match c.easing? with
    | some e => .ok e
    | none => .error (.conversion v.typeName "easing")
  | _ => .error (.conversion v.typeName "easing")

def toAction (v : Value) : Except ValueError Action :=
  match v with
  | enumerator c =>
    match c.action? with
    | some a => .ok a
    | none => .error (.conversion v.typeName "entity action")
  | _ => .error (.conversion v.typeName "entity action")

def toText : Value → String
  | null => ""
  | number x => Number.display x
  | delta x => "@" ++ Number.display x
  | text s => s
  | flag b => if b then "true" else "false"
  | enumerator c => c.name
  | preset c => c.name

def display : Value → String
  | null => "null"
  | text s => "\"" ++ s ++ "\""
  | v => v.toText

def constant? (name : String) : Option Value :=
  match Enumerator.table.find? (·.2 == name), Preset.table.find? (·.2 == name) with
  | _, some (c, _) => some (preset c)
  | some (c, _), none => some (enumerator c)
  | none, none => none

end Value

end Stagecraft
