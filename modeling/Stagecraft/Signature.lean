namespace Stagecraft

inductive ParameterKind where
  | number | text | flag | enumerator | any
  deriving DecidableEq, Repr

structure Parameter where
  name : String
  kind : ParameterKind
  isOptional : Bool
  deriving DecidableEq, Repr

def Parameter.required (name : String) (kind : ParameterKind) : Parameter :=
  { name, kind, isOptional := false }

def Parameter.omissible (name : String) (kind : ParameterKind) : Parameter :=
  { name, kind, isOptional := true }

structure Signature where
  name : String
  parameters : List Parameter
  isVariadic : Bool := false
  deriving DecidableEq, Repr

namespace Signature

open Parameter (required omissible)

def least (s : Signature) : Nat :=
  (s.parameters.filter (!·.isOptional)).length

def greatest (s : Signature) : Option Nat :=
  if s.isVariadic then none else some s.parameters.length

def accepts (s : Signature) (count : Nat) : Bool :=
  s.least ≤ count && s.greatest.all (count ≤ ·)

def isWellFormed (s : Signature) : Bool :=
  (s.parameters.dropWhile (!·.isOptional)).all (·.isOptional)

def all : Array Signature := #[
  { name := "Wait", parameters := [required "duration" .number] },
  { name := "WaitKey", parameters := [omissible "timeout" .number] },
  { name := "CreateProcess", parameters := [required "name" .text, required "function" .text] },
  { name := "Request", parameters := [required "name" .text, required "action" .enumerator] },
  { name := "Delete", parameters := [required "name" .text] },
  { name := "CreateColor"
    parameters := [required "name" .text, required "priority" .number, required "x" .any,
      required "y" .any, required "width" .number, required "height" .number,
      required "color" .any] },
  { name := "CreateTexture"
    parameters := [required "name" .text, required "priority" .number, required "x" .any,
      required "y" .any, required "source" .text] },
  { name := "CreateText"
    parameters := [required "name" .text, required "priority" .number, required "x" .any,
      required "y" .any, required "width" .any, required "height" .any, required "text" .any] },
  { name := "CreateSound"
    parameters := [required "name" .text, required "kind" .enumerator, required "file" .text] },
  { name := "SetVolume"
    parameters := [required "name" .text, required "duration" .number,
      required "volume" .number] },
  { name := "SetLoop", parameters := [required "name" .text, required "looping" .flag] },
  { name := "SetLoopPoint"
    parameters := [required "name" .text, required "start" .number, required "end" .number] },
  { name := "Fade"
    parameters := [required "name" .text, required "duration" .number,
      required "opacity" .number, omissible "easing" .enumerator, omissible "wait" .flag] },
  { name := "Move"
    parameters := [required "name" .text, required "duration" .number, required "x" .any,
      required "y" .any, omissible "easing" .enumerator, omissible "wait" .flag] },
  { name := "Zoom"
    parameters := [required "name" .text, required "duration" .number,
      required "scale_x" .number, required "scale_y" .number, omissible "easing" .enumerator,
      omissible "wait" .flag] },
  { name := "DrawTransition"
    parameters := [required "name" .text, required "duration" .number, required "start" .number,
      required "end" .number, required "feather" .number, omissible "easing" .enumerator,
      omissible "mask" .text, omissible "wait" .flag] },
  { name := "SetAlias", parameters := [required "name" .text, required "alias" .text] },
  { name := "RemainTime", parameters := [required "name" .text] },
  { name := "PassageTime", parameters := [required "name" .text] },
  { name := "ImageHorizon", parameters := [required "name" .text] },
  { name := "ImageVertical", parameters := [required "name" .text] },
  { name := "Random", parameters := [required "max" .number] },
  { name := "String", parameters := [required "format" .text], isVariadic := true },
  { name := "Time", parameters := [] },
  { name := "MouseClicked", parameters := [] }]

def ofId (id : UInt16) : Option Signature :=
  all[id.toNat]?

def idOf? (name : String) : Option UInt16 :=
  (all.findIdx? (·.name == name)).map UInt16.ofNat

end Signature

end Stagecraft
