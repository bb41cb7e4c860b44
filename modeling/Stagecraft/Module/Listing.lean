import Stagecraft.Module.Memo
import Stagecraft.Signature

namespace Stagecraft.Listing

def bodyOf (i : UInt16) : Lookup Body := fun c => c.body i

def parametersOf (i : UInt16) : Lookup (List String) := fun c => c.parameters i

def textOf? (i : UInt16) : Lookup (Option String) := fun c =>
  let (row, c) := c.text i
  (.ok row.toOption, c)

def fourPlaces (n : Int) : String :=
  if n < 0 then "-" ++ Text.padZero 3 (toString n.natAbs) else Text.padZero 4 (toString n.natAbs)

def remark (s : String) : String :=
  "  ; " ++ s

def annotation (offset : Nat) (i : Instruction) : Lookup String := do
  let c ← get
  match i with
  | .load (.text token) | .loadGlobal token | .storeGlobal token | .present token
  | .isPressed token | .trap token => do
    let s ← textOf? token
    pure ((s.map fun s => remark (Text.Quoted.encode s)).getD "")
  | .jump n | .jumpIfTrue n | .jumpIfFalse n =>
    pure (remark ("-> " ++ fourPlaces ((offset + i.size : Nat) + n.toInt)))
  | .call routine =>
    pure ((c.subject.entry routine).toOption.map (remark ·.name) |>.getD "")
  | .callFar importIndex routine =>
    pure ((c.subject.import? importIndex).toOption.map (fun name =>
      remark s!"{name}#{routine.toNat}") |>.getD "")
  | .dispatch builtin _ =>
    pure ((Signature.ofId builtin).map (remark ·.name) |>.getD "")
  | _ => pure ""

def instructionLines (text : String) : List (Nat × Instruction) → Lookup String
  | [] => pure text
  | (offset, i) :: rest => do
    let note ← annotation offset i
    instructionLines (text ++ "  " ++ fourPlaces offset ++ "  " ++ i.render ++ note ++ "\n") rest

def routineLines (text : String) (index : UInt16) : Lookup String := do
  let c ← get
  let entry ← c.subject.entry index
  let parameters ← parametersOf index
  let text := text ++ s!"\n{index.toNat} {entry.kind.keyword} {entry.name}(" ++
    Text.join ", " parameters ++ ")\n"
  let body ← bodyOf index
  let text := (entry.dialogues.zip body.dialogueOffsets).foldl (fun text (name, offset) =>
    text ++ s!"  .dialogue {name} @{fourPlaces offset.toNat}\n") text
  let code ← (Instruction.decodeAll body.code).mapError ModuleError.instruction
  instructionLines text code

def routinesFrom (text : String) : List UInt16 → Lookup String
  | [] => pure text
  | i :: rest => do routinesFrom (← routineLines text i) rest

def ofMemo : Lookup String := do
  let m := (← get).subject
  let imports := m.imports.toList.zipIdx.foldl (fun text (name, i) =>
    text ++ s!"import {i} {name}\n") ""
  routinesFrom (s!"module {m.name}\n" ++ imports)
    ((List.range m.routineCount).map UInt16.ofNat)

end Stagecraft.Listing

def Stagecraft.Module.listing (m : Module) : Except ModuleError String :=
  (Listing.ofMemo.run (Memo.ofModule m)).1
