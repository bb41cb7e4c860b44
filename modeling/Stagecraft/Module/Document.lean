import Stagecraft.Json.Basic
import Stagecraft.Module.Basic

namespace Stagecraft.Module

def indexes (count : Nat) : List UInt16 :=
  (List.range count).map UInt16.ofNat

def instructionDocument (offset : Nat) (i : Instruction) : Json :=
  .ofEntries [("offset", .ofNat offset), ("op", .ofText i.render)]

def routineDocument (m : Module) (i : UInt16) : Except ModuleError Json := do
  let entry ← m.entry i
  let body ← m.body i
  let code ← (Instruction.decodeAll body.code).mapError ModuleError.instruction
  let parameters ← m.parameters i
  pure (.ofEntries [
    ("index", .ofNat i.toNat),
    ("kind", .ofText entry.kind.keyword),
    ("name", .ofText entry.name),
    ("parameters", .ofTexts parameters),
    ("dialogueBlocks", .list ((entry.dialogues.zip body.dialogueOffsets).map fun (name, offset) =>
      .ofEntries [("name", .ofText name), ("offset", .ofNat offset.toNat)])),
    ("code", .list (code.map fun (offset, i) => instructionDocument offset i))])

def document (m : Module) : Except ModuleError Json := do
  let texts ← (indexes m.textCount).mapM m.text
  let routines ← (indexes m.routineCount).mapM m.routineDocument
  pure (.ofEntries [
    ("name", .ofText m.name),
    ("imports", .ofTexts m.imports.toList),
    ("strings", .ofTexts texts),
    ("subroutines", .list routines)])

end Stagecraft.Module
