import Stagecraft.Instruction.Decode
import Stagecraft.Text.Quoted
import Stagecraft.Text.Utf8

namespace Stagecraft

inductive Region where
  | code | routine | text | dialogue
  deriving DecidableEq, Repr

inductive Table where
  | imports | routines | texts
  deriving DecidableEq, Repr

inductive Counted where
  | entries | dialogues | parameters
  deriving DecidableEq, Repr

inductive ModuleError where
  | truncated
  | badMagic (name : String)
  | badOffset (region : Region) (offset : Nat)
  | tableMarker (expected found : String)
  | tableSize (table : String) (declared : UInt16)
  | entryCount (entries routines : UInt16)
  | unknownKind (byte : UInt8)
  | invalidText (place : Text.Utf8.Malformed)
  | outOfRange (table : Table) (index : UInt16)
  | textsFull
  | importsFull
  | routinesFull
  | overflow (what : Counted) (size : Nat)
  | textTooLong (bytes : Nat)
  | tooLarge
  | unreadable (path reason : String)
  | instruction (error : DecodeError)
  deriving DecidableEq, Repr

namespace Region

def name : Region → String
  | code => "code region"
  | routine => "subroutine"
  | text => "string"
  | dialogue => "dialogue block"

end Region

namespace Table

def name : Table → String
  | imports => "import"
  | routines => "subroutine"
  | texts => "string"

end Table

namespace Counted

def name : Counted → String
  | entries => "RTI table"
  | dialogues => "dialogue blocks"
  | parameters => "parameters"

end Counted

namespace ModuleError

def code : ModuleError → String
  | truncated => "MODULE_TRUNCATED"
  | badMagic _ => "MODULE_BAD_MAGIC"
  | badOffset _ _ => "MODULE_BAD_OFFSET"
  | tableMarker _ _ => "MODULE_TABLE_MARKER"
  | tableSize _ _ => "MODULE_TABLE_SIZE"
  | entryCount _ _ | unknownKind _ => "MODULE_CORRUPT"
  | invalidText _ => "MODULE_INVALID_UTF8"
  | outOfRange _ _ => "MODULE_INDEX_OUT_OF_RANGE"
  | textsFull => "MODULE_STRING_HEAP_FULL"
  | importsFull => "MODULE_IMPORT_TABLE_FULL"
  | routinesFull => "MODULE_SUBROUTINE_TABLE_FULL"
  | overflow _ _ => "MODULE_TABLE_OVERFLOW"
  | textTooLong _ => "MODULE_STRING_TOO_LONG"
  | tooLarge => "MODULE_TOO_LARGE"
  | unreadable _ _ => "MODULE_READ"
  | instruction e => e.code

def message : ModuleError → String
  | truncated => "Module data ends early: failed to fill whole buffer"
  | badMagic name => s!"Module \"{name}\" does not start with the NSX marker."
  | badOffset region offset => s!"{region.name} offset {offset} lies outside the module."
  | tableMarker expected found =>
    s!"Expected table marker {Text.Quoted.encode expected}, found {Text.Quoted.encode found}."
  | tableSize table declared =>
    s!"Table {Text.Quoted.encode table} declares header size {declared.toNat}, expected 8."
  | entryCount entries routines =>
    s!"RTI table lists {entries.toNat} entries for {routines.toNat} subroutines."
  | unknownKind byte => s!"Unknown subroutine kind {byte.toNat}."
  | invalidText place => place.message
  | outOfRange table index => s!"{table.name} index {index.toNat} is out of range."
  | textsFull => "String heap cannot hold more than 65535 entries."
  | importsFull => "Too many imported modules."
  | routinesFull => "Too many subroutines."
  | overflow what size => s!"{what.name} exceeds the 16-bit limit ({size})."
  | textTooLong bytes => s!"String of {bytes} bytes exceeds 65535 bytes."
  | tooLarge => "Module exceeds 4 GiB."
  | unreadable path reason => s!"Failed to read module {path}: {reason}"
  | instruction e => e.message

end ModuleError

end Stagecraft
