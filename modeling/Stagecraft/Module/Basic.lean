import Stagecraft.Module.Builder

/-!
Loading reads the tables and checks where they point; what the tables point to is read separately,
so that a module with one damaged text or routine can still be used for the rest.
-/

namespace Stagecraft

structure Entry where
  kind : RoutineKind
  name : String
  dialogues : List String
  deriving DecidableEq, Repr

structure Body where
  dialogueOffsets : List UInt16
  code : ByteArray

structure Module where
  name : String
  imports : Array String
  entries : Array Entry
  bodies : Array (Except ModuleError Body)
  parameterLists : Array (Except ModuleError (List String))
  texts : Array (Except ModuleError String)

instance : Inhabited Module :=
  ⟨{ name := "", imports := #[], entries := #[], bodies := #[], parameterLists := #[],
     texts := #[] }⟩

namespace Module

def need : Option α → Except ModuleError α
  | some a => .ok a
  | none => .error .truncated

def readMany (f : Nat → Except ModuleError (α × Nat)) :
    Nat → Nat → Array α → Except ModuleError (Array α × Nat)
  | 0, pos, found => .ok (found, pos)
  | n + 1, pos, found =>
    match f pos with
    | .ok (a, pos) => readMany f n pos (found.push a)
    | .error e => .error e

def read16 (data : ByteArray) (pos : Nat) : Except ModuleError (UInt16 × Nat) := do
  pure (← need (Bytes.at16? data pos), pos + 2)

def readText (data : ByteArray) (pos : Nat) : Except ModuleError (String × Nat) := do
  let size ← need (Bytes.at16? data pos)
  let bytes ← need (Bytes.slice? data (pos + 2) size.toNat)
  match Text.Utf8.decode bytes with
  | .ok s => .ok (s, pos + 2 + size.toNat)
  | .error place => .error (.invalidText place)

def readTexts (data : ByteArray) (pos : Nat) : Except ModuleError (List String × Nat) := do
  let (n, pos) ← read16 data pos
  let (found, pos) ← readMany (readText data) n.toNat pos #[]
  pure (found.toList, pos)

def readTableHeader (data : ByteArray) (marker : String) (pos : Nat) :
    Except ModuleError (UInt16 × Nat) := do
  let found ← need (Bytes.slice? data pos 4)
  if found != marker.toUTF8 then .error (.tableMarker marker (Text.Utf8.lossy found))
  else
    let size ← need (Bytes.at16? data (pos + 4))
    if size.toNat != Builder.tableHeaderSize then .error (.tableSize marker size)
    else
      let rows ← need (Bytes.at16? data (pos + 6))
      pure (rows, pos + 8)

def readRoutineOffset (data : ByteArray) (codeAt : Nat) (pos : Nat) :
    Except ModuleError (Nat × Nat) := do
  let offset ← need (Bytes.at32? data pos)
  if offset.toNat < codeAt || data.size < offset.toNat then
    .error (.badOffset .routine offset.toNat)
  else pure (offset.toNat, pos + 4)

def readTextOffset (data : ByteArray) (pos : Nat) : Except ModuleError (Nat × Nat) := do
  let offset ← need (Bytes.at32? data pos)
  if data.size ≤ offset.toNat then .error (.badOffset .text offset.toNat)
  else pure (offset.toNat, pos + 4)

def readEntry (data : ByteArray) (pos : Nat) : Except ModuleError (Entry × Nat) := do
  let byte ← need (Bytes.at? data pos)
  match RoutineKind.ofByte byte with
  | none => .error (.unknownKind byte)
  | some kind =>
    let (name, pos) ← readText data (pos + 1)
    let (dialogues, pos) ← readTexts data pos
    pure ({ kind, name, dialogues }, pos)

def readEntries (data : ByteArray) (start : Nat) :
    List UInt16 → Array (Entry × Nat) → Except ModuleError (Array (Entry × Nat))
  | [], found => .ok found
  | mark :: rest, found =>
    match readEntry data (start + mark.toNat) with
    | .ok entry => readEntries data start rest (found.push entry)
    | .error e => .error e

def readBody (data : ByteArray) (start stop : Nat) : Except ModuleError Body := do
  if stop < start then .error (.badOffset .routine start)
  else
    let body := data.extract start stop
    let (n, pos) ← read16 body 0
    let (offsets, pos) ← readMany (read16 body) n.toNat pos #[]
    let code := body.extract pos body.size
    match offsets.find? fun offset => code.size < offset.toNat with
    | some offset => .error (.badOffset .dialogue offset.toNat)
    | none => .ok { dialogueOffsets := offsets.toList, code }

/-- The bodies of the routines: each reaches to the start of the next one, the last to the end. -/
def readBodies (data : ByteArray) (offsets : Array Nat) : Array (Except ModuleError Body) :=
  offsets.mapIdx fun i start => readBody data start (offsets.getD (i + 1) data.size)

def load (name : String) (data : ByteArray) : Except ModuleError Module := do
  let found ← need (Bytes.slice? data 0 4)
  if found != Builder.magic.toByteArray then .error (.badMagic name)
  else
    let entriesAt ← need (Bytes.at32? data 4)
    let textsAt ← need (Bytes.at32? data 8)
    let codeAt ← need (Bytes.at32? data 12)
    if data.size < codeAt.toNat then .error (.badOffset .code codeAt.toNat)
    else
      let (rows, pos) ← readTableHeader data "SUBR" Builder.headerSize
      let (offsets, _) ← readMany (readRoutineOffset data codeAt.toNat) rows.toNat pos #[]
      let (entryRows, pos) ← readTableHeader data "RTI_" entriesAt.toNat
      if entryRows != rows then .error (.entryCount entryRows rows)
      else
        let (marks, start) ← readMany (read16 data) (rows.toNat + 1) pos #[]
        let entries ← readEntries data start (marks.toList.take rows.toNat) #[]
        let (importRows, pos) ← readTableHeader data "IMPT" (start + (marks.back?.getD 0).toNat)
        let (imports, _) ← readMany (readText data) importRows.toNat pos #[]
        let (textRows, pos) ← readTableHeader data "STRT" textsAt.toNat
        let (textOffsets, _) ← readMany (readTextOffset data) textRows.toNat pos #[]
        pure {
          name
          imports
          entries := entries.map (·.1)
          bodies := readBodies data offsets
          parameterLists := entries.map fun (_, at_) => (readTexts data at_).map (·.1)
          texts := textOffsets.map fun at_ => (readText data at_).map (·.1) }

def routineCount (m : Module) : Nat :=
  m.bodies.size

def textCount (m : Module) : Nat :=
  m.texts.size

def lookup (table : Table) (rows : Array α) (i : UInt16) : Except ModuleError α :=
  match rows[i.toNat]? with
  | some a => .ok a
  | none => .error (.outOfRange table i)

def import? (m : Module) (i : UInt16) : Except ModuleError String :=
  lookup .imports m.imports i

def entry (m : Module) (i : UInt16) : Except ModuleError Entry :=
  lookup .routines m.entries i

def body (m : Module) (i : UInt16) : Except ModuleError Body := do
  (← lookup .routines m.bodies i)

def parameters (m : Module) (i : UInt16) : Except ModuleError (List String) := do
  (← lookup .routines m.parameterLists i)

def text (m : Module) (i : UInt16) : Except ModuleError String := do
  (← lookup .texts m.texts i)

def find? (m : Module) (name : String) : Option UInt16 :=
  (m.entries.findIdx? (·.name == name)).map UInt16.ofNat

end Module

end Stagecraft
