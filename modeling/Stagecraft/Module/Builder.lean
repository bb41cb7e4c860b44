import Stagecraft.Module.Error
import Std.Data.HashMap

/-!
The written form of a module has a header, a table of routines, a table of entries that describe
them, the imports, the texts, and the code.
-/

namespace Stagecraft

inductive RoutineKind where
  | chapter | scene | function | dialogue
  deriving DecidableEq, Repr, Inhabited

namespace RoutineKind

def toByte : RoutineKind → UInt8
  | chapter => 0
  | scene => 1
  | function => 2
  | dialogue => 3

def ofByte (b : UInt8) : Option RoutineKind :=
  if b == 0 then some chapter
  else if b == 1 then some scene
  else if b == 2 then some function
  else if b == 3 then some dialogue
  else none

def keyword : RoutineKind → String
  | chapter => "chapter"
  | scene => "scene"
  | function => "function"
  | dialogue => "dialogue"

end RoutineKind

structure TextHeap where
  texts : Array String := #[]
  index : Std.HashMap String UInt16 := ∅

/-- The number of a text, which is added if it is new. A full heap stays as it is. -/
def TextHeap.intern (s : String) : TextHeap → Except ModuleError UInt16 × TextHeap
  | { texts, index } =>
    match index[s]? with
    | some token => (.ok token, { texts, index })
    | none =>
      if texts.size < 65536 then
        let token := UInt16.ofNat texts.size
        (.ok token, { texts := texts.push s, index := index.insert s token })
      else (.error .textsFull, { texts, index })

structure DialogueMark where
  name : String
  offset : UInt16
  deriving DecidableEq, Repr

structure Definition where
  kind : RoutineKind
  name : String
  parameters : List String
  dialogues : List DialogueMark
  code : ByteArray

structure Builder where
  routines : Array Definition := #[]
  imports : Array String := #[]
  heap : TextHeap := {}

/-- Work on a module under construction. What was done before a failure stays done. -/
abbrev Build := ExceptT ModuleError (StateM Builder)

namespace Builder

def intern (s : String) : Build UInt16 := fun
  | { routines, imports, heap } =>
    let (token, heap) := heap.intern s
    (token, { routines, imports, heap })

def addImport (name : String) : Build UInt16 := fun
  | { routines, imports, heap } =>
    match imports.findIdx? (· == name) with
    | some i => (.ok (UInt16.ofNat i), { routines, imports, heap })
    | none =>
      if imports.size < 65536 then
        (.ok (UInt16.ofNat imports.size), { routines, imports := imports.push name, heap })
      else (.error .importsFull, { routines, imports, heap })

def push (d : Definition) : Build UInt16 := fun
  | { routines, imports, heap } =>
    if routines.size < 65536 then
      (.ok (UInt16.ofNat routines.size), { routines := routines.push d, imports, heap })
    else (.error .routinesFull, { routines, imports, heap })

def count16 (what : Counted) (n : Nat) : Except ModuleError UInt16 :=
  if n < 65536 then .ok (UInt16.ofNat n) else .error (.overflow what n)

def place32 (n : Nat) : Except ModuleError UInt32 :=
  if n < 0x100000000 then .ok (UInt32.ofNat n) else .error .tooLarge

def magic : List UInt8 := [0x4e, 0x53, 0x58, 0x01]

def headerSize : Nat := 16

def tableHeaderSize : Nat := 8

def append16 (out : ByteArray) (n : UInt16) : ByteArray :=
  (out.push n.toUInt8).push (n >>> 8).toUInt8

def append32 (out : ByteArray) (n : UInt32) : ByteArray :=
  (((out.push n.toUInt8).push (n >>> 8).toUInt8).push (n >>> 16).toUInt8).push (n >>> 24).toUInt8

def appendTableHeader (out : ByteArray) (marker : String) (rows : Nat) : ByteArray :=
  append16 (append16 (out ++ marker.toUTF8) (UInt16.ofNat tableHeaderSize)) (UInt16.ofNat rows)

def appendText (out : ByteArray) (s : String) : Except ModuleError ByteArray :=
  let bytes := s.toUTF8
  if bytes.size < 65536 then .ok (append16 out (UInt16.ofNat bytes.size) ++ bytes)
  else .error (.textTooLong bytes.size)

def appendTexts (out : ByteArray) : List String → Except ModuleError ByteArray
  | [] => .ok out
  | s :: rest => do appendTexts (← appendText out s) rest

def appendEntry (out : ByteArray) (d : Definition) : Except ModuleError ByteArray := do
  let out ← appendText (out.push d.kind.toByte) d.name
  let dialogues ← count16 .dialogues d.dialogues.length
  let out ← appendTexts (append16 out dialogues) (d.dialogues.map (·.name))
  let parameters ← count16 .parameters d.parameters.length
  appendTexts (append16 out parameters) d.parameters

def entryTable (marks entries : ByteArray) :
    List Definition → Except ModuleError (ByteArray × ByteArray)
  | [] => do pure (append16 marks (← count16 .entries entries.size), entries)
  | d :: rest => do
    let mark ← count16 .entries entries.size
    entryTable (append16 marks mark) (← appendEntry entries d) rest

def textTable (start : Nat) (marks texts : ByteArray) :
    List String → Except ModuleError (ByteArray × ByteArray)
  | [] => .ok (marks, texts)
  | s :: rest => do
    let mark ← place32 (start + texts.size)
    textTable start (append32 marks mark) (← appendText texts s) rest

def appendBody (out : ByteArray) (d : Definition) : Except ModuleError ByteArray := do
  let dialogues ← count16 .dialogues d.dialogues.length
  pure (d.dialogues.foldl (fun out mark => append16 out mark.offset) (append16 out dialogues)
    ++ d.code)

def bodyTable (start : Nat) (marks bodies : ByteArray) :
    List Definition → Except ModuleError (ByteArray × ByteArray)
  | [] => .ok (marks, bodies)
  | d :: rest => do
    let mark ← place32 (start + bodies.size)
    bodyTable start (append32 marks mark) (← appendBody bodies d) rest

def write (b : Builder) : Except ModuleError ByteArray := do
  let routines := b.routines.toList
  let (entryMarks, entries) ← entryTable .empty .empty routines
  let imports ← appendTexts .empty b.imports.toList
  let entriesAt := headerSize + tableHeaderSize + 4 * b.routines.size
  let textsAt := entriesAt + tableHeaderSize + entryMarks.size + entries.size + tableHeaderSize
    + imports.size
  let heapAt := textsAt + tableHeaderSize + 4 * b.heap.texts.size
  let (textMarks, texts) ← textTable heapAt .empty .empty b.heap.texts.toList
  let codeAt := heapAt + texts.size
  let (bodyMarks, bodies) ← bodyTable codeAt .empty .empty routines
  let entriesPlace ← place32 entriesAt
  let textsPlace ← place32 textsAt
  let codePlace ← place32 codeAt
  let out := append32 (append32 (append32 magic.toByteArray entriesPlace) textsPlace) codePlace
  let out := appendTableHeader out "SUBR" b.routines.size ++ bodyMarks
  let out := appendTableHeader out "RTI_" b.routines.size ++ entryMarks ++ entries
  let out := appendTableHeader out "IMPT" b.imports.size ++ imports
  pure (appendTableHeader out "STRT" b.heap.texts.size ++ textMarks ++ texts ++ bodies)

end Builder

end Stagecraft
