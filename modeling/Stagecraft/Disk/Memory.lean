import Stagecraft.Disk.Basic
import Std.Data.TreeMap

namespace Stagecraft

inductive Disk.Node where
  | folder
  | file (bytes : ByteArray)

structure Disk where
  workingFolder : String
  nodes : Std.TreeMap String Disk.Node := ∅

namespace Disk

def Node.kind : Node → NodeKind
  | folder => .folder
  | file _ => .file

abbrev Place := List String

def pathOf (place : Place) : String :=
  String.join (place.reverse.map ("/" ++ ·))

def node? (d : Disk) (place : Place) : Option Node :=
  if place.isEmpty then some .folder else d.nodes[pathOf place]?

def partLimit : Nat := 255

def pathLimit : Nat := 4095

def walk (d : Disk) (place : Place) : List String → Except FileError Place
  | [] => .ok place
  | part :: rest =>
    match d.node? place with
    | none => .error .missing
    | some (.file _) => .error .notFolder
    | some .folder =>
      if part.isEmpty || part == "." then d.walk place rest
      else if part == ".." then d.walk place.tail rest
      else if partLimit < part.utf8ByteSize then .error .nameTooLong
      else d.walk (part :: place) rest

def home (d : Disk) : Place :=
  ((FileSystem.parts d.workingFolder).filter (!·.isEmpty)).reverse

def start (d : Disk) (path : String) : Place :=
  if path.startsWith "/" then [] else d.home

def locate (d : Disk) (path : String) : Except FileError Place :=
  if path.isEmpty then .error .missing
  else if pathLimit < path.utf8ByteSize then .error .nameTooLong
  else d.walk (d.start path) (FileSystem.parts path)

def kind? (d : Disk) (path : String) : Option NodeKind :=
  match d.locate path with
  | .ok place => (d.node? place).map Node.kind
  | .error _ => none

def filesBelow (d : Disk) (path : String) : List String :=
  match d.locate path with
  | .error _ => []
  | .ok place =>
    let inside := pathOf place ++ "/"
    d.nodes.foldr (fun path node found =>
      match node with
      | .file _ =>
        if path.startsWith inside then (path.drop inside.length).toString :: found else found
      | .folder => found) []

def readBytes (d : Disk) (path : String) : Except FileError ByteArray := do
  match d.node? (← d.locate path) with
  | none => .error .missing
  | some .folder => .error .isFolder
  | some (.file bytes) => .ok bytes

def put (d : Disk) (place : Place) (node : Node) : Disk :=
  { d with nodes := d.nodes.insert (pathOf place) node }

def makeFolder (d : Disk) (path : String) : Except FileError Disk := do
  let place ← d.locate path
  match d.node? place with
  | some _ => .error .taken
  | none => .ok (d.put place .folder)

def writeBytes (d : Disk) (path : String) (bytes : ByteArray) : Except FileError Disk := do
  let place ← d.locate path
  match d.node? place with
  | some .folder => .error .isFolder
  | _ => .ok (d.put place (.file bytes))

def attempt (f : Disk → Except FileError Disk) : StateM Disk (Except FileError Unit) := fun d =>
  match f d with
  | .ok d => (.ok (), d)
  | .error e => (.error e, d)

instance : FileSystem (StateM Disk) where
  workingFolder := do return (← get).workingFolder
  kind? path := do return (← get).kind? path
  filesBelow path := do return (← get).filesBelow path
  readBytes path := do return (← get).readBytes path
  makeFolder path := attempt (·.makeFolder path)
  writeBytes path bytes := attempt (·.writeBytes path bytes)

def writeFiles : List (String × ByteArray) → StateM Disk Unit
  | [] => pure ()
  | (path, bytes) :: rest => do
    discard (FileSystem.makeFolders (FileSystem.folderOf path))
    discard (FileSystem.writeBytes path bytes)
    writeFiles rest

def ofFiles (workingFolder : String) (files : List (String × ByteArray)) : Disk :=
  let act : StateM Disk Unit := do
    discard (FileSystem.makeFolders workingFolder)
    writeFiles files
  (act.run { workingFolder }).2

def files (d : Disk) : List (String × ByteArray) :=
  (d.filesBelow d.workingFolder).filterMap fun path =>
    match d.readBytes path with
    | .ok bytes => some (path, bytes)
    | .error _ => none

end Disk

end Stagecraft
