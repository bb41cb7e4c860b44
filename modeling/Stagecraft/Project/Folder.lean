import Stagecraft.Disk.Basic
import Stagecraft.Project.Source
import Stagecraft.Text.Utf8

namespace Stagecraft.Folder

def isScript (path : String) : Bool :=
  let name := FileSystem.fileName path
  name.endsWith ".nss" && name != ".nss"

def readText [Monad m] [FileSystem m] (path : String) : m (Except FileError String) := do
  match ← FileSystem.readBytes path with
  | .error e => return .error e
  | .ok bytes =>
    match Text.Utf8.decode bytes with
    | .ok text => return .ok text
    | .error _ => return .error .notText

def readFiles [Monad m] [FileSystem m] (folder : String) (found : Files) :
    List String → m (Except FileError Files)
  | [] => return .ok found
  | path :: rest => do
    match ← readText (folder ++ "/" ++ path) with
    | .error e => return .error e
    | .ok text =>
      let name := path.map fun c => if c == '\\' then '/' else c
      readFiles folder (found.insert name text) rest

def readScripts [Monad m] [FileSystem m] (folder : String) : m (Except FileError Files) := do
  let paths ← FileSystem.filesBelow folder
  readFiles folder ∅ (paths.filter isScript)

end Stagecraft.Folder
