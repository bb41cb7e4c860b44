import Stagecraft.Text.Class

namespace Stagecraft

inductive FileError where
  | missing
  | taken
  | notFolder
  | isFolder
  | nameTooLong
  | notText
  | other (text : String)
  deriving DecidableEq, Repr

def FileError.message : FileError → String
  | missing => "No such file or directory (os error 2)"
  | taken => "File exists (os error 17)"
  | notFolder => "Not a directory (os error 20)"
  | isFolder => "Is a directory (os error 21)"
  | nameTooLong => "File name too long (os error 36)"
  | notText => "stream did not contain valid UTF-8"
  | other text => text

inductive NodeKind where
  | file | folder
  deriving DecidableEq, Repr

class FileSystem (m : Type → Type) where
  workingFolder : m String
  kind? : String → m (Option NodeKind)
  filesBelow : String → m (List String)
  readBytes : String → m (Except FileError ByteArray)
  makeFolder : String → m (Except FileError Unit)
  writeBytes : String → ByteArray → m (Except FileError Unit)

namespace FileSystem

variable {m : Type → Type} [Monad m] [FileSystem m]

def parts (path : String) : List String :=
  (Text.split '/' path.toList).map String.ofList

def folderOf (path : String) : String :=
  Text.join "/" (parts path).dropLast

def fileName (path : String) : String :=
  (parts path).getLastD ""

def joinPath (folder path : String) : String :=
  if path.startsWith "/" then path
  else if folder.isEmpty || folder.endsWith "/" then folder ++ path
  else folder ++ "/" ++ path

def unlessThere (path : String) : Except FileError Unit → m (Except FileError Unit)
  | .ok _ => return .ok ()
  | .error e => do
    return if (← kind? path) == some .folder then .ok () else .error e

def makeFoldersFrom (start : String) : List String → m (Except FileError Unit)
  | [] => return .ok ()
  | inner :: outer => do
    let path := start ++ Text.join "/" (inner :: outer).reverse
    match ← makeFolder path with
    | .error .missing =>
      match ← makeFoldersFrom start outer with
      | .ok _ => unlessThere path (← makeFolder path)
      | .error e => return .error e
    | result => unlessThere path result

def makeFolders (path : String) : m (Except FileError Unit) :=
  makeFoldersFrom (if path.startsWith "/" then "/" else "")
    ((parts path).filter fun part => !part.isEmpty && part != ".").reverse

end FileSystem

end Stagecraft
