import Stagecraft.CommandLine.Run

namespace Stagecraft

def fileError (e : IO.Error) : FileError :=
  match e with
  | .noFileOrDirectory .. => .missing
  | .alreadyExists .. => .taken
  | .inappropriateType _ code _ => if code == 20 then .notFolder else .isFolder
  | .invalidArgument _ 36 _ => .nameTooLong
  | e => .other (toString e)

def attemptFile (act : IO α) : IO (Except FileError α) := do
  try return .ok (← act)
  catch e => return .error (fileError e)

instance : FileSystem IO where
  workingFolder := do return (← IO.currentDir).toString
  kind? path := do
    let place := (← IO.currentDir) / path
    if ← place.isDir then return some .folder
    return if ← place.pathExists then some .file else none
  filesBelow path := do
    let place := (← IO.currentDir) / path
    let found ← place.walkDir
    let files ← found.filterM fun file => return !(← file.isDir)
    return files.toList.map fun file => (file.toString.drop (place.toString.length + 1)).toString
  readBytes path := attemptFile (IO.FS.readBinFile path)
  makeFolder path := attemptFile (IO.FS.createDir path)
  writeBytes path bytes := attemptFile (IO.FS.writeBinFile path bytes)

end Stagecraft

def main (words : List String) : IO UInt32 := do
  let outcome ← Stagecraft.CommandLine.run words
  let output ← IO.getStdout
  output.putStr outcome.output
  output.flush
  return outcome.code
