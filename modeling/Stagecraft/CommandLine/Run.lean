import Stagecraft.CommandLine.Command
import Stagecraft.Machine.Launch
import Stagecraft.Module.Document
import Stagecraft.Module.Listing
import Stagecraft.Project.Folder
import Stagecraft.Stage.Headless

namespace Stagecraft.CommandLine

inductive CommandError where
  | noFolder (path : String)
  | notFolder (path : String)
  | unreadable (error : FileError)
  | noScripts (path : String)
  | faulty (count : Nat) (first : FileDiagnostic)
  | unwritable (error : FileError)
  | launch (error : LaunchError)

namespace CommandError

def code : CommandError → String
  | noFolder _ => "CLI_SOURCE_NOT_FOUND"
  | notFolder _ => "CLI_SOURCE_NOT_DIR"
  | unreadable _ => "CLI_SOURCE_READ"
  | noScripts _ => "CLI_SOURCE_EMPTY"
  | faulty _ _ => "CLI_COMPILE_FAILED"
  | unwritable _ => "CLI_OUTPUT_WRITE"
  | launch e => e.code

def message : CommandError → String
  | noFolder path => s!"scripts-dir does not exist: {path}"
  | notFolder path => s!"scripts-dir is not a directory: {path}"
  | unreadable e => e.message
  | noScripts path => s!"No .nss files under {path}"
  | faulty count first => s!"{count} error(s); first: {first.render}"
  | unwritable e => e.message
  | launch e => e.message

end CommandError

/-- Work that prints and can fail. What was printed before a failure stays. -/
abbrev Work (m : Type → Type) := ExceptT CommandError (StateT String m)

section

variable {m : Type → Type} [Monad m] [FileSystem m]

def print (text : String) : Work m Unit :=
  modify (· ++ text)

def printLine (line : String) : Work m Unit :=
  print (line ++ "\n")

def printLines : List String → Work m Unit
  | [] => pure ()
  | line :: rest => do
    printLine line
    printLines rest

def fileSystem (act : m α) : Work m α :=
  ExceptT.lift (StateT.lift act)

def orFail (f : ε → CommandError) : Except ε α → Work m α
  | .ok a => pure a
  | .error e => throw (f e)

def loadScripts (folder : String) : Work m Files := do
  let path := FileSystem.joinPath (← fileSystem FileSystem.workingFolder) folder
  match ← fileSystem (FileSystem.kind? path) with
  | none => throw (.noFolder path)
  | some .file => throw (.notFolder path)
  | some .folder =>
    let files ← orFail .unreadable (← fileSystem (Folder.readScripts path))
    if files.isEmpty then throw (.noScripts path)
    pure files

def printDiagnostics (ds : Array FileDiagnostic) : Work m Unit :=
  printLines (ds.toList.map fun d => "DIAGNOSTIC:" ++ d.render)

/-- A path with the ending of its last part replaced. A dot in front makes no ending, and where
nothing but the way to the outer folder is left, that folder is meant. -/
def withEnding (ending path : String) : String :=
  let name := FileSystem.fileName path
  let stem := (name.toList.reverse.dropWhile (· != '.')).drop 1
  let dropped := if stem.isEmpty then 0 else name.length - stem.length
  let kept := (path.dropEnd dropped).toString
  if stem == ['.'] then kept ++ "." else kept ++ "." ++ ending

def modulePath (out name : String) : String :=
  withEnding "nsx" (FileSystem.joinPath out name)

def writeModules (out : String) : List (String × Compiled) → Work m (List String)
  | [] => pure []
  | (name, compiled) :: rest => do
    let path := modulePath out name
    orFail .unwritable (← fileSystem (FileSystem.makeFolders (FileSystem.folderOf path)))
    orFail .unwritable (← fileSystem (FileSystem.writeBytes path compiled.bytes))
    pure (path :: (← writeModules out rest))

def compile (scripts out : String) : Work m Unit := do
  let files ← loadScripts scripts
  let project ← orFail (.launch ∘ .compile) (CompiledProject.compile files .utf8)
  printDiagnostics project.diagnostics
  match project.errors with
  | first :: rest => throw (.faulty (rest.length + 1) first)
  | [] =>
    let paths ← writeModules out project.modules.toList
    printLine "RESULT:OK"
    printLines (paths.map ("MODULE:" ++ ·))

def dump (path : String) (asJson : Bool) : Work m Unit := do
  let failed (e : ModuleError) : CommandError := .launch (.module e)
  let bytes ← orFail (failed ∘ (.unreadable path ·.message))
    (← fileSystem (FileSystem.readBytes path))
  let m ← orFail failed (Module.load (FileSystem.fileName path) bytes)
  print (← orFail failed (if asJson then m.document.map Json.pretty else m.listing))

def playOn (tickLength : Nat) : Nat → Machine → HeadlessStage →
    Except MachineError (Nat × Machine × HeadlessStage)
  | 0, machine, stage => .ok (0, machine, stage)
  | left + 1, machine, stage =>
    if machine.live.isEmpty then .ok (left + 1, machine, stage)
    else
      match machine.tick stage with
      | (.error e, _) => .error e
      | (.ok _, machine, stage) =>
        let (errors, machine) := machine.takeErrors
        let stage := errors.foldl (fun stage e =>
          stage.write s!"THREAD_ERROR:{e.thread}:{e.error.code}: {e.error.message}") stage
        playOn tickLength left machine { stage with now := Clock.later stage.now tickLength }

def play (o : PlayOptions) : Work m Unit := do
  let files ← loadScripts o.scripts
  let launched ← orFail .launch
    (Launch.launch { files, seed := o.seed?, module? := o.module?, start? := o.start? })
  printDiagnostics launched.diagnostics
  let (left, machine, stage) ← orFail (.launch ∘ .machine)
    (playOn o.tickLength o.ticks launched.machine {})
  printLine "RESULT:OK"
  printLine (if machine.live.isEmpty then "EVENT:END" else "EVENT:TICK_LIMIT")
  printLine s!"TICKS:{o.ticks - left}"
  printLines stage.lines.toList

def perform : Command → Work m Unit
  | .compile scripts out => compile scripts out
  | .dump path asJson => dump path asJson
  | .play options => play options

structure Outcome where
  code : UInt32
  output : String
  deriving DecidableEq, Repr

def report (e : CommandError) : String :=
  s!"RESULT:ERROR\nERROR_CODE:{e.code}\nERROR_MSG_JSON:" ++ Json.quote e.message ++ "\n"

def run (words : List String) : m Outcome := do
  match parse words with
  | none => return { code := 2, output := "" }
  | some command =>
    match ← (perform command).run.run "" with
    | (.ok _, output) => return { code := 0, output }
    | (.error e, output) => return { code := 1, output := output ++ report e }

end

end Stagecraft.CommandLine
