import Stagecraft.Machine.Basic
import Stagecraft.Project.Compile

namespace Stagecraft

inductive LaunchError where
  | compile (error : CompileError)
  | module (error : ModuleError)
  | machine (error : MachineError)
  | unknownModule (name : String)
  | noMain
  | notCompiled (name : String)
  | noChapter (name : String)

namespace Launch

def mainModule : String := "main.nss"

def mainThread : String := "main"

end Launch

namespace LaunchError

def code : LaunchError → String
  | compile e => e.code
  | module e => e.code
  | machine e => e.code
  | unknownModule _ | notCompiled _ => "API_ENTRY_MODULE_NOT_FOUND"
  | noMain => "API_ENTRY_MAIN_NOT_FOUND"
  | noChapter _ => "API_ENTRY_CHAPTER_NOT_FOUND"

def message : LaunchError → String
  | compile e => e.message
  | module e => e.message
  | machine e => e.message
  | unknownModule name => s!"Entry module \"{name}\" is not part of the project."
  | noMain => s!"Expected \"{Launch.mainModule}\" as default entry module."
  | notCompiled name => s!"Entry module \"{name}\" was not compiled."
  | noChapter name => s!"\"{name}\" declares no chapter to start."

def span? : LaunchError → Option Span
  | compile e => e.span?
  | _ => none

end LaunchError

namespace Launch

structure Options where
  files : Files
  encoding : Encoding := .utf8
  seed : Option UInt32 := none
  budget : Nat := 10000
  module? : Option String := none
  start? : Option String := none

structure Launched where
  machine : Machine
  module : String
  entry : String
  diagnostics : Array FileDiagnostic

def entryModule (project : CompiledProject) : Option String → Except LaunchError String
  | some name =>
    let name := Path.normalize name
    if project.modules.contains name then .ok name else .error (.unknownModule name)
  | none => if project.modules.contains mainModule then .ok mainModule else .error .noMain

def loadAll (m : Machine) : List (String × Compiled) → Except ModuleError Machine
  | [] => .ok m
  | (name, compiled) :: rest => do loadAll (m.addModule (← Module.load name compiled.bytes)) rest

def firstChapter? (m : Module) : Option String :=
  (m.entries.find? (·.kind == .chapter)).map (·.name)

def launch (options : Options) : Except LaunchError Launched := do
  let project ← (CompiledProject.compile options.files options.encoding).mapError .compile
  let module ← entryModule project options.module?
  let machine ← (loadAll (.new options.seed options.budget) project.modules.toList).mapError .module
  match machine.modules[module]? with
  | none => .error (.notCompiled module)
  | some loaded =>
    match options.start?.or (firstChapter? loaded) with
    | none => .error (.noChapter module)
    | some entry =>
      match machine.createThread mainThread module entry with
      | (.ok _, machine) =>
        .ok { machine, module, entry, diagnostics := project.diagnostics }
      | (.error e, _) => .error (.machine e)

end Launch

end Stagecraft
