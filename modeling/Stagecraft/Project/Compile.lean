import Stagecraft.Project.Code
import Stagecraft.Project.Includes

/-!
A member whose code cannot be written becomes a routine that stops with a message when it runs.
-/

namespace Stagecraft

structure Compiled where
  name : String
  routines : List Definition
  bytes : ByteArray

namespace Compiled

def sortMarks (marks : List (UInt16 × DialogueMark)) : List DialogueMark :=
  (marks.mergeSort fun a b => a.1 ≤ b.1).map (·.2)

/-- The marks of a routine that stops at once: its dialogue blocks, all at the start. -/
def trapMarks (scope : Scope) : List DialogueMark :=
  sortMarks (scope.dialogues.toList.map fun (_, d) => (d.index, { name := d.name, offset := 0 }))

def trapRoutine (table : SymbolTable) (name : String) (kind : RoutineKind) (member : Member)
    (d : Diagnostic) : Build Definition := do
  let message := s!"{d.issue.message} ({table.path}:{d.span.render})"
  let token ← Builder.intern message
  pure {
    kind, name
    parameters := member.parameterNames
    dialogues := ((table.scopeOf? member.node.id).map trapMarks).getD []
    code := Instruction.encodeAll [.trap token, .ret] }

def routineOf (c : Emit.Context) (name : String) (kind : RoutineKind) (member : Member) :
    Build (Definition × Option Diagnostic) := fun builder =>
  match Emit.member c member { builder } with
  | (.ok code, { builder, marks }) =>
    let dialogues := sortMarks marks.toList
    let routine : Definition :=
      { kind, name, parameters := member.parameterNames, dialogues, code := code.encode }
    (.ok (routine, none), builder)
  | (.error (.trap d), { builder, .. }) =>
    match trapRoutine c.table name kind member d builder with
    | (.ok routine, builder) => (.ok (routine, some d), builder)
    | (.error e, builder) => (.error e, builder)
  | (.error (.fatal e), { builder, .. }) => (.error e, builder)

def addRoutines (c : Emit.Context) (members : Std.TreeMap Nat Member) :
    List (String × Declaration) → Builder → Array Diagnostic →
      Except ModuleError Builder × Array Diagnostic
  | [], builder, diagnostics => (.ok builder, diagnostics)
  | (name, entry) :: rest, builder, diagnostics =>
    match members[entry.node]? with
    | none => addRoutines c members rest builder diagnostics
    | some member =>
      match routineOf c name entry.kind member builder with
      | (.error e, _) => (.error e, diagnostics)
      | (.ok (routine, d?), builder) =>
        let diagnostics := diagnostics ++ d?.toArray
        match Builder.push routine builder with
        | (.error e, _) => (.error e, diagnostics)
        | (.ok _, builder) => addRoutines c members rest builder diagnostics

def ofScript (script : Script) (table : SymbolTable) (bindings : Bindings) :
    Except ModuleError Compiled × Array Diagnostic :=
  let members := script.members.foldl (fun found m => found.insert m.node.id m) ∅
  match addRoutines { table, bindings } members table.members.toList {} #[] with
  | (.error e, diagnostics) => (.error e, diagnostics)
  | (.ok builder, diagnostics) =>
    (builder.write.map fun bytes =>
      { name := table.path, routines := builder.routines.toList, bytes }, diagnostics)

end Compiled

structure CompiledProject where
  modules : Std.TreeMap String Compiled := ∅
  diagnostics : Array FileDiagnostic := #[]

namespace CompiledProject

def inFile (file : String) (ds : Array Diagnostic) : Array FileDiagnostic :=
  ds.map fun diagnostic => { file, diagnostic }

def bindAll (sources : Sources) (tables : SymbolTables) :
    Std.TreeMap String Bindings × Array FileDiagnostic :=
  sources.toList.foldl (fun (bindings, diagnostics) (path, source) =>
    let p := Bindings.ofScript tables (sources.visibleFrom path) source.script
    (bindings.insert path p.bindings, diagnostics ++ inFile path p.diagnostics)) (∅, #[])

def addModules (tables : SymbolTables) (bindings : Std.TreeMap String Bindings) :
    List (String × Source) → CompiledProject → Except CompileError CompiledProject
  | [], project => .ok project
  | (path, source) :: rest, project =>
    match tables[path]?, bindings[path]? with
    | some table, some bound =>
      match Compiled.ofScript source.script table bound with
      | (.ok compiled, ds) => addModules tables bindings rest {
          modules := project.modules.insert path compiled
          diagnostics := project.diagnostics ++ inFile path ds }
      | (.error e, _) => .error (.module e)
    | _, _ => addModules tables bindings rest project

def compile (files : Files) (encoding : Encoding) : Except CompileError CompiledProject := do
  if encoding != .utf8 then throw .unsupportedEncoding
  let (sources, parseDiagnostics) ← Sources.read files
  sources.checkIncludes
  let (tables, tableDiagnostics) := SymbolTables.ofSources sources
  let (bindings, bindingDiagnostics) := bindAll sources tables
  addModules tables bindings sources.toList
    { diagnostics := parseDiagnostics ++ tableDiagnostics ++ bindingDiagnostics }

def compileFile (path text : String) : Except CompileError Compiled := do
  let project ← compile (Std.TreeMap.empty.insert path text) .utf8
  match project.modules[Path.normalize path]? with
  | some compiled => .ok compiled
  | none => .error (.missingModule path)

def errors (p : CompiledProject) : List FileDiagnostic :=
  p.diagnostics.toList.filter FileDiagnostic.isError

end CompiledProject

end Stagecraft
