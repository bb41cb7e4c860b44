import Stagecraft.Dictionary
import Stagecraft.Module.Builder
import Stagecraft.Project.Source

namespace Stagecraft

structure RoutineSymbol where
  module : String
  name : String
  kind : RoutineKind
  index : UInt16
  parameterCount : Nat
  deriving DecidableEq, Repr

/-- A dialogue block, known by its number within the routine around it. One that is a member of its
file is a routine itself. -/
structure DialogueSymbol where
  name : String
  box : String
  index : UInt16
  routine? : Option RoutineSymbol
  deriving DecidableEq, Repr

structure ParameterSymbol where
  name : String
  index : UInt16
  deriving DecidableEq, Repr

inductive Symbol where
  | routine (symbol : RoutineSymbol)
  | dialogue (symbol : DialogueSymbol)
  | parameter (symbol : ParameterSymbol)
  | builtin (id : UInt16)
  | global
  | constant (value : Value)
  deriving Repr

def Symbol.routine? : Symbol → Option RoutineSymbol
  | routine symbol => some symbol
  | dialogue symbol => symbol.routine?
  | _ => none

structure Declaration where
  node : Nat
  kind : RoutineKind
  symbol : Symbol

structure Scope where
  parameters : Dictionary ParameterSymbol := {}
  dialogues : Dictionary DialogueSymbol := {}

/-- What a file declares. The position of a member is the number of its routine. -/
structure SymbolTable where
  path : String
  includes : List String
  members : Dictionary Declaration := {}
  scopes : Std.TreeMap Nat Scope := ∅
  symbols : Std.TreeMap Nat Symbol := ∅

abbrev SymbolTables := Std.TreeMap String SymbolTable

mutual

def Statement.dialogues (found : Array Dialogue) : Statement → Array Dialogue
  | .block _ body => body.dialogues found
  | .ifThen _ _ thenBranch => thenBranch.dialogues found
  | .ifElse _ _ thenBranch elseBranch => elseBranch.dialogues (thenBranch.dialogues found)
  | .loop _ _ body => body.dialogues found
  | .select _ cases => Choice.dialoguesAll found cases
  | .dialogue _ value => value.inner (found.push value)
  | _ => found

def Statement.dialoguesAll (found : Array Dialogue) : List Statement → Array Dialogue
  | [] => found
  | s :: rest => Statement.dialoguesAll (s.dialogues found) rest

def Block.dialogues (found : Array Dialogue) : Block → Array Dialogue
  | .mk _ statements => Statement.dialoguesAll found statements

def Choice.dialogues (found : Array Dialogue) : Choice → Array Dialogue
  | .mk _ _ body => body.dialogues found

def Choice.dialoguesAll (found : Array Dialogue) : List Choice → Array Dialogue
  | [] => found
  | c :: rest => Choice.dialoguesAll (c.dialogues found) rest

def Dialogue.inner (found : Array Dialogue) : Dialogue → Array Dialogue
  | .mk _ _ _ parts => DialoguePart.dialoguesAll found parts

def DialoguePart.dialogues (found : Array Dialogue) : DialoguePart → Array Dialogue
  | .markup _ _ => found
  | .code body => body.dialogues found

def DialoguePart.dialoguesAll (found : Array Dialogue) : List DialoguePart → Array Dialogue
  | [] => found
  | p :: rest => DialoguePart.dialoguesAll (p.dialogues found) rest

end

namespace Member

def kind : Member → RoutineKind
  | chapter _ _ _ => .chapter
  | scene _ _ _ => .scene
  | function _ _ _ _ => .function
  | dialogue _ => .dialogue

def nameAt (position : Nat) : Member → String
  | chapter _ name _ | scene _ name _ | function _ name _ _ => name
  | dialogue value => value.name?.getD s!"dialogue{position}"

def parameters : Member → List FormalParameter
  | function _ _ parameters _ => parameters
  | _ => []

def dialogues : Member → Array Dialogue
  | chapter _ _ body | scene _ _ body | function _ _ _ body => body.dialogues #[]
  | dialogue value => value.inner #[]

end Member

namespace Scope

/-- Adds a parameter. Its number is the number of names before it; a repeated name takes the place
of the first one. -/
def addParameter (scope : Scope) (p : FormalParameter) : Scope × Option Diagnostic :=
  let index := UInt16.ofNat scope.parameters.size
  let repeated := scope.parameters.contains p.name
  ({ scope with parameters := scope.parameters.insert p.name { name := p.name, index } },
    if repeated then some { issue := .duplicateParameter p.name, span := p.node.span } else none)

/-- Adds a dialogue block. A repeated name is kept under a key of its own, so that the blocks after
it keep their numbers. -/
def addDialogue (scope : Scope) (d : Dialogue) : Scope × DialogueSymbol × Option Diagnostic :=
  let index := UInt16.ofNat scope.dialogues.size
  let name := d.name?.getD s!"dialogue{index.toNat}"
  let symbol : DialogueSymbol := { name, box := d.box, index, routine? := none }
  let repeated := scope.dialogues.contains name
  let key := if repeated then s!"{name}#{index.toNat}" else name
  ({ scope with dialogues := scope.dialogues.insert key symbol }, symbol,
    if repeated then some { issue := .duplicateDialogue name, span := d.node.span } else none)

end Scope

namespace SymbolTable

structure Progress where
  table : SymbolTable
  diagnostics : Array Diagnostic := #[]

def addParameters (scope : Scope) (diagnostics : Array Diagnostic) :
    List FormalParameter → Scope × Array Diagnostic
  | [] => (scope, diagnostics)
  | p :: rest =>
    let (scope, d?) := scope.addParameter p
    addParameters scope (diagnostics ++ d?.toArray) rest

def addDialogues (scope : Scope) (symbols : Std.TreeMap Nat Symbol)
    (diagnostics : Array Diagnostic) :
    List Dialogue → Scope × Std.TreeMap Nat Symbol × Array Diagnostic
  | [] => (scope, symbols, diagnostics)
  | d :: rest =>
    let (scope, symbol, d?) := scope.addDialogue d
    addDialogues scope (symbols.insert d.node.id (.dialogue symbol)) (diagnostics ++ d?.toArray)
      rest

def symbolOf (routine : RoutineSymbol) (scope : Scope) : Member → Symbol × Scope
  | .dialogue value =>
    let symbol : DialogueSymbol :=
      { name := routine.name, box := value.box, index := 0, routine? := some routine }
    (.dialogue symbol, { scope with dialogues := scope.dialogues.insert routine.name symbol })
  | _ => (.routine routine, scope)

/-- Adds a member; one whose name is taken is left out. -/
def addMember (p : Progress) (member : Member) : Progress :=
  let position := p.table.members.size
  let name := member.nameAt position
  if p.table.members.contains name then
    { p with diagnostics :=
        p.diagnostics.push { issue := .duplicateMember name, span := member.node.span } }
  else
    let routine : RoutineSymbol :=
      { module := p.table.path, name, kind := member.kind, index := UInt16.ofNat position,
        parameterCount := member.parameters.length }
    let (scope, diagnostics) := addParameters {} p.diagnostics member.parameters
    let (symbol, scope) := symbolOf routine scope member
    let (scope, symbols, diagnostics) :=
      addDialogues scope p.table.symbols diagnostics member.dialogues.toList
    let node := member.node.id
    { diagnostics
      table := { p.table with
        members := p.table.members.insert name { node, kind := member.kind, symbol }
        scopes := p.table.scopes.insert node scope
        symbols := symbols.insert node symbol } }

def ofScript (path : String) (includes : List String) (script : Script) : Progress :=
  script.members.foldl addMember { table := { path, includes } }

def firstChapter? (t : SymbolTable) : Option Declaration :=
  (t.members.toList.find? fun (_, entry) => entry.kind == .chapter).map (·.2)

def find? (t : SymbolTable) (kind : RoutineKind) (name : String) : Option Symbol :=
  (t.members.get? name).bind fun entry => if entry.kind == kind then some entry.symbol else none

def scopeOf? (t : SymbolTable) (member : Nat) : Option Scope :=
  t.scopes[member]?

def dialogueOf? (t : SymbolTable) (node : Nat) : Option DialogueSymbol :=
  match t.symbols[node]? with
  | some (.dialogue symbol) => some symbol
  | _ => none

end SymbolTable

def SymbolTables.ofSources (sources : Sources) : SymbolTables × Array FileDiagnostic :=
  sources.toList.foldl (fun (tables, diagnostics) (path, source) =>
    let p := SymbolTable.ofScript path source.includes source.script
    (tables.insert path p.table,
      diagnostics ++ p.diagnostics.map fun diagnostic => { file := path, diagnostic })) (∅, #[])

end Stagecraft
