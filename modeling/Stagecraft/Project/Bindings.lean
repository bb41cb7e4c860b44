import Stagecraft.Project.Symbol
import Stagecraft.Signature

namespace Stagecraft

inductive Role where
  | read | write | call | chapter | scene
  deriving DecidableEq, Repr

structure Use where
  node : Node
  name : String
  role : Role
  deriving DecidableEq, Repr

mutual

def Expression.uses (found : Array Use) : Expression → Array Use
  | .literal _ _ => found
  | .name node text => found.push { node, name := text, role := .read }
  | .unary _ _ operand => operand.uses found
  | .binary _ _ left right => right.uses (left.uses found)
  | .assign _ target _ value =>
    value.uses (found.push { node := target.node, name := target.name, role := .write })
  | .step _ target _ => found.push { node := target.node, name := target.name, role := .write }
  | .call node callee arguments =>
    (Expression.usesAll found arguments).push { node, name := callee, role := .call }

def Expression.usesAll (found : Array Use) : List Expression → Array Use
  | [] => found
  | e :: rest => Expression.usesAll (e.uses found) rest

end

mutual

def Statement.uses (found : Array Use) : Statement → Array Use
  | .block _ body => body.uses found
  | .ifThen _ condition thenBranch => thenBranch.uses (condition.uses found)
  | .ifElse _ condition thenBranch elseBranch =>
    elseBranch.uses (thenBranch.uses (condition.uses found))
  | .loop _ condition body => body.uses (condition.uses found)
  | .select _ cases => Choice.usesAll found cases
  | .callChapter node target => found.push { node, name := target, role := .chapter }
  | .callScene node target => found.push { node, name := target, role := .scene }
  | .ret _ (some value) => value.uses found
  | .ret _ none => found
  | .exit _ => found
  | .expression _ value => value.uses found
  | .dialogue _ value => value.uses found
  | .empty _ => found

def Statement.usesAll (found : Array Use) : List Statement → Array Use
  | [] => found
  | s :: rest => Statement.usesAll (s.uses found) rest

def Block.uses (found : Array Use) : Block → Array Use
  | .mk _ statements => Statement.usesAll found statements

def Choice.uses (found : Array Use) : Choice → Array Use
  | .mk _ _ body => body.uses found

def Choice.usesAll (found : Array Use) : List Choice → Array Use
  | [] => found
  | c :: rest => Choice.usesAll (c.uses found) rest

def Dialogue.uses (found : Array Use) : Dialogue → Array Use
  | .mk _ _ _ parts => DialoguePart.usesAll found parts

def DialoguePart.uses (found : Array Use) : DialoguePart → Array Use
  | .markup _ _ => found
  | .code body => body.uses found

def DialoguePart.usesAll (found : Array Use) : List DialoguePart → Array Use
  | [] => found
  | p :: rest => DialoguePart.usesAll (p.uses found) rest

end

def Member.uses : Member → Array Use
  | .chapter _ _ body | .scene _ _ body | .function _ _ _ body => body.uses #[]
  | .dialogue value => value.uses #[]

structure Surroundings where
  tables : SymbolTables
  path : String
  visible : List String

namespace Surroundings

def findVisible (s : Surroundings) (kind : RoutineKind) (name : String) : Option Symbol :=
  s.visible.findSome? fun path => (s.tables[path]?).bind (·.find? kind name)

def file? (s : Surroundings) (target : String) : Option SymbolTable :=
  s.tables[Path.resolve s.tables.contains s.path target]?

def cutAtArrow : List Char → Option (List Char × List Char)
  | '-' :: '>' :: rest => some ([], rest)
  | c :: rest => (cutAtArrow rest).map fun (before, after) => (c :: before, after)
  | [] => none

def resolveScene (s : Surroundings) (target : String) : Option Symbol :=
  match cutAtArrow target.toList with
  | none => s.findVisible .scene target
  | some (before, after) =>
    let file := Text.trim (String.ofList before)
    let table? := if file == "@" then s.tables[s.path]? else s.file? file
    table?.bind (·.find? .scene (Text.trim (String.ofList after)))

def resolveName (scope : Scope) (name : String) : Option Symbol :=
  match scope.parameters.get? name with
  | some parameter => some (.parameter parameter)
  | none =>
    if Lexeme.isSigiled name.toList then some .global
    else (Value.constant? name).map .constant

def resolve (s : Surroundings) (scope : Scope) (use : Use) : Except Issue Symbol :=
  let orElse (symbol? : Option Symbol) (issue : Issue) : Except Issue Symbol :=
    symbol?.elim (.error issue) .ok
  match use.role with
  | .read => orElse (resolveName scope use.name) (.unresolvedName use.name)
  | .write =>
    match resolveName scope use.name with
    | some (.constant _) => .error (.assignmentToConstant use.name)
    | symbol? => orElse symbol? (.unresolvedName use.name)
  | .call =>
    match Signature.idOf? use.name with
    | some id => .ok (.builtin id)
    | none => orElse (s.findVisible .function use.name) (.unresolvedCall use.name)
  | .chapter =>
    orElse (((s.file? use.name).bind (·.firstChapter?)).map (·.symbol))
      (.unresolvedChapter use.name)
  | .scene => orElse (s.resolveScene use.name) (.unresolvedScene use.name)

end Surroundings

structure Bindings where
  path : String
  visible : List String
  references : Std.TreeMap Nat Symbol := ∅
  unresolved : Std.TreeMap Nat String := ∅

namespace Bindings

structure Progress where
  bindings : Bindings
  diagnostics : Array Diagnostic := #[]

/-- What is left of the references when the use at a node is found wrong: an assignment to a constant
has been recorded by then, and is taken back. -/
def retract (references : Std.TreeMap Nat Symbol) (id : Nat) : Issue → Std.TreeMap Nat Symbol
  | .assignmentToConstant _ => references.erase id
  | _ => references

def addUse (s : Surroundings) (scope : Scope) (p : Progress) (use : Use) : Progress :=
  match s.resolve scope use with
  | .ok symbol =>
    { p with bindings := { p.bindings with
        references := p.bindings.references.insert use.node.id symbol } }
  | .error issue =>
    { bindings := { p.bindings with
        references := retract p.bindings.references use.node.id issue
        unresolved := p.bindings.unresolved.insert use.node.id use.name }
      diagnostics := p.diagnostics.push { issue, span := use.node.span } }

def addMember (s : Surroundings) (p : Progress) (member : Member) : Progress :=
  let scope := ((s.tables[s.path]?).bind (·.scopeOf? member.node.id)).getD {}
  member.uses.foldl (addUse s scope) p

def ofScript (tables : SymbolTables) (visible : List String) (script : Script) : Progress :=
  let s : Surroundings := { tables, path := script.path, visible }
  script.members.foldl (addMember s) { bindings := { path := script.path, visible } }

end Bindings

end Stagecraft
