namespace Stagecraft

structure Position where
  line : Nat
  column : Nat
  deriving DecidableEq, Repr, Inhabited

def Position.start : Position :=
  { line := 1, column := 1 }

def Position.after (p : Position) (c : Char) : Position :=
  if c == '\n' then { line := p.line + 1, column := 1 } else { p with column := p.column + 1 }

def Position.afterAll (p : Position) (cs : List Char) : Position :=
  cs.foldl Position.after p

structure Span where
  first : Position
  last : Position
  deriving DecidableEq, Repr, Inhabited

namespace Span

def unplaced : Span :=
  { first := .start, last := .start }

def through (a b : Span) : Span :=
  { first := a.first, last := b.last }

def render (s : Span) : String :=
  s!"{s.first.line}:{s.first.column}"

end Span

inductive Severity where
  | warning
  | error
  deriving DecidableEq, Repr

inductive Issue where
  | unterminatedComment
  | unterminatedString
  | unterminatedTag
  | unterminatedDialogue
  | malformedInclude
  | bareSigil (sigil : Char)
  | strayCharacter (c : Char)
  | bareDelta
  | emptyHex
  | unexpectedToken (expected found : String)
  | trailingInput
  | invalidTarget (target : String)
  | unmatchedEndTag (name : String)
  | duplicateMember (name : String)
  | duplicateParameter (name : String)
  | duplicateDialogue (name : String)
  | unresolvedChapter (target : String)
  | unresolvedScene (target : String)
  | unresolvedCall (name : String)
  | unresolvedName (name : String)
  | assignmentToConstant (name : String)
  | jumpTooFar (distance : Int)
  | codeTooLarge (dialogue : String)
  | breakOutsideLoop
  | undeclaredDialogue
  | unresolvedSymbol (name : String)
  | notCallable (name : String)
  | notValue (name : String)
  | notAssignable (name : String)
  | builtinArguments (name : String) (count : Nat)
  | routineArguments (name : String) (expected count : Nat)
  deriving DecidableEq, Repr

namespace Issue

def severity : Issue → Severity
  | unmatchedEndTag _ | duplicateDialogue _ | unresolvedChapter _ | unresolvedScene _
  | unresolvedCall _ | unresolvedName _ => .warning
  | _ => .error

def code : Issue → String
  | unterminatedComment => "LEX_UNTERMINATED_COMMENT"
  | unterminatedString => "LEX_UNTERMINATED_STRING"
  | unterminatedTag => "LEX_UNTERMINATED_TAG"
  | unterminatedDialogue => "LEX_UNTERMINATED_DIALOGUE"
  | malformedInclude => "LEX_MALFORMED_INCLUDE"
  | bareSigil _ | strayCharacter _ => "LEX_INVALID_CHARACTER"
  | bareDelta | emptyHex => "LEX_INVALID_NUMBER"
  | unexpectedToken _ _ => "PARSE_UNEXPECTED_TOKEN"
  | trailingInput => "PARSE_TRAILING_INPUT"
  | invalidTarget _ => "PARSE_INVALID_ASSIGNMENT_TARGET"
  | unmatchedEndTag _ => "MARKUP_UNMATCHED_END_TAG"
  | duplicateMember _ => "BIND_DUPLICATE_MEMBER"
  | duplicateParameter _ => "BIND_DUPLICATE_PARAMETER"
  | duplicateDialogue _ => "BIND_DUPLICATE_DIALOGUE"
  | unresolvedChapter _ => "BIND_UNRESOLVED_CHAPTER"
  | unresolvedScene _ => "BIND_UNRESOLVED_SCENE"
  | unresolvedCall _ => "BIND_UNRESOLVED_CALL"
  | unresolvedName _ => "BIND_UNRESOLVED_IDENTIFIER"
  | assignmentToConstant _ => "BIND_INVALID_ASSIGNMENT"
  | jumpTooFar _ => "EMIT_JUMP_OUT_OF_RANGE"
  | codeTooLarge _ => "EMIT_CODE_TOO_LARGE"
  | breakOutsideLoop => "EMIT_BREAK_OUTSIDE_LOOP"
  | undeclaredDialogue | unresolvedSymbol _ | notCallable _ | notValue _ | notAssignable _ =>
    "EMIT_UNRESOLVED_SYMBOL"
  | builtinArguments _ _ | routineArguments _ _ _ => "EMIT_ARGUMENT_COUNT"

def message : Issue → String
  | unterminatedComment => "Block comment is not terminated."
  | unterminatedString => "String literal is not terminated."
  | unterminatedTag => "Markup tag is not terminated."
  | unterminatedDialogue => "Dialogue block is missing </PRE>."
  | malformedInclude => "#include must be followed by a quoted path."
  | bareSigil sigil => s!"Sigil '{sigil}' must be followed by a name."
  | strayCharacter c => s!"Unexpected character '{c}'."
  | bareDelta => "Delta prefix '@' must be followed by a number."
  | emptyHex => "Hex literal has no digits."
  | unexpectedToken expected found => s!"Expected {expected}, found {found}."
  | trailingInput => "Unexpected input after the parsed node."
  | invalidTarget target => s!"Cannot assign to '{target}'."
  | unmatchedEndTag name => s!"End tag </{name}> has no matching start tag."
  | duplicateMember name => s!"Member \"{name}\" is already declared in this file."
  | duplicateParameter name => s!"Parameter \"{name}\" is declared twice."
  | duplicateDialogue name => s!"Dialogue block \"{name}\" appears twice in one body."
  | unresolvedChapter target => s!"No chapter found in \"{target}\"."
  | unresolvedScene target => s!"Scene \"{target}\" not found."
  | unresolvedCall name => s!"Function \"{name}\" is not defined."
  | unresolvedName name => s!"Identifier \"{name}\" is not defined."
  | assignmentToConstant name => s!"Cannot assign to constant \"{name}\"."
  | jumpTooFar distance => s!"Jump distance {distance} does not fit in 16 bits."
  | codeTooLarge dialogue => s!"Dialogue block \"{dialogue}\" starts past 64 KiB of code."
  | breakOutsideLoop => "'break' is only valid inside while or select."
  | undeclaredDialogue => "Dialogue block was not declared."
  | unresolvedSymbol name => s!"Unresolved symbol \"{name}\"."
  | notCallable name => s!"\"{name}\" is not callable."
  | notValue name => s!"\"{name}\" is not a value."
  | notAssignable name => s!"\"{name}\" cannot be assigned."
  | builtinArguments name count => s!"Built-in \"{name}\" does not take {count} argument(s)."
  | routineArguments name expected count =>
    s!"\"{name}\" expects {expected} argument(s), got {count}."

end Issue

structure Diagnostic where
  issue : Issue
  span : Span
  deriving DecidableEq, Repr

namespace Diagnostic

def isError (d : Diagnostic) : Bool :=
  d.issue.severity == .error

end Diagnostic

structure FileDiagnostic where
  file : String
  diagnostic : Diagnostic
  deriving DecidableEq, Repr

namespace FileDiagnostic

def isError (d : FileDiagnostic) : Bool :=
  d.diagnostic.isError

def render (d : FileDiagnostic) : String :=
  s!"{d.file}:{d.diagnostic.span.render}: {d.diagnostic.issue.code}: {d.diagnostic.issue.message}"

end FileDiagnostic

end Stagecraft
