import Stagecraft.Script.Print

/-!
The parser never fails: where the text is not a script it notes a diagnostic, skips to a place where
it can go on, and leaves a gap in the tree. Every recursion is bounded by a count of steps that is
computed from the number of tokens.
-/

namespace Stagecraft

/-- A parser: the tokens that are left, the one that stands after them, how many have been taken,
the place of the last one, the next free node number, the diagnostics, and how often reading was cut
short because there were no steps left. -/
structure Parser where
  rest : List Token
  final : Token
  taken : Nat := 0
  last : Option Span := none
  nextId : Nat := 0
  diagnostics : Array Diagnostic := #[]
  cuts : Nat := 0

abbrev Parse := StateM Parser

namespace Parser

/-- A parser of a list of tokens. It reads up to the first end-of-file token. If there is none, one
is put after the last token. -/
def ofTokens (tokens : List Token) (diagnostics : List Diagnostic) : Parser :=
  let isEnd (t : Token) : Bool := t.kind == .endOfFile
  let ending : Token := .endAt (tokens.getLast?.elim .unplaced (·.span))
  { rest := tokens.takeWhile (!isEnd ·), final := (tokens.find? isEnd).getD ending,
    diagnostics := diagnostics.toArray }

def ofString (source : String) : Parser :=
  let (tokens, diagnostics) := Scanner.tokens source
  ofTokens tokens diagnostics

def budget (p : Parser) : Nat :=
  16 * (p.rest.length + 4)

def past (p : Parser) (t : Token) (rest : List Token) : Parser :=
  { p with rest, taken := p.taken + 1, last := some t.span }

def pastWhile (f : Token → Bool) : List Token → Parser → Parser
  | [], p => p
  | t :: ts, p => if f t then pastWhile f ts (p.past t ts) else p

end Parser

namespace Parse

def peek : Parse Token := do
  let p ← get
  pure (p.rest.headD p.final)

def peekKind : Parse TokenKind := do
  pure (← peek).kind

def peekSecond : Parse TokenKind := do
  let p ← get
  pure ((p.rest.drop 1).headD p.final).kind

def advance : Parse Token := fun p =>
  match p.rest with
  | [] => (p.final, p)
  | t :: rest => (t, p.past t rest)

def lastSpan : Parse Span := do
  let p ← get
  pure (p.last.getD (p.rest.headD p.final).span)

def freshId : Parse Nat := fun p =>
  (p.nextId, { p with nextId := p.nextId + 1 })

def cut (a : α) : Parse α := fun p =>
  (a, { p with cuts := p.cuts + 1 })

def report (issue : Issue) (span : Span) : Parse Unit :=
  modify fun p => { p with diagnostics := p.diagnostics.push { issue, span } }

def unexpected (what : String) : Parse Unit := do
  let t ← peek
  report (.unexpectedToken what t.render) t.span

def eat (kind : TokenKind) : Parse Bool := do
  if (← peekKind) == kind then
    let _ ← advance
    pure true
  else pure false

def expect (kind : TokenKind) (what : String) : Parse Bool := do
  if ← eat kind then pure true
  else
    unexpected what
    pure false

def skipWhile (f : Token → Bool) : Parse Unit :=
  modify fun p => Parser.pastWhile f p.rest p

def expectEnd : Parse Unit := do
  let t ← peek
  if t.kind != .endOfFile then report .trailingInput t.span

def synchronize : Parse Unit := do
  skipWhile fun t => !(t.kind == .closeBrace || t.kind.isMember || t.kind == .semicolon)
  let _ ← eat .semicolon

def endStatement : Parse Unit := do
  if !(← eat .semicolon) then
    unexpected "';'"
    synchronize

def name (what : String) : Parse String := do
  match ← peekKind with
  | .identifier | .stringLiteral => pure (← advance).content
  | _ =>
    unexpected what
    pure ""

def operatorAt : Nat → TokenKind → Option BinaryOperator
  | 0, .orOr => some .or
  | 1, .andAnd => some .and
  | 2, .equalEqual => some .equal
  | 2, .bangEqual => some .notEqual
  | 3, .less => some .less
  | 3, .lessEqual => some .lessEqual
  | 3, .greater => some .greater
  | 3, .greaterEqual => some .greaterEqual
  | 4, .plus => some .add
  | 4, .minus => some .subtract
  | 5, .star => some .multiply
  | 5, .slash => some .divide
  | 5, .percent => some .remainder
  | _, _ => none

def levels : Nat := 6

def unaryAt : TokenKind → Option UnaryOperator
  | .minus => some .negate
  | .plus => some .plus
  | .bang => some .not
  | _ => none

def assignAt : TokenKind → Option AssignOperator
  | .assign => some .set
  | .plusAssign => some .add
  | .minusAssign => some .subtract
  | .starAssign => some .multiply
  | .slashAssign => some .divide
  | _ => none

def stepAt : TokenKind → Option StepOperator
  | .plusPlus => some .increment
  | .minusMinus => some .decrement
  | _ => none

def gap : Expression :=
  .literal default .null

def nodeFrom (first : Span) : Parse Node := do
  let id ← freshId
  pure { id, span := first.through (← lastSpan) }

def assignment (target : Expression) (operator : Span) (other : Expression)
    (make : Node → Target → Expression) : Parse Expression := do
  match target with
  | .name node name =>
    let span := node.span.through (← lastSpan)
    let id ← freshId
    pure (make { id, span } { node, name })
  | _ =>
    report (.invalidTarget target.render) operator
    pure other

mutual

def expression : Nat → Parse Expression
  | 0 => cut gap
  | fuel + 1 => do
    let target ← binary fuel 0
    let t ← peek
    match assignAt t.kind, stepAt t.kind with
    | some op, _ =>
      let _ ← advance
      let value ← expression fuel
      assignment target t.span value fun node name => .assign node name op value
    | none, some op =>
      let _ ← advance
      assignment target t.span target fun node name => .step node name op
    | none, none => pure target

def binary : Nat → Nat → Parse Expression
  | 0, _ => cut gap
  | fuel + 1, level => do
    if level < levels then
      let left ← binary fuel (level + 1)
      binaryMore fuel level left
    else unary fuel

def binaryMore : Nat → Nat → Expression → Parse Expression
  | 0, _, left => cut left
  | fuel + 1, level, left => do
    match operatorAt level (← peekKind) with
    | none => pure left
    | some op =>
      let _ ← advance
      let right ← binary fuel (level + 1)
      let id ← freshId
      let node : Node := { id, span := left.node.span.through right.node.span }
      binaryMore fuel level (.binary node op left right)

def unary : Nat → Parse Expression
  | 0 => cut gap
  | fuel + 1 => do
    match unaryAt (← peekKind) with
    | none => primary fuel
    | some op =>
      let t ← advance
      let operand ← unary fuel
      let id ← freshId
      pure (.unary { id, span := t.span.through operand.node.span } op operand)

def primary : Nat → Parse Expression
  | 0 => cut gap
  | fuel + 1 => do
    let t ← peek
    let literal (value : Literal) : Parse Expression := do
      let _ ← advance
      pure (.literal (← nodeFrom t.span) value)
    match t.kind with
    | .numericLiteral =>
      match t.value with
      | .delta x => literal (.delta x)
      | .number x => literal (.number x)
      | _ => literal (.number 0.0)
    | .stringLiteral => literal (.text t.content)
    | .trueWord => literal (.flag true)
    | .falseWord => literal (.flag false)
    | .nullWord => literal .null
    | .identifier =>
      if (← peekSecond) == .openParen then
        let _ ← advance
        let _ ← advance
        if ← eat .closeParen then pure (.call (← nodeFrom t.span) t.content [])
        else
          let found ← arguments fuel #[]
          let _ ← expect .closeParen "')'"
          pure (.call (← nodeFrom t.span) t.content found.toList)
      else
        let _ ← advance
        pure (.name (← nodeFrom t.span) t.content)
    | .openParen =>
      let _ ← advance
      let inner ← expression fuel
      let _ ← expect .closeParen "')'"
      pure inner
    | kind =>
      unexpected "an expression"
      if !(kind == .endOfFile || kind == .closeBrace || kind == .semicolon) then
        let _ ← advance
      pure (.literal (← nodeFrom t.span) .null)

def arguments : Nat → Array Expression → Parse (Array Expression)
  | 0, found => cut found
  | fuel + 1, found => do
    let e ← expression fuel
    if ← eat .comma then arguments fuel (found.push e) else pure (found.push e)

end

def condition (fuel : Nat) : Parse Expression := do
  let _ ← expect .openParen "'('"
  let e ← expression fuel
  let _ ← expect .closeParen "')'"
  pure e

def endsBlock (kind : TokenKind) : Bool :=
  kind == .closeBrace || kind == .endOfFile || kind.isMember

structure Pending where
  chars : Array Char := #[]
  span : Option Span := none

def Pending.add (p : Pending) (t : Token) : Pending :=
  let text := match t.kind with
    | .markupText => t.content
    | .markupLineBreak => "\n"
    | .startTag => "<" ++ t.content ++ ">"
    | .endTag => "</" ++ t.content ++ ">"
    | _ => "[" ++ t.content ++ "]"
  { chars := text.toList.foldl Array.push p.chars
    span := some (match p.span with
      | some span => span.through t.span
      | none => t.span) }

def flush (parts : Array DialoguePart) (pending : Pending) : Parse (Array DialoguePart) := do
  let isBreak (c : Char) : Bool := c == '\n'
  let inner := ((pending.chars.toList.dropWhile isBreak).reverse.dropWhile isBreak).reverse
  if inner.isEmpty then pure parts
  else
    let span := pending.span.getD .unplaced
    let (pieces, diagnostics) := Markup.readAt span inner
    modify fun p => { p with diagnostics := p.diagnostics ++ diagnostics.toArray }
    pure (parts.push (.markup pieces span))

def boxName (content : String) : String :=
  Text.trim (String.ofList ((content.toList.dropWhile (!Text.isBlank ·)).drop 1))

mutual

def statement : Nat → Parse Statement
  | 0 => cut default
  | fuel + 1 => do
    let t ← peek
    match t.kind with
    | .openBrace =>
      let body ← block fuel
      pure (.block (← nodeFrom t.span) body)
    | .ifWord =>
      let _ ← advance
      let c ← condition fuel
      let thenBranch ← statement fuel
      if ← eat .elseWord then
        let elseBranch ← statement fuel
        pure (.ifElse (← nodeFrom t.span) c thenBranch elseBranch)
      else pure (.ifThen (← nodeFrom t.span) c thenBranch)
    | .whileWord =>
      let _ ← advance
      let c ← condition fuel
      let body ← statement fuel
      pure (.loop (← nodeFrom t.span) c body)
    | .select =>
      let _ ← advance
      if ← expect .openBrace "'\x7b'" then
        let cases ← choices fuel #[]
        let _ ← expect .closeBrace "'\x7d'"
        pure (.select (← nodeFrom t.span) cases.toList)
      else pure (.select (← nodeFrom t.span) [])
    | .callChapter =>
      let _ ← advance
      let target ← name "a chapter path"
      endStatement
      pure (.callChapter (← nodeFrom t.span) target)
    | .callScene =>
      let _ ← advance
      let target ← name "a scene reference"
      endStatement
      pure (.callScene (← nodeFrom t.span) target)
    | .returnWord =>
      let _ ← advance
      if (← peekKind) == .semicolon then
        endStatement
        pure (.ret (← nodeFrom t.span) none)
      else
        let value ← expression fuel
        endStatement
        pure (.ret (← nodeFrom t.span) (some value))
    | .breakWord =>
      let _ ← advance
      endStatement
      pure (.exit (← nodeFrom t.span))
    | .semicolon =>
      let _ ← advance
      pure (.empty (← nodeFrom t.span))
    | _ =>
      if t.isDialogueStart then
        let d ← dialogue fuel
        pure (.dialogue (← nodeFrom t.span) d)
      else
        let e ← expression fuel
        endStatement
        pure (.expression (← nodeFrom t.span) e)

def block : Nat → Parse Block
  | 0 => cut default
  | fuel + 1 => do
    let id ← freshId
    let first := (← peek).span
    if ← expect .openBrace "'\x7b'" then
      let found ← statements fuel #[]
      let _ ← expect .closeBrace "'\x7d'"
      pure (.mk { id, span := first.through (← lastSpan) } found.toList)
    else pure (.mk { id, span := first } [])

/-- The statements of a block after those found. One that takes no token would be read forever, so
the token in its place is passed over. -/
def statements : Nat → Array Statement → Parse (Array Statement)
  | 0, found => cut found
  | fuel + 1, found => do
    if endsBlock (← peekKind) then pure found
    else
      let before := (← get).taken
      let s ← statement fuel
      if (← get).taken == before then
        let _ ← advance
      statements fuel (found.push s)

def choices : Nat → Array Choice → Parse (Array Choice)
  | 0, found => cut found
  | fuel + 1, found => do
    match ← peekKind with
    | .closeBrace | .endOfFile => pure found
    | .caseWord =>
      let t ← advance
      let label ← name "a case label"
      let _ ← expect .colon "':'"
      let body ← statement fuel
      let id ← freshId
      choices fuel (found.push (.mk { id, span := t.span.through body.node.span } label body))
    | _ =>
      unexpected "'case'"
      synchronize
      if (← peekKind).isMember then pure found else choices fuel found

def dialogue : Nat → Parse Dialogue
  | 0 => do
    let id ← freshId
    cut (.mk { id, span := .unplaced } "" none [])
  | fuel + 1 => do
    let t ← advance
    let id ← freshId
    skipWhile (·.kind == .markupLineBreak)
    let next ← peek
    let name ← if next.kind == .dialogueIdentifier then do
        let _ ← advance
        pure (some next.content)
      else pure none
    let parts ← dialogueParts fuel #[] {}
    pure (.mk { id, span := t.span.through (← lastSpan) } (boxName t.content) name parts.toList)

def dialogueParts : Nat → Array DialoguePart → Pending → Parse (Array DialoguePart)
  | 0, found, _ => cut found
  | fuel + 1, found, pending => do
    let t ← peek
    if t.isDialogueEnd then
      let _ ← advance
      flush found pending
    else match t.kind with
      | .endOfFile =>
        unexpected "</PRE>"
        flush found pending
      | .openBrace =>
        let found ← flush found pending
        let body ← block fuel
        dialogueParts fuel (found.push (.code body)) {}
      | .markupText | .markupLineBreak | .startTag | .endTag | .dialogueIdentifier =>
        let _ ← advance
        dialogueParts fuel found (pending.add t)
      | _ =>
        unexpected "dialogue text or '\x7b'"
        let _ ← advance
        dialogueParts fuel found pending

end

def formalParameters : Nat → Array FormalParameter → Parse (Array FormalParameter)
  | 0, found => cut found
  | fuel + 1, found => do
    let t ← peek
    if t.kind == .identifier then
      let _ ← advance
      let id ← freshId
      let found := found.push { node := { id, span := t.span }, name := t.content }
      if ← eat .comma then formalParameters fuel found
      else
        let _ ← expect .closeParen "')'"
        pure found
    else
      unexpected "a parameter name"
      skipWhile fun t => !(t.kind == .closeParen || t.kind == .openBrace)
      let _ ← eat .closeParen
      pure found

def parameterList (fuel : Nat) : Parse (List FormalParameter) := do
  if ← expect .openParen "'('" then
    if ← eat .closeParen then pure []
    else pure (← formalParameters fuel #[]).toList
  else pure []

def member (fuel : Nat) : Parse Member := do
  let t ← advance
  let id ← freshId
  let name ← name "a member name"
  let nodeTo (body : Block) : Node := { id, span := t.span.through body.node.span }
  match t.kind with
  | .chapter =>
    let body ← block fuel
    pure (.chapter (nodeTo body) name body)
  | .scene =>
    let body ← block fuel
    pure (.scene (nodeTo body) name body)
  | _ =>
    let parameters ← parameterList fuel
    let body ← block fuel
    pure (.function (nodeTo body) name parameters body)

def startsItem (t : Token) : Bool :=
  t.kind.isMember || t.kind == .includeDirective || t.isDialogueStart

def items : Nat → Array Include → Array Member → Parse (List Include × List Member)
  | 0, includes, members => cut (includes.toList, members.toList)
  | fuel + 1, includes, members => do
    let t ← peek
    if t.kind == .endOfFile then pure (includes.toList, members.toList)
    else if t.kind == .includeDirective then
      let _ ← advance
      items fuel (includes.push { path := t.content, span := t.span }) members
    else if t.kind.isMember then
      let m ← member fuel
      items fuel includes (members.push m)
    else if t.isDialogueStart then
      let d ← dialogue fuel
      items fuel includes (members.push (.dialogue d))
    else
      unexpected "chapter, scene, function or dialogue block"
      let _ ← advance
      skipWhile (!startsItem ·)
      items fuel includes members

def script (fuel : Nat) (path : String) : Parse Script := do
  let (includes, members) ← items fuel #[] #[]
  pure { path, includes, members }

end Parse

structure Parsed (α : Type) where
  value : α
  diagnostics : List Diagnostic

namespace Parsed

def hasErrors (p : Parsed α) : Bool :=
  p.diagnostics.any (·.isError)

def ofString (source : String) (f : Nat → Parse α) : Parsed α :=
  let p := Parser.ofString source
  let (value, p) := f p.budget p
  { value, diagnostics := p.diagnostics.toList }

end Parsed

namespace Parse

def parseScript (path source : String) : Parsed Script :=
  Parsed.ofString source fun fuel => script fuel path

def parseStatement (source : String) : Parsed Statement :=
  Parsed.ofString source fun fuel => do
    let s ← statement fuel
    expectEnd
    pure s

def parseExpression (source : String) : Parsed Expression :=
  Parsed.ofString source fun fuel => do
    let e ← expression fuel
    expectEnd
    pure e

def parseDialogue (source : String) : Parsed (Option Dialogue) :=
  Parsed.ofString source fun fuel => do
    if (← peek).isDialogueStart then
      let d ← dialogue fuel
      expectEnd
      pure (some d)
    else
      unexpected "a <PRE> dialogue block"
      pure none

end Parse

end Stagecraft
