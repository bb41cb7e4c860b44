import Stagecraft.Number.Reading
import Stagecraft.Token.Basic

/-!
A scanner is in one of three modes: code, dialogue text, or code embedded in dialogue text; modes
nest, so it keeps a stack of them.
-/

namespace Stagecraft

/-- What the scanner is reading. Embedded code ends with the brace that matches its first one. -/
inductive Mode where
  | code
  | dialogue
  | embedded (depth : Nat)
  deriving DecidableEq, Repr

structure Lexeme where
  kind : TokenKind
  value : TokenValue := .none
  chars : List Char
  rest : List Char
  issue : Option Issue := none

namespace Lexeme

def isNameStart (c : Char) : Bool :=
  Text.isAlphabetic c || c == '_'

def isNameChar (c : Char) : Bool :=
  Text.isAlphanumeric c || c == '_'

def isSigil (c : Char) : Bool :=
  c == '$' || c == '#'

def isSigiled (cs : List Char) : Bool :=
  match cs with
  | c :: rest => isSigil c && !rest.isEmpty && rest.all isNameChar
  | [] => false

def plain (kind : TokenKind) (n : Nat) (cs : List Char) : Lexeme :=
  { kind, chars := cs.take n, rest := cs.drop n }

def isHexDigit (c : Char) : Bool :=
  c.isDigit || ('a' ≤ c && c ≤ 'f') || ('A' ≤ c && c ≤ 'F')

def hexValue (c : Char) : Nat :=
  if c.isDigit then c.toNat - '0'.toNat
  else if 'a' ≤ c then c.toNat - 'a'.toNat + 10
  else c.toNat - 'A'.toNat + 10

def hexNumber (digits : List Char) : Float :=
  digits.foldl (fun x c => x * 16.0 + (hexValue c).toFloat) 0.0

def number (cs : List Char) : List Char × List Char × Option Float :=
  let decimal :=
    let whole := cs.takeWhile Char.isDigit
    let rest := cs.dropWhile Char.isDigit
    let (digits, rest) := match rest with
      | '.' :: more =>
        let places := more.takeWhile Char.isDigit
        if places.isEmpty then (whole, rest)
        else (whole ++ '.' :: places, more.dropWhile Char.isDigit)
      | _ => (whole, rest)
    (digits, rest, some ((Number.read digits).getD 0.0))
  match cs with
  | '0' :: x :: more =>
    if x == 'x' || x == 'X' then
      let digits := more.takeWhile isHexDigit
      ('0' :: x :: digits, more.dropWhile isHexDigit,
        if digits.isEmpty then none else some (hexNumber digits))
    else decimal
  | _ => decimal

def numeric (lead : List Char) (make : Float → TokenValue) (cs : List Char) : Lexeme :=
  let (digits, rest, value) := number cs
  { kind := .numericLiteral
    value := make (value.getD 0.0)
    chars := lead ++ digits
    rest
    issue := if value.isNone then some .emptyHex else none }

def delta (cs : List Char) : Lexeme :=
  let (lead, negative, rest) := match cs.drop 1 with
    | '-' :: rest => (['@', '-'], true, rest)
    | '+' :: rest => (['@', '+'], false, rest)
    | rest => (['@'], false, rest)
  match rest with
  | c :: _ =>
    if c.isDigit then numeric lead (fun x => .delta (if negative then -x else x)) rest
    else { kind := .bad, chars := lead, rest, issue := some .bareDelta }
  | [] => { kind := .bad, chars := lead, rest, issue := some .bareDelta }

def sigiled (sigil : Char) (rest : List Char) : Lexeme :=
  let name := rest.takeWhile isNameChar
  if name.isEmpty then
    { kind := .bad, chars := [sigil], rest, issue := some (.bareSigil sigil) }
  else
    let chars := sigil :: name
    { kind := .identifier, value := .text (String.ofList chars), chars,
      rest := rest.dropWhile isNameChar }

def word (cs : List Char) : Lexeme :=
  let chars := cs.takeWhile isNameChar
  let rest := cs.dropWhile isNameChar
  let text := String.ofList chars
  match TokenKind.keyword? text with
  | some kind => { kind, chars, rest }
  | none => { kind := .identifier, value := .text text, chars, rest }

/-- The inside of a quoted text: what it says and how many characters it takes with the closing
quote, or nothing if there is none. Unknown escapes stand for themselves. -/
def quotedInside (content : Array Char) (n : Nat) : List Char → Option (Array Char × Nat)
  | [] => none
  | '"' :: _ => some (content, n + 1)
  | '\\' :: rest =>
    match rest with
    | [] => none
    | 'n' :: rest => quotedInside (content.push '\n') (n + 2) rest
    | 't' :: rest => quotedInside (content.push '\t') (n + 2) rest
    | '"' :: rest => quotedInside (content.push '"') (n + 2) rest
    | '\\' :: rest => quotedInside (content.push '\\') (n + 2) rest
    | c :: rest => quotedInside ((content.push '\\').push c) (n + 2) rest
  | c :: rest => quotedInside (content.push c) (n + 1) rest

def quoted (cs : List Char) : Lexeme :=
  match quotedInside #[] 0 (cs.drop 1) with
  | none => { kind := .endOfFile, chars := cs, rest := [], issue := some .unterminatedString }
  | some (content, n) =>
    let content := content.toList
    { kind := if isSigiled content then .identifier else .stringLiteral
      value := .text (String.ofList content)
      chars := cs.take (n + 1)
      rest := cs.drop (n + 1) }

def includeWord : List Char := "#include".toList

def startsInclude (cs : List Char) : Bool :=
  includeWord.isPrefixOf cs && !((cs.drop 8).head?.any isNameChar)

/-- An include directive with its quoted path, which has no escapes and ends with the line. -/
def includeDirective (cs : List Char) : Lexeme :=
  let isGap (c : Char) : Bool := c == ' ' || c == '\t'
  let gap := (cs.drop 8).takeWhile isGap
  let after := (cs.drop 8).dropWhile isGap
  let head := cs.take 8 ++ gap
  match after with
  | '"' :: more =>
    let inPath (c : Char) : Bool := c != '"' && c != '\n'
    let path := more.takeWhile inPath
    match more.dropWhile inPath with
    | '"' :: rest =>
      { kind := .includeDirective, value := .text (String.ofList path),
        chars := head ++ '"' :: (path ++ ['"']), rest }
    | rest =>
      { kind := .bad, chars := head ++ '"' :: path, rest, issue := some .malformedInclude }
  | _ => { kind := .bad, chars := head, rest := after, issue := some .malformedInclude }

def twoCharOperator (a b : Char) : Option TokenKind :=
  match a, b with
  | '+', '+' => some .plusPlus
  | '+', '=' => some .plusAssign
  | '-', '-' => some .minusMinus
  | '-', '=' => some .minusAssign
  | '*', '=' => some .starAssign
  | '/', '=' => some .slashAssign
  | '!', '=' => some .bangEqual
  | '=', '=' => some .equalEqual
  | '<', '=' => some .lessEqual
  | '>', '=' => some .greaterEqual
  | '&', '&' => some .andAnd
  | '|', '|' => some .orOr
  | _, _ => none

def oneCharOperator : Char → Option TokenKind
  | '(' => some .openParen
  | ')' => some .closeParen
  | '\x7b' => some .openBrace
  | '\x7d' => some .closeBrace
  | ',' => some .comma
  | ';' => some .semicolon
  | ':' => some .colon
  | '+' => some .plus
  | '-' => some .minus
  | '*' => some .star
  | '/' => some .slash
  | '%' => some .percent
  | '!' => some .bang
  | '=' => some .assign
  | '<' => some .less
  | '>' => some .greater
  | _ => none

def operator (a : Char) (rest : List Char) : Lexeme :=
  match rest.head?.bind (twoCharOperator a) with
  | some kind => plain kind 2 (a :: rest)
  | none =>
    match oneCharOperator a with
    | some kind => plain kind 1 (a :: rest)
    | none => { kind := .bad, chars := [a], rest, issue := some (.strayCharacter a) }

def looksLikeTag (cs : List Char) : Bool :=
  match cs.drop 1 with
  | '/' :: c :: _ => Text.isAlphabetic c
  | c :: _ => Text.isAlphabetic c
  | [] => false

def endsTagSearch (c : Char) : Bool :=
  c == '\n' || c == '(' || c == ')' || c == ';' || c == '\x7b' || c == '\x7d'

/-- A tag, unless code punctuation or the end of the line comes before its closing bracket. -/
def tag (cs : List Char) : Option Lexeme :=
  let inside := (cs.drop 1).takeWhile fun c => c != '>' && !endsTagSearch c
  match (cs.drop 1).drop inside.length with
  | [] =>
    some { kind := .endOfFile, chars := cs, rest := [], issue := some .unterminatedTag }
  | '>' :: rest =>
    let (kind, inner) := match inside with
      | '/' :: inner => (TokenKind.endTag, inner)
      | inner => (TokenKind.startTag, inner)
    some { kind, value := .text (String.ofList (Text.trimEnd (Text.trimStart inner))),
           chars := '<' :: (inside ++ ['>']), rest }
  | _ => none

def endsOperand : TokenKind → Bool
  | .identifier | .stringLiteral | .numericLiteral | .trueWord | .falseWord | .nullWord
  | .closeParen | .plusPlus | .minusMinus => true
  | _ => false

def code (previous : Option TokenKind) (c : Char) (rest : List Char) : Lexeme :=
  let cs := c :: rest
  if c == '"' then quoted cs
  else if c == '#' && startsInclude cs then includeDirective cs
  else if isSigil c then sigiled c rest
  else if c == '@' then delta cs
  else if c.isDigit then numeric [] .number cs
  else if isNameStart c then word cs
  else if c == '<' && !previous.any endsOperand && looksLikeTag cs then
    (tag cs).getD (operator c rest)
  else operator c rest

def textLength (n : Nat) : List Char → Nat
  | [] => n
  | c :: rest =>
    if c == '\n' || c == '\x7b' then n
    else if c == '\r' && rest.head? == some '\n' then n
    else if c == '<' && looksLikeTag (c :: rest) then n
    else textLength (n + 1) rest

def dialogueName (cs : List Char) : Option Lexeme :=
  let name := (cs.drop 1).takeWhile (· != ']')
  let rest := (cs.drop 1).drop name.length
  if rest.isEmpty || name.isEmpty || !name.all isNameChar then none
  else some { kind := .dialogueIdentifier, value := .text (String.ofList name),
              chars := '[' :: (name ++ [']']), rest := rest.drop 1 }

/-- A run of dialogue text that starts with `c`: all of its characters and what they say. Blanks at
the start and at the end of a line do not count; nothing is said by blanks alone. -/
def dialogueText (lineStart : Bool) (c : Char) (rest : List Char) : Lexeme :=
  let n := textLength 0 rest
  let chars := c :: rest.take n
  let rest := rest.drop n
  let said := if lineStart then Text.trimStart chars else chars
  let said := match rest with
    | [] | '\n' :: _ | '\r' :: _ => Text.trimEnd said
    | _ => said
  { kind := .markupText, value := if said.isEmpty then .none else .text (String.ofList said),
    chars, rest }

def isSilent (l : Lexeme) : Bool :=
  match l.kind, l.value with
  | .markupText, .none => true
  | _, _ => false

def dialogue (lineStart : Bool) (c : Char) (rest : List Char) : Lexeme :=
  let cs := c :: rest
  if c == '\n' then plain .markupLineBreak 1 cs
  else if c == '\r' then plain .markupText 1 cs
  else if c == '\x7b' then plain .openBrace 1 cs
  else
    let special :=
      if c == '<' && looksLikeTag cs then tag cs
      else if c == '[' && lineStart then dialogueName cs
      else none
    special.getD (dialogueText lineStart c rest)

end Lexeme

structure Scanner where
  rest : List Char
  position : Position := .start
  modes : List Mode := [.code]
  lineStart : Bool := true
  previous : Option TokenKind := none
  diagnostics : Array Diagnostic := #[]

namespace Scanner

def ofString (s : String) : Scanner :=
  { rest := s.toList }

def skip (s : Scanner) (chars rest : List Char) : Scanner :=
  { s with rest, position := s.position.afterAll chars }

def report (s : Scanner) (issue : Issue) (first : Position) : Scanner :=
  { s with diagnostics :=
      s.diagnostics.push { issue, span := { first, last := s.position } } }

def commentLength (n : Nat) : List Char → Option Nat
  | '*' :: '/' :: _ => some (n + 2)
  | _ :: rest => commentLength (n + 1) rest
  | [] => none

theorem length_dropWhile_le (p : Char → Bool) (cs : List Char) :
    (cs.dropWhile p).length ≤ cs.length :=
  (List.dropWhile_sublist p).length_le

def skipTrivia (s : Scanner) : Scanner :=
  match _h : s.rest with
  | '/' :: '/' :: line =>
    skipTrivia (s.skip ('/' :: '/' :: line.takeWhile (· != '\n')) (line.dropWhile (· != '\n')))
  | '/' :: '*' :: inside =>
    match commentLength 0 inside with
    | some n => skipTrivia (s.skip ('/' :: '*' :: inside.take n) (inside.drop n))
    | none => (s.skip s.rest []).report .unterminatedComment s.position
  | c :: rest => if Text.isBlank c then skipTrivia (s.skip [c] rest) else s
  | [] => s
termination_by s.rest.length
decreasing_by
  · have := length_dropWhile_le (· != '\n') line
    simp [skip, _h]
    omega
  · simp [skip, _h]
    omega
  · simp [skip, _h]

theorem isSilent_of_tag {cs : List Char} {l : Lexeme} (h : Lexeme.tag cs = some l) :
    l.isSilent = false := by
  unfold Lexeme.tag at h
  dsimp only at h
  split at h
  · cases h
    rfl
  · split at h <;> cases h <;> rfl
  · cases h

theorem isSilent_of_dialogueName {cs : List Char} {l : Lexeme}
    (h : Lexeme.dialogueName cs = some l) : l.isSilent = false := by
  unfold Lexeme.dialogueName at h
  dsimp only at h
  split at h
  · cases h
  · cases h
    rfl

theorem length_rest_of_isSilent (lineStart : Bool) (c : Char) (rest : List Char)
    (h : (Lexeme.dialogue lineStart c rest).isSilent = true) :
    (Lexeme.dialogue lineStart c rest).rest.length ≤ rest.length := by
  revert h
  unfold Lexeme.dialogue
  dsimp only
  split
  · simp [Lexeme.plain]
  split
  · simp [Lexeme.plain]
  split
  · simp [Lexeme.plain]
  split
  · cases ht : Lexeme.tag (c :: rest) with
    | some l => simp [isSilent_of_tag ht]
    | none => simp [Lexeme.dialogueText]
  split
  · cases hn : Lexeme.dialogueName (c :: rest) with
    | some l => simp [isSilent_of_dialogueName hn]
    | none => simp [Lexeme.dialogueText]
  · simp [Lexeme.dialogueText]

def skipSilence (s : Scanner) : Scanner :=
  match _h : s.rest with
  | [] => s
  | c :: rest =>
    let l := Lexeme.dialogue s.lineStart c rest
    if _hs : l.isSilent then skipSilence (s.skip l.chars l.rest) else s
termination_by s.rest.length
decreasing_by
  have := length_rest_of_isSilent s.lineStart c rest _hs
  simp only [skip, _h, List.length_cons]
  omega

def modesAfter (modes : List Mode) (lineStart : Bool) (t : Token) : List Mode × Bool :=
  match modes with
  | .dialogue :: outer =>
    match t.kind with
    | .markupLineBreak => (modes, true)
    | .openBrace => (.embedded 1 :: modes, lineStart)
    | _ => (if t.isDialogueEnd then outer else modes, false)
  | .embedded depth :: outer =>
    match t.kind with
    | .openBrace => (.embedded (depth + 1) :: outer, lineStart)
    | .closeBrace =>
      if depth ≤ 1 then (outer, false) else (.embedded (depth - 1) :: outer, lineStart)
    | _ => if t.isDialogueStart then (.dialogue :: modes, true) else (modes, lineStart)
  | _ => if t.isDialogueStart then (.dialogue :: modes, true) else (modes, lineStart)

def accept (s : Scanner) (l : Lexeme) : Token × Scanner :=
  let after := s.skip l.chars l.rest
  let after := match l.issue with
    | some issue => after.report issue s.position
    | none => after
  let token : Token :=
    if l.kind == .endOfFile then .endAt { first := after.position, last := after.position }
    else { kind := l.kind, text := String.ofList l.chars, value := l.value,
           span := { first := s.position, last := after.position } }
  let (modes, lineStart) := modesAfter s.modes s.lineStart token
  (token, { after with modes, lineStart, previous := some token.kind })

/-- The next token. At the end of the text it is the end-of-file token, again and again. -/
def next (s : Scanner) : Token × Scanner :=
  let inDialogue := s.modes.head? == some .dialogue
  let s := if inDialogue then s.skipSilence else s.skipTrivia
  match s.rest with
  | [] =>
    let s := if inDialogue then s.report .unterminatedDialogue s.position else s
    s.accept { kind := .endOfFile, chars := [], rest := [] }
  | c :: rest =>
    s.accept (if inDialogue then Lexeme.dialogue s.lineStart c rest
      else Lexeme.code s.previous c rest)

def run (fuel : Nat) (s : Scanner) (found : Array (Token × Nat)) : Array (Token × Nat) × Scanner :=
  match fuel with
  | 0 => (found, s)
  | fuel + 1 =>
    let (t, s) := s.next
    let found := found.push (t, s.diagnostics.size)
    if t.kind == .endOfFile then (found, s) else run fuel s found

def tokensCounted (source : String) : List (Token × Nat) × List Diagnostic :=
  let s := ofString source
  let (found, s) := run (s.rest.length + 1) s #[]
  (found.toList, s.diagnostics.toList)

def tokens (source : String) : List Token × List Diagnostic :=
  let (found, diagnostics) := tokensCounted source
  (found.map (·.1), diagnostics)

end Scanner

end Stagecraft
