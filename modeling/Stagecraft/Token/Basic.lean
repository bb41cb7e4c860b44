import Stagecraft.Diagnostic
import Stagecraft.Text.Class

namespace Stagecraft

inductive TokenKind where
  | identifier | stringLiteral | numericLiteral
  | chapter | scene | function | ifWord | elseWord | whileWord | select | caseWord
  | callChapter | callScene | returnWord | breakWord | trueWord | falseWord | nullWord
  | openParen | closeParen | openBrace | closeBrace | comma | semicolon | colon
  | plus | minus | star | slash | percent | bang
  | assign | plusAssign | minusAssign | starAssign | slashAssign | plusPlus | minusMinus
  | equalEqual | bangEqual | less | lessEqual | greater | greaterEqual | andAnd | orOr
  | startTag | endTag | dialogueIdentifier | markupText | markupLineBreak
  | includeDirective | bad | endOfFile
  deriving DecidableEq, Repr, Inhabited

namespace TokenKind

def keywords : List (String × TokenKind) := [
  ("chapter", chapter), ("scene", scene), ("function", function), ("if", ifWord),
  ("else", elseWord), ("while", whileWord), ("select", select), ("case", caseWord),
  ("call_chapter", callChapter), ("call_scene", callScene), ("return", returnWord),
  ("break", breakWord), ("true", trueWord), ("false", falseWord), ("null", nullWord)]

def keyword? (word : String) : Option TokenKind :=
  keywords.lookup word

def isMember : TokenKind → Bool
  | chapter | scene | function => true
  | _ => false

def isMarkup : TokenKind → Bool
  | startTag | endTag | markupText | markupLineBreak => true
  | _ => false

def name : TokenKind → String
  | identifier => "Identifier"
  | stringLiteral => "StringLiteral"
  | numericLiteral => "NumericLiteral"
  | chapter => "Chapter"
  | scene => "Scene"
  | function => "Function"
  | ifWord => "If"
  | elseWord => "Else"
  | whileWord => "While"
  | select => "Select"
  | caseWord => "Case"
  | callChapter => "CallChapter"
  | callScene => "CallScene"
  | returnWord => "Return"
  | breakWord => "Break"
  | trueWord => "True"
  | falseWord => "False"
  | nullWord => "Null"
  | openParen => "OpenParen"
  | closeParen => "CloseParen"
  | openBrace => "OpenBrace"
  | closeBrace => "CloseBrace"
  | comma => "Comma"
  | semicolon => "Semicolon"
  | colon => "Colon"
  | plus => "Plus"
  | minus => "Minus"
  | star => "Star"
  | slash => "Slash"
  | percent => "Percent"
  | bang => "Bang"
  | assign => "Assign"
  | plusAssign => "PlusAssign"
  | minusAssign => "MinusAssign"
  | starAssign => "StarAssign"
  | slashAssign => "SlashAssign"
  | plusPlus => "PlusPlus"
  | minusMinus => "MinusMinus"
  | equalEqual => "EqualEqual"
  | bangEqual => "BangEqual"
  | less => "Less"
  | lessEqual => "LessEqual"
  | greater => "Greater"
  | greaterEqual => "GreaterEqual"
  | andAnd => "AndAnd"
  | orOr => "OrOr"
  | startTag => "XmlStartTag"
  | endTag => "XmlEndTag"
  | dialogueIdentifier => "DialogueIdentifier"
  | markupText => "MarkupText"
  | markupLineBreak => "MarkupLineBreak"
  | includeDirective => "IncludeDirective"
  | bad => "Bad"
  | endOfFile => "Eof"

end TokenKind

inductive TokenValue where
  | none
  | number (x : Float)
  | delta (x : Float)
  | text (s : String)
  deriving Repr, Inhabited

structure Token where
  kind : TokenKind
  text : String
  value : TokenValue
  span : Span
  deriving Repr, Inhabited

namespace Token

def endAt (span : Span) : Token :=
  { kind := .endOfFile, text := "", value := .none, span }

def content (t : Token) : String :=
  match t.value with
  | .text s => s
  | _ => t.text

def firstWord? (s : String) : Option String :=
  let word := (Text.trimStart s.toList).takeWhile (!Text.isBlank ·)
  if word.isEmpty then none else some (String.ofList word)

def tagName? (t : Token) : Option String :=
  match t.kind with
  | .startTag | .endTag => firstWord? t.content
  | _ => none

def sameIgnoringCase (a b : String) : Bool :=
  a.toList.map Char.toLower == b.toList.map Char.toLower

def namesDialogue (t : Token) : Bool :=
  t.tagName?.any (sameIgnoringCase · "PRE")

def isDialogueStart (t : Token) : Bool :=
  t.kind == .startTag && t.namesDialogue

def isDialogueEnd (t : Token) : Bool :=
  t.kind == .endTag && t.namesDialogue

def render (t : Token) : String :=
  match t.kind with
  | .endOfFile => "end of file"
  | .markupLineBreak => "line break"
  | _ => "'" ++ t.text ++ "'"

end Token

end Stagecraft
