import Stagecraft.Script.Tree
import Stagecraft.Token.Scan

namespace Stagecraft

namespace Script

def quoteChar (c : Char) : List Char :=
  match c with
  | '"' => ['\\', '"']
  | '\\' => ['\\', '\\']
  | '\n' => ['\\', 'n']
  | '\t' => ['\\', 't']
  | c => [c]

def quote (s : String) : String :=
  String.ofList ('"' :: (s.toList.flatMap quoteChar ++ ['"']))

def isBare (s : String) : Bool :=
  match s.toList with
  | [] => false
  | c :: rest => Lexeme.isNameStart c && (c :: rest).all Lexeme.isNameChar

def label (s : String) : String :=
  if isBare s || Lexeme.isSigiled s.toList then s else quote s

end Script

namespace Literal

def render : Literal → String
  | null => "null"
  | flag b => if b then "true" else "false"
  | number x => Number.display x
  | delta x => "@" ++ Number.display x
  | text s => Script.quote s

end Literal

def BinaryOperator.precedence : BinaryOperator → Nat
  | or => 2
  | and => 3
  | equal | notEqual => 4
  | less | lessEqual | greater | greaterEqual => 5
  | add | subtract => 6
  | multiply | divide | remainder => 7

namespace Expression

def unaryPrecedence : Nat := 8

def precedence : Expression → Nat
  | assign _ _ _ _ | step _ _ _ => 1
  | binary _ op _ _ => op.precedence
  | unary _ _ _ => unaryPrecedence
  | _ => 9

def isUnary : Expression → Bool
  | unary _ _ _ => true
  | _ => false

def wrap (needed : Bool) (s : String) : String :=
  if needed then "(" ++ s ++ ")" else s

mutual

def render : Expression → String
  | literal _ value => value.render
  | name _ n => n
  | unary _ op e => op.symbol ++ wrap (e.isUnary || e.precedence < unaryPrecedence) e.render
  | binary _ op a b =>
    wrap (a.precedence < op.precedence) a.render ++ " " ++ op.symbol ++ " " ++
      wrap (b.precedence < op.precedence + 1) b.render
  | assign _ target op e => target.name ++ " " ++ op.symbol ++ " " ++ e.render
  | step _ target op => target.name ++ op.symbol
  | call _ callee arguments => callee ++ "(" ++ renderArguments arguments ++ ")"

def renderArguments : List Expression → String
  | [] => ""
  | [e] => e.render
  | e :: rest => e.render ++ ", " ++ renderArguments rest

end

end Expression

mutual

def Statement.render : Statement → String
  | .block _ b => b.render
  | .ifThen _ c s => "if (" ++ c.render ++ ")\n" ++ s.render
  | .ifElse _ c s t => "if (" ++ c.render ++ ")\n" ++ s.render ++ "\nelse\n" ++ t.render
  | .loop _ c s => "while (" ++ c.render ++ ")\n" ++ s.render
  | .select _ cases => "select\n\x7b\n" ++ Choice.renderAll cases ++ "\x7d"
  | .callChapter _ target => "call_chapter " ++ Script.quote target ++ ";"
  | .callScene _ target => "call_scene " ++ Script.quote target ++ ";"
  | .ret _ (some e) => "return " ++ e.render ++ ";"
  | .ret _ none => "return;"
  | .exit _ => "break;"
  | .expression _ e => e.render ++ ";"
  | .dialogue _ d => d.render
  | .empty _ => ";"

def Statement.renderAll : List Statement → String
  | [] => ""
  | s :: rest => s.render ++ "\n" ++ Statement.renderAll rest

def Block.render : Block → String
  | .mk _ ss => "\x7b\n" ++ Statement.renderAll ss ++ "\x7d"

def Choice.render : Choice → String
  | .mk _ label body => "case " ++ Script.label label ++ ":\n" ++ body.render ++ "\n"

def Choice.renderAll : List Choice → String
  | [] => ""
  | c :: rest => c.render ++ Choice.renderAll rest

def Dialogue.render : Dialogue → String
  | .mk _ box name parts =>
    (if box.isEmpty then "<PRE>\n" else "<PRE " ++ box ++ ">\n") ++
      (match name with
        | some name => "[" ++ name ++ "]\n"
        | none => "") ++ DialoguePart.renderAll parts ++ "</PRE>"

def DialoguePart.render : DialoguePart → String
  | .markup pieces _ => Markup.renderAll pieces ++ "\n"
  | .code body => body.render ++ "\n"

def DialoguePart.renderAll : List DialoguePart → String
  | [] => ""
  | p :: rest => p.render ++ DialoguePart.renderAll rest

end

namespace Member

def render : Member → String
  | chapter _ name body => "chapter " ++ name ++ "\n" ++ body.render
  | scene _ name body => "scene " ++ name ++ "\n" ++ body.render
  | function _ name parameters body =>
    "function " ++ name ++ "(" ++ Text.join ", " (parameters.map (·.name)) ++ ")\n" ++ body.render
  | dialogue d => d.render

end Member

namespace Script

def renderMembers : Bool → List Member → String
  | _, [] => ""
  | isFirst, m :: rest =>
    (if isFirst then "" else "\n") ++ m.render ++ "\n" ++ renderMembers false rest

def render (s : Script) : String :=
  s.includes.foldl (fun text i => text ++ "#include " ++ quote i.path ++ "\n") "" ++
    renderMembers s.includes.isEmpty s.members

end Script

end Stagecraft
