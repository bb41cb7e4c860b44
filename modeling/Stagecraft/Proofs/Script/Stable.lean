import Stagecraft.Proofs.Script.Legible
import Stagecraft.Proofs.Text

namespace Stagecraft

namespace Shape

def token (s : Shape) : Token :=
  { kind := s.1, text := "", value := s.2, span := .unplaced }

@[simp] lemma kind_token (s : Shape) : s.token.kind = s.1 := rfl

@[simp] lemma value_token (s : Shape) : s.token.value = s.2 := rfl

def said : Shape → List Char
  | (.markupText, .text s) => s.toList
  | (.markupLineBreak, _) => ['\n']
  | (.startTag, .text s) => '<' :: (s.toList ++ ['>'])
  | (.endTag, .text s) => '<' :: '/' :: (s.toList ++ ['>'])
  | (_, .text s) => '[' :: (s.toList ++ [']'])
  | _ => []

end Shape

section Text

/-- Whether two characters can stand side by side in dialogue text: lines neither start nor end with
blanks, and behind a bracket a carriage return would be passed over. -/
def Abut (c d : Char) : Prop :=
  (d = '\n' → c = '\n' ∨ Text.isBlank c = false) ∧ (c = '\n' → d = '\n' ∨ Text.isBlank d = false) ∧
    (c = '>' ∨ c = ']' → d ≠ '\r')

/-- Dialogue text that is scanned as it stands: no code opens in it, its lines are trimmed, and so
are its tags, none of which ends the dialogue. -/
structure Steady (cs : List Char) : Prop where
  nonempty : cs ≠ []
  brace : '\x7b' ∉ cs
  abut : cs.IsChain Abut
  trimmed : Text.IsTrimmed cs
  tags : ∀ tail, '<' :: tail <:+ cs → Lexeme.looksLikeTag ('<' :: tail) = true →
    ∀ l, Lexeme.tag ('<' :: tail) = some l → l.kind ≠ .endOfFile →
      Shape.said (l.kind, l.value) = l.chars ∧
        (Shape.token (l.kind, l.value)).isDialogueEnd = false

def startsName (cs : List Char) : Bool :=
  cs.head? == some '[' && (Lexeme.dialogueName cs).isSome

def FitsTag (box : String) : Prop :=
  Text.IsTrimmed box.toList ∧ ∀ c ∈ box.toList, c ≠ '>' ∧ Lexeme.endsTagSearch c = false

def FitsBrackets (name : String) : Prop :=
  name.toList ≠ [] ∧ ∀ c ∈ name.toList, Lexeme.isNameChar c = true

def FitsDirective (path : String) : Prop :=
  ∀ c ∈ path.toList, c ≠ '"' ∧ c ≠ '\\' ∧ c ≠ '\n' ∧ c ≠ '\t'

end Text

def Statement.isDialogue : Statement → Bool
  | .dialogue _ _ => true
  | _ => false

section Stable

-- Which numbers count as the same, as for legible expressions.
variable (same : Float → Float → Prop)

mutual

def Statement.Stable : Statement → Prop
  | .block _ b => b.Stable
  | .ifThen _ c s => c.Legible same ∧ s.Stable ∧ s.isDialogue = false
  | .ifElse _ c s t =>
    c.Legible same ∧ s.Stable ∧ s.isDialogue = false ∧ t.Stable ∧ s.endsOpen = false
  | .loop _ c s => c.Legible same ∧ s.Stable ∧ s.isDialogue = false
  | .select _ cases => Choice.AllStable cases
  | .ret _ (some e) => e.Legible same
  | .expression _ e => e.Legible same
  | .callChapter _ _ | .callScene _ _ | .ret _ none | .exit _ | .empty _ => True
  | .dialogue _ d => d.Stable

def Statement.AllStable : List Statement → Prop
  | [] => True
  | s :: rest => s.Stable ∧ Statement.AllStable rest

def Block.Stable : Block → Prop
  | .mk _ ss => Statement.AllStable ss

def Choice.Stable : Choice → Prop
  | .mk _ label body =>
    TokenKind.keyword? label = none ∧ label.toList ≠ Lexeme.includeWord ∧ body.Stable

def Choice.AllStable : List Choice → Prop
  | [] => True
  | c :: rest => c.Stable ∧ Choice.AllStable rest

def Dialogue.Stable : Dialogue → Prop
  | .mk _ box name parts => FitsTag box ∧ (∀ n, name = some n → FitsBrackets n) ∧
    DialoguePart.AllStable name.isNone false parts

def DialoguePart.AllStable (nameless text : Bool) : List DialoguePart → Prop
  | [] => True
  | .markup pieces _ :: rest => text = false ∧ Steady (Markup.renderAll pieces).toList ∧
    (nameless = true → startsName (Markup.renderAll pieces).toList = false) ∧
    Markup.read (Markup.renderAll pieces).toList = (pieces, []) ∧
    DialoguePart.AllStable false true rest
  | .code b :: rest => b.Stable ∧ DialoguePart.AllStable false false rest

end

def Member.Stable : Member → Prop
  | chapter _ name body | scene _ name body => IsIdentifier name ∧ body.Stable same
  | function _ name parameters body =>
    IsIdentifier name ∧ (∀ p ∈ parameters, IsIdentifier p.name) ∧ body.Stable same
  | dialogue d => d.Stable same

structure Script.Stable (s : Script) : Prop where
  includes : ∀ i ∈ s.includes, FitsDirective i.path
  members : ∀ m ∈ s.members, m.Stable same

end Stable

section Agrees

variable (same : Float → Float → Prop)

mutual

inductive Statement.Agrees : Statement → Statement → Prop
  | block {n n' : Node} {a b : Block} :
    Block.Agrees a b → Statement.Agrees (.block n a) (.block n' b)
  | ifThen {n n' : Node} {c c' : Expression} {s s' : Statement} :
    c.Alike same c' → Statement.Agrees s s' →
      Statement.Agrees (.ifThen n c s) (.ifThen n' c' s')
  | ifElse {n n' : Node} {c c' : Expression} {s s' t t' : Statement} :
    c.Alike same c' → Statement.Agrees s s' → Statement.Agrees t t' →
      Statement.Agrees (.ifElse n c s t) (.ifElse n' c' s' t')
  | loop {n n' : Node} {c c' : Expression} {s s' : Statement} :
    c.Alike same c' → Statement.Agrees s s' →
      Statement.Agrees (.loop n c s) (.loop n' c' s')
  | select {n n' : Node} {as bs : List Choice} :
    List.Forall₂ Choice.Agrees as bs → Statement.Agrees (.select n as) (.select n' bs)
  | callChapter {n n' : Node} (target : String) :
    Statement.Agrees (.callChapter n target) (.callChapter n' target)
  | callScene {n n' : Node} (target : String) :
    Statement.Agrees (.callScene n target) (.callScene n' target)
  | ret {n n' : Node} {a b : Option Expression} :
    Option.Rel (Expression.Alike same) a b → Statement.Agrees (.ret n a) (.ret n' b)
  | exit {n n' : Node} : Statement.Agrees (.exit n) (.exit n')
  | expression {n n' : Node} {a b : Expression} :
    a.Alike same b → Statement.Agrees (.expression n a) (.expression n' b)
  | dialogue {n n' : Node} {a b : Dialogue} :
    Dialogue.Agrees a b → Statement.Agrees (.dialogue n a) (.dialogue n' b)
  | empty {n n' : Node} : Statement.Agrees (.empty n) (.empty n')

inductive Block.Agrees : Block → Block → Prop
  | mk {n n' : Node} {as bs : List Statement} :
    List.Forall₂ Statement.Agrees as bs → Block.Agrees (.mk n as) (.mk n' bs)

inductive Choice.Agrees : Choice → Choice → Prop
  | mk {n n' : Node} {a b : Statement} (label : String) :
    Statement.Agrees a b → Choice.Agrees (.mk n label a) (.mk n' label b)

inductive Dialogue.Agrees : Dialogue → Dialogue → Prop
  | mk {n n' : Node} {as bs : List DialoguePart} (box : String) (name : Option String) :
    List.Forall₂ DialoguePart.Agrees as bs →
      Dialogue.Agrees (.mk n box name as) (.mk n' box name bs)

inductive DialoguePart.Agrees : DialoguePart → DialoguePart → Prop
  | markup {span span' : Span} (pieces : List Markup) :
    DialoguePart.Agrees (.markup pieces span) (.markup pieces span')
  | code {a b : Block} : Block.Agrees a b → DialoguePart.Agrees (.code a) (.code b)

end

inductive Member.Agrees : Member → Member → Prop
  | chapter {n n' : Node} {a b : Block} (name : String) :
    a.Agrees same b → Agrees (.chapter n name a) (.chapter n' name b)
  | scene {n n' : Node} {a b : Block} (name : String) :
    a.Agrees same b → Agrees (.scene n name a) (.scene n' name b)
  | function {n n' : Node} {ps qs : List FormalParameter} {a b : Block} (name : String) :
    ps.map (·.name) = qs.map (·.name) → a.Agrees same b →
      Agrees (.function n name ps a) (.function n' name qs b)
  | dialogue {a b : Dialogue} : a.Agrees same b → Agrees (.dialogue a) (.dialogue b)

/-- Two files are the same up to the numbers of their nodes and all places in their texts. -/
structure Script.Agrees (a b : Script) : Prop where
  path : a.path = b.path
  includes : a.includes.map (·.path) = b.includes.map (·.path)
  members : List.Forall₂ (Member.Agrees same) a.members b.members

end Agrees

end Stagecraft
