import Stagecraft.Proofs.Script.Marked

namespace Stagecraft

open Markup

def Literal.Writable : Literal → Prop
  | number x => ReadsAs (Number.display x) (.numericLiteral, .number x)
  | delta x => ReadsAs ("@" ++ Number.display x) (.numericLiteral, .delta x)
  | null | flag _ | text _ => True

def IsUndirected (name : String) : Prop :=
  name.toList ≠ Lexeme.includeWord

mutual

def Expression.Writable : Expression → Prop
  | .literal _ value => value.Writable
  | .name _ n => IsUndirected n
  | .unary _ _ e => e.Writable
  | .binary _ _ a b => a.Writable ∧ b.Writable
  | .assign _ target _ e => IsUndirected target.name ∧ e.Writable
  | .step _ target _ => IsUndirected target.name
  | .call _ callee arguments => IsUndirected callee ∧ Expression.AllWritable arguments

def Expression.AllWritable : List Expression → Prop
  | [] => True
  | e :: rest => e.Writable ∧ Expression.AllWritable rest

end

/-- Markup that can be written as lines of dialogue text: the text neither starts nor ends with a
blank, no carriage return stands behind a bracket, and no tag in it ends the dialogue. -/
structure Markup.Writable (ms : List Markup) : Prop where
  trimmed : Text.IsTrimmed (renderAll ms).toList
  returns : (renderAll ms).toList.IsChain fun c d => c = '>' ∨ c = ']' → d ≠ '\r'
  goesOn : holdsEnd (renderAll ms).toList = false
  plain : AllPlain ms

mutual

def Statement.Writable : Statement → Prop
  | .block _ b => b.Writable
  | .ifThen _ c s => c.Writable ∧ s.Writable
  | .ifElse _ c s t => c.Writable ∧ s.Writable ∧ t.Writable
  | .loop _ c s => c.Writable ∧ s.Writable
  | .select _ cases => Choice.AllWritable cases
  | .ret _ (some e) => e.Writable
  | .expression _ e => e.Writable
  | .callChapter _ _ | .callScene _ _ | .ret _ none | .exit _ | .empty _ => True
  | .dialogue _ d => d.Writable

def Statement.AllWritable : List Statement → Prop
  | [] => True
  | s :: rest => s.Writable ∧ Statement.AllWritable rest

def Block.Writable : Block → Prop
  | .mk _ ss => Statement.AllWritable ss

/-- The label of a case can stand without quotes only if it is no reserved word. -/
def Choice.Writable : Choice → Prop
  | .mk _ label body => TokenKind.keyword? label = none ∧ IsUndirected label ∧ body.Writable

def Choice.AllWritable : List Choice → Prop
  | [] => True
  | c :: rest => c.Writable ∧ Choice.AllWritable rest

def Dialogue.Writable : Dialogue → Prop
  | .mk _ _ name parts => DialoguePart.AllWritable name.isNone parts

/-- The first text of a dialogue without a name does not start with a name in brackets. -/
def DialoguePart.AllWritable (nameless : Bool) : List DialoguePart → Prop
  | [] => True
  | .markup pieces _ :: rest => Markup.Writable pieces ∧
    (nameless = true → startsName (renderAll pieces).toList = false) ∧
    DialoguePart.AllWritable false rest
  | .code b :: rest => b.Writable ∧ DialoguePart.AllWritable false rest

end

def Member.Writable : Member → Prop
  | chapter _ name body | scene _ name body => IsIdentifier name ∧ body.Writable
  | function _ name parameters body =>
    IsIdentifier name ∧ (∀ p ∈ parameters, IsUndirected p.name) ∧ body.Writable
  | dialogue d => d.Writable

/-- The path of an include directive has none of the characters that are escaped. -/
def Include.Writable (i : Include) : Prop :=
  ∀ c ∈ i.path.toList, c ≠ '\\' ∧ c ≠ '\t'

structure Script.Writable (s : Script) : Prop where
  includes : ∀ i ∈ s.includes, i.Writable
  members : ∀ m ∈ s.members, m.Writable

end Stagecraft
