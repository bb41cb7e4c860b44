import Stagecraft.Proofs.Script.Stable

namespace Stagecraft

abbrev Shape.mark (kind : TokenKind) : Shape :=
  (kind, .none)

abbrev Shape.name (s : String) : Shape :=
  (.identifier, .text s)

def Shape.quoted (s : String) : Shape :=
  (if Lexeme.isSigiled s.toList then .identifier else .stringLiteral, .text s)

def Shape.label (s : String) : Shape :=
  if Script.isBare s || Lexeme.isSigiled s.toList then name s else quoted s

open Shape

def BinaryOperator.token : BinaryOperator → TokenKind
  | or => .orOr
  | and => .andAnd
  | equal => .equalEqual
  | notEqual => .bangEqual
  | less => .less
  | lessEqual => .lessEqual
  | greater => .greater
  | greaterEqual => .greaterEqual
  | add => .plus
  | subtract => .minus
  | multiply => .star
  | divide => .slash
  | remainder => .percent

def UnaryOperator.token : UnaryOperator → TokenKind
  | negate => .minus
  | plus => .plus
  | not => .bang

def AssignOperator.token : AssignOperator → TokenKind
  | set => .assign
  | add => .plusAssign
  | subtract => .minusAssign
  | multiply => .starAssign
  | divide => .slashAssign

def StepOperator.token : StepOperator → TokenKind
  | increment => .plusPlus
  | decrement => .minusMinus

def Literal.shape : Literal → Shape
  | null => mark .nullWord
  | flag b => mark (if b then .trueWord else .falseWord)
  | number x => (Scanner.shapes (Number.display x)).headD (mark .endOfFile)
  | delta x => (Scanner.shapes ("@" ++ Number.display x)).headD (mark .endOfFile)
  | text s => (.stringLiteral, .text s)

lemma Literal.shape_number {x y : Float}
    (h : ReadsAs (Number.display x) (.numericLiteral, .number y)) :
    (number x).shape = (.numericLiteral, .number y) := by
  rw [shape, show Scanner.shapes (Number.display x) = _ from h]
  rfl

lemma Literal.shape_delta {x y : Float}
    (h : ReadsAs ("@" ++ Number.display x) (.numericLiteral, .delta y)) :
    (delta x).shape = (.numericLiteral, .delta y) := by
  rw [shape, show Scanner.shapes ("@" ++ Number.display x) = _ from h]
  rfl

namespace Expression

def enclose (needed : Bool) (ss : List Shape) : List Shape :=
  if needed then mark .openParen :: (ss ++ [mark .closeParen]) else ss

mutual

def shapes : Expression → List Shape
  | literal _ value => [value.shape]
  | name _ n => [Shape.name n]
  | unary _ op e => mark op.token :: enclose (e.precedence < 9) e.shapes
  | binary _ op a b =>
    enclose (a.precedence < op.precedence) a.shapes ++
      mark op.token :: enclose (b.precedence < op.precedence + 1) b.shapes
  | assign _ target op e => Shape.name target.name :: mark op.token :: e.shapes
  | step _ target op => [Shape.name target.name, mark op.token]
  | call _ callee arguments =>
    Shape.name callee :: mark .openParen :: (argumentShapes arguments ++ [mark .closeParen])

def argumentShapes : List Expression → List Shape
  | [] => []
  | [e] => e.shapes
  | e :: rest => e.shapes ++ mark .comma :: argumentShapes rest

end

lemma precedence_operator (op : BinaryOperator) : 2 ≤ op.precedence ∧ op.precedence ≤ 7 := by
  cases op <;> decide

lemma primary_of_precedence {e : Expression} (h : 9 ≤ e.precedence) :
    (∃ node value, e = .literal node value) ∨ (∃ node n, e = .name node n) ∨
      ∃ node callee arguments, e = .call node callee arguments := by
  cases e with
  | literal node value => exact .inl ⟨node, value, rfl⟩
  | name node n => exact .inr (.inl ⟨node, n, rfl⟩)
  | call node callee arguments => exact .inr (.inr ⟨node, callee, arguments, rfl⟩)
  | binary _ op a b =>
    have hop : 9 ≤ op.precedence := h
    have := (precedence_operator op).2
    omega
  | _ => simp [precedence, unaryPrecedence] at h

lemma unary_of_precedence {e : Expression} (h : e.precedence = 8) :
    ∃ node op a, e = .unary node op a := by
  cases e with
  | unary node op a => exact ⟨node, op, a, rfl⟩
  | binary _ op a b =>
    have hop : op.precedence = 8 := h
    have := (precedence_operator op).2
    omega
  | _ => simp [precedence] at h

lemma binary_of_precedence {e : Expression} (h : 2 ≤ e.precedence ∧ e.precedence ≤ 7) :
    ∃ node op a b, e = .binary node op a b := by
  cases e with
  | binary node op a b => exact ⟨node, op, a, b, rfl⟩
  | _ => simp [precedence, unaryPrecedence] at h

lemma assignment_of_precedence {e : Expression} (h : e.precedence < 2) :
    (∃ node target op value, e = .assign node target op value) ∨
      ∃ node target op, e = .step node target op := by
  cases e with
  | assign node target op value => exact .inl ⟨node, target, op, value, rfl⟩
  | step node target op => exact .inr ⟨node, target, op, rfl⟩
  | binary _ op a b =>
    have hop : op.precedence < 2 := h
    have := (precedence_operator op).1
    omega
  | _ => simp [precedence, unaryPrecedence] at h

def operand (level : Nat) (e : Expression) : List Shape :=
  enclose (e.precedence < level) e.shapes

end Expression

def Scanner.textShapes (text : String) : List Shape :=
  ((shapes ("<PRE>\n" ++ text ++ "\n</PRE>")).drop 2).dropLast.dropLast

def boxTag (box : String) : String :=
  if box.isEmpty then "PRE" else "PRE " ++ box

def nameShapes : Option String → List Shape
  | some name => [(.dialogueIdentifier, .text name), mark .markupLineBreak]
  | none => []

mutual

def Statement.shapes : Statement → List Shape
  | .block _ b => b.shapes
  | .ifThen _ c s =>
    mark .ifWord :: mark .openParen :: (c.shapes ++ mark .closeParen :: s.shapes)
  | .ifElse _ c s t =>
    mark .ifWord :: mark .openParen ::
      (c.shapes ++ mark .closeParen :: (s.shapes ++ mark .elseWord :: t.shapes))
  | .loop _ c s =>
    mark .whileWord :: mark .openParen :: (c.shapes ++ mark .closeParen :: s.shapes)
  | .select _ cases =>
    mark .select :: mark .openBrace :: (Choice.allShapes cases ++ [mark .closeBrace])
  | .callChapter _ target => [mark .callChapter, quoted target, mark .semicolon]
  | .callScene _ target => [mark .callScene, quoted target, mark .semicolon]
  | .ret _ (some e) => mark .returnWord :: (e.shapes ++ [mark .semicolon])
  | .ret _ none => [mark .returnWord, mark .semicolon]
  | .exit _ => [mark .breakWord, mark .semicolon]
  | .expression _ e => e.shapes ++ [mark .semicolon]
  | .dialogue _ d => d.shapes
  | .empty _ => [mark .semicolon]

def Statement.allShapes : List Statement → List Shape
  | [] => []
  | s :: rest => s.shapes ++ Statement.allShapes rest

def Block.shapes : Block → List Shape
  | .mk _ ss => mark .openBrace :: (Statement.allShapes ss ++ [mark .closeBrace])

def Choice.shapes : Choice → List Shape
  | .mk _ label body =>
    mark .caseWord :: Shape.label label :: mark .colon :: body.shapes

def Choice.allShapes : List Choice → List Shape
  | [] => []
  | c :: rest => c.shapes ++ Choice.allShapes rest

def Dialogue.shapes : Dialogue → List Shape
  | .mk _ box name parts =>
    (.startTag, .text (boxTag box)) :: mark .markupLineBreak :: (nameShapes name ++
      (DialoguePart.allShapes parts ++ [(.endTag, .text "PRE")]))

def DialoguePart.shapes : DialoguePart → List Shape
  | .markup pieces _ => Scanner.textShapes (Markup.renderAll pieces)
  | .code b => b.shapes ++ [mark .markupLineBreak]

def DialoguePart.allShapes : List DialoguePart → List Shape
  | [] => []
  | p :: rest => p.shapes ++ DialoguePart.allShapes rest

end

namespace Member

def parameterShapes : List String → List Shape
  | [] => []
  | [n] => [Shape.name n]
  | n :: rest => Shape.name n :: mark .comma :: parameterShapes rest

def shapes : Member → List Shape
  | chapter _ name body => mark .chapter :: Shape.name name :: body.shapes
  | scene _ name body => mark .scene :: Shape.name name :: body.shapes
  | function n name parameters body =>
    mark .function :: Shape.name name :: mark .openParen ::
      (parameterShapes ((function n name parameters body).parameterNames) ++
        mark .closeParen :: body.shapes)
  | dialogue d => d.shapes

def allShapes : List Member → List Shape
  | [] => []
  | m :: rest => m.shapes ++ allShapes rest

end Member

def Script.shapes (s : Script) : List Shape :=
  s.includes.map (fun i => (.includeDirective, .text i.path)) ++ Member.allShapes s.members

end Stagecraft
