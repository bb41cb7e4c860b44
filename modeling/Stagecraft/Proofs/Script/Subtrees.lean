import Mathlib
import Stagecraft.Project.Bindings

namespace Stagecraft

inductive Subtree where
  | member (m : Member)
  | parameter (p : FormalParameter)
  | block (body : Block)
  | statement (s : Statement)
  | choice (case : Choice)
  | expression (e : Expression)
  | target (t : Target)
  | dialogue (value : Dialogue)

def Subtree.node : Subtree → Node
  | member m => m.node
  | parameter p => p.node
  | block body => body.node
  | statement s => s.node
  | choice case => case.node
  | expression e => e.node
  | target t => t.node
  | dialogue value => value.node

mutual

def Expression.subtrees : Expression → List Subtree
  | .literal node value => [.expression (.literal node value)]
  | .name node text => [.expression (.name node text)]
  | .unary node op operand => operand.subtrees ++ [.expression (.unary node op operand)]
  | .binary node op left right =>
    left.subtrees ++ right.subtrees ++ [.expression (.binary node op left right)]
  | .assign node target op value =>
    .target target :: value.subtrees ++ [.expression (.assign node target op value)]
  | .step node target op => [.target target, .expression (.step node target op)]
  | .call node callee arguments =>
    Expression.subtreesAll arguments ++ [.expression (.call node callee arguments)]

def Expression.subtreesAll : List Expression → List Subtree
  | [] => []
  | e :: rest => e.subtrees ++ Expression.subtreesAll rest

end

mutual

def Statement.subtrees : Statement → List Subtree
  | .block node body => body.subtrees ++ [.statement (.block node body)]
  | .ifThen node condition yes =>
    condition.subtrees ++ yes.subtrees ++ [.statement (.ifThen node condition yes)]
  | .ifElse node condition yes no =>
    condition.subtrees ++ yes.subtrees ++ no.subtrees ++
      [.statement (.ifElse node condition yes no)]
  | .loop node condition body =>
    condition.subtrees ++ body.subtrees ++ [.statement (.loop node condition body)]
  | .select node cases => Choice.subtreesAll cases ++ [.statement (.select node cases)]
  | .callChapter node target => [.statement (.callChapter node target)]
  | .callScene node target => [.statement (.callScene node target)]
  | .ret node none => [.statement (.ret node none)]
  | .ret node (some value) => value.subtrees ++ [.statement (.ret node (some value))]
  | .exit node => [.statement (.exit node)]
  | .expression node value => value.subtrees ++ [.statement (.expression node value)]
  | .dialogue node value => value.subtrees ++ [.statement (.dialogue node value)]
  | .empty node => [.statement (.empty node)]

def Statement.subtreesAll : List Statement → List Subtree
  | [] => []
  | s :: rest => s.subtrees ++ Statement.subtreesAll rest

def Block.subtrees : Block → List Subtree
  | .mk node statements => .block (.mk node statements) :: Statement.subtreesAll statements

def Choice.subtrees : Choice → List Subtree
  | .mk node label body => body.subtrees ++ [.choice (.mk node label body)]

def Choice.subtreesAll : List Choice → List Subtree
  | [] => []
  | c :: rest => c.subtrees ++ Choice.subtreesAll rest

def Dialogue.subtrees : Dialogue → List Subtree
  | .mk node box name parts =>
    .dialogue (.mk node box name parts) :: DialoguePart.subtreesAll parts

def DialoguePart.subtrees : DialoguePart → List Subtree
  | .markup _ _ => []
  | .code body => body.subtrees

def DialoguePart.subtreesAll : List DialoguePart → List Subtree
  | [] => []
  | p :: rest => p.subtrees ++ DialoguePart.subtreesAll rest

end

lemma Expression.subtreesAll_concat (es : List Expression) (e : Expression) :
    Expression.subtreesAll (es ++ [e]) = Expression.subtreesAll es ++ e.subtrees := by
  induction es with
  | nil => simp [Expression.subtreesAll]
  | cons first rest ih => simp [Expression.subtreesAll, ih]

lemma Statement.subtreesAll_concat (body : List Statement) (s : Statement) :
    Statement.subtreesAll (body ++ [s]) = Statement.subtreesAll body ++ s.subtrees := by
  induction body with
  | nil => simp [Statement.subtreesAll]
  | cons first rest ih => simp [Statement.subtreesAll, ih]

lemma Choice.subtreesAll_concat (cases : List Choice) (case : Choice) :
    Choice.subtreesAll (cases ++ [case]) = Choice.subtreesAll cases ++ case.subtrees := by
  induction cases with
  | nil => simp [Choice.subtreesAll]
  | cons first rest ih => simp [Choice.subtreesAll, ih]

lemma DialoguePart.subtreesAll_concat (parts : List DialoguePart) (part : DialoguePart) :
    DialoguePart.subtreesAll (parts ++ [part]) =
      DialoguePart.subtreesAll parts ++ part.subtrees := by
  induction parts with
  | nil => simp [DialoguePart.subtreesAll]
  | cons first rest ih => simp [DialoguePart.subtreesAll, ih]

lemma Dialogue.subtrees_eq (value : Dialogue) :
    value.subtrees = .dialogue value :: DialoguePart.subtreesAll value.parts := by
  cases value
  rfl

def Member.subtrees : Member → List Subtree
  | .chapter node name body => .member (.chapter node name body) :: body.subtrees
  | .scene node name body => .member (.scene node name body) :: body.subtrees
  | .function node name parameters body =>
    .member (.function node name parameters body) :: parameters.map .parameter ++ body.subtrees
  | .dialogue value => value.subtrees

def Script.subtrees (script : Script) : List Subtree :=
  script.members.flatMap Member.subtrees

def Subtree.usesName : Subtree → Bool
  | target _ | expression (.name _ _) | expression (.call _ _ _) | statement (.callChapter _ _)
  | statement (.callScene _ _) => true
  | _ => false

def Subtree.use? : Subtree → Option Use
  | target t => some { node := t.node, name := t.name, role := .write }
  | expression (.name node text) => some { node, name := text, role := .read }
  | expression (.call node callee _) => some { node, name := callee, role := .call }
  | statement (.callChapter node name) => some { node, name, role := .chapter }
  | statement (.callScene node name) => some { node, name, role := .scene }
  | _ => none

def Subtree.dialogue? : Subtree → Option Dialogue
  | dialogue value => some value
  | _ => none

namespace Subtree

lemma node_of_use? {t : Subtree} {use : Use} (h : t.use? = some use) : use.node = t.node := by
  revert h
  unfold use?
  split <;> rintro ⟨⟩ <;> rfl

lemma usesName_eq (t : Subtree) : t.usesName = t.use?.isSome := by
  unfold usesName use?
  split <;> simp_all

lemma nodes_filter (found : List Subtree) :
    (found.filter usesName).map node = (found.filterMap use?).map Use.node := by
  induction found with
  | nil => rfl
  | cons t rest ih =>
    cases huse : t.use? with
    | none => simp [usesName_eq t, huse, ih]
    | some use => simp [usesName_eq t, huse, ih, node_of_use? huse]

lemma uses_sublist (found : List Subtree) :
    ((found.filterMap use?).map (·.node.id)).Sublist (found.map (·.node.id)) := by
  have hnodes : ((found.filterMap use?).map Use.node).Sublist (found.map node) := by
    rw [← nodes_filter]
    exact List.filter_sublist.map node
  simpa [Function.comp_def] using hnodes.map Node.id

lemma dialogues_sublist (found : List Subtree) :
    ((found.filterMap dialogue?).map (·.node.id)).Sublist (found.map (·.node.id)) := by
  induction found with
  | nil => exact .slnil
  | cons t rest ih =>
    cases t with
    | dialogue value => exact ih.cons_cons _
    | _ => exact ih.cons _

end Subtree

section Uses

open Subtree

mutual

theorem Expression.toList_uses (e : Expression) (found : Array Use) :
    (e.uses found).toList = found.toList ++ e.subtrees.filterMap use? := by
  cases e with
  | literal node value => simp [Expression.uses, Expression.subtrees, use?]
  | name node text => simp [Expression.uses, Expression.subtrees, use?]
  | unary node op operand =>
    simp [Expression.uses, Expression.subtrees, use?, Expression.toList_uses operand]
  | binary node op left right =>
    simp [Expression.uses, Expression.subtrees, use?, Expression.toList_uses left,
      Expression.toList_uses right]
  | assign node target op value =>
    simp [Expression.uses, Expression.subtrees, use?, Expression.toList_uses value]
  | step node target op => simp [Expression.uses, Expression.subtrees, use?]
  | call node callee arguments =>
    simp [Expression.uses, Expression.subtrees, use?, Expression.toList_usesAll arguments]

theorem Expression.toList_usesAll (es : List Expression) (found : Array Use) :
    (Expression.usesAll found es).toList =
      found.toList ++ (Expression.subtreesAll es).filterMap use? := by
  cases es with
  | nil => simp [Expression.usesAll, Expression.subtreesAll]
  | cons e rest =>
    simp [Expression.usesAll, Expression.subtreesAll, Expression.toList_uses e,
      Expression.toList_usesAll rest]

end

mutual

theorem Statement.toList_uses (s : Statement) (found : Array Use) :
    (s.uses found).toList = found.toList ++ s.subtrees.filterMap use? := by
  cases s with
  | block node body =>
    simp [Statement.uses, Statement.subtrees, use?, Block.toList_uses body]
  | ifThen node condition yes =>
    simp [Statement.uses, Statement.subtrees, use?, Statement.toList_uses yes,
      Expression.toList_uses]
  | ifElse node condition yes no =>
    simp [Statement.uses, Statement.subtrees, use?, Statement.toList_uses yes,
      Statement.toList_uses no, Expression.toList_uses]
  | loop node condition body =>
    simp [Statement.uses, Statement.subtrees, use?, Statement.toList_uses body,
      Expression.toList_uses]
  | select node cases =>
    simp [Statement.uses, Statement.subtrees, use?, Choice.toList_usesAll cases]
  | ret node value =>
    cases value with
    | none => simp [Statement.uses, Statement.subtrees, use?]
    | some value => simp [Statement.uses, Statement.subtrees, use?, Expression.toList_uses]
  | expression node value =>
    simp [Statement.uses, Statement.subtrees, use?, Expression.toList_uses]
  | dialogue node value =>
    simp [Statement.uses, Statement.subtrees, use?, Dialogue.toList_uses value]
  | callChapter _ _ | callScene _ _ | exit _ | empty _ =>
    simp [Statement.uses, Statement.subtrees, use?]

theorem Statement.toList_usesAll (body : List Statement) (found : Array Use) :
    (Statement.usesAll found body).toList =
      found.toList ++ (Statement.subtreesAll body).filterMap use? := by
  cases body with
  | nil => simp [Statement.usesAll, Statement.subtreesAll]
  | cons s rest =>
    simp [Statement.usesAll, Statement.subtreesAll, Statement.toList_uses s,
      Statement.toList_usesAll rest]

theorem Block.toList_uses (body : Block) (found : Array Use) :
    (body.uses found).toList = found.toList ++ body.subtrees.filterMap use? := by
  cases body with
  | mk node body =>
    simp [Block.uses, Block.subtrees, List.filterMap_cons, use?, Statement.toList_usesAll body]

theorem Choice.toList_uses (case : Choice) (found : Array Use) :
    (case.uses found).toList = found.toList ++ case.subtrees.filterMap use? := by
  cases case with
  | mk node label body => simp [Choice.uses, Choice.subtrees, use?, Statement.toList_uses body]

theorem Choice.toList_usesAll (cases : List Choice) (found : Array Use) :
    (Choice.usesAll found cases).toList =
      found.toList ++ (Choice.subtreesAll cases).filterMap use? := by
  cases cases with
  | nil => simp [Choice.usesAll, Choice.subtreesAll]
  | cons case rest =>
    simp [Choice.usesAll, Choice.subtreesAll, Choice.toList_uses case, Choice.toList_usesAll rest]

theorem Dialogue.toList_uses (value : Dialogue) (found : Array Use) :
    (value.uses found).toList = found.toList ++ value.subtrees.filterMap use? := by
  cases value with
  | mk node box name parts =>
    simp [Dialogue.uses, Dialogue.subtrees, List.filterMap_cons, use?,
      DialoguePart.toList_usesAll parts]

theorem DialoguePart.toList_uses (part : DialoguePart) (found : Array Use) :
    (part.uses found).toList = found.toList ++ part.subtrees.filterMap use? := by
  cases part with
  | markup pieces span => simp [DialoguePart.uses, DialoguePart.subtrees]
  | code body => simp [DialoguePart.uses, DialoguePart.subtrees, Block.toList_uses body]

theorem DialoguePart.toList_usesAll (parts : List DialoguePart) (found : Array Use) :
    (DialoguePart.usesAll found parts).toList =
      found.toList ++ (DialoguePart.subtreesAll parts).filterMap use? := by
  cases parts with
  | nil => simp [DialoguePart.usesAll, DialoguePart.subtreesAll]
  | cons part rest =>
    simp [DialoguePart.usesAll, DialoguePart.subtreesAll, DialoguePart.toList_uses part,
      DialoguePart.toList_usesAll rest]

end

lemma Member.toList_uses (m : Member) : m.uses.toList = m.subtrees.filterMap use? := by
  cases m with
  | chapter node name body | scene node name body =>
    simp [Member.uses, Member.subtrees, List.filterMap_cons, use?, Block.toList_uses]
  | function node name parameters body =>
    have hparameters : (parameters.map Subtree.parameter).filterMap use? = [] := by
      simp [List.filterMap_eq_nil_iff, use?]
    simp [Member.uses, Member.subtrees, List.filterMap_cons, use?, Block.toList_uses, hparameters]
  | dialogue value => simp [Member.uses, Member.subtrees, Dialogue.toList_uses]

end Uses

section Dialogues

open Subtree

mutual

theorem Expression.filterMap_dialogue? (e : Expression) :
    e.subtrees.filterMap dialogue? = [] := by
  cases e with
  | literal _ _ | name _ _ | step _ _ _ => simp [Expression.subtrees, dialogue?]
  | unary node op operand =>
    simp [Expression.subtrees, dialogue?, Expression.filterMap_dialogue? operand]
  | binary node op left right =>
    simp [Expression.subtrees, dialogue?, Expression.filterMap_dialogue? left,
      Expression.filterMap_dialogue? right]
  | assign node target op value =>
    simp [Expression.subtrees, List.filterMap_cons, dialogue?,
      Expression.filterMap_dialogue? value]
  | call node callee arguments =>
    simp [Expression.subtrees, dialogue?, Expression.filterMap_dialogue?_all arguments]

theorem Expression.filterMap_dialogue?_all (es : List Expression) :
    (Expression.subtreesAll es).filterMap dialogue? = [] := by
  cases es with
  | nil => rfl
  | cons e rest =>
    simp [Expression.subtreesAll, Expression.filterMap_dialogue? e,
      Expression.filterMap_dialogue?_all rest]

end

mutual

theorem Statement.toList_dialogues (s : Statement) (found : Array Dialogue) :
    (s.dialogues found).toList = found.toList ++ s.subtrees.filterMap dialogue? := by
  cases s with
  | block node body =>
    simp [Statement.dialogues, Statement.subtrees, dialogue?, Block.toList_dialogues body]
  | ifThen node condition yes =>
    simp [Statement.dialogues, Statement.subtrees, dialogue?, Statement.toList_dialogues yes,
      Expression.filterMap_dialogue?]
  | ifElse node condition yes no =>
    simp [Statement.dialogues, Statement.subtrees, dialogue?, Statement.toList_dialogues yes,
      Statement.toList_dialogues no, Expression.filterMap_dialogue?]
  | loop node condition body =>
    simp [Statement.dialogues, Statement.subtrees, dialogue?, Statement.toList_dialogues body,
      Expression.filterMap_dialogue?]
  | select node cases =>
    simp [Statement.dialogues, Statement.subtrees, dialogue?, Choice.toList_dialoguesAll cases]
  | ret node value =>
    cases value with
    | none => simp [Statement.dialogues, Statement.subtrees, dialogue?]
    | some value =>
      simp [Statement.dialogues, Statement.subtrees, dialogue?, Expression.filterMap_dialogue?]
  | expression node value =>
    simp [Statement.dialogues, Statement.subtrees, dialogue?, Expression.filterMap_dialogue?]
  | dialogue node value =>
    simp [Statement.dialogues, Statement.subtrees, dialogue?, Dialogue.toList_inner value,
      value.subtrees_eq]
  | callChapter _ _ | callScene _ _ | exit _ | empty _ =>
    simp [Statement.dialogues, Statement.subtrees, dialogue?]

theorem Statement.toList_dialoguesAll (body : List Statement) (found : Array Dialogue) :
    (Statement.dialoguesAll found body).toList =
      found.toList ++ (Statement.subtreesAll body).filterMap dialogue? := by
  cases body with
  | nil => simp [Statement.dialoguesAll, Statement.subtreesAll]
  | cons s rest =>
    simp [Statement.dialoguesAll, Statement.subtreesAll, Statement.toList_dialogues s,
      Statement.toList_dialoguesAll rest]

theorem Block.toList_dialogues (body : Block) (found : Array Dialogue) :
    (body.dialogues found).toList = found.toList ++ body.subtrees.filterMap dialogue? := by
  cases body with
  | mk node body =>
    simp [Block.dialogues, Block.subtrees, List.filterMap_cons, dialogue?,
      Statement.toList_dialoguesAll body]

theorem Choice.toList_dialogues (case : Choice) (found : Array Dialogue) :
    (case.dialogues found).toList = found.toList ++ case.subtrees.filterMap dialogue? := by
  cases case with
  | mk node label body =>
    simp [Choice.dialogues, Choice.subtrees, dialogue?, Statement.toList_dialogues body]

theorem Choice.toList_dialoguesAll (cases : List Choice) (found : Array Dialogue) :
    (Choice.dialoguesAll found cases).toList =
      found.toList ++ (Choice.subtreesAll cases).filterMap dialogue? := by
  cases cases with
  | nil => simp [Choice.dialoguesAll, Choice.subtreesAll]
  | cons case rest =>
    simp [Choice.dialoguesAll, Choice.subtreesAll, Choice.toList_dialogues case,
      Choice.toList_dialoguesAll rest]

theorem Dialogue.toList_inner (value : Dialogue) (found : Array Dialogue) :
    (value.inner found).toList =
      found.toList ++ (DialoguePart.subtreesAll value.parts).filterMap dialogue? := by
  cases value with
  | mk node box name parts =>
    rw [Dialogue.inner, DialoguePart.toList_dialoguesAll parts, Dialogue.parts]

theorem DialoguePart.toList_dialogues (part : DialoguePart) (found : Array Dialogue) :
    (part.dialogues found).toList = found.toList ++ part.subtrees.filterMap dialogue? := by
  cases part with
  | markup pieces span => simp [DialoguePart.dialogues, DialoguePart.subtrees]
  | code body =>
    simp [DialoguePart.dialogues, DialoguePart.subtrees, Block.toList_dialogues body]

theorem DialoguePart.toList_dialoguesAll (parts : List DialoguePart) (found : Array Dialogue) :
    (DialoguePart.dialoguesAll found parts).toList =
      found.toList ++ (DialoguePart.subtreesAll parts).filterMap dialogue? := by
  cases parts with
  | nil => simp [DialoguePart.dialoguesAll, DialoguePart.subtreesAll]
  | cons part rest =>
    simp [DialoguePart.dialoguesAll, DialoguePart.subtreesAll, DialoguePart.toList_dialogues part,
      DialoguePart.toList_dialoguesAll rest]

end

end Dialogues

end Stagecraft
