import Stagecraft.Proofs.Script.Subtrees

namespace Stagecraft

lemma Expression.uses_eq (e : Expression) (found : Array Use) :
    e.uses found = found ++ e.uses #[] :=
  Array.ext' (by simp [Expression.toList_uses])

lemma Expression.usesAll_eq (es : List Expression) (found : Array Use) :
    Expression.usesAll found es = found ++ Expression.usesAll #[] es :=
  Array.ext' (by simp [Expression.toList_usesAll])

lemma Statement.uses_eq (s : Statement) (found : Array Use) :
    s.uses found = found ++ s.uses #[] :=
  Array.ext' (by simp [Statement.toList_uses])

lemma Statement.usesAll_eq (body : List Statement) (found : Array Use) :
    Statement.usesAll found body = found ++ Statement.usesAll #[] body :=
  Array.ext' (by simp [Statement.toList_usesAll])

lemma Choice.usesAll_eq (cases : List Choice) (found : Array Use) :
    Choice.usesAll found cases = found ++ Choice.usesAll #[] cases :=
  Array.ext' (by simp [Choice.toList_usesAll])

lemma DialoguePart.usesAll_eq (parts : List DialoguePart) (found : Array Use) :
    DialoguePart.usesAll found parts = found ++ DialoguePart.usesAll #[] parts :=
  Array.ext' (by simp [DialoguePart.toList_usesAll])

lemma Dialogue.inner_eq (value : Dialogue) (found : Array Dialogue) :
    value.inner found = found ++ value.inner #[] :=
  Array.ext' (by simp [Dialogue.toList_inner])

def Member.blocks : Member → List Dialogue
  | .dialogue value => value :: (value.inner #[]).toList
  | member => member.dialogues.toList

lemma Member.toList_dialogues (m : Member) :
    m.dialogues.toList = m.subtrees.tail.filterMap Subtree.dialogue? := by
  cases m with
  | chapter node name body | scene node name body =>
    simp [Member.dialogues, Member.subtrees, Block.toList_dialogues]
  | function node name parameters body =>
    have hparameters : (parameters.map Subtree.parameter).filterMap Subtree.dialogue? = [] := by
      simp [List.filterMap_eq_nil_iff, Subtree.dialogue?]
    simp [Member.dialogues, Member.subtrees, Block.toList_dialogues, hparameters]
  | dialogue value =>
    simp [Member.dialogues, Member.subtrees, value.subtrees_eq, Dialogue.toList_inner]

lemma Member.blocks_eq (m : Member) : m.blocks = m.subtrees.filterMap Subtree.dialogue? := by
  have hdialogues := m.toList_dialogues
  cases m with
  | dialogue value =>
    cases value
    exact congrArg (List.cons _) hdialogues
  | _ => exact hdialogues

def Names (P : Nat → Prop) (uses : Array Use) : Prop :=
  ∀ use ∈ uses, P use.node.id

section Names

variable {P : Nat → Prop} {found more : Array Use}

@[simp] lemma names_empty : Names P #[] := by
  simp [Names]

@[simp] lemma names_push {use : Use} :
    Names P (found.push use) ↔ Names P found ∧ P use.node.id := by
  simp [Names, or_imp, forall_and]

@[simp] lemma names_append : Names P (found ++ more) ↔ Names P found ∧ Names P more := by
  simp [Names, or_imp, forall_and]

lemma names_expression (e : Expression) :
    Names P (e.uses found) ↔ Names P found ∧ Names P (e.uses #[]) := by
  rw [e.uses_eq, names_append]

lemma names_expressions (es : List Expression) :
    Names P (Expression.usesAll found es) ↔
      Names P found ∧ Names P (Expression.usesAll #[] es) := by
  rw [Expression.usesAll_eq, names_append]

lemma names_statement (s : Statement) :
    Names P (s.uses found) ↔ Names P found ∧ Names P (s.uses #[]) := by
  rw [s.uses_eq, names_append]

lemma names_statements (body : List Statement) :
    Names P (Statement.usesAll found body) ↔
      Names P found ∧ Names P (Statement.usesAll #[] body) := by
  rw [Statement.usesAll_eq, names_append]

lemma names_choices (cases : List Choice) :
    Names P (Choice.usesAll found cases) ↔ Names P found ∧ Names P (Choice.usesAll #[] cases) := by
  rw [Choice.usesAll_eq, names_append]

lemma Choice.uses_eq_body (case : Choice) : case.uses found = case.body.uses found := by
  cases case
  rfl

lemma Names.of_case {cases : List Choice} (h : Names P (Choice.usesAll #[] cases)) {case : Choice}
    (hcase : case ∈ cases) : Names P (case.body.uses #[]) := by
  induction cases with
  | nil => cases hcase
  | cons first rest ih =>
    rw [Choice.usesAll, names_choices, Choice.uses_eq_body] at h
    rcases List.mem_cons.mp hcase with rfl | hcase
    · exact h.1
    · exact ih h.2 hcase

lemma names_dialogueParts (parts : List DialoguePart) :
    Names P (DialoguePart.usesAll found parts) ↔
      Names P found ∧ Names P (DialoguePart.usesAll #[] parts) := by
  rw [DialoguePart.usesAll_eq, names_append]

end Names

end Stagecraft
