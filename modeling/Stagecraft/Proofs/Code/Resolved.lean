import Stagecraft.Proofs.Code.Mentions

namespace Stagecraft

def Mention.Of (P : Nat → Prop) : Mention → Prop
  | .read node _ | .call node _ => P node.id
  | .write target => P target.node.id
  | .literal _ | .label _ | .speech _ => True

section Names

variable {P : Nat → Prop}

mutual

theorem Expression.names_of_mentions (e : Expression) (h : ∀ m ∈ e.mentions, m.Of P) :
    Names P (e.uses #[]) := by
  cases e with
  | literal node value => exact names_empty
  | name node text => simpa [Expression.uses, Expression.mentions, Mention.Of, Names] using h
  | unary node op operand => exact Expression.names_of_mentions operand h
  | binary node op left right =>
    rw [Expression.mentions, List.forall_mem_append] at h
    rw [Expression.uses, names_expression]
    exact ⟨Expression.names_of_mentions left h.1, Expression.names_of_mentions right h.2⟩
  | assign node target op value =>
    have hboth : P target.node.id ∧ ∀ m ∈ value.mentions, m.Of P := by
      rw [Expression.mentions] at h
      split at h
      · rw [List.forall_mem_append, List.forall_mem_append] at h
        exact ⟨by simpa [Mention.Of] using h.1.1, h.1.2⟩
      · rw [List.forall_mem_append] at h
        exact ⟨by simpa [Mention.Of] using h.2, h.1⟩
    rw [Expression.uses, names_expression, names_push]
    exact ⟨⟨names_empty, hboth.1⟩, Expression.names_of_mentions value hboth.2⟩
  | step node target op => simpa [Expression.uses, Expression.mentions, Mention.Of, Names] using h
  | call node callee arguments =>
    rw [Expression.mentions, List.forall_mem_append] at h
    rw [Expression.uses, names_push]
    exact ⟨Expression.names_of_mentionsAll arguments h.1, by simpa [Mention.Of] using h.2⟩

theorem Expression.names_of_mentionsAll (es : List Expression)
    (h : ∀ m ∈ Expression.mentionsAll es, m.Of P) : Names P (Expression.usesAll #[] es) := by
  cases es with
  | nil => exact names_empty
  | cons e rest =>
    rw [Expression.mentionsAll, List.forall_mem_append] at h
    rw [Expression.usesAll, names_expressions]
    exact ⟨Expression.names_of_mentions e h.1, Expression.names_of_mentionsAll rest h.2⟩

end

mutual

theorem Statement.names_of_mentions (s : Statement) (h : ∀ m ∈ s.mentions, m.Of P) :
    Names P (s.uses #[]) := by
  cases s with
  | block node body => exact Block.names_of_mentions body h
  | ifThen node condition yes =>
    rw [Statement.mentions, List.forall_mem_append] at h
    rw [Statement.uses, names_statement]
    exact ⟨condition.names_of_mentions h.1, Statement.names_of_mentions yes h.2⟩
  | ifElse node condition yes no =>
    rw [Statement.mentions, List.forall_mem_append, List.forall_mem_append] at h
    rw [Statement.uses, names_statement, names_statement]
    exact ⟨⟨condition.names_of_mentions h.1.1, Statement.names_of_mentions yes h.1.2⟩,
      Statement.names_of_mentions no h.2⟩
  | loop node condition body =>
    rw [Statement.mentions, List.forall_mem_append] at h
    rw [Statement.uses, names_statement]
    exact ⟨condition.names_of_mentions h.1, Statement.names_of_mentions body h.2⟩
  | select node cases => exact Choice.names_of_mentionsAll cases h
  | callChapter node target | callScene node target =>
    simpa [Statement.uses, Statement.mentions, Mention.Of, Names] using h
  | ret node value =>
    cases value with
    | none => exact names_empty
    | some value => exact value.names_of_mentions h
  | exit node | empty node => exact names_empty
  | expression node value => exact value.names_of_mentions h
  | dialogue node value => exact Dialogue.names_of_mentions value h

theorem Statement.names_of_mentionsAll (body : List Statement)
    (h : ∀ m ∈ Statement.mentionsAll body, m.Of P) : Names P (Statement.usesAll #[] body) := by
  cases body with
  | nil => exact names_empty
  | cons s rest =>
    rw [Statement.mentionsAll, List.forall_mem_append] at h
    rw [Statement.usesAll, names_statements]
    exact ⟨Statement.names_of_mentions s h.1, Statement.names_of_mentionsAll rest h.2⟩

theorem Block.names_of_mentions (body : Block) (h : ∀ m ∈ body.mentions, m.Of P) :
    Names P (body.uses #[]) := by
  cases body with
  | mk node body => exact Statement.names_of_mentionsAll body h

theorem Choice.names_of_mentions (case : Choice) (h : ∀ m ∈ case.mentions, m.Of P) :
    Names P (case.uses #[]) := by
  cases case with
  | mk node label body =>
    rw [Choice.mentions, List.forall_mem_append] at h
    exact Statement.names_of_mentions body h.2

theorem Choice.names_of_mentionsAll (cases : List Choice)
    (h : ∀ m ∈ Choice.mentionsAll cases, m.Of P) : Names P (Choice.usesAll #[] cases) := by
  cases cases with
  | nil => exact names_empty
  | cons case rest =>
    rw [Choice.mentionsAll, List.forall_mem_append] at h
    rw [Choice.usesAll, names_choices]
    exact ⟨Choice.names_of_mentions case h.1, Choice.names_of_mentionsAll rest h.2⟩

theorem Dialogue.names_of_mentions (value : Dialogue) (h : ∀ m ∈ value.mentions, m.Of P) :
    Names P (value.uses #[]) := by
  cases value with
  | mk node box name parts => exact DialoguePart.names_of_mentionsAll parts h

theorem DialoguePart.names_of_mentions (part : DialoguePart) (h : ∀ m ∈ part.mentions, m.Of P) :
    Names P (part.uses #[]) := by
  cases part with
  | markup pieces span => exact names_empty
  | code body => exact Block.names_of_mentions body h

theorem DialoguePart.names_of_mentionsAll (parts : List DialoguePart)
    (h : ∀ m ∈ DialoguePart.mentionsAll parts, m.Of P) :
    Names P (DialoguePart.usesAll #[] parts) := by
  cases parts with
  | nil => exact names_empty
  | cons part rest =>
    rw [DialoguePart.mentionsAll, List.forall_mem_append] at h
    rw [DialoguePart.usesAll, names_dialogueParts]
    exact ⟨DialoguePart.names_of_mentions part h.1, DialoguePart.names_of_mentionsAll rest h.2⟩

end

lemma Member.names_of_mentions (member : Member) (h : ∀ m ∈ member.mentions, m.Of P) :
    Names P member.uses := by
  cases member with
  | chapter node name body | scene node name body | function node name parameters body =>
    exact body.names_of_mentions h
  | dialogue value => exact value.names_of_mentions h

end Names

namespace Emit

variable {c : Context} {b : Builder} {P : Nat → Prop} {m : Mention} {i : Instruction}

def Resolved (c : Context) (id : Nat) : Prop :=
  ∃ symbol, c.bindings.references[id]? = some symbol

lemma Loads.resolved {node : Node} {name : String} (h : Loads c b node name i) :
    Resolved c node.id := by
  unfold Loads at h
  rw [Resolved, ← Option.isSome_iff_exists]
  cases hr : c.bindings.references[node.id]? with
  | none => simp [hr] at h
  | some symbol => rfl

lemma Stores.resolved {target : Target} (h : Stores c b target i) :
    Resolved c target.node.id := by
  unfold Stores at h
  rw [Resolved, ← Option.isSome_iff_exists]
  cases hr : c.bindings.references[target.node.id]? with
  | none => simp [hr] at h
  | some symbol => rfl

lemma Means.resolved (h : Means c b P m i) : m.Of (Resolved c) := by
  cases m with
  | literal s | label s | speech s => trivial
  | read node name => exact h.2.resolved
  | write target => exact h.2.resolved
  | call node count =>
    obtain ⟨id, signature, hr, -⟩ | ⟨symbol, routine, hr, -⟩ := h
    · exact ⟨_, hr⟩
    · exact ⟨_, hr⟩

lemma Loads.ne_trap {node : Node} {name : String} (h : Loads c b node name i) (token : UInt16) :
    i ≠ .trap token := by
  unfold Loads at h
  split at h
  · simp [h]
  · obtain ⟨token, -, rfl⟩ := h
    simp
  · simp [h]
  · simp [h]
  · cases h

lemma Stores.ne_trap {target : Target} (h : Stores c b target i) (token : UInt16) :
    i ≠ .trap token := by
  unfold Stores at h
  split at h
  · simp [h]
  · obtain ⟨token, -, rfl⟩ := h
    simp
  · cases h

lemma Means.ne_trap (h : Means c b P m i) (token : UInt16) : i ≠ .trap token := by
  cases m with
  | literal s | label s | speech s =>
    obtain ⟨token, -, rfl⟩ := h
    simp
  | read node name => exact h.2.ne_trap token
  | write target => exact h.2.ne_trap token
  | call node count =>
    obtain ⟨id, signature, -, -, -, -, rfl⟩ | ⟨symbol, routine, -, -, h⟩ := h
    · simp
    · obtain ⟨-, ⟨-, rfl⟩ | ⟨k, -, -, rfl⟩⟩ := h <;> simp

theorem MemberCode.resolved {member : Member} {code : Code} (h : MemberCode c b member code) :
    Names (Resolved c) member.uses := by
  have hmatch := h.mentions (P := fun _ => True) fun _ _ => trivial
  have hboth := hmatch.imp fun m i hm => And.intro (Means.resolved hm) hm
  exact member.names_of_mentions ((List.forall₂_and_left _ _).mp hboth).1

theorem MemberCode.ne_trap {member : Member} {code : Code} (h : MemberCode c b member code)
    (token : UInt16) : .trap token ∉ code.toList.map Step.instruction := by
  intro hin
  have hmatch := h.mentions (P := fun _ => True) fun _ _ => trivial
  have hboth : List.Forall₂ (fun i m => i ≠ .trap token ∧ Means c b (fun _ => True) m i)
      code.mentions member.mentions :=
    .flip (hmatch.imp fun m i hm => ⟨Means.ne_trap hm token, hm⟩)
  have hmention : .trap token ∈ code.mentions := List.mem_filter.mpr ⟨hin, rfl⟩
  exact ((List.forall₂_and_left _ _).mp hboth).1 _ hmention rfl

end Emit

end Stagecraft
