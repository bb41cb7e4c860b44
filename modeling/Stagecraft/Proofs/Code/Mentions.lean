import Stagecraft.Proofs.Code.Filled
import Stagecraft.Proofs.Script.Names

/-!
Texts, named constants, parameters, routines and functions are known by numbers in the code of a
tree. Each instruction with such a number stands for one place of the tree, and they stand in the
same order.
-/

namespace Stagecraft

inductive Mention where
  | literal (s : String)
  | label (s : String)
  | speech (s : String)
  | read (node : Node) (name : String)
  | write (target : Target)
  | call (node : Node) (count : Nat)

mutual

def Expression.mentions : Expression → List Mention
  | .literal _ (.text s) => [.literal s]
  | .literal _ _ => []
  | .name node text => [.read node text]
  | .unary _ _ operand => operand.mentions
  | .binary _ _ left right => left.mentions ++ right.mentions
  | .assign _ target op value =>
    match op.binary? with
    | some _ => [.read target.node target.name] ++ value.mentions ++ [.write target]
    | none => value.mentions ++ [.write target]
  | .step _ target _ => [.read target.node target.name, .write target]
  | .call node _ arguments => Expression.mentionsAll arguments ++ [.call node arguments.length]

def Expression.mentionsAll : List Expression → List Mention
  | [] => []
  | e :: rest => e.mentions ++ Expression.mentionsAll rest

end

mutual

def Statement.mentions : Statement → List Mention
  | .block _ body => body.mentions
  | .ifThen _ condition thenBranch => condition.mentions ++ thenBranch.mentions
  | .ifElse _ condition thenBranch elseBranch =>
    condition.mentions ++ thenBranch.mentions ++ elseBranch.mentions
  | .loop _ condition body => condition.mentions ++ body.mentions
  | .select _ cases => Choice.mentionsAll cases
  | .callChapter node _ | .callScene node _ => [.call node 0]
  | .ret _ (some value) => value.mentions
  | .ret _ none | .exit _ | .empty _ => []
  | .expression _ value => value.mentions
  | .dialogue _ value => value.mentions

def Statement.mentionsAll : List Statement → List Mention
  | [] => []
  | s :: rest => s.mentions ++ Statement.mentionsAll rest

def Block.mentions : Block → List Mention
  | .mk _ statements => Statement.mentionsAll statements

def Choice.mentions : Choice → List Mention
  | .mk _ label body => [.label label] ++ body.mentions

def Choice.mentionsAll : List Choice → List Mention
  | [] => []
  | c :: rest => c.mentions ++ Choice.mentionsAll rest

def Dialogue.mentions : Dialogue → List Mention
  | .mk _ _ _ parts => DialoguePart.mentionsAll parts

def DialoguePart.mentions : DialoguePart → List Mention
  | .markup pieces _ => [.speech (Markup.renderAll pieces)]
  | .code body => body.mentions

def DialoguePart.mentionsAll : List DialoguePart → List Mention
  | [] => []
  | p :: rest => p.mentions ++ DialoguePart.mentionsAll rest

end

def Member.mentions : Member → List Mention
  | .chapter _ _ body | .scene _ _ body | .function _ _ _ body => body.mentions
  | .dialogue value => value.mentions

def Instruction.isMention : Instruction → Bool
  | .load (.text _) | .load (.enumerator _) | .load (.preset _) | .loadArgument _ | .loadGlobal _
  | .storeArgument _ | .storeGlobal _ | .call _ | .callFar _ _ | .dispatch _ _ | .present _
  | .isPressed _ | .trap _ => true
  | _ => false

namespace Code

def mentions (code : Code) : List Instruction :=
  (code.toList.map Step.instruction).filter Instruction.isMention

@[simp] lemma mentions_append (left right : Code) :
    (left ++ right).mentions = left.mentions ++ right.mentions := by
  simp [mentions]

@[simp] lemma mentions_one (i : Instruction) :
    (one i).mentions = [i].filter Instruction.isMention := by
  simp [mentions, one, Step.instruction]

end Code

namespace Emit

section Relation

variable (c : Context) (b : Builder) (P : Nat → Prop)

/-- The instruction has the number that a mention stands for. Variables are those of nodes with the
property `P`. -/
def Means : Mention → Instruction → Prop
  | .literal s, i => ∃ token, b.HasText token s ∧ i = .load (.text token)
  | .label s, i => ∃ token, b.HasText token s ∧ i = .isPressed token
  | .speech s, i => ∃ token, b.HasText token s ∧ i = .present token
  | .read node name, i => P node.id ∧ Loads c b node name i
  | .write target, i => P target.node.id ∧ Stores c b target i
  | .call node count, i => Calls c b node count i

def MentionsMatch (ms : List Mention) (is : List Instruction) : Prop :=
  List.Forall₂ (Means c b P) ms is

end Relation

variable {c : Context} {b : Builder} {P : Nat → Prop} {ms ms' : List Mention}
  {is is' : List Instruction} {i : Instruction}

lemma MentionsMatch.nil : MentionsMatch c b P [] [] :=
  List.Forall₂.nil

lemma MentionsMatch.append (h : MentionsMatch c b P ms is) (h' : MentionsMatch c b P ms' is') :
    MentionsMatch c b P (ms ++ ms') (is ++ is') :=
  List.rel_append h h'

lemma ExitsClosed.mentions {beyond : Nat} {inner outer : Code}
    (h : ExitsClosed beyond inner outer) : outer.mentions = inner.mentions :=
  h.fills.filter fun _ => rfl

lemma Jumps.mentions {make : Int16 → Instruction} {distance : Int}
    (h : Jumps make distance i) (hm : ∀ offset, (make offset).isMention = false) :
    [i].filter Instruction.isMention = [] := by
  rw [List.filter_singleton, h.2, hm]
  rfl

lemma Loads.isMention {node : Node} {name : String} (h : Loads c b node name i) : i.isMention := by
  unfold Loads at h
  split at h
  · rw [h]
    rfl
  · obtain ⟨token, -, rfl⟩ := h
    rfl
  · rw [h]
    rfl
  · rw [h]
    rfl
  · cases h

lemma Stores.isMention {target : Target} (h : Stores c b target i) : i.isMention := by
  unfold Stores at h
  split at h
  · rw [h]
    rfl
  · obtain ⟨token, -, rfl⟩ := h
    rfl
  · cases h

lemma CallsRoutine.isMention {routine : RoutineSymbol} {count : Nat}
    (h : CallsRoutine c b routine count i) : i.isMention := by
  obtain ⟨-, ⟨-, rfl⟩ | ⟨k, -, -, rfl⟩⟩ := h <;> rfl

lemma Calls.isMention {node : Node} {count : Nat} (h : Calls c b node count i) : i.isMention := by
  obtain ⟨id, signature, -, -, -, -, rfl⟩ | ⟨symbol, routine, -, -, h⟩ := h
  · rfl
  · exact h.isMention

lemma Means.isMention {m : Mention} (h : Means c b P m i) : i.isMention := by
  cases m with
  | literal s | label s | speech s =>
    obtain ⟨token, -, rfl⟩ := h
    rfl
  | read node name => exact h.2.isMention
  | write target => exact h.2.isMention
  | call node count => exact Calls.isMention h

lemma MentionsMatch.one {m : Mention} (h : Means c b P m i) :
    MentionsMatch c b P [m] ([i].filter Instruction.isMention) := by
  rw [List.filter_singleton, h.isMention]
  exact .cons h .nil

lemma Constant.mentions {node : Node} {value : Literal} {v : Immediate} (h : Constant b value v) :
    MentionsMatch c b P (Expression.literal node value).mentions
      ([Instruction.load v].filter Instruction.isMention) := by
  cases value with
  | null | flag _ =>
    cases h
    exact .nil
  | number x | delta x =>
    cases h
    cases integral? x <;> exact .nil
  | text s =>
    obtain ⟨token, ht, rfl⟩ := h
    exact .one (m := .literal s) ⟨token, ht, rfl⟩

lemma Combines.mentions {op : BinaryOperator} {left right code : Code}
    (h : Combines op left right code) : code.mentions = left.mentions ++ right.mentions := by
  cases op with
  | and | or =>
    obtain ⟨first, second, leap, ⟨-, rfl⟩, ⟨-, rfl⟩, ⟨-, rfl⟩, rfl⟩ := h
    simp only [Code.mentions_append]
    change left.mentions ++ [] ++ right.mentions ++ [] = _
    simp
  | _ =>
    cases h
    simp [Instruction.isMention]

mutual

theorem ExpressionCode.mentions (e : Expression) (hn : Names P (e.uses #[])) {code : Code}
    (h : ExpressionCode c b e code) : MentionsMatch c b P e.mentions code.mentions := by
  cases e with
  | literal node value =>
    obtain ⟨i, hi, rfl⟩ := h
    rw [Code.mentions_one]
    exact hi.mentions
  | name node text =>
    obtain ⟨i, hi, rfl⟩ := h
    rw [Expression.uses, names_push] at hn
    rw [Code.mentions_one]
    exact .one (m := .read node text) ⟨hn.2, hi⟩
  | unary node op operand =>
    obtain ⟨inner, hi, rfl⟩ := h
    simpa [Expression.mentions, Instruction.isMention] using ExpressionCode.mentions operand hn hi
  | binary node op left right =>
    obtain ⟨l, r, hl, hr, hcode⟩ := h
    rw [Expression.uses, names_expression] at hn
    rw [hcode.mentions]
    exact (ExpressionCode.mentions left hn.1 hl).append (ExpressionCode.mentions right hn.2 hr)
  | assign node target op value =>
    obtain ⟨keep, new, hkeep, hnew, hcode⟩ := h
    rw [Expression.uses, names_expression, names_push] at hn
    have hnew := ExpressionCode.mentions value hn.2 hnew
    have hwrite : MentionsMatch c b P [.write target] ([keep].filter Instruction.isMention) :=
      .one (m := .write target) ⟨hn.1.2, hkeep⟩
    rw [Expression.mentions]
    cases hop : op.binary? with
    | some arithmetic =>
      simp only [hop] at hcode
      obtain ⟨old, hold, rfl⟩ := hcode
      have hread : MentionsMatch c b P [.read target.node target.name]
          ([old].filter Instruction.isMention) := .one (m := .read _ _) ⟨hn.1.2, hold⟩
      simp only [Code.mentions_append, Code.mentions_one]
      exact (hread.append hnew).append hwrite
    | none =>
      simp only [hop] at hcode
      subst hcode
      rw [Code.mentions_append]
      exact hnew.append hwrite
  | step node target op =>
    obtain ⟨keep, old, hkeep, hold, rfl⟩ := h
    rw [Expression.uses, names_push] at hn
    have hread : MentionsMatch c b P [.read target.node target.name]
        ([old].filter Instruction.isMention) := .one (m := .read _ _) ⟨hn.2, hold⟩
    have hwrite : MentionsMatch c b P [.write target] ([keep].filter Instruction.isMention) :=
      .one (m := .write target) ⟨hn.2, hkeep⟩
    have hcode : Code.mentions #[.run old, .run (.load (.integer 1)), .run (.binary op.binary),
        .run .dup, .run keep] = [old, keep].filter Instruction.isMention := rfl
    rw [hcode, ← List.singleton_append, List.filter_append]
    exact hread.append hwrite
  | call node callee arguments =>
    obtain ⟨inner, i, hinner, hi, rfl⟩ := h
    rw [Expression.uses, names_push] at hn
    rw [Code.mentions_append, Code.mentions_one]
    exact (ExpressionsCode.mentions arguments hn.1 hinner).append (.one (m := .call _ _) hi)

theorem ExpressionsCode.mentions (es : List Expression) (hn : Names P (Expression.usesAll #[] es))
    {code : Code} (h : ExpressionsCode c b es code) :
    MentionsMatch c b P (Expression.mentionsAll es) code.mentions := by
  cases es with
  | nil =>
    cases h
    exact .nil
  | cons e rest =>
    obtain ⟨first, more, hfirst, hmore, rfl⟩ := h
    rw [Expression.usesAll, names_expressions] at hn
    rw [Code.mentions_append]
    exact (ExpressionCode.mentions e hn.1 hfirst).append
      (ExpressionsCode.mentions rest hn.2 hmore)

end

lemma VisitCode.mentions {node : Node} {code : Code} (h : VisitCode c b node code) :
    MentionsMatch c b P [.call node 0] code.mentions := by
  obtain ⟨symbol, routine, i, hs, hr, hi, rfl⟩ := h
  exact .one (m := .call node 0) (.inr ⟨symbol, routine, hs, hr, hi⟩)

mutual

theorem StatementCode.mentions (s : Statement) (hn : Names P (s.uses #[])) {inLoop : Bool}
    {code : Code} (h : StatementCode c b inLoop s code) :
    MentionsMatch c b P s.mentions code.mentions := by
  cases s with
  | block node body => exact BlockCode.mentions body hn h
  | ifThen node condition yes =>
    obtain ⟨test, skip, first, htest, hskip, hfirst, rfl⟩ := h
    rw [Statement.uses, names_statement] at hn
    simp only [Code.mentions_append, Code.mentions_one, hskip.mentions fun _ => rfl,
      List.append_nil]
    exact (ExpressionCode.mentions condition hn.1 htest).append
      (StatementCode.mentions yes hn.2 hfirst)
  | ifElse node condition yes no =>
    obtain ⟨test, skip, first, leap, second, htest, hskip, hfirst, hleap, hsecond, rfl⟩ := h
    rw [Statement.uses, names_statement, names_statement] at hn
    simp only [Code.mentions_append, Code.mentions_one, hskip.mentions fun _ => rfl,
      hleap.mentions fun _ => rfl, List.append_nil]
    exact ((ExpressionCode.mentions condition hn.1.1 htest).append
      (StatementCode.mentions yes hn.1.2 hfirst)).append (StatementCode.mentions no hn.2 hsecond)
  | loop node condition body =>
    obtain ⟨test, skip, inner, closed, back, htest, hskip, hinner, hclosed, hback, rfl⟩ := h
    rw [Statement.uses, names_statement] at hn
    simp only [Code.mentions_append, Code.mentions_one, hskip.mentions fun _ => rfl,
      hback.mentions fun _ => rfl, hclosed.mentions, List.append_nil]
    exact (ExpressionCode.mentions condition hn.1 htest).append
      (StatementCode.mentions body hn.2 hinner)
  | select node cases =>
    obtain ⟨inner, closed, back, hinner, hclosed, hback, rfl⟩ := h
    have htail : Code.mentions #[.run .selectEnd, .run back] =
        [back].filter Instruction.isMention := rfl
    have hhead : (Code.one .selectStart).mentions = [] := rfl
    rw [Code.mentions_append, Code.mentions_append, htail, hback.mentions fun _ => rfl, hhead,
      hclosed.mentions, List.nil_append, List.append_nil]
    exact ChoicesCode.mentions cases hn hinner
  | callChapter node target | callScene node target => exact VisitCode.mentions h
  | ret node value =>
    cases value with
    | none =>
      cases h
      exact .nil
    | some value =>
      obtain ⟨inner, hinner, rfl⟩ := h
      simpa [Statement.mentions, Instruction.isMention] using
        ExpressionCode.mentions value hn hinner
  | exit node =>
    obtain ⟨-, rfl⟩ := h
    exact .nil
  | expression node value =>
    obtain ⟨inner, hinner, rfl⟩ := h
    simpa [Statement.mentions, Instruction.isMention] using ExpressionCode.mentions value hn hinner
  | dialogue node value => exact DialogueCode.mentions value hn h
  | empty node =>
    cases h
    exact .nil

theorem StatementsCode.mentions (body : List Statement)
    (hn : Names P (Statement.usesAll #[] body)) {inLoop : Bool} {code : Code}
    (h : StatementsCode c b inLoop body code) :
    MentionsMatch c b P (Statement.mentionsAll body) code.mentions := by
  cases body with
  | nil =>
    cases h
    exact .nil
  | cons s rest =>
    obtain ⟨first, more, hfirst, hmore, rfl⟩ := h
    rw [Statement.usesAll, names_statements] at hn
    rw [Code.mentions_append]
    exact (StatementCode.mentions s hn.1 hfirst).append (StatementsCode.mentions rest hn.2 hmore)

theorem BlockCode.mentions (body : Block) (hn : Names P (body.uses #[])) {inLoop : Bool}
    {code : Code} (h : BlockCode c b inLoop body code) :
    MentionsMatch c b P body.mentions code.mentions := by
  cases body with
  | mk node body => exact StatementsCode.mentions body hn h

theorem ChoiceCode.mentions (case : Choice) (hn : Names P (case.uses #[])) {code : Code}
    (h : ChoiceCode c b case code) : MentionsMatch c b P case.mentions code.mentions := by
  cases case with
  | mk node label body =>
    obtain ⟨token, skip, inner, ht, hskip, hinner, rfl⟩ := h
    have hhead : Code.mentions #[.run (.isPressed token), .run skip] =
        .isPressed token :: [skip].filter Instruction.isMention := rfl
    have htail : Code.mentions #[.leave] = [] := rfl
    rw [Code.mentions_append, Code.mentions_append, hhead, hskip.mentions fun _ => rfl, htail,
      List.append_nil]
    exact .cons (R := Means c b P) ⟨token, ht, rfl⟩ (StatementCode.mentions body hn hinner)

theorem ChoicesCode.mentions (cases : List Choice) (hn : Names P (Choice.usesAll #[] cases))
    {code : Code} (h : ChoicesCode c b cases code) :
    MentionsMatch c b P (Choice.mentionsAll cases) code.mentions := by
  cases cases with
  | nil =>
    cases h
    exact .nil
  | cons case rest =>
    obtain ⟨first, more, hfirst, hmore, rfl⟩ := h
    rw [Choice.usesAll, names_choices] at hn
    rw [Code.mentions_append]
    exact (ChoiceCode.mentions case hn.1 hfirst).append (ChoicesCode.mentions rest hn.2 hmore)

theorem DialogueCode.mentions (value : Dialogue) (hn : Names P (value.uses #[])) {inLoop : Bool}
    {code : Code} (h : DialogueCode c b inLoop value code) :
    MentionsMatch c b P value.mentions code.mentions := by
  cases value with
  | mk node box name parts =>
    obtain ⟨index, inner, hinner, rfl⟩ := h
    simpa [Dialogue.mentions, Instruction.isMention] using
      DialoguePartsCode.mentions parts hn hinner

theorem DialoguePartCode.mentions (part : DialoguePart) (hn : Names P (part.uses #[]))
    {inLoop : Bool} {code : Code} (h : DialoguePartCode c b inLoop part code) :
    MentionsMatch c b P part.mentions code.mentions := by
  cases part with
  | markup pieces span =>
    obtain ⟨token, ht, rfl⟩ := h
    exact .one (m := .speech _) ⟨token, ht, rfl⟩
  | code body => exact BlockCode.mentions body hn h

theorem DialoguePartsCode.mentions (parts : List DialoguePart)
    (hn : Names P (DialoguePart.usesAll #[] parts)) {inLoop : Bool} {code : Code}
    (h : DialoguePartsCode c b inLoop parts code) :
    MentionsMatch c b P (DialoguePart.mentionsAll parts) code.mentions := by
  cases parts with
  | nil =>
    cases h
    exact .nil
  | cons part rest =>
    obtain ⟨first, more, hfirst, hmore, rfl⟩ := h
    rw [DialoguePart.usesAll, names_dialogueParts] at hn
    rw [Code.mentions_append]
    exact (DialoguePartCode.mentions part hn.1 hfirst).append
      (DialoguePartsCode.mentions rest hn.2 hmore)

end

theorem MemberCode.mentions {member : Member} {code : Code} (hn : Names P member.uses)
    (h : MemberCode c b member code) : MentionsMatch c b P member.mentions code.mentions := by
  obtain ⟨inner, hinner, rfl⟩ := h
  have hreturn : Code.mentions #[.run (.load .null), .run .ret] = [] := rfl
  rw [Code.mentions_append, hreturn, List.append_nil]
  cases member with
  | chapter node name body | scene node name body | function node name parameters body =>
    exact BlockCode.mentions body hn hinner
  | dialogue value => exact DialogueCode.mentions value hn hinner

end Emit

end Stagecraft
