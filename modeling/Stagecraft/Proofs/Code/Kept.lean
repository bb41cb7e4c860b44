import Stagecraft.Proofs.Code.Emitted
import Stagecraft.Proofs.Project.Scopes

namespace Stagecraft.Emit

def Marked (c : Context) (found : Array Dialogue) (d : Draft) : Prop :=
  d.marks.toList.map (fun mark => some (mark.1, mark.2.name)) = found.toList.map c.table.label?

structure Keeps (c : Context) (found found' : Array Dialogue) (x : Emit α) : Prop where
  builder : ∀ d : Draft, d.builder.Leads (x d).2.builder
  isError : ∀ (d d' : Draft) (e : Diagnostic), x d = (.error (.trap e), d') → e.isError
  marked : ∀ (d d' : Draft) (a : α), Marked c found d → x d = (.ok a, d') → Marked c found' d'

variable {c : Context} {found found' found'' : Array Dialogue}

lemma keeps_pure (a : α) : Keeps c found found (pure a) := by
  refine ⟨fun d => .refl d.builder, fun d d' e he => ?_, fun d d' a hm h => ?_⟩
  · cases he
  · cases h
    exact hm

lemma keeps_fail {issue : Issue} {span : Span} (h : issue.severity = .error) :
    Keeps c found found' (fail issue span : Emit α) := by
  refine ⟨fun d => .refl d.builder, fun d d' e he => ?_, fun d d' a hm ha => ?_⟩
  · cases he
    simp [Diagnostic.isError, h]
  · cases ha

lemma Keeps.bind {x : Emit α} {f : α → Emit β} (hx : Keeps c found found' x)
    (hf : ∀ a, Keeps c found' found'' (f a)) : Keeps c found found'' (x >>= f) := by
  refine ⟨fun d => ?_, fun d d' e h => ?_, fun d d' b hm h => ?_⟩
  · have hxd := hx.builder d
    rw [StateExcept.bind_apply]
    rcases h : x d with ⟨r, d'⟩
    rw [h] at hxd
    cases r with
    | ok a => exact hxd.trans ((hf a).builder d')
    | error e => exact hxd
  · rw [StateExcept.bind_apply] at h
    rcases hxd : x d with ⟨r, d₁⟩
    rw [hxd] at h
    cases r with
    | ok a => exact (hf a).isError d₁ d' e h
    | error e' =>
      cases h
      exact hx.isError d _ e hxd
  · obtain ⟨a, d₁, hxd, h⟩ := bind_ok.mp h
    exact (hf a).marked d₁ d' b (hx.marked d d₁ a hm hxd) h

lemma keeps_mark {value : Dialogue} {symbol : DialogueSymbol} {offset : UInt16}
    (h : c.table.dialogueOf? value.node.id = some symbol) :
    Keeps c found (found.push value) (mark symbol.index { name := symbol.name, offset }) := by
  refine ⟨fun d => .refl d.builder, fun d d' e he => ?_, fun d d' a hm ha => ?_⟩
  · cases he
  · cases ha
    obtain ⟨builder, marks⟩ := d
    simp only [Marked] at hm ⊢
    simp [hm, SymbolTable.label?, h, DialogueSymbol.label]

lemma keeps_build {work : Build α} (h : ∀ b : Builder, b.Leads (work b).2) :
    Keeps c found found (build work) := by
  refine ⟨fun d => ?_, fun d d' e he => ?_, fun d d' a hm ha => ?_⟩
  · have hd := h d.builder
    obtain ⟨builder, marks⟩ := d
    unfold build
    simp only
    split
    · next hw =>
      rw [hw] at hd
      exact hd
    · next hw =>
      rw [hw] at hd
      exact hd
  · unfold build at he
    simp only at he
    split at he <;> cases he
  · rw [Marked, (build_ok ha).2]
    exact hm

lemma leads_intern (s : String) (b : Builder) : b.Leads (Builder.intern s b).2 := by
  rcases h : Builder.intern s b with ⟨r, b'⟩
  cases r with
  | ok token => exact (Builder.intern_ok h).1
  | error e =>
    obtain ⟨routines, imports, texts, index⟩ := b
    simp only [Builder.intern, TextHeap.intern] at h
    split at h
    · cases h
    · split at h
      · cases h
      · cases h
        exact .refl _

lemma leads_addImport (name : String) (b : Builder) : b.Leads (Builder.addImport name b).2 := by
  rcases h : Builder.addImport name b with ⟨r, b'⟩
  cases r with
  | ok i => exact (Builder.addImport_ok h).1
  | error e =>
    obtain ⟨routines, imports, heap⟩ := b
    simp only [Builder.addImport] at h
    split at h
    · cases h
    · split at h
      · cases h
      · cases h
        exact .refl _

lemma keeps_intern {s : String} : Keeps c found found (intern s) :=
  keeps_build (leads_intern s)

lemma keeps_jump {make : Int16 → Instruction} {distance : Int} :
    Keeps c found found (jump make distance) := by
  unfold jump
  split
  · exact keeps_pure _
  · exact keeps_fail rfl

lemma keeps_reference {node : Node} {name : String} :
    Keeps c found found (reference c node name) := by
  unfold reference
  split
  · exact keeps_pure _
  · exact keeps_fail rfl

lemma keeps_immediate (l : Literal) : Keeps c found found (immediate l) := by
  cases l with
  | null | flag _ | number _ | delta _ => exact keeps_pure _
  | text s => exact keeps_intern.bind fun _ => keeps_pure _

lemma keeps_load {node : Node} {name : String} : Keeps c found found (load c node name) := by
  refine keeps_reference.bind fun symbol => ?_
  split
  · exact keeps_pure _
  · exact keeps_intern.bind fun _ => keeps_pure _
  · exact keeps_pure _
  · exact keeps_pure _
  · exact keeps_fail rfl

lemma keeps_store {target : Target} : Keeps c found found (store c target) := by
  refine keeps_reference.bind fun symbol => ?_
  split
  · exact keeps_pure _
  · exact keeps_intern.bind fun _ => keeps_pure _
  · exact keeps_fail rfl

lemma keeps_callRoutine {routine : RoutineSymbol} {count : Nat} {span : Span} :
    Keeps c found found (callRoutine c routine count span) := by
  unfold callRoutine
  split
  · exact keeps_fail rfl
  · split
    · exact keeps_pure _
    · exact (keeps_build (leads_addImport _)).bind fun _ => keeps_pure _

lemma keeps_shortCircuit {branch : Int16 → Instruction} {decisive : Bool} {left right : Code} :
    Keeps c found found (shortCircuit branch decisive left right) :=
  keeps_jump.bind fun _ => keeps_jump.bind fun _ => keeps_jump.bind fun _ => keeps_pure _

lemma keeps_combine (op : BinaryOperator) {left right : Code} :
    Keeps c found found (combine op left right) := by
  unfold combine
  split
  · exact keeps_shortCircuit
  · exact keeps_shortCircuit
  · exact keeps_pure _

mutual

theorem keeps_expression (e : Expression) : Keeps c found found (expression c e) := by
  cases e with
  | literal node value => exact (keeps_immediate value).bind fun _ => keeps_pure _
  | name node text => exact keeps_load.bind fun _ => keeps_pure _
  | unary node op operand => exact (keeps_expression operand).bind fun _ => keeps_pure _
  | binary node op left right =>
    exact (keeps_expression left).bind fun _ => (keeps_expression right).bind fun _ =>
      keeps_combine op
  | assign node target op value =>
    refine keeps_store.bind fun keep => ?_
    split
    · exact keeps_load.bind fun _ => (keeps_expression value).bind fun _ => keeps_pure _
    · exact (keeps_expression value).bind fun _ => keeps_pure _
  | step node target op =>
    exact keeps_store.bind fun _ => keeps_load.bind fun _ => keeps_pure _
  | call node callee arguments =>
    refine keeps_reference.bind fun symbol => ?_
    split
    · split
      · exact (keeps_expressions arguments).bind fun _ => keeps_pure _
      · exact keeps_fail rfl
    · split
      · exact keeps_fail rfl
      · exact (keeps_expressions arguments).bind fun _ => keeps_callRoutine.bind fun _ =>
          keeps_pure _

theorem keeps_expressions (es : List Expression) {code : Code} :
    Keeps c found found (expressions c code es) := by
  cases es with
  | nil => exact keeps_pure _
  | cons e rest => exact (keeps_expression e).bind fun _ => keeps_expressions rest

end

lemma keeps_closeExits {beyond : Nat} {code : Code} :
    Keeps c found found (closeExits beyond code) := by
  refine Keeps.bind ?_ fun _ => keeps_pure _
  rw [← Array.foldlM_toList]
  generalize ((0, #[]) : Nat × Code) = start
  induction code.toList generalizing start with
  | nil => exact keeps_pure _
  | cons step rest ih =>
    rw [List.foldlM_cons]
    refine Keeps.bind ?_ ih
    cases step with
    | run i => exact keeps_pure _
    | leave => exact keeps_jump.bind fun _ => keeps_pure _

lemma keeps_visit {node : Node} {target : String} : Keeps c found found (visit c node target) := by
  refine keeps_reference.bind fun symbol => ?_
  split
  · exact keeps_fail rfl
  · exact keeps_callRoutine.bind fun _ => keeps_pure _

mutual

theorem keeps_statement (s : Statement) {found : Array Dialogue} {inLoop : Bool} {start : Nat} :
    Keeps c found (s.dialogues found) (statement c inLoop start s) := by
  cases s with
  | block node body => exact keeps_block body
  | ifThen node condition yes =>
    exact (keeps_expression condition).bind fun _ => (keeps_statement yes).bind fun _ =>
      keeps_jump.bind fun _ => keeps_pure _
  | ifElse node condition yes no =>
    exact (keeps_expression condition).bind fun _ => (keeps_statement yes).bind fun _ =>
      keeps_jump.bind fun _ => (keeps_statement no).bind fun _ => keeps_jump.bind fun _ =>
        keeps_pure _
  | loop node condition body =>
    exact (keeps_expression condition).bind fun _ => (keeps_statement body).bind fun _ =>
      keeps_jump.bind fun _ => keeps_jump.bind fun _ => keeps_closeExits.bind fun _ => keeps_pure _
  | select node cases =>
    exact (keeps_choices cases).bind fun _ => keeps_jump.bind fun _ => keeps_closeExits.bind
      fun _ => keeps_pure _
  | callChapter node target => exact keeps_visit
  | callScene node target => exact keeps_visit
  | ret node value =>
    cases value with
    | none => exact keeps_pure _
    | some value => exact (keeps_expression value).bind fun _ => keeps_pure _
  | exit node =>
    cases inLoop with
    | true => exact keeps_pure _
    | false => exact keeps_fail rfl
  | expression node value => exact (keeps_expression value).bind fun _ => keeps_pure _
  | dialogue node value => exact keeps_dialogue value
  | empty node => exact keeps_pure _

theorem keeps_statements (body : List Statement) {found : Array Dialogue} {inLoop : Bool}
    {next : Nat} {code : Code} :
    Keeps c found (Statement.dialoguesAll found body) (statements c inLoop next code body) := by
  cases body with
  | nil => exact keeps_pure _
  | cons s rest => exact (keeps_statement s).bind fun _ => keeps_statements rest

theorem keeps_block (body : Block) {found : Array Dialogue} {inLoop : Bool} {start : Nat} :
    Keeps c found (body.dialogues found) (block c inLoop start body) := by
  cases body with
  | mk node body => exact keeps_statements body

theorem keeps_choice (case : Choice) {found : Array Dialogue} {start : Nat} :
    Keeps c found (case.dialogues found) (choice c start case) := by
  cases case with
  | mk node label body =>
    exact keeps_intern.bind fun _ => (keeps_statement body).bind fun _ => keeps_jump.bind
      fun _ => keeps_pure _

theorem keeps_choices (cases : List Choice) {found : Array Dialogue} {next : Nat} {code : Code} :
    Keeps c found (Choice.dialoguesAll found cases) (choices c next code cases) := by
  cases cases with
  | nil => exact keeps_pure _
  | cons case rest => exact (keeps_choice case).bind fun _ => keeps_choices rest

theorem keeps_dialogue (value : Dialogue) {found : Array Dialogue} {inLoop : Bool} {start : Nat} :
    Keeps c found (value.inner (found.push value)) (dialogue c inLoop start value) := by
  cases value with
  | mk node box name parts =>
    unfold dialogue
    split
    · exact keeps_fail rfl
    · next symbol hsymbol =>
      split
      · exact (keeps_mark hsymbol).bind fun _ => keeps_dialogueParts parts
      · exact keeps_fail rfl

theorem keeps_dialoguePart (part : DialoguePart) {found : Array Dialogue} {inLoop : Bool}
    {start : Nat} : Keeps c found (part.dialogues found) (dialoguePart c inLoop start part) := by
  cases part with
  | markup pieces span => exact keeps_intern.bind fun _ => keeps_pure _
  | code body => exact keeps_block body

theorem keeps_dialogueParts (parts : List DialoguePart) {found : Array Dialogue} {inLoop : Bool}
    {next : Nat} {code : Code} : Keeps c found (DialoguePart.dialoguesAll found parts)
      (dialogueParts c inLoop next code parts) := by
  cases parts with
  | nil => exact keeps_pure _
  | cons part rest => exact (keeps_dialoguePart part).bind fun _ => keeps_dialogueParts rest

end

theorem keeps_member (m : Member) : Keeps c #[] m.blocks.toArray (member c m) := by
  cases m with
  | chapter node name body | scene node name body | function node name parameters body =>
    exact (keeps_block body).bind fun _ => keeps_pure _
  | dialogue value =>
    have hblocks : (Member.dialogue value).blocks.toArray = value.inner (Array.push #[] value) := by
      rw [Dialogue.inner_eq]
      simp [Member.blocks]
    rw [hblocks]
    exact (keeps_dialogue value).bind fun _ => keeps_pure _

end Stagecraft.Emit
