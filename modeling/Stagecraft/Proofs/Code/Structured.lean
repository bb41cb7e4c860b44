import Stagecraft.Proofs.Code.Emitted

namespace Stagecraft.Emit

structure ExitsClosed (beyond : Nat) (inner outer : Code) : Prop where
  closed : outer.Closed
  extent : outer.extent = inner.extent
  placed : ∀ bytes exit pos, Placed bytes exit pos outer.toList →
    Placed bytes (pos + inner.extent + beyond) pos inner.toList

section Relation

variable (c : Context) (b : Builder)

def VisitCode (node : Node) (code : Code) : Prop :=
  ∃ symbol routine i, c.bindings.references[node.id]? = some symbol ∧
    symbol.routine? = some routine ∧ CallsRoutine c b routine 0 i ∧ code = #[.run i, .run .pop]

mutual

def StatementCode (inLoop : Bool) : Statement → Code → Prop
  | .block _ body, code => BlockCode inLoop body code
  | .ifThen _ condition yes, code =>
    ∃ test skip first, ExpressionCode c b condition test ∧
      Jumps .jumpIfFalse first.extent skip ∧ StatementCode inLoop yes first ∧
      code = test ++ Code.one skip ++ first
  | .ifElse _ condition yes no, code =>
    ∃ test skip first leap second, ExpressionCode c b condition test ∧
      Jumps .jumpIfFalse (first.extent + 3 : Nat) skip ∧ StatementCode inLoop yes first ∧
      Jumps .jump second.extent leap ∧ StatementCode inLoop no second ∧
      code = test ++ Code.one skip ++ first ++ Code.one leap ++ second
  | .loop _ condition body, code =>
    ∃ test skip inner closed back, ExpressionCode c b condition test ∧
      Jumps .jumpIfFalse (inner.extent + 3 : Nat) skip ∧ StatementCode true body inner ∧
      ExitsClosed 3 inner closed ∧
      Jumps .jump (-(test.extent + 3 + inner.extent + 3 : Nat)) back ∧
      code = test ++ Code.one skip ++ closed ++ Code.one back
  | .select _ cases, code =>
    ∃ inner closed back, ChoicesCode cases inner ∧ ExitsClosed 4 inner closed ∧
      Jumps .jump (-(inner.extent + 1 + 3 : Nat)) back ∧
      code = Code.one .selectStart ++ closed ++ #[.run .selectEnd, .run back]
  | .callChapter node _, code | .callScene node _, code => VisitCode c b node code
  | .ret _ (some value), code =>
    ∃ inner, ExpressionCode c b value inner ∧ code = inner ++ Code.one .ret
  | .ret _ none, code => code = #[.run (.load .null), .run .ret]
  | .exit _, code => inLoop = true ∧ code = #[.leave]
  | .expression _ value, code =>
    ∃ inner, ExpressionCode c b value inner ∧ code = inner ++ Code.one .pop
  | .dialogue _ value, code => DialogueCode inLoop value code
  | .empty _, code => code = #[]

def StatementsCode (inLoop : Bool) : List Statement → Code → Prop
  | [], code => code = #[]
  | s :: rest, code =>
    ∃ first more, StatementCode inLoop s first ∧ StatementsCode inLoop rest more ∧
      code = first ++ more

def BlockCode (inLoop : Bool) : Block → Code → Prop
  | .mk _ body, code => StatementsCode inLoop body code

def ChoiceCode : Choice → Code → Prop
  | .mk _ label body, code =>
    ∃ token skip inner, b.HasText token label ∧
      Jumps .jumpIfFalse (inner.extent + 3 : Nat) skip ∧ StatementCode true body inner ∧
      code = #[.run (.isPressed token), .run skip] ++ inner ++ #[.leave]

def ChoicesCode : List Choice → Code → Prop
  | [], code => code = #[]
  | case :: rest, code =>
    ∃ first more, ChoiceCode case first ∧ ChoicesCode rest more ∧ code = first ++ more

def DialogueCode (inLoop : Bool) : Dialogue → Code → Prop
  | .mk _ _ _ parts, code =>
    ∃ index inner, DialoguePartsCode inLoop parts inner ∧
      code = Code.one (.beginDialogue index) ++ inner

def DialoguePartCode (inLoop : Bool) : DialoguePart → Code → Prop
  | .markup pieces _, code =>
    ∃ token, b.HasText token (Markup.renderAll pieces) ∧ code = Code.one (.present token)
  | .code body, code => BlockCode inLoop body code

def DialoguePartsCode (inLoop : Bool) : List DialoguePart → Code → Prop
  | [], code => code = #[]
  | part :: rest, code =>
    ∃ first more, DialoguePartCode inLoop part first ∧ DialoguePartsCode inLoop rest more ∧
      code = first ++ more

end

def MemberCode (member : Member) (code : Code) : Prop :=
  ∃ inner, (match member with
    | .chapter _ _ body | .scene _ _ body | .function _ _ _ body => BlockCode c b false body inner
    | .dialogue value => DialogueCode c b false value inner) ∧
    code = inner ++ #[.run (.load .null), .run .ret]

end Relation

variable {c : Context} {b : Builder} {inLoop : Bool}

mutual

theorem StatementCode.closed (s : Statement) {code : Code} (h : StatementCode c b false s code) :
    code.Closed := by
  cases s with
  | block node body => exact BlockCode.closed body h
  | ifThen node condition yes =>
    obtain ⟨test, skip, first, htest, -, hfirst, rfl⟩ := h
    simp [Code.closed_append, ExpressionCode.closed condition htest,
      StatementCode.closed yes hfirst]
  | ifElse node condition yes no =>
    obtain ⟨test, skip, first, leap, second, htest, -, hfirst, -, hsecond, rfl⟩ := h
    simp [Code.closed_append, ExpressionCode.closed condition htest,
      StatementCode.closed yes hfirst, StatementCode.closed no hsecond]
  | loop node condition body =>
    obtain ⟨test, skip, inner, closed, back, htest, -, -, hclosed, -, rfl⟩ := h
    simp [Code.closed_append, ExpressionCode.closed condition htest, hclosed.closed]
  | select node cases =>
    obtain ⟨inner, closed, back, -, hclosed, -, rfl⟩ := h
    simp [Code.closed_append, hclosed.closed]
  | callChapter node target | callScene node target =>
    obtain ⟨symbol, routine, i, -, -, -, rfl⟩ := h
    simp
  | ret node value =>
    cases value with
    | none =>
      cases h
      simp
    | some value =>
      obtain ⟨inner, hinner, rfl⟩ := h
      simp [Code.closed_append, ExpressionCode.closed value hinner]
  | exit node => exact absurd h.1 (by simp)
  | expression node value =>
    obtain ⟨inner, hinner, rfl⟩ := h
    simp [Code.closed_append, ExpressionCode.closed value hinner]
  | dialogue node value => exact DialogueCode.closed value h
  | empty node =>
    cases h
    simp

theorem StatementsCode.closed (body : List Statement) {code : Code}
    (h : StatementsCode c b false body code) : code.Closed := by
  cases body with
  | nil =>
    cases h
    simp
  | cons s rest =>
    obtain ⟨first, more, hfirst, hmore, rfl⟩ := h
    exact Code.closed_append.mpr ⟨StatementCode.closed s hfirst, StatementsCode.closed rest hmore⟩

theorem BlockCode.closed (body : Block) {code : Code} (h : BlockCode c b false body code) :
    code.Closed := by
  cases body with
  | mk node body => exact StatementsCode.closed body h

theorem DialogueCode.closed (value : Dialogue) {code : Code}
    (h : DialogueCode c b false value code) : code.Closed := by
  cases value with
  | mk node box name parts =>
    obtain ⟨index, inner, hinner, rfl⟩ := h
    simp [Code.closed_append, DialoguePartsCode.closed parts hinner]

theorem DialoguePartCode.closed (part : DialoguePart) {code : Code}
    (h : DialoguePartCode c b false part code) : code.Closed := by
  cases part with
  | markup pieces span =>
    obtain ⟨token, -, rfl⟩ := h
    simp
  | code body => exact BlockCode.closed body h

theorem DialoguePartsCode.closed (parts : List DialoguePart) {code : Code}
    (h : DialoguePartsCode c b false parts code) : code.Closed := by
  cases parts with
  | nil =>
    cases h
    simp
  | cons part rest =>
    obtain ⟨first, more, hfirst, hmore, rfl⟩ := h
    exact Code.closed_append.mpr
      ⟨DialoguePartCode.closed part hfirst, DialoguePartsCode.closed rest hmore⟩

end

lemma MemberCode.closed {member : Member} {code : Code} (h : MemberCode c b member code) :
    code.Closed := by
  obtain ⟨inner, hinner, rfl⟩ := h
  refine Code.closed_append.mpr ⟨?_, by simp⟩
  cases member with
  | chapter node name body | scene node name body | function node name parameters body =>
    exact BlockCode.closed body hinner
  | dialogue value => exact DialogueCode.closed value hinner

variable {d d₁ d' : Draft}

structure Grows (limit : Nat) (d d' : Draft) : Prop where
  builder : d.builder.Leads d'.builder
  marks : ∀ mark ∈ d'.marks, mark ∈ d.marks ∨ mark.2.offset.toNat ≤ limit

lemma Leads.grows (h : Leads d d') (limit : Nat) : Grows limit d d' :=
  ⟨h.builder, fun _ hm => .inl (h.marks ▸ hm)⟩

lemma Grows.refl (limit : Nat) (d : Draft) : Grows limit d d :=
  (Leads.refl d).grows limit

lemma Grows.trans {limit limit' : Nat} (h : Grows limit d d₁) (h' : Grows limit' d₁ d')
    (hl : limit ≤ limit') : Grows limit' d d' := by
  refine ⟨h.builder.trans h'.builder, fun mark hm => ?_⟩
  rcases h'.marks mark hm with hm | hm
  · exact (h.marks mark hm).imp id fun hmark => Nat.le_trans hmark hl
  · exact .inr hm

lemma Grows.mono {limit limit' : Nat} (h : Grows limit d d') (hl : limit ≤ limit') :
    Grows limit' d d' :=
  h.trans (.refl limit' d') hl

def closeStep (total : Nat) : Nat × Code → Step → Emit (Nat × Code)
  | (position, closed), .run i => pure (position + i.size, closed.push (.run i))
  | (position, closed), .leave => do
    let next := position + Step.jumpSize
    pure (next, closed.push (.run (← jump .jump (total - next : Nat))))

lemma closeSteps_ok {total position : Nat} {before closed : Code} {last : Nat}
    (steps : List Step) (ht : position + (steps.map Step.size).sum ≤ total)
    (h : steps.foldlM (closeStep total) (position, before) d = (.ok (last, closed), d')) :
    d = d' ∧ ∃ more : List Step, closed = before ++ more.toArray ∧ (∀ step ∈ more, step ≠ .leave) ∧
      (more.map Step.size).sum = (steps.map Step.size).sum ∧
      ∀ bytes exit start, Placed bytes exit (start + position) more →
        Placed bytes (start + total) (start + position) steps := by
  induction steps generalizing position before d with
  | nil =>
    obtain ⟨he, rfl⟩ := pure_ok.mp h
    cases he
    exact ⟨rfl, [], by simp, by simp, rfl, fun _ _ _ _ => trivial⟩
  | cons step rest ih =>
    rw [List.foldlM_cons] at h
    obtain ⟨⟨next, before'⟩, d₁, hstep, h⟩ := bind_ok.mp h
    rw [List.map_cons, List.sum_cons] at ht
    cases step with
    | run i =>
      obtain ⟨he, rfl⟩ := pure_ok.mp hstep
      cases he
      obtain ⟨rfl, more, rfl, hm, hsize, hplaced⟩ := ih (by rw [Step.size] at ht; omega) h
      refine ⟨rfl, .run i :: more, by simp, by simpa using hm, by simp [hsize], ?_⟩
      intro bytes exit start hp
      rw [Placed, Nat.add_assoc] at hp ⊢
      exact ⟨hp.1, hplaced bytes exit start hp.2⟩
    | leave =>
      obtain ⟨i, d₂, hi, hstep⟩ := bind_ok.mp hstep
      obtain ⟨he, rfl⟩ := pure_ok.mp hstep
      cases he
      obtain ⟨hjump, rfl⟩ := jump_ok hi
      have hi3 : i.size = 3 := hjump.size fun _ => rfl
      rw [Step.size] at ht
      obtain ⟨rfl, more, rfl, hm, hsize, hplaced⟩ := ih (by omega) h
      refine ⟨rfl, .run i :: more, by simp, by simpa using hm, ?_, ?_⟩
      · simp [hsize, Step.size, hi3, Step.jumpSize]
      · intro bytes exit start hp
        rw [Placed, hi3, Nat.add_assoc] at hp
        obtain ⟨hd, rfl⟩ := hjump
        refine ⟨⟨_, hp.1, ?_⟩, hplaced bytes exit start hp.2⟩
        rw [Int16.toInt_ofInt_of_le hd.1 (by omega)]
        omega

lemma closeExits_ok {beyond : Nat} {inner closed : Code}
    (h : closeExits beyond inner d = (.ok closed, d')) :
    ExitsClosed beyond inner closed ∧ d = d' := by
  have heq : closeExits beyond inner = (do
      let (_, closed) ← inner.toList.foldlM (closeStep (inner.extent + beyond)) (0, #[])
      pure closed) := by
    rw [Array.foldlM_toList, closeExits]
    congr 2
    funext ⟨position, closed⟩ step
    cases step <;> rfl
  rw [heq] at h
  obtain ⟨⟨last, result⟩, d₁, hfold, h⟩ := bind_ok.mp h
  obtain ⟨rfl, rfl⟩ := pure_ok.mp h
  have hextent := inner.extent_eq
  obtain ⟨rfl, more, rfl, hm, hsize, hplaced⟩ := closeSteps_ok inner.toList (by omega) hfold
  refine ⟨⟨?_, ?_, fun bytes exit pos hp => ?_⟩, rfl⟩
  · simpa using hm
  · simp [hsize, hextent]
  · rw [Nat.add_assoc]
    exact hplaced bytes exit pos (by simpa using hp)

lemma visit_ok {node : Node} {target : String} {code : Code} (hs : d.builder.Sound)
    (h : visit c node target d = (.ok code, d')) :
    Leads d d' ∧ ∀ b, d'.builder.Leads b → VisitCode c b node code := by
  obtain ⟨symbol, d₁, hsymbol, h⟩ := bind_ok.mp h
  obtain ⟨hr, rfl⟩ := reference_ok hsymbol
  cases hroutine : symbol.routine? with
  | none =>
    simp only [hroutine] at h
    exact absurd h fail_not_ok
  | some routine =>
    simp only [hroutine] at h
    obtain ⟨i, d₁, hi, h⟩ := bind_ok.mp h
    obtain ⟨rfl, rfl⟩ := pure_ok.mp h
    obtain ⟨hl, hi⟩ := callRoutine_ok hs hi
    exact ⟨hl, fun b hb => ⟨symbol, routine, i, hr, hroutine, hi b hb, rfl⟩⟩

mutual

theorem statement_ok (s : Statement) {inLoop : Bool} {start : Nat} {d d' : Draft} {code : Code}
    (hs : d.builder.Sound) (h : statement c inLoop start s d = (.ok code, d')) :
    Grows (start + code.extent) d d' ∧
      ∀ b, d'.builder.Leads b → StatementCode c b inLoop s code := by
  cases s with
  | block node body => exact block_ok body hs h
  | ifThen node condition yes =>
    obtain ⟨test, d₁, htest, h⟩ := bind_ok.mp h
    obtain ⟨first, d₂, hfirst, h⟩ := bind_ok.mp h
    obtain ⟨skip, d₃, eskip, h⟩ := bind_ok.mp h
    obtain ⟨rfl, rfl⟩ := pure_ok.mp h
    obtain ⟨hskip, rfl⟩ := jump_ok eskip
    obtain ⟨hl₁, htest⟩ := expression_ok condition hs htest
    obtain ⟨hl₂, hfirst⟩ := statement_ok yes (hl₁.builder.sound hs) hfirst
    have hsize : skip.size = 3 := hskip.size fun _ => rfl
    refine ⟨((hl₁.grows _).trans hl₂ (Nat.le_refl _)).mono ?_, fun b hb => ?_⟩
    · simp [hsize, Step.jumpSize]
      omega
    · exact ⟨test, skip, first, htest b (hl₂.builder.trans hb), hskip, hfirst b hb, rfl⟩
  | ifElse node condition yes no =>
    obtain ⟨test, d₁, htest, h⟩ := bind_ok.mp h
    obtain ⟨first, d₂, hfirst, h⟩ := bind_ok.mp h
    obtain ⟨skip, d₃, eskip, h⟩ := bind_ok.mp h
    obtain ⟨second, d₄, hsecond, h⟩ := bind_ok.mp h
    obtain ⟨leap, d₅, eleap, h⟩ := bind_ok.mp h
    obtain ⟨rfl, rfl⟩ := pure_ok.mp h
    obtain ⟨hskip, rfl⟩ := jump_ok eskip
    obtain ⟨hleap, rfl⟩ := jump_ok eleap
    obtain ⟨hl₁, htest⟩ := expression_ok condition hs htest
    have hs₁ := hl₁.builder.sound hs
    obtain ⟨hl₂, hfirst⟩ := statement_ok yes hs₁ hfirst
    obtain ⟨hl₃, hsecond⟩ := statement_ok no (hl₂.builder.sound hs₁) hsecond
    have hskipSize : skip.size = 3 := hskip.size fun _ => rfl
    have hleapSize : leap.size = 3 := hleap.size fun _ => rfl
    refine ⟨(((hl₁.grows _).trans hl₂ (Nat.le_refl _)).trans hl₃ ?_).mono ?_, fun b hb => ?_⟩
    · simp only [Step.jumpSize]
      omega
    · simp [hskipSize, hleapSize, Step.jumpSize]
      omega
    · have hb₂ := hl₃.builder.trans hb
      exact ⟨test, skip, first, leap, second, htest b (hl₂.builder.trans hb₂), hskip,
        hfirst b hb₂, hleap, hsecond b hb, rfl⟩
  | loop node condition body =>
    obtain ⟨test, d₁, htest, h⟩ := bind_ok.mp h
    obtain ⟨inner, d₂, hinner, h⟩ := bind_ok.mp h
    obtain ⟨back, d₃, eback, h⟩ := bind_ok.mp h
    obtain ⟨skip, d₄, eskip, h⟩ := bind_ok.mp h
    obtain ⟨closed, d₅, eclosed, h⟩ := bind_ok.mp h
    obtain ⟨rfl, rfl⟩ := pure_ok.mp h
    obtain ⟨hback, rfl⟩ := jump_ok eback
    obtain ⟨hskip, rfl⟩ := jump_ok eskip
    obtain ⟨hclosed, rfl⟩ := closeExits_ok eclosed
    obtain ⟨hl₁, htest⟩ := expression_ok condition hs htest
    obtain ⟨hl₂, hinner⟩ := statement_ok body (hl₁.builder.sound hs) hinner
    have hskipSize : skip.size = 3 := hskip.size fun _ => rfl
    refine ⟨((hl₁.grows _).trans hl₂ (Nat.le_refl _)).mono ?_, fun b hb => ?_⟩
    · simp [hskipSize, hclosed.extent, Step.jumpSize]
      omega
    · exact ⟨test, skip, inner, closed, back, htest b (hl₂.builder.trans hb), hskip,
        hinner b hb, hclosed, hback, rfl⟩
  | select node cases =>
    obtain ⟨inner, d₁, hinner, h⟩ := bind_ok.mp h
    obtain ⟨back, d₂, eback, h⟩ := bind_ok.mp h
    obtain ⟨closed, d₃, eclosed, h⟩ := bind_ok.mp h
    obtain ⟨rfl, rfl⟩ := pure_ok.mp h
    obtain ⟨hback, rfl⟩ := jump_ok eback
    obtain ⟨hclosed, rfl⟩ := closeExits_ok eclosed
    obtain ⟨more, hmore, hl, hinner⟩ := choices_ok cases hs hinner
    rw [Array.empty_append] at hmore
    subst hmore
    refine ⟨hl.mono ?_, fun b hb => ⟨inner, closed, back, hinner b hb, hclosed, hback, rfl⟩⟩
    simp [hclosed.extent]
    omega
  | callChapter node target =>
    obtain ⟨hl, hcode⟩ := visit_ok hs h
    exact ⟨hl.grows _, hcode⟩
  | callScene node target =>
    obtain ⟨hl, hcode⟩ := visit_ok hs h
    exact ⟨hl.grows _, hcode⟩
  | ret node value =>
    cases value with
    | none =>
      obtain ⟨rfl, rfl⟩ := pure_ok.mp h
      exact ⟨.refl _ _, fun b hb => rfl⟩
    | some value =>
      obtain ⟨inner, d₁, hinner, h⟩ := bind_ok.mp h
      obtain ⟨rfl, rfl⟩ := pure_ok.mp h
      obtain ⟨hl, hinner⟩ := expression_ok value hs hinner
      exact ⟨hl.grows _, fun b hb => ⟨inner, hinner b hb, rfl⟩⟩
  | exit node =>
    rw [statement] at h
    split at h
    · next hloop =>
      obtain ⟨rfl, rfl⟩ := pure_ok.mp h
      exact ⟨.refl _ _, fun b hb => ⟨hloop, rfl⟩⟩
    · exact absurd h fail_not_ok
  | expression node value =>
    obtain ⟨inner, d₁, hinner, h⟩ := bind_ok.mp h
    obtain ⟨rfl, rfl⟩ := pure_ok.mp h
    obtain ⟨hl, hinner⟩ := expression_ok value hs hinner
    exact ⟨hl.grows _, fun b hb => ⟨inner, hinner b hb, rfl⟩⟩
  | dialogue node value => exact dialogue_ok value hs h
  | empty node =>
    obtain ⟨rfl, rfl⟩ := pure_ok.mp h
    exact ⟨.refl _ _, fun b hb => rfl⟩

theorem statements_ok (body : List Statement) {inLoop : Bool} {next : Nat} {d d' : Draft}
    {before code : Code} (hs : d.builder.Sound)
    (h : statements c inLoop next before body d = (.ok code, d')) :
    ∃ more, code = before ++ more ∧ Grows (next + more.extent) d d' ∧
      ∀ b, d'.builder.Leads b → StatementsCode c b inLoop body more := by
  cases body with
  | nil =>
    obtain ⟨rfl, rfl⟩ := pure_ok.mp h
    exact ⟨#[], by simp, .refl _ _, fun b hb => rfl⟩
  | cons s rest =>
    obtain ⟨first, d₁, hfirst, h⟩ := bind_ok.mp h
    obtain ⟨hl₁, hfirst⟩ := statement_ok s hs hfirst
    obtain ⟨more, rfl, hl₂, hmore⟩ := statements_ok rest (hl₁.builder.sound hs) h
    refine ⟨first ++ more, by simp, ?_, fun b hb =>
      ⟨first, more, hfirst b (hl₂.builder.trans hb), hmore b hb, rfl⟩⟩
    rw [Code.extent_append, ← Nat.add_assoc]
    exact hl₁.trans hl₂ (Nat.le_add_right _ _)

theorem block_ok (body : Block) {inLoop : Bool} {start : Nat} {d d' : Draft} {code : Code}
    (hs : d.builder.Sound) (h : block c inLoop start body d = (.ok code, d')) :
    Grows (start + code.extent) d d' ∧
      ∀ b, d'.builder.Leads b → BlockCode c b inLoop body code := by
  cases body with
  | mk node body =>
    obtain ⟨more, hmore, hl, hcode⟩ := statements_ok body hs h
    rw [Array.empty_append] at hmore
    subst hmore
    exact ⟨hl, hcode⟩

theorem choice_ok (case : Choice) {start : Nat} {d d' : Draft} {code : Code}
    (hs : d.builder.Sound) (h : choice c start case d = (.ok code, d')) :
    Grows (start + code.extent) d d' ∧ ∀ b, d'.builder.Leads b → ChoiceCode c b case code := by
  cases case with
  | mk node label body =>
    obtain ⟨token, d₁, htoken, h⟩ := bind_ok.mp h
    obtain ⟨inner, d₂, hinner, h⟩ := bind_ok.mp h
    obtain ⟨skip, d₃, eskip, h⟩ := bind_ok.mp h
    obtain ⟨rfl, rfl⟩ := pure_ok.mp h
    obtain ⟨hskip, rfl⟩ := jump_ok eskip
    obtain ⟨hl₁, htoken⟩ := intern_ok htoken
    obtain ⟨hl₂, hinner⟩ := statement_ok body (hl₁.builder.sound hs) hinner
    have hskipSize : skip.size = 3 := hskip.size fun _ => rfl
    refine ⟨((hl₁.grows _).trans hl₂ (Nat.le_refl _)).mono ?_, fun b hb => ?_⟩
    · simp only [Code.extent_append, Code.extent_toArray, List.map_cons, List.map_nil,
        List.sum_cons, List.sum_nil, Step.size, hskipSize, Step.jumpSize]
      omega
    · exact ⟨token, skip, inner, ((htoken hs).mono hl₂.builder).mono hb, hskip, hinner b hb, rfl⟩

theorem choices_ok (cases : List Choice) {next : Nat} {d d' : Draft} {before code : Code}
    (hs : d.builder.Sound) (h : choices c next before cases d = (.ok code, d')) :
    ∃ more, code = before ++ more ∧ Grows (next + more.extent) d d' ∧
      ∀ b, d'.builder.Leads b → ChoicesCode c b cases more := by
  cases cases with
  | nil =>
    obtain ⟨rfl, rfl⟩ := pure_ok.mp h
    exact ⟨#[], by simp, .refl _ _, fun b hb => rfl⟩
  | cons case rest =>
    obtain ⟨first, d₁, hfirst, h⟩ := bind_ok.mp h
    obtain ⟨hl₁, hfirst⟩ := choice_ok case hs hfirst
    obtain ⟨more, rfl, hl₂, hmore⟩ := choices_ok rest (hl₁.builder.sound hs) h
    refine ⟨first ++ more, by simp, ?_, fun b hb =>
      ⟨first, more, hfirst b (hl₂.builder.trans hb), hmore b hb, rfl⟩⟩
    rw [Code.extent_append, ← Nat.add_assoc]
    exact hl₁.trans hl₂ (Nat.le_add_right _ _)

theorem dialogue_ok (value : Dialogue) {inLoop : Bool} {start : Nat} {d d' : Draft} {code : Code}
    (hs : d.builder.Sound) (h : dialogue c inLoop start value d = (.ok code, d')) :
    Grows (start + code.extent) d d' ∧
      ∀ b, d'.builder.Leads b → DialogueCode c b inLoop value code := by
  cases value with
  | mk node box name parts =>
    cases hsymbol : c.table.dialogueOf? node.id with
    | none =>
      simp only [dialogue, hsymbol] at h
      exact absurd h fail_not_ok
    | some symbol =>
      simp only [dialogue, hsymbol] at h
      split at h
      · next hstart =>
        obtain ⟨_, d₁, hmark, h⟩ := bind_ok.mp h
        cases hmark
        obtain ⟨builder, marks⟩ := d
        obtain ⟨more, rfl, hl, hmore⟩ := dialogueParts_ok parts (by exact hs) h
        refine ⟨⟨hl.builder, fun mark hm => ?_⟩, fun b hb =>
          ⟨symbol.index, more, hmore b hb, rfl⟩⟩
        rw [Code.extent_append, Code.extent_one, ← Nat.add_assoc]
        rcases hl.marks mark hm with hm | hm
        · rcases Array.mem_push.mp hm with hm | rfl
          · exact .inl hm
          · refine .inr ?_
            rw [UInt16.toNat_ofNat_of_lt' hstart, Nat.add_assoc]
            exact Nat.le_add_right _ _
        · exact .inr hm
      · exact absurd h fail_not_ok

theorem dialoguePart_ok (part : DialoguePart) {inLoop : Bool} {start : Nat} {d d' : Draft}
    {code : Code} (hs : d.builder.Sound)
    (h : dialoguePart c inLoop start part d = (.ok code, d')) :
    Grows (start + code.extent) d d' ∧
      ∀ b, d'.builder.Leads b → DialoguePartCode c b inLoop part code := by
  cases part with
  | markup pieces span =>
    obtain ⟨token, d₁, htoken, h⟩ := bind_ok.mp h
    obtain ⟨rfl, rfl⟩ := pure_ok.mp h
    obtain ⟨hl, htoken⟩ := intern_ok htoken
    exact ⟨hl.grows _, fun b hb => ⟨token, (htoken hs).mono hb, rfl⟩⟩
  | code body => exact block_ok body hs h

theorem dialogueParts_ok (parts : List DialoguePart) {inLoop : Bool} {next : Nat} {d d' : Draft}
    {before code : Code} (hs : d.builder.Sound)
    (h : dialogueParts c inLoop next before parts d = (.ok code, d')) :
    ∃ more, code = before ++ more ∧ Grows (next + more.extent) d d' ∧
      ∀ b, d'.builder.Leads b → DialoguePartsCode c b inLoop parts more := by
  cases parts with
  | nil =>
    obtain ⟨rfl, rfl⟩ := pure_ok.mp h
    exact ⟨#[], by simp, .refl _ _, fun b hb => rfl⟩
  | cons part rest =>
    obtain ⟨first, d₁, hfirst, h⟩ := bind_ok.mp h
    obtain ⟨hl₁, hfirst⟩ := dialoguePart_ok part hs hfirst
    obtain ⟨more, rfl, hl₂, hmore⟩ := dialogueParts_ok rest (hl₁.builder.sound hs) h
    refine ⟨first ++ more, by simp, ?_, fun b hb =>
      ⟨first, more, hfirst b (hl₂.builder.trans hb), hmore b hb, rfl⟩⟩
    rw [Code.extent_append, ← Nat.add_assoc]
    exact hl₁.trans hl₂ (Nat.le_add_right _ _)

end

lemma member_ok {m : Member} {code : Code} (hs : d.builder.Sound)
    (h : member c m d = (.ok code, d')) :
    Grows code.extent d d' ∧ ∀ b, d'.builder.Leads b → MemberCode c b m code := by
  have hlimit (inner : Code) : 0 + inner.extent ≤
      (inner ++ #[Step.run (.load .null), Step.run .ret] : Code).extent := by
    rw [Code.extent_append]
    omega
  cases m with
  | chapter node name body | scene node name body | function node name parameters body =>
    obtain ⟨inner, d₁, hinner, h⟩ := bind_ok.mp h
    obtain ⟨rfl, rfl⟩ := pure_ok.mp h
    obtain ⟨hl, hcode⟩ := block_ok body hs hinner
    exact ⟨hl.mono (hlimit inner), fun b hb => ⟨inner, hcode b hb, rfl⟩⟩
  | dialogue value =>
    obtain ⟨inner, d₁, hinner, h⟩ := bind_ok.mp h
    obtain ⟨rfl, rfl⟩ := pure_ok.mp h
    obtain ⟨hl, hcode⟩ := dialogue_ok value hs hinner
    exact ⟨hl.mono (hlimit inner), fun b hb => ⟨inner, hcode b hb, rfl⟩⟩

end Stagecraft.Emit
