import Stagecraft.Proofs.Code.Filled
import Stagecraft.Proofs.Script.Names

/-!
The calls in a tree and the calls in its code. They stand in the same order, one instruction for
each call that reaches a routine of a script.
-/

namespace Stagecraft

structure CallSite where
  node : Node
  arguments : List Expression

def CallSite.count (site : CallSite) : Nat :=
  site.arguments.length

mutual

def Expression.calls : Expression → List CallSite
  | .literal _ _ | .name _ _ | .step _ _ _ => []
  | .unary _ _ operand => operand.calls
  | .binary _ _ left right => left.calls ++ right.calls
  | .assign _ _ _ value => value.calls
  | .call node _ arguments =>
    Expression.callsAll arguments ++ [{ node, arguments }]

def Expression.callsAll : List Expression → List CallSite
  | [] => []
  | e :: rest => e.calls ++ Expression.callsAll rest

end

mutual

def Statement.calls : Statement → List CallSite
  | .block _ body => body.calls
  | .ifThen _ condition thenBranch => condition.calls ++ thenBranch.calls
  | .ifElse _ condition thenBranch elseBranch =>
    condition.calls ++ thenBranch.calls ++ elseBranch.calls
  | .loop _ condition body => condition.calls ++ body.calls
  | .select _ cases => Choice.callsAll cases
  | .callChapter node _ | .callScene node _ => [{ node, arguments := [] }]
  | .ret _ (some value) => value.calls
  | .ret _ none | .exit _ | .empty _ => []
  | .expression _ value => value.calls
  | .dialogue _ value => value.calls

def Statement.callsAll : List Statement → List CallSite
  | [] => []
  | s :: rest => s.calls ++ Statement.callsAll rest

def Block.calls : Block → List CallSite
  | .mk _ statements => Statement.callsAll statements

def Choice.calls : Choice → List CallSite
  | .mk _ _ body => body.calls

def Choice.callsAll : List Choice → List CallSite
  | [] => []
  | c :: rest => c.calls ++ Choice.callsAll rest

def Dialogue.calls : Dialogue → List CallSite
  | .mk _ _ _ parts => DialoguePart.callsAll parts

def DialoguePart.calls : DialoguePart → List CallSite
  | .markup _ _ => []
  | .code body => body.calls

def DialoguePart.callsAll : List DialoguePart → List CallSite
  | [] => []
  | p :: rest => p.calls ++ DialoguePart.callsAll rest

end

def Member.calls : Member → List CallSite
  | .chapter _ _ body | .scene _ _ body | .function _ _ _ body => body.calls
  | .dialogue value => value.calls

section Names

variable {P : Nat → Prop}

mutual

theorem Expression.names_of_calls (e : Expression) (hn : Names P (e.uses #[])) :
    ∀ site ∈ e.calls, Names P (Expression.usesAll #[] site.arguments) := by
  cases e with
  | literal node value | name node text | step node target op => exact nofun
  | unary node op operand => exact Expression.names_of_calls operand hn
  | binary node op left right =>
    rw [Expression.uses, names_expression] at hn
    exact List.forall_mem_append.mpr
      ⟨Expression.names_of_calls left hn.1, Expression.names_of_calls right hn.2⟩
  | assign node target op value =>
    rw [Expression.uses, names_expression] at hn
    exact Expression.names_of_calls value hn.2
  | call node callee arguments =>
    simp only [Expression.uses, names_push] at hn
    refine List.forall_mem_append.mpr ⟨Expression.names_of_callsAll arguments hn.1, ?_⟩
    exact List.forall_mem_singleton.mpr hn.1

theorem Expression.names_of_callsAll (es : List Expression)
    (hn : Names P (Expression.usesAll #[] es)) :
    ∀ site ∈ Expression.callsAll es, Names P (Expression.usesAll #[] site.arguments) := by
  cases es with
  | nil => exact nofun
  | cons e rest =>
    rw [Expression.usesAll, names_expressions] at hn
    exact List.forall_mem_append.mpr
      ⟨Expression.names_of_calls e hn.1, Expression.names_of_callsAll rest hn.2⟩

end

mutual

theorem Statement.names_of_calls (s : Statement) (hn : Names P (s.uses #[])) :
    ∀ site ∈ s.calls, Names P (Expression.usesAll #[] site.arguments) := by
  cases s with
  | block node body => exact Block.names_of_calls body hn
  | ifThen node condition yes =>
    rw [Statement.uses, names_statement] at hn
    exact List.forall_mem_append.mpr
      ⟨condition.names_of_calls hn.1, Statement.names_of_calls yes hn.2⟩
  | ifElse node condition yes no =>
    rw [Statement.uses, names_statement, names_statement] at hn
    obtain ⟨⟨hcondition, hyes⟩, hno⟩ := hn
    exact List.forall_mem_append.mpr ⟨List.forall_mem_append.mpr
      ⟨condition.names_of_calls hcondition, Statement.names_of_calls yes hyes⟩,
      Statement.names_of_calls no hno⟩
  | loop node condition body =>
    rw [Statement.uses, names_statement] at hn
    exact List.forall_mem_append.mpr
      ⟨condition.names_of_calls hn.1, Statement.names_of_calls body hn.2⟩
  | select node cases => exact Choice.names_of_callsAll cases hn
  | callChapter node target | callScene node target =>
    exact List.forall_mem_singleton.mpr names_empty
  | ret node value =>
    cases value with
    | none => exact nofun
    | some value => exact value.names_of_calls hn
  | exit node | empty node => exact nofun
  | expression node value => exact value.names_of_calls hn
  | dialogue node value => exact Dialogue.names_of_calls value hn

theorem Statement.names_of_callsAll (body : List Statement)
    (hn : Names P (Statement.usesAll #[] body)) :
    ∀ site ∈ Statement.callsAll body, Names P (Expression.usesAll #[] site.arguments) := by
  cases body with
  | nil => exact nofun
  | cons s rest =>
    rw [Statement.usesAll, names_statements] at hn
    exact List.forall_mem_append.mpr
      ⟨Statement.names_of_calls s hn.1, Statement.names_of_callsAll rest hn.2⟩

theorem Block.names_of_calls (body : Block) (hn : Names P (body.uses #[])) :
    ∀ site ∈ body.calls, Names P (Expression.usesAll #[] site.arguments) := by
  cases body with
  | mk node statements => exact Statement.names_of_callsAll statements hn

theorem Choice.names_of_calls (case : Choice) (hn : Names P (case.uses #[])) :
    ∀ site ∈ case.calls, Names P (Expression.usesAll #[] site.arguments) := by
  cases case with
  | mk node label body => exact Statement.names_of_calls body hn

theorem Choice.names_of_callsAll (cases : List Choice)
    (hn : Names P (Choice.usesAll #[] cases)) :
    ∀ site ∈ Choice.callsAll cases, Names P (Expression.usesAll #[] site.arguments) := by
  cases cases with
  | nil => exact nofun
  | cons case rest =>
    rw [Choice.usesAll, names_choices] at hn
    exact List.forall_mem_append.mpr
      ⟨Choice.names_of_calls case hn.1, Choice.names_of_callsAll rest hn.2⟩

theorem Dialogue.names_of_calls (value : Dialogue) (hn : Names P (value.uses #[])) :
    ∀ site ∈ value.calls, Names P (Expression.usesAll #[] site.arguments) := by
  cases value with
  | mk node box name parts => exact DialoguePart.names_of_callsAll parts hn

theorem DialoguePart.names_of_calls (part : DialoguePart) (hn : Names P (part.uses #[])) :
    ∀ site ∈ part.calls, Names P (Expression.usesAll #[] site.arguments) := by
  cases part with
  | markup pieces span => exact nofun
  | code body => exact Block.names_of_calls body hn

theorem DialoguePart.names_of_callsAll (parts : List DialoguePart)
    (hn : Names P (DialoguePart.usesAll #[] parts)) :
    ∀ site ∈ DialoguePart.callsAll parts, Names P (Expression.usesAll #[] site.arguments) := by
  cases parts with
  | nil => exact nofun
  | cons part rest =>
    rw [DialoguePart.usesAll, names_dialogueParts] at hn
    exact List.forall_mem_append.mpr
      ⟨DialoguePart.names_of_calls part hn.1, DialoguePart.names_of_callsAll rest hn.2⟩

end

theorem Member.names_of_calls (m : Member) (hn : Names P m.uses) :
    ∀ site ∈ m.calls, Names P (Expression.usesAll #[] site.arguments) := by
  cases m with
  | chapter node name body | scene node name body | function node name parameters body =>
    exact body.names_of_calls hn
  | dialogue value => exact value.names_of_calls hn

end Names

def CallSite.routine? (bindings : Bindings) (site : CallSite) : Option RoutineSymbol :=
  bindings.references[site.node.id]?.bind Symbol.routine?

def Instruction.isCall : Instruction → Bool
  | .call _ | .callFar _ _ => true
  | _ => false

namespace Code

def instructions (code : Code) : List Instruction :=
  code.toList.map Step.instruction

@[simp] lemma instructions_append (left right : Code) :
    (left ++ right).instructions = left.instructions ++ right.instructions := by
  simp [instructions]

@[simp] lemma instructions_one (i : Instruction) : (one i).instructions = [i] := by
  simp [instructions, one, Step.instruction]

def calls (code : Code) : List Instruction :=
  code.instructions.filter Instruction.isCall

@[simp] lemma calls_append (left right : Code) :
    (left ++ right).calls = left.calls ++ right.calls := by
  simp [calls]

@[simp] lemma calls_one (i : Instruction) : (one i).calls = [i].filter Instruction.isCall := by
  simp [calls]

end Code

namespace Emit

lemma ExitsClosed.calls {beyond : Nat} {inner outer : Code} (h : ExitsClosed beyond inner outer) :
    outer.calls = inner.calls :=
  h.fills.filter fun _ => rfl

section Relation

variable (c : Context) (b : Builder)

def CallsAt (site : CallSite) (i : Instruction) : Prop :=
  ∃ routine, site.routine? c.bindings = some routine ∧ CallsRoutine c b routine site.count i

def Prepares (code : Code) (site : CallSite) (k : Nat) : Prop :=
  ∃ before arguments i after, code = before ++ arguments ++ Code.one i ++ after ∧ i.isCall ∧
    (before ++ arguments).calls.length = k ∧ ExpressionsCode c b site.arguments arguments

structure CallsMatch (sites : List CallSite) (code : Code) : Prop where
  each : List.Forall₂ (CallsAt c b) (sites.filter fun site => (site.routine? c.bindings).isSome)
    code.calls
  prepares : ∀ (k : Nat) site,
    (sites.filter fun site => (site.routine? c.bindings).isSome)[k]? = some site →
      Prepares c b code site k

end Relation

variable {c : Context} {b : Builder} {sites sites' : List CallSite} {code code' : Code}

lemma Prepares.append {site : CallSite} {k : Nat} (h : Prepares c b code site k) (code' : Code) :
    Prepares c b (code ++ code') site k := by
  obtain ⟨before, arguments, i, after, rfl, hi, hk, hcode⟩ := h
  exact ⟨before, arguments, i, after ++ code', by simp, hi, hk, hcode⟩

lemma Prepares.behind {site : CallSite} {k : Nat} (h : Prepares c b code' site k) (code : Code) :
    Prepares c b (code ++ code') site (code.calls.length + k) := by
  obtain ⟨before, arguments, i, after, rfl, hi, rfl, hcode⟩ := h
  exact ⟨code ++ before, arguments, i, after, by simp, hi, by simp, hcode⟩

lemma CallsMatch.silent (h : code.calls = []) : CallsMatch c b [] code :=
  ⟨h ▸ .nil, nofun⟩

lemma CallsMatch.append (h : CallsMatch c b sites code) (h' : CallsMatch c b sites' code') :
    CallsMatch c b (sites ++ sites') (code ++ code') := by
  refine ⟨?_, fun k site hsite => ?_⟩
  · rw [List.filter_append, Code.calls_append]
    exact List.rel_append h.each h'.each
  · rw [List.filter_append, List.getElem?_append] at hsite
    split at hsite
    · exact (h.prepares k site hsite).append code'
    · next hk =>
      have hbehind := (h'.prepares _ site hsite).behind code
      rwa [← h.each.length_eq, Nat.add_sub_cancel' (Nat.le_of_not_lt hk)] at hbehind

lemma CallsMatch.append_silent (h : CallsMatch c b sites code) (hn : code'.calls = []) :
    CallsMatch c b sites (code ++ code') := by
  simpa using h.append (.silent hn)

lemma CallsMatch.silent_append (hn : code.calls = []) (h : CallsMatch c b sites code') :
    CallsMatch c b sites (code ++ code') := by
  simpa using (CallsMatch.silent hn).append h

lemma CallsRoutine.isCall {routine : RoutineSymbol} {count : Nat} {i : Instruction}
    (h : CallsRoutine c b routine count i) : i.isCall := by
  obtain ⟨-, ⟨-, rfl⟩ | ⟨k, -, -, rfl⟩⟩ := h <;> rfl

lemma CallsMatch.routine {node : Node} {arguments : List Expression} {inner : Code}
    {symbol : Symbol} {routine : RoutineSymbol} {i : Instruction}
    (hinner : CallsMatch c b sites inner) (hcode : ExpressionsCode c b arguments inner)
    (hs : c.bindings.references[node.id]? = some symbol) (hr : symbol.routine? = some routine)
    (h : CallsRoutine c b routine arguments.length i) :
    CallsMatch c b (sites ++ [⟨node, arguments⟩]) (inner ++ Code.one i) := by
  have hroutine : CallSite.routine? c.bindings ⟨node, arguments⟩ = some routine := by
    simp [CallSite.routine?, hs, hr]
  refine ⟨?_, fun k site hsite => ?_⟩
  · rw [List.filter_append, List.filter_singleton, hroutine, Code.calls_append, Code.calls_one,
      List.filter_singleton, h.isCall]
    exact List.rel_append hinner.each (.cons ⟨routine, hroutine, h⟩ .nil)
  · rw [List.filter_append, List.filter_singleton, hroutine, List.getElem?_append] at hsite
    split at hsite
    · exact (hinner.prepares k site hsite).append _
    · next hk =>
      simp only [Option.isSome_some, cond_true, List.getElem?_singleton,
        Option.ite_none_right_eq_some, Option.some.injEq] at hsite
      obtain ⟨hk', rfl⟩ := hsite
      refine ⟨#[], inner, i, #[], by simp, h.isCall, ?_, hcode⟩
      rw [Array.empty_append, ← hinner.each.length_eq]
      omega

lemma CallsMatch.of_calls {node : Node} {arguments : List Expression} {inner : Code}
    {i : Instruction} (hinner : CallsMatch c b sites inner)
    (hcode : ExpressionsCode c b arguments inner) (h : Calls c b node arguments.length i) :
    CallsMatch c b (sites ++ [⟨node, arguments⟩]) (inner ++ Code.one i) := by
  obtain ⟨id, signature, hr, -, -, -, rfl⟩ | ⟨symbol, routine, hs, hr, h⟩ := h
  · have hroutine : CallSite.routine? c.bindings ⟨node, arguments⟩ = none := by
      simp [CallSite.routine?, hr, Symbol.routine?]
    obtain ⟨heach, hprepares⟩ : CallsMatch c b sites
        (inner ++ Code.one (.dispatch id (UInt8.ofNat arguments.length))) :=
      hinner.append_silent rfl
    refine ⟨?_, ?_⟩
    · simpa [List.filter_append, hroutine] using heach
    · simpa [List.filter_append, hroutine] using hprepares
  · exact .routine hinner hcode hs hr h

lemma Jumps.calls {make : Int16 → Instruction} {distance : Int} {i : Instruction}
    (h : Jumps make distance i) (hm : ∀ offset, (make offset).isCall = false) :
    (Code.one i).calls = [] := by
  rw [Code.calls_one, List.filter_singleton, h.2, hm]
  rfl

lemma Loads.isCall {node : Node} {name : String} {i : Instruction} (h : Loads c b node name i) :
    i.isCall = false := by
  unfold Loads at h
  split at h
  · rw [h]
    rfl
  · obtain ⟨token, -, rfl⟩ := h
    rfl
  · rw [h]
    rfl
  · rw [h]
    rfl
  · cases h

lemma Loads.calls {node : Node} {name : String} {i : Instruction} (h : Loads c b node name i) :
    (Code.one i).calls = [] := by
  rw [Code.calls_one, List.filter_singleton, h.isCall]
  rfl

lemma Stores.isCall {target : Target} {i : Instruction} (h : Stores c b target i) :
    i.isCall = false := by
  unfold Stores at h
  split at h
  · rw [h]
    rfl
  · obtain ⟨token, -, rfl⟩ := h
    rfl
  · cases h

lemma Stores.calls {target : Target} {i : Instruction} (h : Stores c b target i) :
    (Code.one i).calls = [] := by
  rw [Code.calls_one, List.filter_singleton, h.isCall]
  rfl

lemma Combines.callsMatch {op : BinaryOperator} {left right code : Code}
    (h : Combines op left right code) (hl : CallsMatch c b sites left)
    (hr : CallsMatch c b sites' right) : CallsMatch c b (sites ++ sites') code := by
  cases op with
  | and | or =>
    obtain ⟨first, second, leap, hfirst, hsecond, hleap, rfl⟩ := h
    have hfront := (hl.append_silent (hfirst.calls fun _ => rfl)).append hr
    refine hfront.append_silent ?_
    obtain ⟨-, rfl⟩ := hsecond
    obtain ⟨-, rfl⟩ := hleap
    rfl
  | _ =>
    cases h
    exact (hl.append hr).append_silent rfl

lemma ExitsClosed.callsMatch {beyond : Nat} {inner outer : Code}
    (h : ExitsClosed beyond inner outer) (hm : CallsMatch c b sites inner) :
    CallsMatch c b sites outer := by
  refine ⟨h.calls ▸ hm.each, fun k site hsite => ?_⟩
  obtain ⟨before, arguments, i, after, rfl, hi, hk, hcode⟩ := hm.prepares k site hsite
  have hfills := h.fills
  simp only [Array.toList_append] at hfills
  obtain ⟨front, behind, _, houter, hfront, -⟩ := hfills.append
  obtain ⟨front, call, _, rfl, hfront, hcall⟩ := hfront.append
  obtain ⟨front, middle, _, rfl, hfront, hmiddle⟩ := hfront.append
  -- the arguments and the call have no open jumps
  obtain rfl := hmiddle.eq_of_closed fun step hs =>
    hcode.closed site.arguments step (by simpa using hs)
  obtain rfl := hcall.eq_of_closed fun step hs => Code.closed_one i step (by simpa using hs)
  refine ⟨front.toArray, arguments, i, behind.toArray, Array.ext' (by simp [houter]), hi, ?_, hcode⟩
  have hcalls : Code.calls front.toArray = before.calls := by
    simpa [Code.calls, Code.instructions] using hfront.filter (p := Instruction.isCall) fun _ => rfl
  rwa [Code.calls_append, hcalls, ← Code.calls_append]

mutual

theorem ExpressionCode.calls (e : Expression) {code : Code} (h : ExpressionCode c b e code) :
    CallsMatch c b e.calls code := by
  cases e with
  | literal node value =>
    obtain ⟨i, -, rfl⟩ := h
    exact .silent rfl
  | name node text =>
    obtain ⟨i, hi, rfl⟩ := h
    exact .silent hi.calls
  | unary node op operand =>
    obtain ⟨inner, hi, rfl⟩ := h
    exact (ExpressionCode.calls operand hi).append_silent rfl
  | binary node op left right =>
    obtain ⟨l, r, hl, hr, hcode⟩ := h
    exact hcode.callsMatch (ExpressionCode.calls left hl) (ExpressionCode.calls right hr)
  | assign node target op value =>
    obtain ⟨keep, new, hkeep, hnew, hcode⟩ := h
    have hnew := ExpressionCode.calls value hnew
    cases hop : op.binary? with
    | some arithmetic =>
      simp only [hop] at hcode
      obtain ⟨old, hold, rfl⟩ := hcode
      exact (hnew.silent_append hold.calls).append_silent hkeep.calls
    | none =>
      simp only [hop] at hcode
      subst hcode
      exact hnew.append_silent hkeep.calls
  | step node target op =>
    obtain ⟨keep, old, hkeep, hold, rfl⟩ := h
    have hpair : CallsMatch c b [] (Code.one old ++
        #[.run (.load (.integer 1)), .run (.binary op.binary), .run .dup, .run keep]) :=
      (CallsMatch.silent hold.calls).append_silent hkeep.calls
    exact hpair
  | call node callee arguments =>
    obtain ⟨inner, i, hinner, hi, rfl⟩ := h
    exact .of_calls (ExpressionsCode.calls arguments hinner) hinner hi

theorem ExpressionsCode.calls (es : List Expression) {code : Code}
    (h : ExpressionsCode c b es code) : CallsMatch c b (Expression.callsAll es) code := by
  cases es with
  | nil =>
    cases h
    exact .silent rfl
  | cons e rest =>
    obtain ⟨first, more, hfirst, hmore, rfl⟩ := h
    exact (ExpressionCode.calls e hfirst).append (ExpressionsCode.calls rest hmore)

end

lemma VisitCode.calls {node : Node} {code : Code} (h : VisitCode c b node code) :
    CallsMatch c b [{ node, arguments := [] }] code := by
  obtain ⟨symbol, routine, i, hs, hr, hi, rfl⟩ := h
  have hcall : CallsMatch c b [⟨node, []⟩] (#[] ++ Code.one i) :=
    CallsMatch.routine (.silent rfl) rfl hs hr hi
  rw [Array.empty_append] at hcall
  have hpop : (Code.one .pop).calls = [] := rfl
  exact hcall.append_silent hpop

mutual

theorem StatementCode.calls (s : Statement) {inLoop : Bool} {code : Code}
    (h : StatementCode c b inLoop s code) : CallsMatch c b s.calls code := by
  cases s with
  | block node body => exact BlockCode.calls body h
  | ifThen node condition yes =>
    obtain ⟨test, skip, first, htest, hskip, hfirst, rfl⟩ := h
    exact ((ExpressionCode.calls condition htest).append_silent (hskip.calls fun _ => rfl)).append
      (StatementCode.calls yes hfirst)
  | ifElse node condition yes no =>
    obtain ⟨test, skip, first, leap, second, htest, hskip, hfirst, hleap, hsecond, rfl⟩ := h
    have hfront := ((ExpressionCode.calls condition htest).append_silent
      (hskip.calls fun _ => rfl)).append (StatementCode.calls yes hfirst)
    exact (hfront.append_silent (hleap.calls fun _ => rfl)).append (StatementCode.calls no hsecond)
  | loop node condition body =>
    obtain ⟨test, skip, inner, closed, back, htest, hskip, hinner, hclosed, hback, rfl⟩ := h
    have hfront := ((ExpressionCode.calls condition htest).append_silent
      (hskip.calls fun _ => rfl)).append (hclosed.callsMatch (StatementCode.calls body hinner))
    exact hfront.append_silent (hback.calls fun _ => rfl)
  | select node cases =>
    obtain ⟨inner, closed, back, hinner, hclosed, hback, rfl⟩ := h
    have hbody := hclosed.callsMatch (ChoicesCode.calls cases hinner)
    have hbegin : (Code.one .selectStart).calls = [] := rfl
    exact (hbody.silent_append hbegin).append_silent (hback.calls fun _ => rfl)
  | callChapter node target | callScene node target => exact VisitCode.calls h
  | ret node value =>
    cases value with
    | none =>
      cases h
      exact .silent rfl
    | some value =>
      obtain ⟨inner, hinner, rfl⟩ := h
      exact (ExpressionCode.calls value hinner).append_silent rfl
  | exit node =>
    obtain ⟨-, rfl⟩ := h
    exact .silent rfl
  | expression node value =>
    obtain ⟨inner, hinner, rfl⟩ := h
    exact (ExpressionCode.calls value hinner).append_silent rfl
  | dialogue node value => exact DialogueCode.calls value h
  | empty node =>
    cases h
    exact .silent rfl

theorem StatementsCode.calls (body : List Statement) {inLoop : Bool} {code : Code}
    (h : StatementsCode c b inLoop body code) :
    CallsMatch c b (Statement.callsAll body) code := by
  cases body with
  | nil =>
    cases h
    exact .silent rfl
  | cons s rest =>
    obtain ⟨first, more, hfirst, hmore, rfl⟩ := h
    exact (StatementCode.calls s hfirst).append (StatementsCode.calls rest hmore)

theorem BlockCode.calls (body : Block) {inLoop : Bool} {code : Code}
    (h : BlockCode c b inLoop body code) : CallsMatch c b body.calls code := by
  cases body with
  | mk node body => exact StatementsCode.calls body h

theorem ChoiceCode.calls (case : Choice) {code : Code} (h : ChoiceCode c b case code) :
    CallsMatch c b case.calls code := by
  cases case with
  | mk node label body =>
    obtain ⟨token, skip, inner, -, hskip, hinner, rfl⟩ := h
    have hhead : Code.calls #[.run (.isPressed token), .run skip] = [] :=
      hskip.calls fun _ => rfl
    exact ((StatementCode.calls body hinner).silent_append hhead).append_silent rfl

theorem ChoicesCode.calls (cases : List Choice) {code : Code} (h : ChoicesCode c b cases code) :
    CallsMatch c b (Choice.callsAll cases) code := by
  cases cases with
  | nil =>
    cases h
    exact .silent rfl
  | cons case rest =>
    obtain ⟨first, more, hfirst, hmore, rfl⟩ := h
    exact (ChoiceCode.calls case hfirst).append (ChoicesCode.calls rest hmore)

theorem DialogueCode.calls (value : Dialogue) {inLoop : Bool} {code : Code}
    (h : DialogueCode c b inLoop value code) : CallsMatch c b value.calls code := by
  cases value with
  | mk node box name parts =>
    obtain ⟨index, inner, hinner, rfl⟩ := h
    exact (DialoguePartsCode.calls parts hinner).silent_append rfl

theorem DialoguePartCode.calls (part : DialoguePart) {inLoop : Bool} {code : Code}
    (h : DialoguePartCode c b inLoop part code) : CallsMatch c b part.calls code := by
  cases part with
  | markup pieces span =>
    obtain ⟨token, -, rfl⟩ := h
    exact .silent rfl
  | code body => exact BlockCode.calls body h

theorem DialoguePartsCode.calls (parts : List DialoguePart) {inLoop : Bool} {code : Code}
    (h : DialoguePartsCode c b inLoop parts code) :
    CallsMatch c b (DialoguePart.callsAll parts) code := by
  cases parts with
  | nil =>
    cases h
    exact .silent rfl
  | cons part rest =>
    obtain ⟨first, more, hfirst, hmore, rfl⟩ := h
    exact (DialoguePartCode.calls part hfirst).append (DialoguePartsCode.calls rest hmore)

end

theorem MemberCode.calls {member : Member} {code : Code} (h : MemberCode c b member code) :
    CallsMatch c b member.calls code := by
  obtain ⟨inner, hinner, rfl⟩ := h
  refine CallsMatch.append_silent ?_ rfl
  cases member with
  | chapter node name body | scene node name body | function node name parameters body =>
    exact BlockCode.calls body hinner
  | dialogue value => exact DialogueCode.calls value hinner

end Emit

end Stagecraft
