import Stagecraft.Proofs.Code.Mentions
import Stagecraft.Proofs.Instruction.Stream

/-!
If a property holds of the places where the steps of a tree's code start, and of the place after the
last one, then it holds of every place that a jump in the code leads to.
-/

namespace Stagecraft

def Instruction.offset? : Instruction → Option Int16
  | .jump offset | .jumpIfTrue offset | .jumpIfFalse offset => some offset
  | _ => none

lemma Instruction.offset?_of_isMention {i : Instruction} (h : i.isMention) : i.offset? = none := by
  cases i with
  | jump _ | jumpIfTrue _ | jumpIfFalse _ => cases h
  | _ => rfl

lemma Instruction.size_of_offset? {i : Instruction} {offset : Int16}
    (h : i.offset? = some offset) : i.size = 3 := by
  cases i with
  | jump _ | jumpIfTrue _ | jumpIfFalse _ => rfl
  | _ => cases h

def Boundaries (B : Nat → Prop) : Nat → List Step → Prop
  | pos, [] => B pos
  | pos, step :: rest => B pos ∧ Boundaries B (pos + step.size) rest

def Code.Starts (code : Code) (start pos : Nat) : Prop :=
  ∃ before after : Code, code = before ++ after ∧ pos = start + before.extent

def LeadsTo (B : Nat → Prop) (pos : Nat) (i : Instruction) : Prop :=
  ∀ offset, i.offset? = some offset →
    ∃ target : Nat, (pos + i.size + offset.toInt : Int) = target ∧ B target

def Lands (B : Nat → Prop) (exit : Nat) : Nat → List Step → Prop
  | _, [] => True
  | pos, .run i :: rest => LeadsTo B pos i ∧ Lands B exit (pos + i.size) rest
  | pos, .leave :: rest => B exit ∧ Lands B exit (pos + Step.jumpSize) rest

variable {B : Nat → Prop} {exit exit' pos : Nat} {left right : Code} {i : Instruction}

lemma Boundaries.head {steps : List Step} (h : Boundaries B pos steps) : B pos := by
  cases steps with
  | nil => exact h
  | cons step rest => exact h.1

lemma Boundaries.append_iff {left right : List Step} : Boundaries B pos (left ++ right) ↔
    Boundaries B pos left ∧ Boundaries B (pos + (left.map Step.size).sum) right := by
  induction left generalizing pos with
  | nil => exact ⟨fun h => ⟨h.head, h⟩, And.right⟩
  | cons step rest ih => simp [Boundaries, ih, and_assoc, Nat.add_assoc]

lemma Boundaries.code_append_iff : Boundaries B pos (left ++ right).toList ↔
    Boundaries B pos left.toList ∧ Boundaries B (pos + left.extent) right.toList := by
  rw [Array.toList_append, append_iff, Code.extent_eq]

lemma Boundaries.one_iff : Boundaries B pos (Code.one i).toList ↔ B pos ∧ B (pos + i.size) :=
  Iff.rfl

lemma Boundaries.end {code : Code} (h : Boundaries B pos code.toList) : B (pos + code.extent) := by
  have h : Boundaries B pos (code ++ (#[] : Code)).toList := by simpa using h
  exact (code_append_iff.mp h).2

lemma Boundaries.mono {B' : Nat → Prop} {steps : List Step} (h : Boundaries B pos steps)
    (hB : ∀ p, B p → B' p) : Boundaries B' pos steps := by
  induction steps generalizing pos with
  | nil => exact hB _ h
  | cons step rest ih => exact ⟨hB _ h.1, ih h.2⟩

lemma Code.boundaries_starts (code : Code) (start : Nat) :
    Boundaries (code.Starts start) start code.toList := by
  have hstarts {before after : List Step} (h : code.toList = before ++ after) :
      code.Starts start (start + (before.map Step.size).sum) :=
    ⟨before.toArray, after.toArray, by rw [List.append_toArray, ← h], by rw [extent_toArray]⟩
  have hrest (before steps : List Step) (h : code.toList = before ++ steps) :
      Boundaries (code.Starts start) (start + (before.map Step.size).sum) steps := by
    induction steps generalizing before with
    | nil => exact hstarts h
    | cons step rest ih =>
      refine ⟨hstarts h, ?_⟩
      simpa [Nat.add_assoc] using ih (before ++ [step]) (by simpa using h)
  simpa using hrest [] code.toList rfl

lemma Lands.append_iff {left right : List Step} : Lands B exit pos (left ++ right) ↔
    Lands B exit pos left ∧ Lands B exit (pos + (left.map Step.size).sum) right := by
  induction left generalizing pos with
  | nil => simp [Lands]
  | cons step rest ih =>
    cases step with
    | run i => simp [Lands, ih, Step.size, and_assoc, Nat.add_assoc]
    | leave => simp [Lands, ih, Step.size, and_assoc, Nat.add_assoc]

lemma Lands.code_append_iff : Lands B exit pos (left ++ right).toList ↔
    Lands B exit pos left.toList ∧ Lands B exit (pos + left.extent) right.toList := by
  rw [Array.toList_append, append_iff, Code.extent_eq]

lemma Lands.one_iff : Lands B exit pos (Code.one i).toList ↔ LeadsTo B pos i :=
  and_iff_left trivial

lemma leadsTo_of_not_jump (h : i.offset? = none) : LeadsTo B pos i := by
  intro offset ho
  rw [h] at ho
  cases ho

lemma leadsTo_of_isMention (h : i.isMention) : LeadsTo B pos i :=
  leadsTo_of_not_jump (Instruction.offset?_of_isMention h)

lemma Fills.starts {n : Nat} {steps steps' : List Step} (h : Fills n steps steps')
    (hs : Boundaries B pos steps') : Boundaries B pos steps := by
  induction h generalizing pos with
  | nil => exact hs
  | run h ih => exact ⟨hs.1, ih hs.2⟩
  | leave ho h ih => exact ⟨hs.1, ih hs.2⟩

lemma Fills.lands {n : Nat} {steps steps' : List Step} (h : Fills n steps steps')
    (hl : Lands B (pos + n) pos steps) : Lands B exit pos steps' := by
  induction h generalizing pos with
  | nil => trivial
  | run h ih =>
    rw [← Nat.add_assoc] at hl
    exact ⟨hl.1, ih hl.2⟩
  | leave ho h ih =>
    rw [← Nat.add_assoc] at hl
    refine ⟨?_, ih hl.2⟩
    rintro _ ⟨⟩
    refine ⟨_, ?_, hl.1⟩
    rw [ho]
    rfl

def Code.located (code : Code) : List (Nat × Instruction) :=
  Instruction.located 0 (code.toList.map Step.instruction)

lemma starts_of_located {steps : List Step} (more : List Step) (hmore : more ≠ [])
    (h : ∀ x ∈ Instruction.located pos ((steps ++ more).map Step.instruction), B x.1) :
    Boundaries B pos steps := by
  induction steps generalizing pos with
  | nil =>
    cases more with
    | nil => exact absurd rfl hmore
    | cons step rest => exact h _ (List.mem_cons_self ..)
  | cons step rest ih =>
    rw [List.cons_append, List.map_cons, Instruction.located, List.forall_mem_cons,
      Step.size_instruction] at h
    exact ⟨h.1, ih h.2⟩

lemma Lands.leadsTo {steps : List Step} (h : Lands B exit pos steps)
    (hc : ∀ step ∈ steps, step ≠ .leave) (x : Nat × Instruction)
    (hx : x ∈ Instruction.located pos (steps.map Step.instruction)) : LeadsTo B x.1 x.2 := by
  induction steps generalizing pos with
  | nil => cases hx
  | cons step rest ih =>
    rw [List.forall_mem_cons] at hc
    cases step with
    | leave => exact absurd rfl hc.1
    | run i =>
      rw [List.map_cons, Instruction.located] at hx
      rcases List.mem_cons.mp hx with rfl | hx
      · exact h.1
      · exact ih h.2 hc.2 hx

namespace Emit

variable {c : Context} {b : Builder}

lemma Jumps.leadsTo {make : Int16 → Instruction} {distance : Int} {target : Nat}
    (h : Jumps make distance i) (hm : ∀ offset, (make offset).offset? = some offset)
    (ht : (pos + 3 + distance : Int) = target) (hB : B target) : LeadsTo B pos i := by
  obtain ⟨hd, rfl⟩ := h
  intro offset ho
  cases (hm _).symm.trans ho
  refine ⟨target, ?_, hB⟩
  rw [Instruction.size_of_offset? (hm _), Int16.toInt_ofInt_of_le hd.1 (by omega)]
  exact ht

lemma ShortCircuits.lands {branch : Int16 → Instruction} {decisive : Bool} {code : Code}
    (h : ShortCircuits branch decisive left right code)
    (hm : ∀ offset, (branch offset).offset? = some offset) (hs : Boundaries B pos code.toList)
    (hleft : Boundaries B pos left.toList → Lands B exit pos left.toList)
    (hright : ∀ p, Boundaries B p right.toList → Lands B exit p right.toList) :
    Lands B exit pos code.toList := by
  obtain ⟨first, second, leap, hfirst, hsecond, hleap, rfl⟩ := h
  have hfirst3 : first.size = 3 := hfirst.size fun _ => Instruction.size_of_offset? (hm _)
  have hsecond3 : second.size = 3 := hsecond.size fun _ => Instruction.size_of_offset? (hm _)
  have hleap3 : leap.size = 3 := hleap.size fun _ => rfl
  have hload (v : Bool) : (Instruction.load (.flag v)).size = 2 := rfl
  simp only [Boundaries.code_append_iff, Boundaries.one_iff] at hs
  obtain ⟨⟨⟨hsleft, -⟩, hsright⟩, -, -, -, hshort, hend⟩ := hs
  simp only [Code.extent_append, Code.extent_one, Step.size, hload, hfirst3, hsecond3, hleap3,
    Boundaries] at hsright hshort hend
  simp only [Lands.code_append_iff, Lands.one_iff, Code.extent_append, Code.extent_one, hfirst3]
  refine ⟨⟨⟨hleft hsleft, hfirst.leadsTo hm ?_ hshort⟩, hright _ hsright⟩,
    hsecond.leadsTo hm ?_ hshort, leadsTo_of_not_jump rfl,
    hleap.leadsTo (fun _ => rfl) ?_ hend, leadsTo_of_not_jump rfl, trivial⟩
  · push_cast
    omega
  · push_cast
    omega
  · simp only [hload, hsecond3]
    push_cast
    omega

mutual

theorem ExpressionCode.lands (e : Expression) {code : Code} {pos : Nat}
    (h : ExpressionCode c b e code) (hs : Boundaries B pos code.toList) :
    Lands B exit pos code.toList := by
  cases e with
  | literal node value =>
    obtain ⟨i, -, rfl⟩ := h
    exact Lands.one_iff.mpr (leadsTo_of_not_jump rfl)
  | name node text =>
    obtain ⟨i, hi, rfl⟩ := h
    exact Lands.one_iff.mpr (leadsTo_of_isMention hi.isMention)
  | unary node op operand =>
    obtain ⟨inner, hi, rfl⟩ := h
    rw [Boundaries.code_append_iff] at hs
    rw [Lands.code_append_iff, Lands.one_iff]
    exact ⟨ExpressionCode.lands operand hi hs.1, leadsTo_of_not_jump rfl⟩
  | binary node op left right =>
    obtain ⟨l, r, hl, hr, hcode⟩ := h
    cases op with
    | and | or =>
      exact ShortCircuits.lands hcode (fun _ => rfl) hs (ExpressionCode.lands left hl)
        fun _ => ExpressionCode.lands right hr
    | _ =>
      cases hcode
      rw [Boundaries.code_append_iff, Boundaries.code_append_iff] at hs
      rw [Lands.code_append_iff, Lands.code_append_iff, Lands.one_iff]
      exact ⟨⟨ExpressionCode.lands left hl hs.1.1, ExpressionCode.lands right hr hs.1.2⟩,
        leadsTo_of_not_jump rfl⟩
  | assign node target op value =>
    obtain ⟨keep, new, hkeep, hnew, hcode⟩ := h
    cases hop : op.binary? with
    | some arithmetic =>
      simp only [hop] at hcode
      obtain ⟨old, hold, rfl⟩ := hcode
      rw [Boundaries.code_append_iff, Boundaries.code_append_iff] at hs
      rw [Lands.code_append_iff, Lands.code_append_iff, Lands.one_iff]
      exact ⟨⟨leadsTo_of_isMention hold.isMention, ExpressionCode.lands value hnew hs.1.2⟩,
        leadsTo_of_not_jump rfl, leadsTo_of_not_jump rfl, leadsTo_of_isMention hkeep.isMention,
        trivial⟩
    | none =>
      simp only [hop] at hcode
      subst hcode
      rw [Boundaries.code_append_iff] at hs
      rw [Lands.code_append_iff]
      exact ⟨ExpressionCode.lands value hnew hs.1, leadsTo_of_not_jump rfl,
        leadsTo_of_isMention hkeep.isMention, trivial⟩
  | step node target op =>
    obtain ⟨keep, old, hkeep, hold, rfl⟩ := h
    exact ⟨leadsTo_of_isMention hold.isMention, leadsTo_of_not_jump rfl, leadsTo_of_not_jump rfl,
      leadsTo_of_not_jump rfl, leadsTo_of_isMention hkeep.isMention, trivial⟩
  | call node callee arguments =>
    obtain ⟨inner, i, hinner, hi, rfl⟩ := h
    rw [Boundaries.code_append_iff] at hs
    rw [Lands.code_append_iff, Lands.one_iff]
    exact ⟨ExpressionsCode.lands arguments hinner hs.1, leadsTo_of_isMention hi.isMention⟩

theorem ExpressionsCode.lands (es : List Expression) {code : Code} {pos : Nat}
    (h : ExpressionsCode c b es code) (hs : Boundaries B pos code.toList) :
    Lands B exit pos code.toList := by
  cases es with
  | nil =>
    cases h
    trivial
  | cons e rest =>
    obtain ⟨first, more, hfirst, hmore, rfl⟩ := h
    rw [Boundaries.code_append_iff] at hs
    rw [Lands.code_append_iff]
    exact ⟨ExpressionCode.lands e hfirst hs.1, ExpressionsCode.lands rest hmore hs.2⟩

end

mutual

theorem StatementCode.lands (s : Statement) {inLoop : Bool} {code : Code} {pos exit : Nat}
    (h : StatementCode c b inLoop s code) (hs : Boundaries B pos code.toList)
    (hexit : inLoop → B exit) : Lands B exit pos code.toList := by
  cases s with
  | block node body => exact BlockCode.lands body h hs hexit
  | ifThen node condition yes =>
    obtain ⟨test, skip, first, htest, hskip, hfirst, rfl⟩ := h
    have hskip3 : skip.size = 3 := hskip.size fun _ => rfl
    have hend := hs.end
    rw [Boundaries.code_append_iff, Boundaries.code_append_iff] at hs
    rw [Lands.code_append_iff, Lands.code_append_iff, Lands.one_iff]
    refine ⟨⟨ExpressionCode.lands condition htest hs.1.1, hskip.leadsTo (fun _ => rfl) ?_ hend⟩,
      StatementCode.lands yes hfirst hs.2 hexit⟩
    simp only [Code.extent_append, Code.extent_one, hskip3]
    push_cast
    omega
  | ifElse node condition yes no =>
    obtain ⟨test, skip, first, leap, second, htest, hskip, hfirst, hleap, hsecond, rfl⟩ := h
    have hskip3 : skip.size = 3 := hskip.size fun _ => rfl
    have hleap3 : leap.size = 3 := hleap.size fun _ => rfl
    have hend := hs.end
    simp only [Boundaries.code_append_iff] at hs
    obtain ⟨⟨⟨⟨hstest, -⟩, hsfirst⟩, -⟩, hssecond⟩ := hs
    simp only [Lands.code_append_iff, Lands.one_iff]
    refine ⟨⟨⟨⟨ExpressionCode.lands condition htest hstest,
      hskip.leadsTo (fun _ => rfl) ?_ hssecond.head⟩, StatementCode.lands yes hfirst hsfirst hexit⟩,
      hleap.leadsTo (fun _ => rfl) ?_ hend⟩, StatementCode.lands no hsecond hssecond hexit⟩
    · simp only [Code.extent_append, Code.extent_one, hskip3, hleap3]
      push_cast
      omega
    · simp only [Code.extent_append, Code.extent_one, hskip3, hleap3]
      push_cast
      omega
  | loop node condition body =>
    obtain ⟨test, skip, inner, closed, back, htest, hskip, hinner, hclosed, hback, rfl⟩ := h
    have hskip3 : skip.size = 3 := hskip.size fun _ => rfl
    have hback3 : back.size = 3 := hback.size fun _ => rfl
    have hstart := hs.head
    have hend := hs.end
    simp only [Boundaries.code_append_iff] at hs
    obtain ⟨⟨⟨hstest, -⟩, hsclosed⟩, -⟩ := hs
    simp only [Lands.code_append_iff, Lands.one_iff]
    -- filling in the open jumps of the body moves no step
    refine ⟨⟨⟨ExpressionCode.lands condition htest hstest, hskip.leadsTo (fun _ => rfl) ?_ hend⟩,
      hclosed.fills.lands
        (StatementCode.lands body hinner (hclosed.fills.starts hsclosed) fun _ => ?_)⟩,
      hback.leadsTo (fun _ => rfl) ?_ hstart⟩
    · simp only [Code.extent_append, Code.extent_one, hskip3, hback3, hclosed.extent]
      push_cast
      omega
    · simpa only [Code.extent_append, Code.extent_one, hskip3, hback3, hclosed.extent,
        ← Nat.add_assoc] using hend
    · simp only [Code.extent_append, Code.extent_one, hskip3, hclosed.extent]
      push_cast
      omega
  | select node cases =>
    obtain ⟨inner, closed, back, hinner, hclosed, hback, rfl⟩ := h
    have hback3 : back.size = 3 := hback.size fun _ => rfl
    have hstart1 : Instruction.selectStart.size = 1 := rfl
    have hend1 : Instruction.selectEnd.size = 1 := rfl
    have hend := hs.end
    simp only [Boundaries.code_append_iff] at hs
    obtain ⟨⟨⟨-, hbegin⟩, hsclosed⟩, -⟩ := hs
    simp only [Lands.code_append_iff, Lands.one_iff]
    refine ⟨⟨leadsTo_of_not_jump rfl, hclosed.fills.lands
      (ChoicesCode.lands cases hinner (hclosed.fills.starts hsclosed) ?_)⟩,
      leadsTo_of_not_jump rfl, hback.leadsTo (fun _ => rfl) ?_ hbegin, trivial⟩
    · simpa [Step.size, hend1, hback3, hclosed.extent, Nat.add_assoc] using hend
    · simp only [Code.extent_append, Code.extent_one, Step.size, hstart1, hend1, hclosed.extent]
      push_cast
      omega
  | callChapter node target | callScene node target =>
    obtain ⟨symbol, routine, i, -, -, hi, rfl⟩ := h
    exact ⟨leadsTo_of_isMention hi.isMention, leadsTo_of_not_jump rfl, trivial⟩
  | ret node value =>
    cases value with
    | none =>
      cases h
      exact ⟨leadsTo_of_not_jump rfl, leadsTo_of_not_jump rfl, trivial⟩
    | some value =>
      obtain ⟨inner, hinner, rfl⟩ := h
      rw [Boundaries.code_append_iff] at hs
      rw [Lands.code_append_iff, Lands.one_iff]
      exact ⟨ExpressionCode.lands value hinner hs.1, leadsTo_of_not_jump rfl⟩
  | exit node =>
    obtain ⟨hloop, rfl⟩ := h
    exact ⟨hexit hloop, trivial⟩
  | expression node value =>
    obtain ⟨inner, hinner, rfl⟩ := h
    rw [Boundaries.code_append_iff] at hs
    rw [Lands.code_append_iff, Lands.one_iff]
    exact ⟨ExpressionCode.lands value hinner hs.1, leadsTo_of_not_jump rfl⟩
  | dialogue node value => exact DialogueCode.lands value h hs hexit
  | empty node =>
    cases h
    trivial

theorem StatementsCode.lands (body : List Statement) {inLoop : Bool} {code : Code} {pos exit : Nat}
    (h : StatementsCode c b inLoop body code) (hs : Boundaries B pos code.toList)
    (hexit : inLoop → B exit) : Lands B exit pos code.toList := by
  cases body with
  | nil =>
    cases h
    trivial
  | cons s rest =>
    obtain ⟨first, more, hfirst, hmore, rfl⟩ := h
    rw [Boundaries.code_append_iff] at hs
    rw [Lands.code_append_iff]
    exact ⟨StatementCode.lands s hfirst hs.1 hexit, StatementsCode.lands rest hmore hs.2 hexit⟩

theorem BlockCode.lands (body : Block) {inLoop : Bool} {code : Code} {pos exit : Nat}
    (h : BlockCode c b inLoop body code) (hs : Boundaries B pos code.toList)
    (hexit : inLoop → B exit) : Lands B exit pos code.toList := by
  cases body with
  | mk node body => exact StatementsCode.lands body h hs hexit

theorem ChoiceCode.lands (case : Choice) {code : Code} {pos exit : Nat}
    (h : ChoiceCode c b case code) (hs : Boundaries B pos code.toList) (hexit : B exit) :
    Lands B exit pos code.toList := by
  cases case with
  | mk node label body =>
    obtain ⟨token, skip, inner, -, hskip, hinner, rfl⟩ := h
    have hskip3 : skip.size = 3 := hskip.size fun _ => rfl
    have htest3 : (Instruction.isPressed token).size = 3 := rfl
    have hend := hs.end
    simp only [Boundaries.code_append_iff] at hs
    simp only [Lands.code_append_iff]
    refine ⟨⟨⟨leadsTo_of_not_jump rfl, hskip.leadsTo (fun _ => rfl) ?_ hend, trivial⟩,
      StatementCode.lands body hinner hs.1.2 fun _ => hexit⟩, hexit, trivial⟩
    simp only [Code.extent_append, Code.extent_toArray, List.map_cons, List.map_nil,
      List.sum_cons, List.sum_nil, Step.size, htest3, hskip3, Step.jumpSize]
    push_cast
    omega

theorem ChoicesCode.lands (cases : List Choice) {code : Code} {pos exit : Nat}
    (h : ChoicesCode c b cases code) (hs : Boundaries B pos code.toList) (hexit : B exit) :
    Lands B exit pos code.toList := by
  cases cases with
  | nil =>
    cases h
    trivial
  | cons case rest =>
    obtain ⟨first, more, hfirst, hmore, rfl⟩ := h
    rw [Boundaries.code_append_iff] at hs
    rw [Lands.code_append_iff]
    exact ⟨ChoiceCode.lands case hfirst hs.1 hexit, ChoicesCode.lands rest hmore hs.2 hexit⟩

theorem DialogueCode.lands (value : Dialogue) {inLoop : Bool} {code : Code} {pos exit : Nat}
    (h : DialogueCode c b inLoop value code) (hs : Boundaries B pos code.toList)
    (hexit : inLoop → B exit) : Lands B exit pos code.toList := by
  cases value with
  | mk node box name parts =>
    obtain ⟨index, inner, hinner, rfl⟩ := h
    rw [Boundaries.code_append_iff] at hs
    rw [Lands.code_append_iff, Lands.one_iff]
    exact ⟨leadsTo_of_not_jump rfl, DialoguePartsCode.lands parts hinner hs.2 hexit⟩

theorem DialoguePartCode.lands (part : DialoguePart) {inLoop : Bool} {code : Code}
    {pos exit : Nat} (h : DialoguePartCode c b inLoop part code) (hs : Boundaries B pos code.toList)
    (hexit : inLoop → B exit) : Lands B exit pos code.toList := by
  cases part with
  | markup pieces span =>
    obtain ⟨token, -, rfl⟩ := h
    exact Lands.one_iff.mpr (leadsTo_of_not_jump rfl)
  | code body => exact BlockCode.lands body h hs hexit

theorem DialoguePartsCode.lands (parts : List DialoguePart) {inLoop : Bool} {code : Code}
    {pos exit : Nat} (h : DialoguePartsCode c b inLoop parts code)
    (hs : Boundaries B pos code.toList) (hexit : inLoop → B exit) : Lands B exit pos code.toList := by
  cases parts with
  | nil =>
    cases h
    trivial
  | cons part rest =>
    obtain ⟨first, more, hfirst, hmore, rfl⟩ := h
    rw [Boundaries.code_append_iff] at hs
    rw [Lands.code_append_iff]
    exact ⟨DialoguePartCode.lands part hfirst hs.1 hexit,
      DialoguePartsCode.lands rest hmore hs.2 hexit⟩

end

theorem MemberCode.lands {member : Member} {code : Code} (h : MemberCode c b member code)
    (x : Nat × Instruction) (hx : x ∈ code.located) :
    LeadsTo (fun p => ∃ y ∈ code.located, y.1 = p) x.1 x.2 := by
  have hclosed := h.closed
  generalize hB : (fun p => ∃ y ∈ code.located, y.1 = p) = B
  obtain ⟨inner, hinner, rfl⟩ := h
  -- the place after the inner code is one where an instruction starts, too
  have hs : Boundaries B 0 inner.toList := by
    subst hB
    refine starts_of_located [.run (.load .null), .run .ret] (by simp) fun y hy => ?_
    exact ⟨y, by simpa [Code.located] using hy, rfl⟩
  have hexit : false = true → B 0 := nofun
  have hlands : Lands B 0 0 inner.toList := by
    cases member with
    | chapter node name body | scene node name body | function node name parameters body =>
      exact BlockCode.lands body hinner hs hexit
    | dialogue value => exact DialogueCode.lands value hinner hs hexit
  have hall : Lands B 0 0 (inner ++ (#[.run (.load .null), .run .ret] : Code)).toList := by
    rw [Lands.code_append_iff]
    exact ⟨hlands, leadsTo_of_not_jump rfl, leadsTo_of_not_jump rfl, trivial⟩
  exact hall.leadsTo (fun step hstep => hclosed step (by simpa using hstep)) x hx

end Emit

end Stagecraft
