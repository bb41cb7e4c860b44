import Stagecraft.Proofs.Code.Mentions
import Stagecraft.Proofs.Instruction.Stream

namespace Stagecraft

namespace Instruction

def begun? : Nat × Instruction → Option (UInt16 × Nat)
  | (pos, .beginDialogue index) => some (index, pos)
  | _ => none

lemma begun?_of_ne {i : Instruction} (h : ∀ index, i ≠ .beginDialogue index) (pos : Nat) :
    begun? (pos, i) = none := by
  cases i <;> first | rfl | exact absurd rfl (h _)

lemma begun?_of_isMention {i : Instruction} (h : i.isMention) (pos : Nat) :
    begun? (pos, i) = none :=
  begun?_of_ne (by rintro index rfl; cases h) pos

lemma located_append (pos : Nat) (is js : List Instruction) :
    located pos (is ++ js) = located pos is ++ located (pos + (is.map size).sum) js := by
  induction is generalizing pos with
  | nil => rfl
  | cons i rest ih => simp [located, ih, Nat.add_assoc]

end Instruction

namespace Code

def begins (start : Nat) (code : Code) : List (UInt16 × Nat) :=
  (Instruction.located start (code.toList.map Step.instruction)).filterMap Instruction.begun?

@[simp] lemma begins_append (start : Nat) (left right : Code) :
    (left ++ right).begins start = left.begins start ++ right.begins (start + left.extent) := by
  have hsize : ((left.toList.map Step.instruction).map Instruction.size).sum = left.extent := by
    rw [extent_eq, List.map_map]
    exact congrArg List.sum (List.map_congr_left fun step _ => step.size_instruction)
  rw [begins, Array.toList_append, List.map_append, Instruction.located_append, hsize,
    List.filterMap_append]
  rfl

@[simp] lemma begins_nil (start : Nat) : begins start #[] = [] := rfl

@[simp] lemma begins_toArray_cons (start : Nat) (step : Step) (rest : List Step) :
    begins start (step :: rest).toArray =
      (Instruction.begun? (start, step.instruction)).toList ++
        begins (start + step.size) rest.toArray := by
  rw [← step.size_instruction, begins, begins]
  simp only [List.map_cons, Instruction.located, List.filterMap_cons]
  cases Instruction.begun? (start, step.instruction) <;> rfl

@[simp] lemma begins_one (start : Nat) (i : Instruction) :
    (one i).begins start = (Instruction.begun? (start, i)).toList := by
  rw [one, begins_toArray_cons]
  simp [Step.instruction]

lemma encode_located (code : Code) :
    ∃ found, Instruction.decodeAll code.encode = .ok found ∧
      found.filterMap Instruction.begun? = code.begins 0 :=
  ⟨_, Instruction.decodeAll_encodeAll _, rfl⟩

end Code

lemma Fills.begins {left : Nat} {steps steps' : List Step} (h : Fills left steps steps')
    (start : Nat) : Code.begins start steps'.toArray = Code.begins start steps.toArray := by
  induction h generalizing start with
  | nil => rfl
  | run h ih => rw [Code.begins_toArray_cons, Code.begins_toArray_cons, ih]
  | leave ho h ih =>
    rw [Code.begins_toArray_cons, Code.begins_toArray_cons]
    exact congrArg _ (ih _)

def Draft.places (d : Draft) : List (UInt16 × Nat) :=
  d.marks.toList.map fun mark => (mark.1, mark.2.offset.toNat)

namespace Emit

variable {c : Context} {b : Builder} {d d' : Draft}

lemma ExitsClosed.begins {beyond : Nat} {inner outer : Code} (h : ExitsClosed beyond inner outer)
    (start : Nat) : outer.begins start = inner.begins start :=
  h.fills.begins start

lemma Jumps.begun? {make : Int16 → Instruction} {distance : Int} {i : Instruction}
    (h : Jumps make distance i) (hm : ∀ offset pos, Instruction.begun? (pos, make offset) = none)
    (pos : Nat) : Instruction.begun? (pos, i) = none := by
  rw [h.2, hm]

lemma ShortCircuits.begins {branch : Int16 → Instruction} {decisive : Bool} {left right code : Code}
    (h : ShortCircuits branch decisive left right code)
    (hb : ∀ offset pos, Instruction.begun? (pos, branch offset) = none) (start : Nat)
    (hl : ∀ start, left.begins start = []) (hr : ∀ start, right.begins start = []) :
    code.begins start = [] := by
  obtain ⟨first, second, leap, hfirst, hsecond, ⟨-, rfl⟩, rfl⟩ := h
  simp [hl, hr, hfirst.begun? hb, hsecond.begun? hb, Step.instruction, Instruction.begun?_of_ne]

lemma Combines.begins {op : BinaryOperator} {left right code : Code} (h : Combines op left right code)
    (start : Nat) (hl : ∀ start, left.begins start = []) (hr : ∀ start, right.begins start = []) :
    code.begins start = [] := by
  cases op with
  | and | or => exact ShortCircuits.begins h (fun _ _ => rfl) start hl hr
  | _ =>
    cases h
    simp [hl, hr, Instruction.begun?_of_ne]

mutual

theorem ExpressionCode.begins (e : Expression) {code : Code} (h : ExpressionCode c b e code)
    (start : Nat) : code.begins start = [] := by
  cases e with
  | literal node value =>
    obtain ⟨i, -, rfl⟩ := h
    simp [Instruction.begun?_of_ne]
  | name node text =>
    obtain ⟨i, hi, rfl⟩ := h
    simp [Instruction.begun?_of_isMention hi.isMention]
  | unary node op operand =>
    obtain ⟨inner, hi, rfl⟩ := h
    simp [ExpressionCode.begins operand hi, Instruction.begun?_of_ne]
  | binary node op left right =>
    obtain ⟨l, r, hl, hr, hcode⟩ := h
    exact hcode.begins start (ExpressionCode.begins left hl) (ExpressionCode.begins right hr)
  | assign node target op value =>
    obtain ⟨keep, new, hkeep, hnew, hcode⟩ := h
    have hkeep := Instruction.begun?_of_isMention hkeep.isMention
    have hnew := ExpressionCode.begins value hnew
    split at hcode
    · obtain ⟨old, hold, rfl⟩ := hcode
      simp [Instruction.begun?_of_isMention hold.isMention, hkeep, hnew, Step.instruction,
        Instruction.begun?_of_ne]
    · cases hcode
      simp [hkeep, hnew, Step.instruction, Instruction.begun?_of_ne]
  | step node target op =>
    obtain ⟨keep, old, hkeep, hold, rfl⟩ := h
    simp [Instruction.begun?_of_isMention hkeep.isMention,
      Instruction.begun?_of_isMention hold.isMention, Step.instruction, Instruction.begun?_of_ne]
  | call node callee arguments =>
    obtain ⟨inner, i, hinner, hi, rfl⟩ := h
    simp [ExpressionsCode.begins arguments hinner, Instruction.begun?_of_isMention hi.isMention]

theorem ExpressionsCode.begins (es : List Expression) {code : Code}
    (h : ExpressionsCode c b es code) (start : Nat) : code.begins start = [] := by
  cases es with
  | nil =>
    cases h
    rfl
  | cons e rest =>
    obtain ⟨first, more, hfirst, hmore, rfl⟩ := h
    simp [ExpressionCode.begins e hfirst, ExpressionsCode.begins rest hmore]

end

def Marks (start : Nat) (d d' : Draft) (code : Code) : Prop :=
  d'.places = d.places ++ code.begins start

variable {d₁ : Draft} {start : Nat} {code more : Code}

lemma Leads.marks_of_begins (h : Leads d d') (hcode : code.begins start = []) :
    Marks start d d' code := by
  rw [Marks, Draft.places, h.marks, hcode, List.append_nil]
  rfl

lemma Marks.append (h : Marks start d d₁ code) (h' : Marks (start + code.extent) d₁ d' more) :
    Marks start d d' (code ++ more) := by
  rw [Marks, h', h, Code.begins_append, List.append_assoc]

lemma Marks.extend (h : Marks start d d' code) (hmore : ∀ pos, more.begins pos = []) :
    Marks start d d' (code ++ more) := by
  rw [Marks, Code.begins_append, hmore, List.append_nil]
  exact h

lemma Marks.close {beyond : Nat} (h : Marks start d d' code) (hc : ExitsClosed beyond code more) :
    Marks start d d' more := by
  rw [Marks, hc.begins]
  exact h

lemma Jumps.begins {make : Int16 → Instruction} {distance : Int} {i : Instruction}
    (h : Jumps make distance i) (hm : ∀ offset pos, Instruction.begun? (pos, make offset) = none)
    (pos : Nat) : (Code.one i).begins pos = [] := by
  simp [h.begun? hm]

lemma expression_marks (e : Expression) (hs : d.builder.Sound)
    (h : expression c e d = (.ok code, d')) (start : Nat) : Marks start d d' code := by
  obtain ⟨hl, hcode⟩ := expression_ok e hs h
  exact hl.marks_of_begins (ExpressionCode.begins e (hcode _ (.refl _)) start)

lemma visit_marks {node : Node} {target : String} (hs : d.builder.Sound)
    (h : visit c node target d = (.ok code, d')) (start : Nat) : Marks start d d' code := by
  obtain ⟨hl, hcode⟩ := visit_ok hs h
  obtain ⟨symbol, routine, i, -, -, hi, rfl⟩ := hcode _ (.refl _)
  refine hl.marks_of_begins ?_
  simp [Step.instruction, Instruction.begun?_of_isMention hi.isMention, Instruction.begun?_of_ne]

mutual

theorem statement_marks (s : Statement) {inLoop : Bool} {start : Nat} {d d' : Draft} {code : Code}
    (hs : d.builder.Sound) (h : statement c inLoop start s d = (.ok code, d')) :
    Marks start d d' code := by
  cases s with
  | block node body => exact block_marks body hs h
  | ifThen node condition yes =>
    obtain ⟨test, d₁, htest, h⟩ := bind_ok.mp h
    obtain ⟨first, d₂, hfirst, h⟩ := bind_ok.mp h
    obtain ⟨skip, d₃, eskip, h⟩ := bind_ok.mp h
    obtain ⟨rfl, rfl⟩ := pure_ok.mp h
    obtain ⟨hskip, rfl⟩ := jump_ok eskip
    have hsize : skip.size = 3 := hskip.size fun _ => rfl
    have hs₁ := (expression_ok condition hs htest).1.builder.sound hs
    refine ((expression_marks condition hs htest start).extend
      (hskip.begins fun _ _ => rfl)).append ?_
    simpa [hsize, Step.jumpSize, Nat.add_assoc] using statement_marks yes hs₁ hfirst
  | ifElse node condition yes no =>
    obtain ⟨test, d₁, htest, h⟩ := bind_ok.mp h
    obtain ⟨first, d₂, hfirst, h⟩ := bind_ok.mp h
    obtain ⟨skip, d₃, eskip, h⟩ := bind_ok.mp h
    obtain ⟨second, d₄, hsecond, h⟩ := bind_ok.mp h
    obtain ⟨leap, d₅, eleap, h⟩ := bind_ok.mp h
    obtain ⟨rfl, rfl⟩ := pure_ok.mp h
    obtain ⟨hskip, rfl⟩ := jump_ok eskip
    obtain ⟨hleap, rfl⟩ := jump_ok eleap
    have hskipSize : skip.size = 3 := hskip.size fun _ => rfl
    have hleapSize : leap.size = 3 := hleap.size fun _ => rfl
    have hs₁ := (expression_ok condition hs htest).1.builder.sound hs
    have hs₂ := (statement_ok yes hs₁ hfirst).1.builder.sound hs₁
    have htest := (expression_marks condition hs htest start).extend (hskip.begins fun _ _ => rfl)
    have hfirst : Marks (start + (test ++ Code.one skip).extent) d₁ d₂ first := by
      simpa [hskipSize, Step.jumpSize, Nat.add_assoc] using statement_marks yes hs₁ hfirst
    refine ((htest.append hfirst).extend (hleap.begins fun _ _ => rfl)).append ?_
    simpa [hskipSize, hleapSize, Step.jumpSize, Nat.add_assoc] using statement_marks no hs₂ hsecond
  | loop node condition body =>
    obtain ⟨test, d₁, htest, h⟩ := bind_ok.mp h
    obtain ⟨inner, d₂, hinner, h⟩ := bind_ok.mp h
    obtain ⟨back, d₃, eback, h⟩ := bind_ok.mp h
    obtain ⟨skip, d₄, eskip, h⟩ := bind_ok.mp h
    obtain ⟨closed, d₅, eclosed, h⟩ := bind_ok.mp h
    obtain ⟨rfl, rfl⟩ := pure_ok.mp h
    obtain ⟨hback, rfl⟩ := jump_ok eback
    obtain ⟨hskip, rfl⟩ := jump_ok eskip
    obtain ⟨hclosed, rfl⟩ := closeExits_ok eclosed
    have hsize : skip.size = 3 := hskip.size fun _ => rfl
    have hs₁ := (expression_ok condition hs htest).1.builder.sound hs
    -- closing the open jumps begins no dialogue block
    have hinner := (statement_marks body hs₁ hinner).close hclosed
    refine (((expression_marks condition hs htest start).extend
      (hskip.begins fun _ _ => rfl)).append ?_).extend (hback.begins fun _ _ => rfl)
    simpa [hsize, Step.jumpSize, Nat.add_assoc] using hinner
  | select node cases =>
    obtain ⟨inner, d₁, hinner, h⟩ := bind_ok.mp h
    obtain ⟨back, d₂, eback, h⟩ := bind_ok.mp h
    obtain ⟨closed, d₃, eclosed, h⟩ := bind_ok.mp h
    obtain ⟨rfl, rfl⟩ := pure_ok.mp h
    obtain ⟨hback, rfl⟩ := jump_ok eback
    obtain ⟨hclosed, rfl⟩ := closeExits_ok eclosed
    obtain ⟨more, hmore, hinner⟩ := choices_marks cases hs hinner
    rw [Array.empty_append] at hmore
    subst hmore
    have hbegin : Marks start d d (Code.one .selectStart) :=
      (Leads.refl d).marks_of_begins (by simp [Instruction.begun?_of_ne])
    refine (hbegin.append ?_).extend fun pos => ?_
    · simpa using hinner.close hclosed
    · simp [Step.instruction, Instruction.begun?_of_ne, hback.begun? fun _ _ => rfl]
  | callChapter node target => exact visit_marks hs h start
  | callScene node target => exact visit_marks hs h start
  | ret node value =>
    cases value with
    | none =>
      obtain ⟨rfl, rfl⟩ := pure_ok.mp h
      exact (Leads.refl d).marks_of_begins
        (by simp [Step.instruction, Instruction.begun?_of_ne])
    | some value =>
      obtain ⟨inner, d₁, hinner, h⟩ := bind_ok.mp h
      obtain ⟨rfl, rfl⟩ := pure_ok.mp h
      exact (expression_marks value hs hinner start).extend
        fun pos => by simp [Instruction.begun?_of_ne]
  | exit node =>
    rw [statement] at h
    split at h
    · obtain ⟨rfl, rfl⟩ := pure_ok.mp h
      exact (Leads.refl d).marks_of_begins
        (by simp [Step.instruction, Instruction.begun?_of_ne])
    · exact absurd h fail_not_ok
  | expression node value =>
    obtain ⟨inner, d₁, hinner, h⟩ := bind_ok.mp h
    obtain ⟨rfl, rfl⟩ := pure_ok.mp h
    exact (expression_marks value hs hinner start).extend
      fun pos => by simp [Instruction.begun?_of_ne]
  | dialogue node value => exact dialogue_marks value hs h
  | empty node =>
    obtain ⟨rfl, rfl⟩ := pure_ok.mp h
    exact (Leads.refl d).marks_of_begins rfl

theorem statements_marks (body : List Statement) {inLoop : Bool} {next : Nat} {d d' : Draft}
    {before code : Code} (hs : d.builder.Sound)
    (h : statements c inLoop next before body d = (.ok code, d')) :
    ∃ more, code = before ++ more ∧ Marks next d d' more := by
  cases body with
  | nil =>
    obtain ⟨rfl, rfl⟩ := pure_ok.mp h
    exact ⟨#[], by simp, (Leads.refl d).marks_of_begins rfl⟩
  | cons s rest =>
    obtain ⟨first, d₁, hfirst, h⟩ := bind_ok.mp h
    have hs₁ := (statement_ok s hs hfirst).1.builder.sound hs
    obtain ⟨more, rfl, hmore⟩ := statements_marks rest hs₁ h
    exact ⟨first ++ more, by simp, (statement_marks s hs hfirst).append hmore⟩

theorem block_marks (body : Block) {inLoop : Bool} {start : Nat} {d d' : Draft} {code : Code}
    (hs : d.builder.Sound) (h : block c inLoop start body d = (.ok code, d')) :
    Marks start d d' code := by
  cases body with
  | mk node body =>
    obtain ⟨more, hmore, hmarks⟩ := statements_marks body hs h
    rw [Array.empty_append] at hmore
    exact hmore ▸ hmarks

theorem choice_marks (case : Choice) {start : Nat} {d d' : Draft} {code : Code}
    (hs : d.builder.Sound) (h : choice c start case d = (.ok code, d')) :
    Marks start d d' code := by
  cases case with
  | mk node label body =>
    obtain ⟨token, d₁, htoken, h⟩ := bind_ok.mp h
    obtain ⟨inner, d₂, hinner, h⟩ := bind_ok.mp h
    obtain ⟨skip, d₃, eskip, h⟩ := bind_ok.mp h
    obtain ⟨rfl, rfl⟩ := pure_ok.mp h
    obtain ⟨hskip, rfl⟩ := jump_ok eskip
    obtain ⟨hl, -⟩ := intern_ok htoken
    have hsize : skip.size = 3 := hskip.size fun _ => rfl
    have htest : Marks start d d₁ #[.run (.isPressed token), .run skip] :=
      hl.marks_of_begins (by
        simp [Step.instruction, Instruction.begun?_of_ne, hskip.begun? fun _ _ => rfl])
    refine (htest.append ?_).extend fun pos => by simp [Step.instruction, Instruction.begun?_of_ne]
    simpa [Step.size, hsize, Step.jumpSize, Nat.add_assoc] using
      statement_marks body (hl.builder.sound hs) hinner

theorem choices_marks (cases : List Choice) {next : Nat} {d d' : Draft} {before code : Code}
    (hs : d.builder.Sound) (h : choices c next before cases d = (.ok code, d')) :
    ∃ more, code = before ++ more ∧ Marks next d d' more := by
  cases cases with
  | nil =>
    obtain ⟨rfl, rfl⟩ := pure_ok.mp h
    exact ⟨#[], by simp, (Leads.refl d).marks_of_begins rfl⟩
  | cons case rest =>
    obtain ⟨first, d₁, hfirst, h⟩ := bind_ok.mp h
    have hs₁ := (choice_ok case hs hfirst).1.builder.sound hs
    obtain ⟨more, rfl, hmore⟩ := choices_marks rest hs₁ h
    exact ⟨first ++ more, by simp, (choice_marks case hs hfirst).append hmore⟩

theorem dialogue_marks (value : Dialogue) {inLoop : Bool} {start : Nat} {d d' : Draft} {code : Code}
    (hs : d.builder.Sound) (h : dialogue c inLoop start value d = (.ok code, d')) :
    Marks start d d' code := by
  cases value with
  | mk node box name parts =>
    cases hsymbol : c.table.dialogueOf? node.id with
    | none =>
      simp only [dialogue, hsymbol] at h
      exact absurd h fail_not_ok
    | some symbol =>
      simp only [dialogue, hsymbol] at h
      split at h
      · next hstart =>
        obtain ⟨_, d₁, hmark, h⟩ := bind_ok.mp h
        have hbegin : Marks start d d₁ (Code.one (.beginDialogue symbol.index)) := by
          cases hmark
          simp [Marks, Draft.places, UInt16.toNat_ofNat_of_lt' hstart, Instruction.begun?]
        have hs₁ : d₁.builder.Sound := by
          cases hmark
          exact hs
        obtain ⟨more, rfl, hmore⟩ := dialogueParts_marks parts hs₁ h
        exact hbegin.append (by simpa using hmore)
      · exact absurd h fail_not_ok

theorem dialoguePart_marks (part : DialoguePart) {inLoop : Bool} {start : Nat} {d d' : Draft}
    {code : Code} (hs : d.builder.Sound)
    (h : dialoguePart c inLoop start part d = (.ok code, d')) : Marks start d d' code := by
  cases part with
  | markup pieces span =>
    obtain ⟨token, d₁, htoken, h⟩ := bind_ok.mp h
    obtain ⟨rfl, rfl⟩ := pure_ok.mp h
    exact (intern_ok htoken).1.marks_of_begins (by simp [Instruction.begun?_of_ne])
  | code body => exact block_marks body hs h

theorem dialogueParts_marks (parts : List DialoguePart) {inLoop : Bool} {next : Nat} {d d' : Draft}
    {before code : Code} (hs : d.builder.Sound)
    (h : dialogueParts c inLoop next before parts d = (.ok code, d')) :
    ∃ more, code = before ++ more ∧ Marks next d d' more := by
  cases parts with
  | nil =>
    obtain ⟨rfl, rfl⟩ := pure_ok.mp h
    exact ⟨#[], by simp, (Leads.refl d).marks_of_begins rfl⟩
  | cons part rest =>
    obtain ⟨first, d₁, hfirst, h⟩ := bind_ok.mp h
    have hs₁ := (dialoguePart_ok part hs hfirst).1.builder.sound hs
    obtain ⟨more, rfl, hmore⟩ := dialogueParts_marks rest hs₁ h
    exact ⟨first ++ more, by simp, (dialoguePart_marks part hs hfirst).append hmore⟩

end

lemma member_marks {m : Member} (hs : d.builder.Sound) (h : member c m d = (.ok code, d')) :
    Marks 0 d d' code := by
  have hend (pos : Nat) :
      Code.begins pos #[.run (.load .null), .run .ret] = [] := by
    simp [Step.instruction, Instruction.begun?_of_ne]
  cases m with
  | chapter node name body | scene node name body | function node name parameters body =>
    obtain ⟨inner, d₁, hinner, h⟩ := bind_ok.mp h
    obtain ⟨rfl, rfl⟩ := pure_ok.mp h
    exact (block_marks body hs hinner).extend hend
  | dialogue value =>
    obtain ⟨inner, d₁, hinner, h⟩ := bind_ok.mp h
    obtain ⟨rfl, rfl⟩ := pure_ok.mp h
    exact (dialogue_marks value hs hinner).extend hend

end Emit

end Stagecraft
