import Stagecraft.Project.Compile
import Stagecraft.Proofs.Basic
import Stagecraft.Proofs.Code.Placed

/-!
Emission is described once, as a relation between a tree and its code in the module that the code
ends up in; everything else about emitted code is proved from this description.
-/

namespace Stagecraft

namespace Builder

structure Sound (b : Builder) : Prop where
  index : ∀ (s : String) (token : UInt16), b.heap.index[s]? = some token →
    b.heap.texts[token.toNat]? = some s
  imports : b.imports.size ≤ 65536

lemma sound_empty : Sound {} :=
  ⟨fun s token h => by simp at h, by simp⟩

structure Leads (b b' : Builder) : Prop where
  routines : b'.routines = b.routines
  texts : b.heap.texts.toList <+: b'.heap.texts.toList
  imports : b.imports.toList <+: b'.imports.toList
  sound : b.Sound → b'.Sound

def HasText (b : Builder) (token : UInt16) (s : String) : Prop :=
  b.heap.texts[token.toNat]? = some s

def HasImport (b : Builder) (i : UInt16) (name : String) : Prop :=
  b.imports[i.toNat]? = some name

variable {b b' b'' : Builder}

lemma Leads.refl (b : Builder) : b.Leads b :=
  ⟨rfl, List.prefix_rfl, List.prefix_rfl, id⟩

lemma Leads.trans (h : b.Leads b') (h' : b'.Leads b'') : b.Leads b'' :=
  ⟨h'.routines.trans h.routines, h.texts.trans h'.texts, h.imports.trans h'.imports,
    h'.sound ∘ h.sound⟩

lemma getElem?_of_prefix {xs ys : Array String} (h : xs.toList <+: ys.toList) {i : Nat} {s : String}
    (hs : xs[i]? = some s) : ys[i]? = some s := by
  obtain ⟨more, h⟩ := h
  rw [← Array.getElem?_toList] at hs ⊢
  rw [← h, List.getElem?_append_left (List.getElem?_eq_some_iff.mp hs).1, hs]

lemma HasText.mono {token : UInt16} {s : String} (h : b.HasText token s) (hb : b.Leads b') :
    b'.HasText token s :=
  getElem?_of_prefix hb.texts h

lemma HasImport.mono {i : UInt16} {name : String} (h : b.HasImport i name) (hb : b.Leads b') :
    b'.HasImport i name :=
  getElem?_of_prefix hb.imports h

lemma intern_ok {s : String} {token : UInt16} (h : Builder.intern s b = (.ok token, b')) :
    b.Leads b' ∧ (b.Sound → b'.HasText token s) := by
  obtain ⟨routines, imports, texts, index⟩ := b
  simp only [Builder.intern, TextHeap.intern] at h
  cases hi : index[s]? with
  | some known =>
    simp only [hi] at h
    cases h
    exact ⟨.refl _, fun hs => hs.index s token hi⟩
  | none =>
    simp only [hi] at h
    split at h
    · next hsize =>
      cases h
      have htoken := UInt16.toNat_ofNat_of_lt' hsize
      refine ⟨⟨rfl, by simp, List.prefix_rfl, fun hs => ⟨fun r token hr => ?_, hs.imports⟩⟩,
        fun _ => ?_⟩
      · change (texts.push s)[token.toNat]? = some r
        rw [Std.HashMap.getElem?_insert] at hr
        split at hr
        · next heq =>
          cases hr
          rw [htoken, Array.getElem?_push_size, eq_of_beq heq]
        · exact getElem?_of_prefix (by simp) (hs.index r token hr)
      · change (texts.push s)[(UInt16.ofNat texts.size).toNat]? = some s
        rw [htoken, Array.getElem?_push_size]
    · cases h

lemma addImport_ok {name : String} {i : UInt16} (h : Builder.addImport name b = (.ok i, b')) :
    b.Leads b' ∧ (b.Sound → b'.HasImport i name) := by
  obtain ⟨routines, imports, heap⟩ := b
  simp only [Builder.addImport] at h
  cases hi : imports.findIdx? (· == name) with
  | some k =>
    simp only [hi] at h
    cases h
    obtain ⟨hk, hname, _⟩ := Array.findIdx?_eq_some_iff_getElem.mp hi
    refine ⟨.refl _, fun hs => ?_⟩
    have hsize : imports.size ≤ 65536 := hs.imports
    change imports[(UInt16.ofNat k).toNat]? = some name
    rw [UInt16.toNat_ofNat_of_lt' (show k < 65536 by omega), Array.getElem?_eq_getElem hk,
      eq_of_beq hname]
  | none =>
    simp only [hi] at h
    split at h
    · next hsize =>
      cases h
      refine ⟨⟨rfl, List.prefix_rfl, by simp, fun hs => ⟨hs.index, ?_⟩⟩, fun _ => ?_⟩
      · rw [Array.size_push]
        omega
      · change (imports.push name)[(UInt16.ofNat imports.size).toNat]? = some name
        rw [UInt16.toNat_ofNat_of_lt' hsize, Array.getElem?_push_size]
    · cases h

end Builder

end Stagecraft

namespace Stagecraft.Emit

section Relation

variable (c : Context) (b : Builder)

def Jumps (make : Int16 → Instruction) (distance : Int) (i : Instruction) : Prop :=
  (-32768 ≤ distance ∧ distance ≤ 32767) ∧ i = make (Int16.ofInt distance)

def Constant : Literal → Immediate → Prop
  | .null, i => i = .null
  | .flag v, i => i = .flag v
  | .number x, i => i = (integral? x).elim (.float x.toBits) .integer
  | .delta x, i => i = (integral? x).elim (.deltaFloat x.toBits) .deltaInteger
  | .text s, i => ∃ token, b.HasText token s ∧ i = .text token

def Loads (node : Node) (name : String) (i : Instruction) : Prop :=
  match c.bindings.references[node.id]? with
  | some (.parameter symbol) => i = .loadArgument symbol.index
  | some .global => ∃ token, b.HasText token name ∧ i = .loadGlobal token
  | some (.constant (.enumerator e)) => i = .load (.enumerator e.id)
  | some (.constant (.preset p)) => i = .load (.preset p.id)
  | _ => False

def Stores (target : Target) (i : Instruction) : Prop :=
  match c.bindings.references[target.node.id]? with
  | some (.parameter symbol) => i = .storeArgument symbol.index
  | some .global => ∃ token, b.HasText token target.name ∧ i = .storeGlobal token
  | _ => False

def CallsRoutine (routine : RoutineSymbol) (count : Nat) (i : Instruction) : Prop :=
  routine.parameterCount = count ∧
    (routine.module = c.table.path ∧ i = .call routine.index ∨
      ∃ k, routine.module ≠ c.table.path ∧ b.HasImport k routine.module ∧
        i = .callFar k routine.index)

def Calls (node : Node) (count : Nat) (i : Instruction) : Prop :=
  (∃ id signature, c.bindings.references[node.id]? = some (.builtin id) ∧
      Signature.ofId id = some signature ∧ signature.accepts count ∧ count < 256 ∧
      i = .dispatch id (UInt8.ofNat count)) ∨
    ∃ symbol routine, c.bindings.references[node.id]? = some symbol ∧
      symbol.routine? = some routine ∧ CallsRoutine c b routine count i

def ShortCircuits (branch : Int16 → Instruction) (decisive : Bool) (left right code : Code) :
    Prop :=
  ∃ first second leap,
    Jumps branch (right.extent + 3 + (2 + 3)) first ∧ Jumps branch (2 + 3) second ∧
    Jumps .jump 2 leap ∧
    code = left ++ Code.one first ++ right ++
      #[.run second, .run (.load (.flag !decisive)), .run leap, .run (.load (.flag decisive))]

def Combines : BinaryOperator → Code → Code → Code → Prop
  | .and, left, right, code => ShortCircuits .jumpIfFalse false left right code
  | .or, left, right, code => ShortCircuits .jumpIfTrue true left right code
  | op, left, right, code => code = left ++ right ++ Code.one (.binary op)

mutual

def ExpressionCode : Expression → Code → Prop
  | .literal _ value, code => ∃ i, Constant b value i ∧ code = Code.one (.load i)
  | .name node text, code => ∃ i, Loads c b node text i ∧ code = Code.one i
  | .unary _ op operand, code =>
    ∃ inner, ExpressionCode operand inner ∧ code = inner ++ Code.one (.unary op)
  | .binary _ op left right, code =>
    ∃ l r, ExpressionCode left l ∧ ExpressionCode right r ∧ Combines op l r code
  | .assign _ target op value, code =>
    ∃ keep new, Stores c b target keep ∧ ExpressionCode value new ∧
      match op.binary? with
      | some arithmetic => ∃ old, Loads c b target.node target.name old ∧
          code = Code.one old ++ new ++ #[.run (.binary arithmetic), .run .dup, .run keep]
      | none => code = new ++ #[.run .dup, .run keep]
  | .step _ target op, code =>
    ∃ keep old, Stores c b target keep ∧ Loads c b target.node target.name old ∧
      code = #[.run old, .run (.load (.integer 1)), .run (.binary op.binary), .run .dup, .run keep]
  | .call node _ arguments, code =>
    ∃ inner i, ExpressionsCode arguments inner ∧ Calls c b node arguments.length i ∧
      code = inner ++ Code.one i

def ExpressionsCode : List Expression → Code → Prop
  | [], code => code = #[]
  | e :: rest, code =>
    ∃ first more, ExpressionCode e first ∧ ExpressionsCode rest more ∧ code = first ++ more

end

end Relation

variable {c : Context} {b : Builder} {d d₁ d' : Draft}

lemma Jumps.size {make : Int16 → Instruction} {distance : Int} {i : Instruction}
    (h : Jumps make distance i) (hm : ∀ offset, (make offset).size = 3) : i.size = 3 := by
  rw [h.2, hm]

lemma ShortCircuits.extent {branch : Int16 → Instruction} {decisive : Bool}
    {left right code : Code} (h : ShortCircuits branch decisive left right code)
    (hb : ∀ offset, (branch offset).size = 3) :
    code.extent = left.extent + 3 + right.extent + 10 := by
  obtain ⟨first, second, leap, hfirst, hsecond, hleap, rfl⟩ := h
  have hleap : leap.size = 3 := hleap.size fun _ => rfl
  simp [Step.size, hfirst.size hb, hsecond.size hb, hleap]
  omega

mutual

theorem ExpressionCode.closed (e : Expression) {code : Code} (h : ExpressionCode c b e code) :
    code.Closed := by
  cases e with
  | literal node value =>
    obtain ⟨i, -, rfl⟩ := h
    exact Code.closed_one _
  | name node text =>
    obtain ⟨i, -, rfl⟩ := h
    exact Code.closed_one _
  | unary node op operand =>
    obtain ⟨inner, hi, rfl⟩ := h
    exact Code.closed_append.mpr ⟨ExpressionCode.closed operand hi, Code.closed_one _⟩
  | binary node op left right =>
    obtain ⟨l, r, hl, hr, hcode⟩ := h
    have hl := ExpressionCode.closed left hl
    have hr := ExpressionCode.closed right hr
    cases op with
    | and | or =>
      obtain ⟨first, second, leap, -, -, -, rfl⟩ := hcode
      simp [Code.closed_append, hl, hr]
    | _ =>
      cases hcode
      simp [Code.closed_append, hl, hr]
  | assign node target op value =>
    obtain ⟨keep, new, -, hnew, hcode⟩ := h
    have hnew := ExpressionCode.closed value hnew
    cases hop : op.binary? with
    | some arithmetic =>
      simp only [hop] at hcode
      obtain ⟨old, -, rfl⟩ := hcode
      simp [Code.closed_append, hnew]
    | none =>
      simp only [hop] at hcode
      simp [hcode, Code.closed_append, hnew]
  | step node target op =>
    obtain ⟨keep, old, -, -, rfl⟩ := h
    simp
  | call node callee arguments =>
    obtain ⟨inner, i, hinner, -, rfl⟩ := h
    exact Code.closed_append.mpr ⟨ExpressionsCode.closed arguments hinner, Code.closed_one _⟩

theorem ExpressionsCode.closed (es : List Expression) {code : Code}
    (h : ExpressionsCode c b es code) : code.Closed := by
  cases es with
  | nil =>
    cases h
    simp
  | cons e rest =>
    obtain ⟨first, more, hfirst, hmore, rfl⟩ := h
    exact Code.closed_append.mpr ⟨ExpressionCode.closed e hfirst, ExpressionsCode.closed rest hmore⟩

end

lemma bind_ok {x : Emit α} {f : α → Emit β} {y : β} :
    (x >>= f) d = (.ok y, d') ↔ ∃ a d₁, x d = (.ok a, d₁) ∧ f a d₁ = (.ok y, d') := by
  rw [StateExcept.bind_apply]
  rcases x d with ⟨r, d₁⟩
  cases r with
  | ok a =>
    refine ⟨fun h => ⟨a, d₁, rfl, h⟩, ?_⟩
    rintro ⟨_, _, ⟨⟩, h⟩
    exact h
  | error e =>
    refine ⟨fun h => ?_, ?_⟩
    · cases h
    · rintro ⟨_, _, ⟨⟩, _⟩

lemma pure_ok {a y : α} : (pure a : Emit α) d = (.ok y, d') ↔ a = y ∧ d = d' := by
  refine ⟨fun h => ?_, fun ⟨ha, hd⟩ => ha ▸ hd ▸ rfl⟩
  cases h
  exact ⟨rfl, rfl⟩

lemma fail_not_ok {issue : Issue} {span : Span} {y : α} :
    (fail issue span : Emit α) d ≠ (.ok y, d') := by
  intro h
  cases h

structure Leads (d d' : Draft) : Prop where
  marks : d'.marks = d.marks
  builder : d.builder.Leads d'.builder

lemma Leads.refl (d : Draft) : Leads d d :=
  ⟨rfl, .refl _⟩

lemma Leads.trans (h : Leads d d₁) (h' : Leads d₁ d') : Leads d d' :=
  ⟨h'.marks.trans h.marks, h.builder.trans h'.builder⟩

lemma jump_ok {make : Int16 → Instruction} {distance : Int} {i : Instruction}
    (h : jump make distance d = (.ok i, d')) : Jumps make distance i ∧ d = d' := by
  unfold jump at h
  split at h
  · next hd =>
    obtain ⟨rfl, rfl⟩ := pure_ok.mp h
    exact ⟨⟨hd, rfl⟩, rfl⟩
  · exact absurd h fail_not_ok

lemma reference_ok {node : Node} {name : String} {symbol : Symbol}
    (h : reference c node name d = (.ok symbol, d')) :
    c.bindings.references[node.id]? = some symbol ∧ d = d' := by
  cases hs : c.bindings.references[node.id]? with
  | some found =>
    simp only [reference, hs] at h
    obtain ⟨rfl, rfl⟩ := pure_ok.mp h
    exact ⟨rfl, rfl⟩
  | none =>
    simp only [reference, hs] at h
    exact absurd h fail_not_ok

lemma build_ok {work : Build α} {a : α} (h : build work d = (.ok a, d')) :
    work d.builder = (.ok a, d'.builder) ∧ d'.marks = d.marks := by
  obtain ⟨builder, marks⟩ := d
  simp only [build] at h
  rcases hw : work builder with ⟨r, builder'⟩
  simp only [hw] at h
  cases r with
  | ok a =>
    cases h
    exact ⟨rfl, rfl⟩
  | error e => cases h

lemma intern_ok {s : String} {token : UInt16} (h : intern s d = (.ok token, d')) :
    Leads d d' ∧ (d.builder.Sound → d'.builder.HasText token s) := by
  obtain ⟨hw, hm⟩ := build_ok h
  obtain ⟨hl, ht⟩ := Builder.intern_ok hw
  exact ⟨⟨hm, hl⟩, ht⟩

lemma immediate_ok {value : Literal} {i : Immediate} (hs : d.builder.Sound)
    (h : immediate value d = (.ok i, d')) :
    Leads d d' ∧ ∀ b, d'.builder.Leads b → Constant b value i := by
  cases value with
  | text s =>
    obtain ⟨token, d₁, ht, h⟩ := bind_ok.mp h
    obtain ⟨rfl, rfl⟩ := pure_ok.mp h
    obtain ⟨hl, ht⟩ := intern_ok ht
    exact ⟨hl, fun b hb => ⟨token, (ht hs).mono hb, rfl⟩⟩
  | _ =>
    obtain ⟨rfl, rfl⟩ := pure_ok.mp h
    exact ⟨.refl _, fun b hb => rfl⟩

lemma load_ok {node : Node} {name : String} {i : Instruction} (hs : d.builder.Sound)
    (h : load c node name d = (.ok i, d')) :
    Leads d d' ∧ ∀ b, d'.builder.Leads b → Loads c b node name i := by
  obtain ⟨symbol, d₁, hsymbol, h⟩ := bind_ok.mp h
  obtain ⟨hr, rfl⟩ := reference_ok hsymbol
  unfold Loads
  rw [hr]
  split at h
  · obtain ⟨rfl, rfl⟩ := pure_ok.mp h
    exact ⟨.refl _, fun b hb => rfl⟩
  · obtain ⟨token, d₂, ht, h⟩ := bind_ok.mp h
    obtain ⟨rfl, rfl⟩ := pure_ok.mp h
    obtain ⟨hl, ht⟩ := intern_ok ht
    exact ⟨hl, fun b hb => ⟨token, (ht hs).mono hb, rfl⟩⟩
  · obtain ⟨rfl, rfl⟩ := pure_ok.mp h
    exact ⟨.refl _, fun b hb => rfl⟩
  · obtain ⟨rfl, rfl⟩ := pure_ok.mp h
    exact ⟨.refl _, fun b hb => rfl⟩
  · exact absurd h fail_not_ok

lemma store_ok {target : Target} {i : Instruction} (hs : d.builder.Sound)
    (h : store c target d = (.ok i, d')) :
    Leads d d' ∧ ∀ b, d'.builder.Leads b → Stores c b target i := by
  obtain ⟨symbol, d₁, hsymbol, h⟩ := bind_ok.mp h
  obtain ⟨hr, rfl⟩ := reference_ok hsymbol
  unfold Stores
  rw [hr]
  split at h
  · obtain ⟨rfl, rfl⟩ := pure_ok.mp h
    exact ⟨.refl _, fun b hb => rfl⟩
  · obtain ⟨token, d₂, ht, h⟩ := bind_ok.mp h
    obtain ⟨rfl, rfl⟩ := pure_ok.mp h
    obtain ⟨hl, ht⟩ := intern_ok ht
    exact ⟨hl, fun b hb => ⟨token, (ht hs).mono hb, rfl⟩⟩
  · exact absurd h fail_not_ok

lemma callRoutine_ok {routine : RoutineSymbol} {count : Nat} {span : Span} {i : Instruction}
    (hs : d.builder.Sound) (h : callRoutine c routine count span d = (.ok i, d')) :
    Leads d d' ∧ ∀ b, d'.builder.Leads b → CallsRoutine c b routine count i := by
  unfold callRoutine at h
  split at h
  · exact absurd h fail_not_ok
  · next hcount =>
    simp only [bne_iff_ne, not_not] at hcount
    split at h
    · next hpath =>
      obtain ⟨rfl, rfl⟩ := pure_ok.mp h
      exact ⟨.refl _, fun b hb => ⟨hcount, .inl ⟨eq_of_beq hpath, rfl⟩⟩⟩
    · next hpath =>
      obtain ⟨k, d₁, hk, h⟩ := bind_ok.mp h
      obtain ⟨rfl, rfl⟩ := pure_ok.mp h
      obtain ⟨hw, hm⟩ := build_ok hk
      obtain ⟨hl, hk⟩ := Builder.addImport_ok hw
      exact ⟨⟨hm, hl⟩, fun b hb =>
        ⟨hcount, .inr ⟨k, fun heq => hpath (beq_iff_eq.mpr heq), (hk hs).mono hb, rfl⟩⟩⟩

lemma shortCircuit_ok {branch : Int16 → Instruction} {decisive : Bool} {left right code : Code}
    (h : shortCircuit branch decisive left right d = (.ok code, d')) :
    ShortCircuits branch decisive left right code ∧ d = d' := by
  obtain ⟨first, d₁, h₁, h⟩ := bind_ok.mp h
  obtain ⟨second, d₂, h₂, h⟩ := bind_ok.mp h
  obtain ⟨leap, d₃, h₃, h⟩ := bind_ok.mp h
  obtain ⟨rfl, rfl⟩ := pure_ok.mp h
  obtain ⟨hfirst, rfl⟩ := jump_ok h₁
  obtain ⟨hsecond, rfl⟩ := jump_ok h₂
  obtain ⟨hleap, rfl⟩ := jump_ok h₃
  exact ⟨⟨first, second, leap, hfirst, hsecond, hleap, rfl⟩, rfl⟩

lemma combine_ok {op : BinaryOperator} {left right code : Code}
    (h : combine op left right d = (.ok code, d')) : Combines op left right code ∧ d = d' := by
  cases op with
  | and => exact shortCircuit_ok h
  | or => exact shortCircuit_ok h
  | _ =>
    obtain ⟨rfl, rfl⟩ := pure_ok.mp h
    exact ⟨rfl, rfl⟩

mutual

theorem expression_ok (e : Expression) {d d' : Draft} {code : Code} (hs : d.builder.Sound)
    (h : expression c e d = (.ok code, d')) :
    Leads d d' ∧ ∀ b, d'.builder.Leads b → ExpressionCode c b e code := by
  cases e with
  | literal node value =>
    obtain ⟨i, d₁, hi, h⟩ := bind_ok.mp h
    obtain ⟨rfl, rfl⟩ := pure_ok.mp h
    obtain ⟨hl, hi⟩ := immediate_ok hs hi
    exact ⟨hl, fun b hb => ⟨i, hi b hb, rfl⟩⟩
  | name node text =>
    obtain ⟨i, d₁, hi, h⟩ := bind_ok.mp h
    obtain ⟨rfl, rfl⟩ := pure_ok.mp h
    obtain ⟨hl, hi⟩ := load_ok hs hi
    exact ⟨hl, fun b hb => ⟨i, hi b hb, rfl⟩⟩
  | unary node op operand =>
    obtain ⟨inner, d₁, hi, h⟩ := bind_ok.mp h
    obtain ⟨rfl, rfl⟩ := pure_ok.mp h
    obtain ⟨hl, hi⟩ := expression_ok operand hs hi
    exact ⟨hl, fun b hb => ⟨inner, hi b hb, rfl⟩⟩
  | binary node op left right =>
    obtain ⟨l, d₁, hleft, h⟩ := bind_ok.mp h
    obtain ⟨r, d₂, hright, h⟩ := bind_ok.mp h
    obtain ⟨hc, rfl⟩ := combine_ok h
    obtain ⟨hl₁, hleft⟩ := expression_ok left hs hleft
    obtain ⟨hl₂, hright⟩ := expression_ok right (hl₁.builder.sound hs) hright
    exact ⟨hl₁.trans hl₂, fun b hb =>
      ⟨l, r, hleft b (hl₂.builder.trans hb), hright b hb, hc⟩⟩
  | assign node target op value =>
    obtain ⟨keep, d₁, hkeep, h⟩ := bind_ok.mp h
    obtain ⟨hl₁, hkeep⟩ := store_ok hs hkeep
    have hs₁ := hl₁.builder.sound hs
    cases hop : op.binary? with
    | some arithmetic =>
      simp only [hop] at h
      obtain ⟨old, d₂, hold, h⟩ := bind_ok.mp h
      obtain ⟨new, d₃, hnew, h⟩ := bind_ok.mp h
      obtain ⟨rfl, rfl⟩ := pure_ok.mp h
      obtain ⟨hl₂, hold⟩ := load_ok hs₁ hold
      obtain ⟨hl₃, hnew⟩ := expression_ok value (hl₂.builder.sound hs₁) hnew
      refine ⟨hl₁.trans (hl₂.trans hl₃), fun b hb => ?_⟩
      have hb₂ := hl₃.builder.trans hb
      refine ⟨keep, new, hkeep b (hl₂.builder.trans hb₂), hnew b hb, ?_⟩
      simp only [hop]
      exact ⟨old, hold b hb₂, rfl⟩
    | none =>
      simp only [hop] at h
      obtain ⟨new, d₂, hnew, h⟩ := bind_ok.mp h
      obtain ⟨rfl, rfl⟩ := pure_ok.mp h
      obtain ⟨hl₂, hnew⟩ := expression_ok value hs₁ hnew
      refine ⟨hl₁.trans hl₂, fun b hb => ?_⟩
      refine ⟨keep, new, hkeep b (hl₂.builder.trans hb), hnew b hb, ?_⟩
      simp only [hop]
  | step node target op =>
    obtain ⟨keep, d₁, hkeep, h⟩ := bind_ok.mp h
    obtain ⟨old, d₂, hold, h⟩ := bind_ok.mp h
    obtain ⟨rfl, rfl⟩ := pure_ok.mp h
    obtain ⟨hl₁, hkeep⟩ := store_ok hs hkeep
    obtain ⟨hl₂, hold⟩ := load_ok (hl₁.builder.sound hs) hold
    exact ⟨hl₁.trans hl₂, fun b hb =>
      ⟨keep, old, hkeep b (hl₂.builder.trans hb), hold b hb, rfl⟩⟩
  | call node callee arguments =>
    obtain ⟨symbol, d₁, hsymbol, h⟩ := bind_ok.mp h
    obtain ⟨hr, rfl⟩ := reference_ok hsymbol
    split at h
    · next id =>
      split at h
      · next haccepts =>
        obtain ⟨inner, d₁, hinner, h⟩ := bind_ok.mp h
        obtain ⟨rfl, rfl⟩ := pure_ok.mp h
        obtain ⟨hl, more, rfl, hmore⟩ := expressions_ok arguments hs hinner
        simp only [Bool.and_eq_true, Option.any_eq_true, decide_eq_true_eq] at haccepts
        obtain ⟨⟨signature, hsig, haccepts⟩, hcount⟩ := haccepts
        refine ⟨hl, fun b hb => ⟨more, _, hmore b hb, .inl ⟨id, signature, hr, hsig, haccepts,
          hcount, rfl⟩, by simp⟩⟩
      · exact absurd h fail_not_ok
    · cases hroutine : symbol.routine? with
      | none =>
        simp only [hroutine] at h
        exact absurd h fail_not_ok
      | some routine =>
        simp only [hroutine] at h
        obtain ⟨inner, d₁, hinner, h⟩ := bind_ok.mp h
        obtain ⟨i, d₂, hi, h⟩ := bind_ok.mp h
        obtain ⟨rfl, rfl⟩ := pure_ok.mp h
        obtain ⟨hl₁, more, rfl, hmore⟩ := expressions_ok arguments hs hinner
        obtain ⟨hl₂, hi⟩ := callRoutine_ok (hl₁.builder.sound hs) hi
        exact ⟨hl₁.trans hl₂, fun b hb => ⟨more, i, hmore b (hl₂.builder.trans hb),
          .inr ⟨symbol, routine, hr, hroutine, hi b hb⟩, by simp⟩⟩

theorem expressions_ok (es : List Expression) {d d' : Draft} {before code : Code}
    (hs : d.builder.Sound) (h : expressions c before es d = (.ok code, d')) :
    Leads d d' ∧ ∃ more, code = before ++ more ∧
      ∀ b, d'.builder.Leads b → ExpressionsCode c b es more := by
  cases es with
  | nil =>
    obtain ⟨rfl, rfl⟩ := pure_ok.mp h
    exact ⟨.refl _, #[], by simp, fun b hb => rfl⟩
  | cons e rest =>
    obtain ⟨first, d₁, hfirst, h⟩ := bind_ok.mp h
    obtain ⟨hl₁, hfirst⟩ := expression_ok e hs hfirst
    obtain ⟨hl₂, more, rfl, hmore⟩ := expressions_ok rest (hl₁.builder.sound hs) h
    exact ⟨hl₁.trans hl₂, first ++ more, by simp, fun b hb =>
      ⟨first, more, hfirst b (hl₂.builder.trans hb), hmore b hb, rfl⟩⟩

end

end Stagecraft.Emit
