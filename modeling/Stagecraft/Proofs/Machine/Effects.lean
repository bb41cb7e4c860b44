import Stagecraft.Machine.Basic
import Stagecraft.Proofs.Basic

namespace Stagecraft

def Frame.site (f : Frame) : Module × UInt16 × Nat :=
  (f.module, f.routine, f.base)

namespace Thread

structure Stays (t t' : Thread) : Prop where
  id : t'.id = t.id
  name : t'.name = t.name
  home : t'.home = t.home
  status : t'.status = t.status
  site : t'.frames.head?.map Frame.site = t.frames.head?.map Frame.site
  callers : t'.frames.tail = t.frames.tail
  below : ∀ ⦃vs : List Value⦄, vs.length ≤ t.base → vs <+: t.stack.toList → vs <+: t'.stack.toList

variable {t t' t'' : Thread}

lemma base_eq (t : Thread) : t.base = ((t.frames.head?.map Frame.site).map (·.2.2)).getD 0 := by
  unfold base
  cases t.frames <;> rfl

namespace Stays

lemma refl (t : Thread) : t.Stays t :=
  ⟨rfl, rfl, rfl, rfl, rfl, rfl, fun _ _ h => h⟩

lemma base (h : t.Stays t') : t'.base = t.base := by
  rw [base_eq, base_eq, h.site]

lemma trans (h : t.Stays t') (h' : t'.Stays t'') : t.Stays t'' :=
  ⟨h'.id.trans h.id, h'.name.trans h.name, h'.home.trans h.home, h'.status.trans h.status,
    h'.site.trans h.site, h'.callers.trans h.callers,
    fun _ hlength hvs => h'.below (h.base ▸ hlength) (h.below hlength hvs)⟩

lemma cons (h : t.Stays t') {frame : Frame} {rest : List Frame} (hf : t.frames = frame :: rest) :
    ∃ frame', t'.frames = frame' :: rest ∧ frame'.site = frame.site := by
  have hsite := h.site
  have hcallers := h.callers
  rw [hf] at hsite hcallers
  cases hf' : t'.frames with
  | nil => simp [hf'] at hsite
  | cons frame' rest' =>
    rw [hf'] at hsite hcallers
    obtain rfl : rest' = rest := hcallers
    exact ⟨frame', rfl, by simpa using hsite⟩

lemma nil (h : t.Stays t') (hf : t.frames = []) : t'.frames = [] := by
  simpa [hf] using h.site

lemma of_frame {frame frame' : Frame} {rest : List Frame} (hf : t.frames = frame :: rest)
    (hsite : frame'.site = frame.site) : t.Stays { t with frames := frame' :: rest } := by
  refine ⟨rfl, rfl, rfl, rfl, ?_, ?_, fun _ _ h => h⟩
  · simp [hf, hsite]
  · simp [hf]

end Stays

lemma stays_push (v : Value) (t : Thread) : t.Stays (t.push v) := by
  refine ⟨rfl, rfl, rfl, rfl, rfl, rfl, fun vs _ h => ?_⟩
  rw [push, Array.toList_push]
  exact h.trans (List.prefix_append _ _)

lemma stays_pop {v : Value} (h : t.pop = .ok (v, t')) : t.Stays t' := by
  unfold pop at h
  split at h
  · cases h
  · next hsize =>
    split at h
    · cases h
      refine ⟨rfl, rfl, rfl, rfl, rfl, rfl, fun vs hlength h => ?_⟩
      rw [Array.toList_pop, List.dropLast_eq_take, List.prefix_take_iff, Array.length_toList]
      exact ⟨h, Nat.le_sub_one_of_lt (hlength.trans_lt (Nat.lt_of_not_le hsize))⟩
    · cases h

lemma popMany_ok {n : Nat} {values : List Value} (h : t.popMany n = .ok (values, t')) :
    ∃ below : List Value, t.stack.toList = below ++ values ∧ values.length = n ∧
      t.base ≤ below.length ∧ t' = { t with stack := below.toArray } := by
  unfold popMany at h
  dsimp only at h
  split at h
  · cases h
  · next hsize =>
    cases h
    refine ⟨t.stack.toList.take (t.stack.size - n), ?_, ?_, ?_, ?_⟩
    · rw [Array.toList_extract, List.extract_eq_take_drop, Nat.sub_sub_self (by omega),
        List.take_of_length_le (l := t.stack.toList.drop (t.stack.size - n)) (by simp; omega),
        List.take_append_drop]
    · simp
      omega
    · simp
      omega
    · congr 1
      apply Array.toList_inj.mp
      simp [Array.take_eq_extract, List.extract_eq_take_drop]

lemma stays_popMany {n : Nat} {values : List Value} (h : t.popMany n = .ok (values, t')) :
    t.Stays t' := by
  obtain ⟨below, hstack, -, hbase, rfl⟩ := popMany_ok h
  refine ⟨rfl, rfl, rfl, rfl, rfl, rfl, fun vs hlength h => ?_⟩
  rw [hstack] at h
  exact List.prefix_of_prefix_length_le h (List.prefix_append _ _) (hlength.trans hbase)

lemma stays_goTo (position : Nat) (t : Thread) : t.Stays (t.goTo position) := by
  unfold goTo
  split
  · next frame rest hf => exact .of_frame hf rfl
  · exact .refl t

lemma stays_jump {next size : Nat} {offset : Int16} (h : t.jump next offset size = .ok t') :
    t.Stays t' := by
  unfold jump at h
  dsimp only at h
  split at h
  · cases h
  · cases h
    exact stays_goTo _ t

lemma stays_jumpIf {wanted : Bool} {next size : Nat} {offset : Int16}
    (h : t.jumpIf wanted next offset size = .ok t') : t.Stays t' := by
  simp only [jumpIf, Except.bind_eq_ok_iff] at h
  obtain ⟨⟨v, t₁⟩, hpop, truth, -, h⟩ := h
  split at h
  · exact (stays_pop hpop).trans (stays_jump h)
  · cases h
    exact stays_pop hpop

lemma stays_setArgument {index : UInt16} {v : Value} (h : t.setArgument index v = .ok t') :
    t.Stays t' := by
  unfold setArgument at h
  split at h
  · next frame rest hf =>
    split at h
    · cases h
      exact .of_frame hf rfl
    · cases h
  · cases h

structure Calls (m : Module) (routine : UInt16) (t t' : Thread) (below arguments : List Value) :
    Prop where
  room : t.frames.length < MachineError.callLimit
  parameters : ∃ parameters, m.parameters routine = .ok parameters ∧
    arguments.length = parameters.length
  stack : t.stack.toList = below ++ arguments
  base : t.base ≤ below.length
  result : t' = { t with
    frames := { module := m, routine, arguments := arguments.toArray, base := below.length } ::
      t.frames
    stack := below.toArray }

lemma calls_of_call {m : Module} {routine : UInt16} (h : t.call m routine = .ok t') :
    ∃ below arguments, Calls m routine t t' below arguments := by
  unfold call at h
  split at h
  · cases h
  · next hlimit =>
    simp only [Except.bind_eq_ok_iff] at h
    obtain ⟨parameters, hparameters, ⟨arguments, t₁⟩, hpop, h⟩ := h
    obtain ⟨below, hstack, hlength, hbase, rfl⟩ := popMany_ok hpop
    cases h
    refine ⟨below, arguments, Nat.lt_of_not_le hlimit,
      ⟨parameters, Except.mapError_eq_ok_iff.mp hparameters, hlength⟩, hstack, hbase, ?_⟩
    simp

lemma callFar_ok {modules : Std.TreeMap String Module} {caller : Module}
    {importIndex routine : UInt16} (h : t.callFar modules caller importIndex routine = .ok t') :
    ∃ name m, caller.import? importIndex = .ok name ∧ modules[name]? = some m ∧
      t.call m routine = .ok t' := by
  simp only [callFar, Except.bind_eq_ok_iff] at h
  obtain ⟨name, hname, h⟩ := h
  split at h
  · cases h
  · next m hm => exact ⟨name, m, Except.mapError_eq_ok_iff.mp hname, hm, h⟩

inductive Effect (t : Thread) : Instruction → Flow → Thread → Prop
  | works {i t'} (h : t.Stays t') : Effect t i .next t'
  | yields {i t'} (h : t.Stays t') : Effect t i .yield t'
  | waits {i t'} (reason : Wait) (h : t.Stays t') :
      Effect t i .yield { t' with status := .waiting reason }
  | calls {i m routine t' below arguments} (h : Calls m routine t t' below arguments) :
      Effect t i .next t'
  | leaves : Effect t .ret t.leave.1 t.leave.2

lemma quietly_ok {w w' : World σ} {r : Except MachineError Thread} {flow : Flow}
    (h : quietly w r = (.ok (flow, t'), w')) : flow = .next ∧ r = .ok t' := by
  cases r with
  | error e => cases h
  | ok t =>
    cases h
    exact ⟨rfl, rfl⟩

variable {σ : Type} [Stage σ] {s : Setting} {w w' : World σ} {flow : Flow}

lemma effect_dispatch {caller : Module} {builtin : UInt16} {count : Nat} {i : Instruction}
    (h : t.dispatch s caller builtin count w = (.ok (flow, t'), w')) : Effect t i flow t' := by
  unfold dispatch at h
  split at h
  · cases h
  · next values t₁ hpop =>
    split at h
    · cases h
    · next request _ =>
      dsimp only at h
      have hpush := (stays_popMany hpop).trans (stays_push (request.run s.now w).1 t₁)
      split at h
      · next reason _ =>
        cases h
        exact .waits reason hpush
      · cases h
        exact .works hpush

theorem effect_execute {m : Module} {routine : UInt16} {next size : Nat} {i : Instruction}
    (h : t.execute s m routine next size w i = (.ok (flow, t'), w')) : Effect t i flow t' := by
  have quiet {i : Instruction} {r : Except MachineError Thread} (hr : r = .ok t' → t.Stays t')
      (h : quietly w r = (.ok (flow, t'), w')) : Effect t i flow t' := by
    obtain ⟨rfl, hok⟩ := quietly_ok h
    exact .works (hr hok)
  cases i with
  | load value =>
    refine quiet (fun h => ?_) h
    obtain ⟨v, -, h⟩ := Except.bind_eq_ok_iff.mp h
    cases h
    exact stays_push v t
  | loadArgument index =>
    refine quiet (fun h => ?_) h
    obtain ⟨v, -, h⟩ := Except.bind_eq_ok_iff.mp h
    cases h
    exact stays_push v t
  | storeArgument index =>
    refine quiet (fun h => ?_) h
    obtain ⟨⟨v, t₁⟩, hpop, h⟩ := Except.bind_eq_ok_iff.mp h
    exact (stays_pop hpop).trans (stays_setArgument h)
  | loadGlobal token =>
    refine quiet (fun h => ?_) h
    obtain ⟨name, -, h⟩ := Except.bind_eq_ok_iff.mp h
    cases h
    exact stays_push _ t
  | storeGlobal token =>
    simp only [execute] at h
    split at h
    · cases h
    · cases h
    · next name v t₁ _ hpop =>
      cases h
      exact .works (stays_pop hpop)
  | binary op =>
    refine quiet (fun h => ?_) h
    obtain ⟨⟨right, t₁⟩, hright, h⟩ := Except.bind_eq_ok_iff.mp h
    obtain ⟨⟨left, t₂⟩, hleft, h⟩ := Except.bind_eq_ok_iff.mp h
    obtain ⟨v, -, h⟩ := Except.bind_eq_ok_iff.mp h
    cases h
    exact ((stays_pop hright).trans (stays_pop hleft)).trans (stays_push v t₂)
  | unary op =>
    refine quiet (fun h => ?_) h
    obtain ⟨⟨operand, t₁⟩, hpop, h⟩ := Except.bind_eq_ok_iff.mp h
    obtain ⟨v, -, h⟩ := Except.bind_eq_ok_iff.mp h
    cases h
    exact (stays_pop hpop).trans (stays_push v t₁)
  | jump offset => exact quiet stays_jump h
  | jumpIfTrue offset => exact quiet stays_jumpIf h
  | jumpIfFalse offset => exact quiet stays_jumpIf h
  | call index =>
    obtain ⟨rfl, hcall⟩ := quietly_ok h
    obtain ⟨below, arguments, h⟩ := calls_of_call hcall
    exact .calls h
  | callFar importIndex index =>
    obtain ⟨rfl, hfar⟩ := quietly_ok h
    obtain ⟨name, m', -, -, hcall⟩ := callFar_ok hfar
    obtain ⟨below, arguments, h⟩ := calls_of_call hcall
    exact .calls h
  | dispatch builtin count => exact effect_dispatch h
  | present token =>
    simp only [execute] at h
    split at h
    · cases h
    · cases h
      exact .works (.refl t)
  | beginDialogue index =>
    simp only [execute] at h
    split at h
    · cases h
    · cases h
      exact .works ⟨rfl, rfl, rfl, rfl, rfl, rfl, fun _ _ h => h⟩
  | selectStart =>
    cases h
    exact .works (.refl t)
  | isPressed token =>
    simp only [execute] at h
    split at h
    · cases h
    · cases h
      exact .works (stays_push _ t)
  | selectEnd =>
    cases h
    exact .yields (.refl t)
  | pop =>
    refine quiet (fun h => ?_) h
    obtain ⟨⟨v, t₁⟩, hpop, h⟩ := Except.bind_eq_ok_iff.mp h
    cases h
    exact stays_pop hpop
  | dup =>
    refine quiet (fun h => ?_) h
    obtain ⟨⟨v, t₁⟩, hpop, h⟩ := Except.bind_eq_ok_iff.mp h
    cases h
    exact ((stays_pop hpop).trans (stays_push v t₁)).trans (stays_push v _)
  | trap token =>
    refine quiet (fun h => ?_) h
    obtain ⟨message, -, h⟩ := Except.bind_eq_ok_iff.mp h
    cases h
  | ret =>
    have h : Except.ok t.leave = Except.ok (flow, t') := congrArg Prod.fst h
    have heq : t.leave = (flow, t') := Except.ok.inj h
    rw [show flow = t.leave.1 by rw [heq], show t' = t.leave.2 by rw [heq]]
    exact .leaves

def past (frame : Frame) (callers : List Frame) (i : Instruction) (t : Thread) : Thread :=
  { t with frames := { frame with position := frame.position + i.size } :: callers }

lemma stays_past {frame : Frame} {callers : List Frame} (hf : t.frames = frame :: callers)
    (i : Instruction) : t.Stays (t.past frame callers i) :=
  .of_frame hf rfl

theorem step_cases (h : t.step s w = (.ok (flow, t'), w')) :
    (t.frames = [] ∧ flow = .finished ∧ t' = t.terminate) ∨
    ∃ frame callers i size, t.frames = frame :: callers ∧ fetch t.name frame = .ok (i, size) ∧
      (t.past frame callers i).execute s frame.module frame.routine (frame.position + i.size) size
        w i = (.ok (flow, t'), w') ∧
      Effect (t.past frame callers i) i flow t' := by
  unfold step at h
  split at h
  · next hf =>
    cases h
    exact .inl ⟨hf, rfl, rfl⟩
  · next frame callers hf =>
    split at h
    · cases h
    · next i size hfetch => exact .inr ⟨frame, callers, i, size, hf, hfetch, h, effect_execute h⟩

lemma Effect.same {i : Instruction} (h : Effect t i flow t') : t'.id = t.id ∧ t'.name = t.name := by
  cases h with
  | works h => exact ⟨h.id, h.name⟩
  | yields h => exact ⟨h.id, h.name⟩
  | waits reason h => exact ⟨h.id, h.name⟩
  | calls h =>
    obtain rfl := h.result
    exact ⟨rfl, rfl⟩
  | leaves =>
    unfold leave
    dsimp only
    split <;> exact ⟨rfl, rfl⟩

lemma same_step (h : t.step s w = (.ok (flow, t'), w')) : t'.id = t.id ∧ t'.name = t.name := by
  obtain ⟨-, -, rfl⟩ | ⟨frame, callers, i, size, hframes, -, -, heffect⟩ := step_cases h
  · exact ⟨rfl, rfl⟩
  · have hpast := stays_past hframes i
    exact ⟨heffect.same.1.trans hpast.id, heffect.same.2.trans hpast.name⟩

end Thread

end Stagecraft
