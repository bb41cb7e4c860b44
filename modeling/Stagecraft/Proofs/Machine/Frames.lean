import Stagecraft.Proofs.Machine.History
import Stagecraft.Stage.Headless

/-!
What a routine that has been called can do to its caller, on any code.
-/

namespace Stagecraft

namespace Thread

inductive Moves : Thread → Thread → Prop
  | step {σ : Type} [Stage σ] {s : Setting} {w w' : World σ} {t t' : Thread} {flow : Flow}
      (h : t.step s w = (.ok (flow, t'), w')) : Moves t t'
  | status (t : Thread) (status : Status) : Moves t { t with status }
  | ends (t : Thread) : Moves t t.terminate

inductive Names (modules : Std.TreeMap String Module) (caller : Module) :
    Instruction → Module → UInt16 → Prop
  | near (routine : UInt16) : Names modules caller (.call routine) caller routine
  | far {index routine : UInt16} {name : String} {m : Module}
      (hname : caller.import? index = .ok name) (hm : modules[name]? = some m) :
      Names modules caller (.callFar index routine) m routine

/-- A routine that was called with the values `below` on the stack has not returned. Its frame is
still there, over the frames of its callers, and the values are still there, too. -/
structure Inside (callee : Frame) (below : List Value) (callers : List Frame) (t : Thread) :
    Prop where
  frames : ∃ inner frame, t.frames = inner ++ frame :: callers ∧ frame.site = callee.site ∧
    ∀ f ∈ inner, below.length ≤ f.base
  stack : below <+: t.stack.toList

/-- The step in which the routine returns: its last value, or null if it has none, is put on the
values of the caller. -/
structure Returns (callee : Frame) (below : List Value) (callers : List Frame) (t t' : Thread) :
    Prop where
  frame : ∃ frame size, t.frames = frame :: callers ∧ frame.site = callee.site ∧
    fetch t.name frame = .ok (.ret, size)
  frames : t'.frames = callers
  stack : t'.stack.toList = below ++
    [if below.length < t.stack.size then t.stack.back?.getD .null else .null]
  status : t'.status = t.status

variable {t t' : Thread} {callee : Frame} {below : List Value} {callers : List Frame}

section Step

lemma Inside.le_base (h : t.Inside callee below callers) (hbase : callee.base = below.length) :
    below.length ≤ t.base := by
  obtain ⟨inner, frame, hframes, hsite, hinner⟩ := h.frames
  rw [base, hframes]
  cases inner with
  | nil =>
    have hsame : frame.base = callee.base := congrArg (·.2.2) hsite
    exact Nat.le_of_eq (hbase.symm.trans hsame.symm)
  | cons f inner => exact hinner f List.mem_cons_self

lemma Inside.stays (h : t.Inside callee below callers) (hbase : callee.base = below.length)
    (hs : t.Stays t') : t'.Inside callee below callers := by
  refine ⟨?_, hs.below (h.le_base hbase) h.stack⟩
  obtain ⟨inner, frame, hframes, hsite, hinner⟩ := h.frames
  cases inner with
  | nil =>
    obtain ⟨frame', hframes', hsite'⟩ := hs.cons hframes
    exact ⟨[], frame', hframes', hsite'.trans hsite, by simp⟩
  | cons f inner =>
    obtain ⟨f', hframes', hsite'⟩ := hs.cons hframes
    rw [List.forall_mem_cons] at hinner
    have hsame : f'.base = f.base := congrArg (·.2.2) hsite'
    exact ⟨f' :: inner, frame, hframes', hsite, List.forall_mem_cons.mpr
      ⟨hsame ▸ hinner.1, hinner.2⟩⟩

lemma Inside.calls {m : Module} {routine : UInt16} {kept arguments : List Value}
    (h : t.Inside callee below callers) (hbase : callee.base = below.length)
    (hc : Calls m routine t t' kept arguments) : t'.Inside callee below callers := by
  have hkept : below.length ≤ kept.length := (h.le_base hbase).trans hc.base
  rw [hc.result]
  refine ⟨?_, ?_⟩
  · obtain ⟨inner, frame, hframes, hsite, hinner⟩ := h.frames
    exact ⟨_ :: inner, frame, congrArg (List.cons _) hframes, hsite,
      List.forall_mem_cons.mpr ⟨hkept, hinner⟩⟩
  · have hstack := h.stack
    rw [hc.stack] at hstack
    exact List.prefix_of_prefix_length_le hstack (List.prefix_append _ _) hkept

lemma Inside.leave (h : t.Inside callee below callers) (hbase : callee.base = below.length) :
    t.leave.2.Inside callee below callers ∨ t.leave.2 = t.terminate ∨
      (∃ frame, t.frames = frame :: callers ∧ frame.site = callee.site) ∧
        t.leave.2.frames = callers ∧ t.leave.2.status = t.status ∧
        t.leave.2.stack.toList = below ++
          [if below.length < t.stack.size then t.stack.back?.getD .null else .null] := by
  obtain ⟨inner, frame, hframes, hsite, hinner⟩ := h.frames
  have htake (k : Nat) : (t.stack.take k).toList = t.stack.toList.take k := by
    simp [Array.take_eq_extract, List.extract_eq_take_drop]
  cases inner with
  | nil =>
    have hsame : frame.base = below.length := (congrArg (·.2.2) hsite).trans hbase
    cases callers with
    | nil => exact .inr (.inl (by simp [Thread.leave, hframes]))
    | cons caller outer =>
      refine .inr (.inr ⟨⟨frame, hframes, hsite⟩, ?_⟩)
      simp only [Thread.leave, hframes, List.nil_append, base, hsame, Array.toList_push, htake,
        ← List.prefix_iff_eq_take.mp h.stack, and_self]
  | cons f inner =>
    rw [List.forall_mem_cons] at hinner
    obtain ⟨caller, outer, houter⟩ : ∃ caller outer, inner ++ frame :: callers = caller :: outer :=
      List.exists_cons_of_ne_nil (by simp)
    refine .inl ?_
    simp only [Thread.leave, hframes, List.cons_append, houter]
    refine ⟨⟨inner, frame, houter.symm, hsite, hinner.2⟩, ?_⟩
    rw [base, hframes, Array.toList_push, htake]
    exact ((List.prefix_take_iff).mpr ⟨h.stack, hinner.1⟩).trans (List.prefix_append _ _)

theorem Inside.moves (h : t.Inside callee below callers) (hbase : callee.base = below.length)
    (hmove : Moves t t') : t'.Inside callee below callers ∨
      t' = t'.terminate ∨ Returns callee below callers t t' := by
  cases hmove with
  | status status => exact .inl ⟨h.frames, h.stack⟩
  | ends => exact .inr (.inl rfl)
  | step hstep =>
    obtain ⟨-, -, rfl⟩ | ⟨frame, outer, i, size, hframes, hfetch, -, heffect⟩ := step_cases hstep
    · exact .inr (.inl rfl)
    · have hpast := h.stays hbase (stays_past hframes i)
      cases heffect with
      | works hs => exact .inl (hpast.stays hbase hs)
      | yields hs => exact .inl (hpast.stays hbase hs)
      | waits reason hs =>
        obtain ⟨hframes', hstack⟩ := hpast.stays hbase hs
        exact .inl ⟨hframes', hstack⟩
      | calls hc => exact .inl (hpast.calls hbase hc)
      | leaves =>
        rcases hpast.leave hbase with hin | hend | ⟨⟨top, htop, hsite⟩, hafter, hstatus, hstack⟩
        · exact .inl hin
        · exact .inr (.inl (by rw [hend]; rfl))
        · obtain ⟨rfl, rfl⟩ := List.cons.inj htop
          exact .inr (.inr ⟨⟨frame, size, hframes, hsite, hfetch⟩, hafter, hstack, hstatus⟩)

end Step

/-- The step of a call. The routine gets as many values from the top of the stack as it has
parameters, in the order in which they were put there; the caller goes on after the call. -/
structure Enters (modules : Std.TreeMap String Module) (i : Instruction) (caller : Frame)
    (callers : List Frame) (t t' : Thread) (callee : Frame) (below : List Value) : Prop where
  routine : Names modules caller.module i callee.module callee.routine
  parameters : ∃ parameters, callee.module.parameters callee.routine = .ok parameters ∧
    callee.arguments.size = parameters.length
  stack : t.stack.toList = below ++ callee.arguments.toList
  position : callee.position = 0
  base : callee.base = below.length
  frames : t'.frames = callee :: { caller with position := caller.position + i.size } :: callers
  left : t'.stack.toList = below

section Call

variable {σ : Type} [Stage σ] {s : Setting} {w w' : World σ} {flow : Flow} {caller : Frame}
  {i : Instruction} {size : Nat}

lemma Calls.enters {modules : Std.TreeMap String Module} {m : Module} {routine : UInt16}
    {below arguments : List Value} (hname : Names modules caller.module i m routine)
    (h : Calls m routine (t.past caller callers i) t' below arguments) :
    ∃ callee, Enters modules i caller callers t t' callee below := by
  obtain ⟨parameters, hparameters, hlength⟩ := h.parameters
  obtain rfl := h.result
  exact ⟨{ module := m, routine, arguments := arguments.toArray, base := below.length }, hname,
    ⟨parameters, hparameters, by simpa using hlength⟩, h.stack, rfl, rfl, rfl, rfl⟩

end Call

section Run

variable {u : Nat → Thread} {n : Nat}

theorem Inside.run (h : (u 0).Inside callee below callers) (hbase : callee.base = below.length)
    (hmoves : ∀ k < n, Moves (u k) (u (k + 1))) :
    (∀ k ≤ n, (u k).Inside callee below callers) ∨
      ∃ k < n, (∀ j ≤ k, (u j).Inside callee below callers) ∧
        (u (k + 1) = (u (k + 1)).terminate ∨ Returns callee below callers (u k) (u (k + 1))) := by
  induction n with
  | zero =>
    refine .inl fun k hk => ?_
    obtain rfl := Nat.le_zero.mp hk
    exact h
  | succ n ih =>
    obtain hall | ⟨k, hk, hbefore, hexit⟩ := ih fun k hk => hmoves k (Nat.lt_succ_of_lt hk)
    · rcases (hall n (Nat.le_refl n)).moves hbase (hmoves n (Nat.lt_succ_self n)) with
        hin | hexit
      · refine .inl fun k hk => ?_
        rcases Nat.le_succ_iff.mp hk with hk | rfl
        · exact hall k hk
        · exact hin
      · exact .inr ⟨n, Nat.lt_succ_self n, hall, hexit⟩
    · exact .inr ⟨k, Nat.lt_succ_of_lt hk, hbefore, hexit⟩

end Run

section Echo

end Echo

open Relation (ReflTransGen)

lemma Moves.id (h : Moves t t') : t'.id = t.id := by
  cases h with
  | status => rfl
  | ends => rfl
  | step h => exact (same_step h).1

lemma id_of_moves (h : ReflTransGen Moves t t') : t'.id = t.id := by
  induction h with
  | refl => rfl
  | tail _ hmove ih => exact hmove.id.trans ih

lemma moves_slice {σ : Type} [Stage σ] (s : Setting) (budget : Nat) (t : Thread) (w : World σ) :
    ReflTransGen Moves t (Machine.slice s budget t w).1 := by
  induction budget generalizing t w with
  | zero => exact .refl
  | succ budget ih =>
    rw [Machine.slice]
    rcases hstep : t.step s w with ⟨r, w'⟩
    cases r with
    | error e => exact .single (.ends t)
    | ok r =>
      obtain ⟨flow, t'⟩ := r
      have hmove : Moves t t' := .step hstep
      cases flow with
      | next => exact .head hmove (ih t' w')
      | yield => exact .single hmove
      | finished => exact .single hmove

end Thread

namespace Machine

open Thread (Moves)
open Relation (ReflTransGen)

def Grows (ts ts' : Array Thread) : Prop :=
  ∀ u ∈ ts', (∃ t ∈ ts, ReflTransGen Moves t u) ∨
    ∃ s arguments, ReflTransGen Moves (Thread.start u.id s arguments) u

variable {ts ts' ts'' : Array Thread} {m : Machine}

lemma grows_of_map {f : Thread → Thread} (hf : ∀ t ∈ ts, ReflTransGen Moves t (f t)) :
    Grows ts (ts.map f) := by
  intro u hu
  obtain ⟨t, ht, rfl⟩ := Array.mem_map.mp hu
  exact .inl ⟨t, ht, hf t ht⟩

lemma grows_refl (ts : Array Thread) : Grows ts ts :=
  fun u hu => .inl ⟨u, hu, .refl⟩

lemma Grows.trans (h : Grows ts ts') (h' : Grows ts' ts'') : Grows ts ts'' := by
  intro v hv
  obtain ⟨u, hu, hmoves⟩ | hstart := h' v hv
  · obtain ⟨t, ht, hmoves'⟩ | ⟨s, arguments, hmoves'⟩ := h u hu
    · exact .inl ⟨t, ht, hmoves'.trans hmoves⟩
    · exact .inr ⟨s, arguments, Thread.id_of_moves hmoves ▸ hmoves'.trans hmoves⟩
  · exact .inr hstart

lemma grows_set {i : Nat} {t u : Thread} (ht : ts[i]? = some t) (hmoves : ReflTransGen Moves t u) :
    Grows ts (ts.setIfInBounds i u) := by
  intro v hv
  rcases Array.mem_or_eq_of_mem_setIfInBounds hv with hv | rfl
  · exact .inl ⟨v, hv, .refl⟩
  · exact .inl ⟨t, Array.mem_of_getElem? ht, hmoves⟩

lemma grows_update {name : String} {f : Thread → Thread} (hf : ∀ t, Moves t (f t) ∨ f t = t)
    (h : update name f ts = some ts') : Grows ts ts' := by
  obtain ⟨i, t, ht, -, -, rfl⟩ := update_eq_some h
  intro u hu
  obtain ⟨j, hj⟩ := Array.mem_iff_getElem?.mp hu
  rw [Array.getElem?_modify] at hj
  split at hj
  · obtain ⟨v, hv, rfl⟩ := Option.map_eq_some_iff.mp hj
    rcases hf v with hmove | hsame
    · exact .inl ⟨v, Array.mem_of_getElem? hv, .single hmove⟩
    · exact .inl ⟨v, Array.mem_of_getElem? hv, by rw [hsame]⟩
  · exact .inl ⟨u, Array.mem_of_getElem? hj, .refl⟩

lemma grows_spawn (m : Machine) (s : Spawn) : Grows m.threads (m.spawn s).2.threads := by
  obtain ⟨-, e, h⟩ | ⟨-, arguments, h⟩ := spawn_cases m s
  · rw [h]
    exact grows_refl _
  · rw [h]
    intro u hu
    rcases Array.mem_push.mp hu with hu | rfl
    · unfold cleared at hu
      cases hupdate : update s.name Thread.terminate m.threads with
      | none =>
        rw [hupdate] at hu
        exact grows_refl _ u hu
      | some ts =>
        rw [hupdate] at hu
        exact grows_update (fun t => .inl (.ends t)) hupdate u hu
    · exact .inr ⟨s, arguments, .refl⟩

lemma grows_spawnAll (m : Machine) (spawns : List Spawn) :
    Grows m.threads (m.spawnAll spawns).threads := by
  induction spawns generalizing m with
  | nil => exact grows_refl _
  | cons s rest ih =>
    have hone := grows_spawn m s
    rw [spawnAll]
    rcases hs : m.spawn s with ⟨r, m'⟩
    rw [hs] at hone
    cases r with
    | ok id => exact hone.trans (ih m')
    | error e => exact hone.trans (ih { m' with errors := m'.errors.push ⟨s.name, e⟩ })

lemma grows_visit {σ : Type} [Stage σ] (now budget : Nat) (turn : Turn σ) (i : Nat) :
    Grows turn.machine.threads (visit now budget turn i).machine.threads := by
  unfold visit
  dsimp only
  split
  · exact grows_refl _
  · next t ht =>
    split
    · exact grows_refl _
    · exact (grows_set ht (Thread.moves_slice _ budget t _)).trans (grows_spawnAll _ _)

lemma moves_wake (now : Nat) (input : Input) (t : Thread) :
    ReflTransGen Moves t (wake now input t) := by
  unfold wake
  split
  · split
    · exact .single (.status t .running)
    · exact .refl
  · exact .refl

lemma grows_run {σ : Type} [Stage σ] (m : Machine) (budget : Nat) (stage : σ) :
    Grows m.threads (m.run budget stage).2.1.threads := by
  unfold run
  split
  · exact grows_refl _
  · refine List.foldlRecOn (motive := fun turn : Turn σ => Grows m.threads turn.machine.threads) _ _
      ?_ fun turn hturn i _ => hturn.trans (grows_visit _ _ turn i)
    have hlive : Grows m.threads m.live :=
      fun t ht => .inl ⟨t, (Array.mem_filter.mp ht).1, .refl⟩
    exact hlive.trans (grows_of_map fun t _ => moves_wake _ _ t)

theorem Operation.grows (m : Machine) (operation : Operation) :
    Grows m.threads (operation.apply m).threads := by
  have control {name : String} {f : Thread → Thread} (hf : ∀ t, Moves t (f t) ∨ f t = t) :
      Grows m.threads ((m.control name f).toOption.getD m).threads := by
    unfold Machine.control
    split
    · next hupdate => exact grows_update hf hupdate
    · exact grows_refl _
  cases operation with
  | addModule module => exact grows_refl _
  | createThread name module entry =>
    simp only [apply, Machine.createThread]
    split
    · exact grows_refl _
    · split
      · exact grows_refl _
      · exact grows_spawn m _
  | suspend name =>
    refine control fun t => ?_
    split
    · exact .inl (.status t .held)
    · exact .inr rfl
  | resume name =>
    refine control fun t => ?_
    split
    · exact .inl (.status t .running)
    · exact .inr rfl
  | kill name => exact control fun t => .inl (.ends t)
  | complete token =>
    refine grows_of_map fun t _ => ?_
    split
    · exact .single (.status t .running)
    · exact .refl
  | takeErrors => exact grows_refl _
  | run budget stage => exact grows_run m budget stage

end Machine

end Stagecraft
