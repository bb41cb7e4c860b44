import Stagecraft.Proofs.Machine.History

/-!
A thread that is not running at its turn makes no step; one that waits goes on only for the reason
it waits for, and one whose time has come makes a step unless it has been replaced before its turn.
-/

namespace Stagecraft

namespace Machine

variable {σ : Type} [Stage σ]

def sliceSteps (s : Setting) : Nat → Thread → World σ → Nat
  | 0, _, _ => 0
  | budget + 1, t, w =>
    match t.step s w with
    | (.ok (.next, t), w) => sliceSteps s budget t w + 1
    | _ => 1

lemma sliceSteps_pos {s : Setting} {budget : Nat} (hb : 0 < budget) (t : Thread) (w : World σ) :
    0 < sliceSteps s budget t w := by
  obtain ⟨budget, rfl⟩ := Nat.exists_eq_succ_of_ne_zero (Nat.ne_of_gt hb)
  rw [sliceSteps]
  split <;> omega

lemma sliceSteps_le (s : Setting) (budget : Nat) (t : Thread) (w : World σ) :
    sliceSteps s budget t w ≤ budget := by
  induction budget generalizing t w with
  | zero => exact Nat.le_refl 0
  | succ budget ih =>
    rw [sliceSteps]
    split
    · next t' w' _ => exact Nat.succ_le_succ (ih t' w')
    · omega

/-- A thread makes a number of steps, one after the other. Every step but the last one says that the
thread goes on. The outcome is the thread after the last step, the error if that step has failed,
and the world. -/
inductive Executes (s : Setting) :
    Nat → Thread → World σ → Thread × Option MachineError × World σ → Prop
  | rests (t : Thread) (w : World σ) : Executes s 0 t w (t, none, w)
  | goesOn {n : Nat} {t t' : Thread} {w w' : World σ}
      {outcome : Thread × Option MachineError × World σ}
      (h : t.step s w = (.ok (.next, t'), w')) (rest : Executes s n t' w' outcome) :
      Executes s (n + 1) t w outcome
  | stops {t t' : Thread} {w w' : World σ} {flow : Flow} (h : t.step s w = (.ok (flow, t'), w'))
      (hf : flow ≠ .next) : Executes s 1 t w (t', none, w')
  | fails {t : Thread} {w w' : World σ} {e : MachineError} (h : t.step s w = (.error e, w')) :
      Executes s 1 t w (t.terminate, some e, w')

lemma executes_slice (s : Setting) (budget : Nat) (t : Thread) (w : World σ) :
    Executes s (sliceSteps s budget t w) t w (slice s budget t w) := by
  induction budget generalizing t w with
  | zero => exact .rests t w
  | succ budget ih =>
    rcases hstep : t.step s w with ⟨r, w'⟩
    cases r with
    | error e =>
      rw [sliceSteps, slice, hstep]
      exact .fails hstep
    | ok r =>
      obtain ⟨flow, t'⟩ := r
      cases flow with
      | next =>
        rw [sliceSteps, slice, hstep]
        exact .goesOn hstep (ih t' w')
      | yield | finished =>
        rw [sliceSteps, slice, hstep]
        exact .stops hstep (by simp)

/-- A run in which the threads before position `i` have had their turns. -/
def turn (m : Machine) (budget : Nat) (stage : σ) (i : Nat) : Turn σ :=
  (List.range i).foldl (visit (Stage.now stage) budget) { machine := m.awake stage, stage }

lemma turn_succ (m : Machine) (budget : Nat) (stage : σ) (i : Nat) :
    m.turn budget stage (i + 1) =
      visit (Stage.now stage) budget (m.turn budget stage i) i := by
  rw [turn, List.range_succ, List.foldl_append]
  rfl

lemma size_awake (m : Machine) (stage : σ) : (m.awake stage).threads.size = m.live.size :=
  Array.size_map

lemma run_eq (m : Machine) {budget : Nat} (hb : 0 < budget) (stage : σ) :
    m.run budget stage = (.ok (m.turn budget stage m.live.size).moved,
      (m.turn budget stage m.live.size).machine, (m.turn budget stage m.live.size).stage) := by
  have hne : (budget == 0) = false := beq_eq_false_iff_ne.mpr (Nat.ne_of_gt hb)
  rw [← size_awake m stage, run, hne]
  rfl

def Turn.setting (now : Nat) (turn : Turn σ) : Setting :=
  { modules := turn.machine.modules, registry := turn.machine.registry, now }

def Turn.world (turn : Turn σ) : World σ :=
  { stage := turn.stage, random := turn.machine.random }

def stepsAt (m : Machine) (budget : Nat) (stage : σ) (i : Nat) : Nat :=
  let turn := m.turn budget stage i
  match turn.machine.threads[i]? with
  | some t =>
    if t.status = .running then
      sliceSteps (turn.setting (Stage.now stage)) budget t turn.world
    else 0
  | none => 0

def requestsAt (m : Machine) (budget : Nat) (stage : σ) (i : Nat) : List Spawn :=
  let turn := m.turn budget stage i
  match turn.machine.threads[i]? with
  | some t =>
    if t.status = .running then
      (slice (turn.setting (Stage.now stage)) budget t turn.world).2.2.spawns.toList
    else []
  | none => []

def Turn.after (before : Turn σ) (i : Nat) :
    Thread × Option MachineError × World σ → Turn σ
  | (t, error?, w) =>
    let m := { before.machine with
      threads := before.machine.threads.setIfInBounds i t
      random := w.random
      errors := before.machine.errors ++ (error?.map (ThreadError.mk t.name)).toArray }
    { machine := m.spawnAll w.spawns.toList, stage := w.stage, moved := true }

/-- What the turn at position `i` of a run executes. A thread that is running makes the steps that
are counted, at least one and no more than the budget; without one nothing is done. -/
inductive Proceeds (m : Machine) (budget : Nat) (stage : σ) (i : Nat) : Prop
  | idle (h : ∀ t, (m.turn budget stage i).machine.threads[i]? = some t → t.status ≠ .running)
      (steps : m.stepsAt budget stage i = 0) (requests : m.requestsAt budget stage i = [])
      (turn : m.turn budget stage (i + 1) = m.turn budget stage i)
  | executes {t : Thread} {outcome : Thread × Option MachineError × World σ}
      (h : (m.turn budget stage i).machine.threads[i]? = some t) (running : t.status = .running)
      (pos : 0 < m.stepsAt budget stage i) (le : m.stepsAt budget stage i ≤ budget)
      (steps : Executes ((m.turn budget stage i).setting (Stage.now stage))
        (m.stepsAt budget stage i) t (m.turn budget stage i).world outcome)
      (requests : m.requestsAt budget stage i = outcome.2.2.spawns.toList)
      (turn : m.turn budget stage (i + 1) = (m.turn budget stage i).after i outcome)

def sliceAt (m : Machine) (budget : Nat) (stage : σ) (i : Nat) (t : Thread) :
    Thread × Option MachineError × World σ :=
  slice ((m.turn budget stage i).setting (Stage.now stage)) budget t (m.turn budget stage i).world

section Turn

variable {m : Machine} {budget : Nat} {stage : σ} {i : Nat} {t : Thread}

lemma stepsAt_of_running (ht : (m.turn budget stage i).machine.threads[i]? = some t)
    (hr : t.status = .running) : m.stepsAt budget stage i =
      sliceSteps ((m.turn budget stage i).setting (Stage.now stage)) budget t
        (m.turn budget stage i).world := by
  simp only [stepsAt, ht, if_pos hr]

lemma requestsAt_of_running (ht : (m.turn budget stage i).machine.threads[i]? = some t)
    (hr : t.status = .running) :
    m.requestsAt budget stage i = (m.sliceAt budget stage i t).2.2.spawns.toList := by
  simp only [requestsAt, ht, if_pos hr, sliceAt]

lemma turn_succ_of_running (ht : (m.turn budget stage i).machine.threads[i]? = some t)
    (hr : t.status = .running) : m.turn budget stage (i + 1) =
      (m.turn budget stage i).after i (m.sliceAt budget stage i t) := by
  rw [turn_succ]
  simp only [visit, ht, hr, bne_self_eq_false, Bool.false_eq_true, if_false]
  rfl

lemma stepsAt_of_not_running (h : ∀ t, (m.turn budget stage i).machine.threads[i]? = some t →
    t.status ≠ .running) : m.stepsAt budget stage i = 0 := by
  rw [stepsAt]
  split
  · next t ht => exact if_neg (h t ht)
  · rfl

lemma requestsAt_of_not_running (h : ∀ t, (m.turn budget stage i).machine.threads[i]? = some t →
    t.status ≠ .running) : m.requestsAt budget stage i = [] := by
  rw [requestsAt]
  split
  · next t ht => exact if_neg (h t ht)
  · rfl

lemma turn_of_not_running (h : ∀ t, (m.turn budget stage i).machine.threads[i]? = some t →
    t.status ≠ .running) : m.turn budget stage (i + 1) = m.turn budget stage i := by
  rw [turn_succ, visit]
  cases ht : (m.turn budget stage i).machine.threads[i]? with
  | none => rfl
  | some t =>
    have hne : (t.status != .running) = true := bne_iff_ne.mpr (h t ht)
    simp only [hne, if_true]

lemma exists_running_or (m : Machine) (budget : Nat) (stage : σ) (i : Nat) :
    (∃ t, (m.turn budget stage i).machine.threads[i]? = some t ∧ t.status = .running) ∨
      ∀ t, (m.turn budget stage i).machine.threads[i]? = some t → t.status ≠ .running := by
  by_cases h : ∃ t, (m.turn budget stage i).machine.threads[i]? = some t ∧ t.status = .running
  · exact .inl h
  · exact .inr fun t ht hr => h ⟨t, ht, hr⟩

lemma proceeds (m : Machine) (hb : 0 < budget) (stage : σ) (i : Nat) :
    m.Proceeds budget stage i := by
  obtain ⟨t, ht, hr⟩ | hidle := exists_running_or m budget stage i
  · have hsteps := stepsAt_of_running ht hr
    have hexecutes := executes_slice ((m.turn budget stage i).setting (Stage.now stage)) budget t
      (m.turn budget stage i).world
    rw [← hsteps] at hexecutes
    exact .executes ht hr (hsteps ▸ sliceSteps_pos hb _ _) (hsteps ▸ sliceSteps_le _ _ _ _)
      hexecutes (requestsAt_of_running ht hr) (turn_succ_of_running ht hr)
  · exact .idle hidle (stepsAt_of_not_running hidle) (requestsAt_of_not_running hidle)
      (turn_of_not_running hidle)

end Turn

def steps (m : Machine) (budget : Nat) (stage : σ) (id : Nat) : Nat :=
  (((List.range m.live.size).filter fun i =>
    (m.turn budget stage i).machine.threads[i]?.any (·.id == id)).map
      (m.stepsAt budget stage)).sum

/-- An earlier turn of a run has asked for a thread that takes the place of `t`. -/
def ReplacedBefore (m : Machine) (budget : Nat) (stage : σ) (t : Thread) (i : Nat) : Prop :=
  ∃ j < i, ∃ s ∈ m.requestsAt budget stage j, s.name = t.name ∧ Accepts s

section Spawning

variable {m m' : Machine}

@[simp] lemma size_cleared (m : Machine) (name : String) :
    (m.cleared name).size = m.threads.size := by
  unfold cleared
  cases h : update name Thread.terminate m.threads with
  | none => rfl
  | some ts =>
    obtain ⟨i, t, -, -, -, rfl⟩ := update_eq_some h
    exact Array.size_modify

lemma getElem?_cleared (name : String) {i : Nat} {t : Thread} (ht : m.threads[i]? = some t) :
    (m.cleared name)[i]? = some t ∨
      (m.cleared name)[i]? = some t.terminate ∧ t.isLive ∧ t.name = name := by
  unfold cleared
  cases h : update name Thread.terminate m.threads with
  | none => exact .inl ht
  | some ts =>
    obtain ⟨j, u, hu, hlive, hname, rfl⟩ := update_eq_some h
    rw [Option.getD_some, Array.getElem?_modify]
    split
    · next hij =>
      subst hij
      cases Option.some.inj (ht.symm.trans hu)
      exact .inr ⟨by rw [ht]; rfl, hlive, hname⟩
    · exact .inl ht

lemma getElem?_cleared_of_name (hm : m.Orderly) {i : Nat} {t : Thread}
    (ht : m.threads[i]? = some t) (hlive : t.isLive) :
    (m.cleared t.name)[i]? = some t.terminate := by
  rcases getElem?_cleared t.name ht with h | ⟨h, -, -⟩
  · exact absurd rfl (name_ne_of_cleared hm (Array.mem_of_getElem? h) hlive)
  · exact h

/-- A thread as it is before its first step, or after it has been replaced without having made
one. -/
def Fresh (u : Thread) : Prop :=
  ∃ s arguments, u = Thread.start u.id s arguments ∨ u = (Thread.start u.id s arguments).terminate

lemma Fresh.terminate {u : Thread} (h : Fresh u) : Fresh u.terminate := by
  obtain ⟨s, arguments, h⟩ := h
  refine ⟨s, arguments, .inr ?_⟩
  rcases h with h | h
  · exact congrArg Thread.terminate h
  · exact (congrArg Thread.terminate h).trans (Thread.terminate_terminate _)

structure Adds (m m' : Machine) (spawns : List Spawn) : Prop where
  size : m.threads.size ≤ m'.threads.size
  next : m.nextThread ≤ m'.nextThread
  old : ∀ (i : Nat) t, m.threads[i]? = some t → m'.threads[i]? = some t ∨
    m'.threads[i]? = some t.terminate ∧ ∃ s ∈ spawns, s.name = t.name ∧ Accepts s
  new : ∀ (i : Nat) u, m.threads.size ≤ i → m'.threads[i]? = some u →
    m.nextThread ≤ u.id ∧ Fresh u

lemma Adds.none (ht : m'.threads = m.threads) (hn : m'.nextThread = m.nextThread)
    (spawns : List Spawn) : Adds m m' spawns := by
  refine ⟨Nat.le_of_eq (ht ▸ rfl), Nat.le_of_eq hn.symm, fun i t h => .inl (ht ▸ h),
    fun i u hi hu => ?_⟩
  rw [ht, Array.getElem?_eq_none hi] at hu
  cases hu

lemma Adds.placed {spawns : List Spawn} (h : Adds m m' spawns) {i : Nat} {t : Thread}
    (ht : m.threads[i]? = some t) : ∃ u, m'.threads[i]? = some u ∧ u.id = t.id := by
  rcases h.old i t ht with h | ⟨h, -⟩
  · exact ⟨t, h, rfl⟩
  · exact ⟨t.terminate, h, rfl⟩

lemma adds_spawn (m : Machine) (s : Spawn) : Adds m (m.spawn s).2 [s] := by
  obtain ⟨-, e, h⟩ | ⟨ha, arguments, h⟩ := spawn_cases m s
  · rw [h]
    exact .none rfl rfl _
  · rw [h]
    refine ⟨by simp, Nat.le_succ _, fun i t ht => ?_, fun i u hi hu => ?_⟩
    · have hi := (Array.getElem?_eq_some_iff.mp ht).1
      rw [Array.getElem?_push_lt (by simpa using hi), ← Array.getElem?_eq_getElem]
      exact (getElem?_cleared s.name ht).imp_right fun ⟨hended, _, hname⟩ =>
        ⟨hended, s, List.mem_singleton_self s, hname.symm, ha⟩
    · rw [Array.getElem?_push] at hu
      split at hu
      · cases hu
        exact ⟨Nat.le_refl _, s, arguments, .inl rfl⟩
      · next hne =>
        rw [size_cleared] at hne
        rw [Array.getElem?_eq_none (by simpa using hi)] at hu
        cases hu

lemma Adds.trans {m'' : Machine} {spawns spawns' : List Spawn} (h : Adds m m' spawns)
    (h' : Adds m' m'' spawns') : Adds m m'' (spawns ++ spawns') := by
  refine ⟨Nat.le_trans h.size h'.size, Nat.le_trans h.next h'.next, fun i t ht => ?_,
    fun i u hi hu => ?_⟩
  · rcases h.old i t ht with ht' | ⟨ht', s, hs, hname, ha⟩
    · exact (h'.old i t ht').imp_right fun ⟨hended, s, hs, hname, ha⟩ =>
        ⟨hended, s, List.mem_append_right _ hs, hname, ha⟩
    · refine .inr ⟨?_, s, List.mem_append_left _ hs, hname, ha⟩
      exact (h'.old i _ ht').elim id And.left
  · by_cases hi' : m'.threads.size ≤ i
    · obtain ⟨hid, hfresh⟩ := h'.new i u hi' hu
      exact ⟨Nat.le_trans h.next hid, hfresh⟩
    · have hv := Array.getElem?_eq_getElem (Nat.lt_of_not_le hi')
      obtain ⟨hid, hfresh⟩ := h.new i _ hi hv
      rcases h'.old i _ hv with hu' | ⟨hu', -⟩
      · cases Option.some.inj (hu.symm.trans hu')
        exact ⟨hid, hfresh⟩
      · cases Option.some.inj (hu.symm.trans hu')
        exact ⟨hid, hfresh.terminate⟩

lemma spawnAll_cons (m : Machine) (s : Spawn) (rest : List Spawn) :
    ∃ m₁ : Machine, m₁.threads = (m.spawn s).2.threads ∧ m₁.nextThread = (m.spawn s).2.nextThread ∧
      m.spawnAll (s :: rest) = m₁.spawnAll rest := by
  rw [spawnAll]
  rcases m.spawn s with ⟨r, m'⟩
  cases r with
  | ok id => exact ⟨m', rfl, rfl, rfl⟩
  | error e => exact ⟨{ m' with errors := m'.errors.push ⟨s.name, e⟩ }, rfl, rfl, rfl⟩

lemma adds_spawnAll (m : Machine) (spawns : List Spawn) : Adds m (m.spawnAll spawns) spawns := by
  induction spawns generalizing m with
  | nil => exact .none rfl rfl _
  | cons s rest ih =>
    obtain ⟨m₁, ht, hn, h⟩ := spawnAll_cons m s rest
    rw [h]
    exact ((adds_spawn m s).trans (.none ht hn [])).trans (ih m₁)

lemma spawnAll_replaces (hm : m.Orderly) {spawns : List Spawn} {s : Spawn} (hs : s ∈ spawns)
    (ha : Accepts s) {i : Nat} {t : Thread} (ht : m.threads[i]? = some t) (hname : s.name = t.name)
    (hlive : t.isLive) : (m.spawnAll spawns).threads[i]? = some t.terminate := by
  induction spawns generalizing m with
  | nil => cases hs
  | cons s' rest ih =>
    obtain ⟨m₁, hthreads, hnext, h⟩ := spawnAll_cons m s' rest
    rw [h]
    have hm₁ : m₁.Orderly := (hm.spawn s').of_eq hthreads hnext
    have hended (ht₁ : m₁.threads[i]? = some t.terminate) :
        (m₁.spawnAll rest).threads[i]? = some t.terminate :=
      ((adds_spawnAll m₁ rest).old i _ ht₁).elim id And.left
    rcases (adds_spawn m s').old i t ht with ht₁ | ⟨ht₁, -⟩
    · rw [← hthreads] at ht₁
      rcases List.mem_cons.mp hs with rfl | hs
      · -- the name is free after the start, so the thread cannot be live any more
        obtain ⟨hna, -⟩ | ⟨-, arguments, hspawn⟩ := spawn_cases m s
        · exact absurd ha hna
        · have hi := (Array.getElem?_eq_some_iff.mp ht).1
          rw [hthreads, hspawn, Array.getElem?_push_lt (by simpa using hi),
            ← Array.getElem?_eq_getElem, hname, getElem?_cleared_of_name hm ht hlive] at ht₁
          rw [← Option.some.inj ht₁] at hlive
          cases hlive
      · exact ih hm₁ hs ht₁
    · exact hended (hthreads ▸ ht₁)

end Spawning

section Turns

variable {m : Machine} {budget : Nat} {stage : σ}

lemma orderly_turn (hm : m.Orderly) (budget : Nat) (stage : σ) (i : Nat) :
    (m.turn budget stage i).machine.Orderly := by
  induction i with
  | zero => exact hm.awake stage
  | succ i ih =>
    rw [turn_succ]
    exact ih.visit _ _ i

lemma turn_cases (hm : m.Orderly) (budget : Nat) (stage : σ) (i : Nat) :
    (m.turn budget stage (i + 1) = m.turn budget stage i ∧ m.requestsAt budget stage i = [] ∧
      ∀ t, (m.turn budget stage i).machine.threads[i]? = some t → t.status ≠ .running) ∨
    ∃ (t t' : Thread) (mid : Machine), (m.turn budget stage i).machine.threads[i]? = some t ∧
      t.status = .running ∧ t.Carries t' ∧ mid.Orderly ∧ mid.threads[i]? = some t' ∧
      (∀ j, i ≠ j → mid.threads[j]? = (m.turn budget stage i).machine.threads[j]?) ∧
      mid.nextThread = (m.turn budget stage i).machine.nextThread ∧
      (m.turn budget stage (i + 1)).machine = mid.spawnAll (m.requestsAt budget stage i) ∧
      (m.turn budget stage (i + 1)).moved = true := by
  have horderly := orderly_turn hm budget stage i
  obtain ⟨t, ht, hr⟩ | hidle := exists_running_or m budget stage i
  · have hlive : t.isLive := by simp [Thread.isLive, hr]
    have hu := (horderly.tidy t (Array.mem_of_getElem? ht)).live hlive
    have hsize := (Array.getElem?_eq_some_iff.mp ht).1
    let turn := m.turn budget stage i
    let result := m.sliceAt budget stage i t
    have hc : t.Carries result.1 := (Thread.runs_slice budget hu hr).carries hr
    refine .inr ⟨t, result.1, { turn.machine with
      threads := turn.machine.threads.setIfInBounds i result.1
      random := result.2.2.random
      errors := turn.machine.errors ++
        (result.2.1.map (ThreadError.mk result.1.name)).toArray }, ht, hr, hc,
      horderly.of_continues (continues_set ht hc) rfl, by simp [turn, hsize],
      fun j hij => Array.getElem?_setIfInBounds_ne hij, rfl, ?_⟩
    rw [turn_succ_of_running ht hr, requestsAt_of_running ht hr]
    exact ⟨rfl, rfl⟩
  · exact .inl ⟨turn_of_not_running hidle, requestsAt_of_not_running hidle, hidle⟩

structure Turned (m : Machine) (budget : Nat) (stage : σ) (k : Nat) : Prop where
  next : m.nextThread ≤ (m.turn budget stage k).machine.nextThread
  old : ∀ (i : Nat) t, (m.awake stage).threads[i]? = some t →
    ∃ u, (m.turn budget stage k).machine.threads[i]? = some u ∧ u.id = t.id ∧
      (t.status ≠ .running ∨ k ≤ i → u = t ∨ u = t.terminate)
  new : ∀ (i : Nat) u, m.live.size ≤ i →
    (m.turn budget stage k).machine.threads[i]? = some u → m.nextThread ≤ u.id ∧ Fresh u

lemma turned (hm : m.Orderly) (budget : Nat) (stage : σ) {k : Nat} (hk : k ≤ m.live.size) :
    Turned m budget stage k := by
  induction k with
  | zero =>
    refine ⟨Nat.le_refl _, fun i t ht => ⟨t, ht, rfl, fun _ => .inl rfl⟩, fun i u hi hu => ?_⟩
    have hnone : (m.awake stage).threads[i]? = none :=
      Array.getElem?_eq_none (size_awake m stage ▸ hi)
    cases hnone.symm.trans hu
  | succ k ih =>
    have h := ih (Nat.le_of_succ_le hk)
    obtain ⟨heq, -, -⟩ | ⟨t, t', mid, ht, hr, hc, -, hself, hother, hnext, hafter, -⟩ :=
      turn_cases hm budget stage k
    · refine ⟨heq ▸ h.next, fun i t ht => ?_, fun i u hi hu => h.new i u hi (heq ▸ hu)⟩
      obtain ⟨u, hu, hid, hleft⟩ := h.old i t ht
      exact ⟨u, heq ▸ hu, hid, fun hor => hleft (hor.imp_right Nat.le_of_succ_le)⟩
    · have hadds := adds_spawnAll mid (m.requestsAt budget stage k)
      rw [← hafter] at hadds
      refine ⟨Nat.le_trans h.next (hnext ▸ hadds.next), fun i t₀ ht₀ => ?_, fun i u hi hu => ?_⟩
      · obtain ⟨u, hu, hid, hleft⟩ := h.old i t₀ ht₀
        by_cases hik : k = i
        · subst hik
          cases Option.some.inj (ht.symm.trans hu)
          obtain ⟨t₁, ht₁, hid₁⟩ := hadds.placed hself
          have hrun : t₀.status = .running := by
            -- the thread is as it was when the run began, so it was running then
            rcases hleft (.inr (Nat.le_refl k)) with rfl | rfl
            · exact hr
            · cases hr
          exact ⟨t₁, ht₁, (hid₁.trans hc.id).trans hid, fun hor => absurd hor (by simp [hrun])⟩
        · rcases hadds.old i u ((hother i hik).trans hu) with h' | ⟨h', -⟩
          · exact ⟨u, h', hid, fun hor => hleft (hor.imp_right Nat.le_of_succ_le)⟩
          · refine ⟨u.terminate, h', hid, fun hor => .inr ?_⟩
            rcases hleft (hor.imp_right Nat.le_of_succ_le) with rfl | rfl <;> rfl
      -- it was started in an earlier turn of the run, or is asked for in this one
      · cases hv : mid.threads[i]? with
        | none =>
          obtain ⟨hid, hfresh⟩ := hadds.new i u (Array.getElem?_eq_none_iff.mp hv) hu
          exact ⟨Nat.le_trans (hnext ▸ h.next) hid, hfresh⟩
        | some v =>
          have hv' := (hother i (by omega)).symm.trans hv
          obtain ⟨hid, hfresh⟩ := h.new i v hi hv'
          rcases hadds.old i v hv with h' | ⟨h', -⟩
          · cases Option.some.inj (hu.symm.trans h')
            exact ⟨hid, hfresh⟩
          · cases Option.some.inj (hu.symm.trans h')
            exact ⟨hid, hfresh.terminate⟩

lemma turn_of_live (hm : m.Orderly) (budget : Nat) {i : Nat} {t : Thread}
    (ht : (m.awake stage).threads[i]? = some t) (hlive : t.isLive) {k : Nat} (hk : k ≤ i) :
    (m.ReplacedBefore budget stage t k ∧
      (m.turn budget stage k).machine.threads[i]? = some t.terminate) ∨
    ¬m.ReplacedBefore budget stage t k ∧
      (m.turn budget stage k).machine.threads[i]? = some t := by
  induction k with
  | zero => exact .inr ⟨fun ⟨j, hj, _⟩ => absurd hj (Nat.not_lt_zero j), ht⟩
  | succ k ih =>
    have hsplit : m.ReplacedBefore budget stage t (k + 1) ↔ m.ReplacedBefore budget stage t k ∨
        ∃ s ∈ m.requestsAt budget stage k, s.name = t.name ∧ Accepts s := by
      simp only [ReplacedBefore, Nat.lt_succ_iff_lt_or_eq, or_and_right, exists_or, exists_eq_left]
    rw [hsplit]
    obtain ⟨heq, hnone, -⟩ | ⟨t₀, t', mid, -, -, -, hmid, -, hother, -, hafter, -⟩ :=
      turn_cases hm budget stage k
    · simpa [heq, hnone] using ih (Nat.le_of_succ_le hk)
    · rw [hafter]
      rcases ih (Nat.le_of_succ_le hk) with ⟨hrep, hended⟩ | ⟨hrep, hstays⟩
      · rw [← hother i (by omega)] at hended
        have hold := (adds_spawnAll mid (m.requestsAt budget stage k)).old i _ hended
        exact .inl ⟨.inl hrep, hold.elim id And.left⟩
      · rw [← hother i (by omega)] at hstays
        by_cases hs : ∃ s ∈ m.requestsAt budget stage k, s.name = t.name ∧ Accepts s
        · obtain ⟨s, hmem, hname, ha⟩ := hs
          exact .inl ⟨.inr ⟨s, hmem, hname, ha⟩,
            spawnAll_replaces hmid hmem ha hstays hname hlive⟩
        · refine .inr ⟨fun h => h.elim hrep hs, ?_⟩
          exact ((adds_spawnAll mid (m.requestsAt budget stage k)).old i t hstays).resolve_right
            fun ⟨_, hex⟩ => hs hex

lemma exists_live {t : Thread} (ht : t ∈ m.threads) (hlive : t.isLive) :
    ∃ i < m.live.size, m.live[i]? = some t := by
  obtain ⟨i, hi, rfl⟩ := Array.getElem_of_mem (Array.mem_filter.mpr ⟨ht, hlive⟩)
  exact ⟨i, hi, Array.getElem?_eq_getElem hi⟩

lemma mem_awake {t : Thread} (ht : t ∈ m.threads) (hlive : t.isLive) (stage : σ) :
    ∃ i, i < m.live.size ∧
      (m.awake stage).threads[i]? = some (wake (Stage.now stage) (Stage.input stage) t) := by
  obtain ⟨i, hi, hlive⟩ := exists_live ht hlive
  refine ⟨i, hi, ?_⟩
  rw [awake, Array.getElem?_map, hlive]
  rfl

lemma exists_of_awake {i : Nat} {t : Thread} (ht : (m.awake stage).threads[i]? = some t) :
    ∃ t₀ ∈ m.threads, t₀.isLive ∧ t = wake (Stage.now stage) (Stage.input stage) t₀ := by
  rw [awake, Array.getElem?_map, Option.map_eq_some_iff] at ht
  obtain ⟨t₀, ht₀, rfl⟩ := ht
  obtain ⟨hmem, hlive⟩ := Array.mem_filter.mp (Array.mem_of_getElem? ht₀)
  exact ⟨t₀, hmem, hlive, rfl⟩

lemma exists_awake (stage : σ) {i : Nat} (hi : i < m.live.size) :
    ∃ t, (m.awake stage).threads[i]? = some t :=
  ⟨_, Array.getElem?_eq_getElem (size_awake m stage ▸ hi)⟩

lemma exists_at_turn (hm : m.Orderly) (budget : Nat) (stage : σ) {i : Nat} (hi : i < m.live.size) :
    ∃ t u, (m.awake stage).threads[i]? = some t ∧
      (m.turn budget stage i).machine.threads[i]? = some u ∧ u.id = t.id := by
  obtain ⟨t, ht⟩ := exists_awake stage hi
  obtain ⟨u, hu, hid, -⟩ := (turned hm budget stage (Nat.le_of_lt hi)).old i t ht
  exact ⟨t, u, ht, hu, hid⟩

lemma steps_eq (hm : m.Orderly) {i : Nat} (hi : i < m.live.size) {t : Thread}
    (ht : (m.turn budget stage i).machine.threads[i]? = some t) :
    m.steps budget stage t.id = m.stepsAt budget stage i := by
  have hat {j : Nat} (hj : j ∈ List.range m.live.size) :
      (m.turn budget stage j).machine.threads[j]?.any (·.id == t.id) = (j == i) := by
    obtain ⟨t₁, u₁, ht₁, hu₁, hid₁⟩ := exists_at_turn hm budget stage (List.mem_range.mp hj)
    obtain ⟨t₂, u₂, ht₂, hu₂, hid₂⟩ := exists_at_turn hm budget stage hi
    cases Option.some.inj (ht.symm.trans hu₂)
    rw [hu₁, Option.any_some, Bool.eq_iff_iff, beq_iff_eq, beq_iff_eq, hid₁, hid₂]
    constructor
    · exact (hm.awake stage).eq_of_id ht₁ ht₂
    · rintro rfl
      cases Option.some.inj (ht₁.symm.trans ht₂)
      rfl
  rw [steps, List.filter_congr fun j hj => hat hj, List.filter_beq, List.nodup_range.count,
    if_pos (List.mem_range.mpr hi)]
  simp

lemma steps_eq_zero (hm : m.Orderly) {id : Nat} (hid : ∀ t ∈ m.threads, t.isLive → t.id ≠ id) :
    m.steps budget stage id = 0 := by
  have hfilter : (List.range m.live.size).filter (fun j =>
      (m.turn budget stage j).machine.threads[j]?.any (·.id == id)) = [] := by
    rw [List.filter_eq_nil_iff]
    intro j hj hany
    obtain ⟨t, u, ht, hu, hsame⟩ := exists_at_turn hm budget stage (List.mem_range.mp hj)
    obtain ⟨t₀, hmem, hlive, rfl⟩ := exists_of_awake ht
    rw [hu] at hany
    have huid : u.id = id := by simpa using hany
    exact hid t₀ hmem hlive ((carries_wake _ _).id.symm.trans (hsame.symm.trans huid))
  rw [steps, hfilter]
  rfl

lemma steps_of_not_running (hm : m.Orderly) {i : Nat} (hi : i < m.live.size) {t : Thread}
    (ht : (m.turn budget stage i).machine.threads[i]? = some t) (hr : t.status ≠ .running) :
    m.steps budget stage t.id = 0 := by
  rw [steps_eq hm hi ht]
  refine stepsAt_of_not_running fun t' ht' => ?_
  cases Option.some.inj (ht.symm.trans ht')
  exact hr

lemma steps_pos_iff (hm : m.Orderly) (hb : 0 < budget) {i : Nat} {t : Thread}
    (ht : (m.awake stage).threads[i]? = some t) (hr : t.status = .running) :
    0 < m.steps budget stage t.id ↔ ¬m.ReplacedBefore budget stage t i := by
  have hlive : t.isLive := by simp [Thread.isLive, hr]
  have hi : i < m.live.size := size_awake m stage ▸ (Array.getElem?_eq_some_iff.mp ht).1
  rcases turn_of_live hm budget ht hlive (Nat.le_refl i) with ⟨hrep, hu⟩ | ⟨hrep, hu⟩
  · have hzero := steps_of_not_running hm hi hu (by simp)
    rw [Thread.id_terminate] at hzero
    simp [hzero, hrep]
  · rw [steps_eq hm hi hu, stepsAt_of_running hu hr]
    exact iff_of_true (sliceSteps_pos hb _ _) hrep

lemma nextThread_run (hm : m.Orderly) (budget : Nat) (stage : σ) :
    m.nextThread ≤ (m.run budget stage).2.1.nextThread := by
  rcases Nat.eq_zero_or_pos budget with rfl | hb
  · exact Nat.le_refl _
  · rw [run_eq m hb]
    exact (turned hm budget stage (Nat.le_refl _)).next

lemma run_cases (hm : m.Orderly) {u : Thread} (hu : u ∈ (m.run budget stage).2.1.threads) :
    (∃ t ∈ m.threads, t.id = u.id ∧ (u.isLive → t.isLive)) ∨ m.nextThread ≤ u.id ∧ Fresh u := by
  rcases Nat.eq_zero_or_pos budget with rfl | hb
  · exact .inl ⟨u, hu, rfl, id⟩
  · rw [run_eq m hb] at hu
    have hturned := turned hm budget stage (Nat.le_refl m.live.size)
    obtain ⟨i, hi⟩ := Array.mem_iff_getElem?.mp hu
    by_cases hsize : m.live.size ≤ i
    · exact .inr (hturned.new i u hsize hi)
    · obtain ⟨t, ht⟩ := exists_awake stage (Nat.lt_of_not_le hsize)
      obtain ⟨t₀, hmem, hlive, hwoken⟩ := exists_of_awake ht
      obtain ⟨u', hu', hsame, -⟩ := hturned.old i _ ht
      cases Option.some.inj (hi.symm.trans hu')
      rw [hwoken, (carries_wake _ _).id] at hsame
      exact .inl ⟨t₀, hmem, hsame.symm, fun _ => hlive⟩

lemma turn_moved_iff (hm : m.Orderly) (hb : 0 < budget) (k : Nat) :
    (m.turn budget stage k).moved = true ↔ ∃ i < k, 0 < m.stepsAt budget stage i := by
  induction k with
  | zero => exact ⟨nofun, fun ⟨_, hi, _⟩ => absurd hi (Nat.not_lt_zero _)⟩
  | succ k ih =>
    simp only [Nat.lt_succ_iff_lt_or_eq, or_and_right, exists_or, exists_eq_left]
    obtain ⟨heq, -, hidle⟩ | ⟨t, t', mid, ht, hr, -, -, -, -, -, -, hmoved⟩ :=
      turn_cases hm budget stage k
    · rw [heq, ih, stepsAt_of_not_running hidle]
      simp
    · have hpos : 0 < m.stepsAt budget stage k := by
        rw [stepsAt_of_running ht hr]
        exact sliceSteps_pos hb _ _
      simp [hmoved, hpos]

theorem run_moved_iff (hm : m.Orderly) (hb : 0 < budget) :
    (m.run budget stage).1 = .ok true ↔ ∃ i < m.live.size, 0 < m.stepsAt budget stage i := by
  rw [run_eq m hb, ← turn_moved_iff hm hb]
  simp

end Turns

variable {m : Machine}

def Operation.Wakes (t : Thread) : Operation → Prop
  | run budget stage => 0 < budget ∧
    ((∃ deadline, t.status = .waiting (.time deadline) ∧ deadline ≤ Stage.now stage) ∨
      ∃ deadline?, t.status = .waiting (.input deadline?) ∧
        ((Stage.input stage).advance ∨
          ∃ deadline, deadline? = some deadline ∧ deadline ≤ Stage.now stage))
  | complete token => t.status = .waiting (.token token)
  | resume name => t.status = .held ∧ t.name = name
  | _ => False

def Operation.steps (m : Machine) (id : Nat) : Operation → Nat
  | run budget stage => if 0 < budget then m.steps budget stage id else 0
  | _ => 0

def Rests (t : Thread) (ts : Array Thread) : Prop :=
  t ∈ ts ∨ t.terminate ∈ ts

lemma rests_of_getElem? {t : Thread} {ts : Array Thread} {i : Nat}
    (h : ts[i]? = some t ∨ ts[i]? = some t.terminate) : Rests t ts :=
  h.imp Array.mem_of_getElem? Array.mem_of_getElem?

lemma rests_spawn (s : Spawn) {t : Thread} (ht : t ∈ m.threads) :
    Rests t (m.spawn s).2.threads := by
  obtain ⟨i, hi⟩ := Array.mem_iff_getElem?.mp ht
  exact rests_of_getElem? (((adds_spawn m s).old i t hi).imp_right And.left)

lemma rests_control {name : String} {f : Thread → Thread} {t : Thread} (ht : t ∈ m.threads)
    (hf : t.name = name → f t = t ∨ f t = t.terminate) :
    Rests t ((m.control name f).toOption.getD m).threads := by
  unfold control
  split
  · next threads hu =>
    obtain ⟨i, hi⟩ := Array.mem_iff_getElem?.mp ht
    obtain ⟨j, u, hj, -, hname, rfl⟩ := update_eq_some hu
    refine rests_of_getElem? (i := i) ?_
    change (m.threads.modify j f)[i]? = _ ∨ (m.threads.modify j f)[i]? = _
    rw [Array.getElem?_modify]
    by_cases hij : j = i
    · subst hij
      cases Option.some.inj (hi.symm.trans hj)
      rw [if_pos rfl, hi, Option.map_some]
      exact (hf hname).imp (congrArg some) (congrArg some)
    · rw [if_neg hij]
      exact .inl hi
  · exact .inl ht

lemma rests_run (hm : m.Orderly) (budget : Nat) (stage : σ) {t : Thread} (ht : t ∈ m.threads)
    (hlive : t.isLive) (hr : t.status ≠ .running)
    (hwake : 0 < budget → wake (Stage.now stage) (Stage.input stage) t = t) :
    Rests t (m.run budget stage).2.1.threads := by
  rcases Nat.eq_zero_or_pos budget with rfl | hb
  · exact .inl ht
  · rw [run_eq m hb]
    obtain ⟨i, hi, hi'⟩ := mem_awake ht hlive stage
    rw [hwake hb] at hi'
    obtain ⟨u, hu, -, hleft⟩ := (turned hm budget stage (Nat.le_refl m.live.size)).old i t hi'
    refine rests_of_getElem? (i := i) ?_
    rcases hleft (.inl hr) with rfl | rfl
    · exact .inl hu
    · exact .inr hu

theorem wakes_or_rests (hm : m.Orderly) {t : Thread} (ht : t ∈ m.threads) (hlive : t.isLive)
    (hr : t.status ≠ .running) (operation : Operation) :
    operation.Wakes t ∨ Rests t (operation.apply m).threads := by
  by_cases hw : operation.Wakes t
  · exact .inl hw
  apply Or.inr
  cases operation with
  | addModule module => exact .inl ht
  | createThread name module entry =>
    simp only [Operation.apply, createThread]
    split
    · exact .inl ht
    · split
      · exact .inl ht
      · exact rests_spawn _ ht
  | suspend name => exact rests_control ht fun _ => .inl (if_neg (by simpa using hr))
  | resume name =>
    refine rests_control ht fun hname => .inl (if_neg fun hheld => ?_)
    exact hw ⟨eq_of_beq hheld, hname⟩
  | kill name => exact rests_control ht fun _ => .inr rfl
  | complete token =>
    have hsame : (if (t.status == .waiting (.token token)) = true
        then { t with status := .running } else t) = t := if_neg fun hwait => hw (eq_of_beq hwait)
    exact .inl (Array.mem_map.mpr ⟨t, ht, hsame⟩)
  | takeErrors => exact .inl ht
  | run budget stage =>
    refine rests_run hm budget stage ht hlive hr fun hb => ?_
    unfold wake
    split
    · next reason hreason =>
      refine if_neg fun hdue => hw ⟨hb, ?_⟩
      cases reason with
      | time deadline => exact .inl ⟨deadline, hreason, by simpa [isDue] using hdue⟩
      | input deadline? =>
        refine .inr ⟨deadline?, hreason, ?_⟩
        simpa [isDue, Option.any_eq_true] using hdue
      | token id => cases hdue
    · rfl

structure Ended (m : Machine) (id : Nat) : Prop where
  given : id < m.nextThread
  status : ∀ u ∈ m.threads, u.id = id → u.status = .terminated

lemma ended_of_mem (hm : m.Orderly) {t : Thread} (ht : t ∈ m.threads)
    (hs : t.status = .terminated) : m.Ended t.id := by
  refine ⟨hm.below t ht, fun u hu hid => ?_⟩
  obtain ⟨i, hi⟩ := Array.mem_iff_getElem?.mp ht
  obtain ⟨j, hj⟩ := Array.mem_iff_getElem?.mp hu
  cases hm.eq_of_id hj hi hid
  cases Option.some.inj (hj.symm.trans hi)
  exact hs

lemma Ended.not_live {id : Nat} (h : m.Ended id) {t : Thread} (ht : t ∈ m.threads)
    (hlive : t.isLive) : t.id ≠ id :=
  fun hid => Thread.isLive_iff.mp hlive (h.status t ht hid)

lemma Ended.of_continues {m' : Machine} {id : Nat} (h : m.Ended id)
    (hc : Continues m.threads m'.threads) (hn : m'.nextThread = m.nextThread) : m'.Ended id := by
  refine ⟨hn ▸ h.given, fun u hu hid => ?_⟩
  obtain ⟨t, ht, hcarry⟩ := hc.mem hu
  by_contra hs
  exact h.not_live ht (hcarry.live (Thread.isLive_iff.mpr hs)) (hcarry.id.symm.trans hid)

lemma Ended.spawn {id : Nat} (h : m.Ended id) (s : Spawn) : (m.spawn s).2.Ended id := by
  have hadds := adds_spawn m s
  refine ⟨Nat.lt_of_lt_of_le h.given hadds.next, fun u hu hid => ?_⟩
  obtain ⟨i, hi⟩ := Array.mem_iff_getElem?.mp hu
  by_cases hsize : m.threads.size ≤ i
  · have hnew := (hadds.new i u hsize hi).1
    exact absurd h.given (by omega)
  · have ht := Array.getElem?_eq_getElem (Nat.lt_of_not_le hsize)
    rcases hadds.old i _ ht with h' | ⟨h', -⟩
    · cases Option.some.inj (hi.symm.trans h')
      exact h.status _ (Array.mem_of_getElem? ht) hid
    · cases Option.some.inj (hi.symm.trans h')
      rfl

lemma Ended.run {id : Nat} (hm : m.Orderly) (h : m.Ended id) (budget : Nat) (stage : σ) :
    (m.run budget stage).2.1.Ended id := by
  refine ⟨Nat.lt_of_lt_of_le h.given (nextThread_run hm budget stage), fun u hu hid => ?_⟩
  rcases run_cases hm hu with ⟨t, ht, hsame, hlive⟩ | ⟨hnew, -⟩
  · by_contra hs
    exact h.not_live ht (hlive (Thread.isLive_iff.mpr hs)) (hsame.trans hid)
  · exact absurd h.given (by omega)

lemma Ended.apply {id : Nat} (hm : m.Orderly) (h : m.Ended id) (operation : Operation) :
    (operation.apply m).Ended id := by
  obtain ⟨hc, hn⟩ | ⟨s, hs⟩ | ⟨σ, _, budget, stage, rfl⟩ := operation.apply_cases m
  · exact h.of_continues hc hn
  · rw [hs]
    exact h.spawn s
  · exact h.run hm budget stage

lemma Ended.after {id : Nat} (hm : m.Orderly) (h : m.Ended id) (history : List Operation) :
    (m.after history).Ended id := by
  induction history generalizing m with
  | nil => exact h
  | cons operation rest ih => exact ih (hm.apply operation) (h.apply hm operation)

lemma Ended.steps {id : Nat} (hm : m.Orderly) (h : m.Ended id) (operation : Operation) :
    operation.steps m id = 0 := by
  cases operation with
  | run budget stage =>
    rw [Operation.steps, steps_eq_zero hm fun t ht hlive => h.not_live ht hlive, ite_self]
  | _ => rfl

lemma steps_pos_iff_of_due (hm : m.Orderly) {budget deadline : Nat} (hb : 0 < budget) {stage : σ}
    {i : Nat} {t : Thread} (ht : m.live[i]? = some t) (hs : t.status = .waiting (.time deadline))
    (hdue : deadline ≤ Stage.now stage) :
    0 < m.steps budget stage t.id ↔ ¬m.ReplacedBefore budget stage t i := by
  have hwoken : (m.awake stage).threads[i]? = some { t with status := .running } := by
    rw [awake, Array.getElem?_map, ht]
    simp [wake, hs, isDue, hdue]
  exact steps_pos_iff (t := { t with status := .running }) hm hb hwoken rfl

/-- Threads that wait go on for their own reason, and on time. In every state that a history leads
to, a wait or a hold ends only by what it is for, and an ended thread stays so. A run wakes the
threads whose time has come and gives every thread its turn, in which the thread executes the steps
that are counted for it. One that is not running at its turn does nothing, one whose time has come
makes a step if it is not replaced before its turn, and one that is started in the run makes none. -/
theorem waits_after_new (seed : Option UInt32) (limit : Nat) (history : List Operation) :
    let m := (Machine.new seed limit).after history
    (∀ t ∈ m.threads, t.isLive → t.status ≠ .running → ∀ operation : Operation,
      operation.Wakes t ∨ Rests t (operation.apply m).threads) ∧
    (∀ t ∈ m.threads, t.status = .terminated → ∀ (later : List Operation) (operation : Operation),
      (∀ u ∈ (m.after later).threads, u.id = t.id → u.status = .terminated) ∧
        operation.steps (m.after later) t.id = 0) ∧
    (∀ {σ : Type} [Stage σ] (stage : σ), m.run 0 stage = (.error .invalidBudget, m, stage)) ∧
    ∀ {σ : Type} [Stage σ] (budget : Nat) (stage : σ), 0 < budget →
      m.run budget stage = (.ok (m.turn budget stage m.live.size).moved,
        (m.turn budget stage m.live.size).machine, (m.turn budget stage m.live.size).stage) ∧
      m.turn budget stage 0 = { machine := m.awake stage, stage } ∧
      (∀ t ∈ m.threads, t.isLive → ∃ i < m.live.size, m.live[i]? = some t) ∧
      (∀ i < m.live.size, m.Proceeds budget stage i) ∧
      (∀ i < m.live.size, ∀ t, (m.turn budget stage i).machine.threads[i]? = some t →
        m.steps budget stage t.id = m.stepsAt budget stage i) ∧
      (∀ i < m.live.size, ∀ t, (m.turn budget stage i).machine.threads[i]? = some t →
        t.status ≠ .running → m.turn budget stage (i + 1) = m.turn budget stage i ∧
          m.steps budget stage t.id = 0) ∧
      (∀ (i : Nat) t deadline, m.live[i]? = some t → t.status = .waiting (.time deadline) →
        deadline ≤ Stage.now stage →
          (0 < m.steps budget stage t.id ↔ ¬m.ReplacedBefore budget stage t i)) ∧
      ∀ u ∈ (m.run budget stage).2.1.threads, (∀ t ∈ m.threads, t.id ≠ u.id) →
        m.steps budget stage u.id = 0 ∧ Fresh u := by
  intro m
  have hm : m.Orderly := (Orderly.new seed limit).after history
  refine ⟨fun t ht hlive hr operation => wakes_or_rests hm ht hlive hr operation,
    fun t ht hs later operation => ?_, fun stage => rfl,
    fun {σ} _ budget stage hb => ⟨run_eq m hb stage, rfl, fun t ht hlive => exists_live ht hlive,
      fun i _ => proceeds m hb stage i,
      fun i hi t ht => steps_eq hm hi ht,
      fun i hi t ht hr => ⟨?_, steps_of_not_running hm hi ht hr⟩,
      fun i t deadline ht hs hdue => steps_pos_iff_of_due hm hb ht hs hdue, fun u hu hnew => ?_⟩⟩
  · have hended := (ended_of_mem hm ht hs).after hm later
    exact ⟨hended.status, hended.steps (hm.after later) operation⟩
  · refine turn_of_not_running fun t' ht' => ?_
    cases Option.some.inj (ht.symm.trans ht')
    exact hr
  · refine ⟨steps_eq_zero hm fun t ht _ => hnew t ht, ?_⟩
    rcases run_cases hm hu with ⟨t, ht, hid, -⟩ | ⟨-, hfresh⟩
    · exact absurd hid (hnew t ht)
    · exact hfresh

end Machine

end Stagecraft
