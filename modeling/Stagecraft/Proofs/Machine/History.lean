import Stagecraft.Proofs.Machine.Calls

/-!
Histories of a machine: the operations that a host carries out on it, one after another. Nothing is
asked of the modules; their code can be anything.
-/

namespace Stagecraft

namespace Machine

/-- An operation of a host. Every run can have another stage. -/
inductive Operation : Type 1
  | addModule (module : Module)
  | createThread (name module entry : String)
  | suspend (name : String)
  | resume (name : String)
  | kill (name : String)
  | complete (token : Nat)
  | takeErrors
  | run {σ : Type} [Stage σ] (budget : Nat) (stage : σ)

def Operation.apply (m : Machine) : Operation → Machine
  | addModule module => m.addModule module
  | createThread name module entry => (m.createThread name module entry).2
  | suspend name => (m.suspend name).toOption.getD m
  | resume name => (m.resume name).toOption.getD m
  | kill name => (m.kill name).toOption.getD m
  | complete token => (m.complete token).2
  | takeErrors => m.takeErrors.2
  | run budget stage => (m.run budget stage).2.1

def after (m : Machine) (history : List Operation) : Machine :=
  history.foldl Operation.apply m

structure Orderly (m : Machine) : Prop where
  ids : m.threads.toList.Pairwise fun t u => t.id < u.id
  below : ∀ t ∈ m.threads, t.id < m.nextThread
  names : m.threads.toList.Pairwise fun t u => t.isLive → u.isLive → t.name ≠ u.name
  tidy : ∀ t ∈ m.threads, t.Tidy

end Machine

structure Thread.Carries (t u : Thread) : Prop where
  id : u.id = t.id
  name : u.name = t.name
  live : u.isLive → t.isLive
  tidy : t.Tidy → u.Tidy

namespace Thread

variable {t u : Thread}

lemma Carries.refl (t : Thread) : t.Carries t :=
  ⟨rfl, rfl, fun h => h, fun h => h⟩

lemma carries_terminate (t : Thread) : t.Carries t.terminate :=
  ⟨rfl, rfl, by simp, fun _ => t.tidy_terminate⟩

lemma carries_status {status : Status} (ht : t.isLive) (hs : status ≠ .terminated) :
    t.Carries { t with status } := by
  refine ⟨rfl, rfl, fun _ => ht, fun h => ?_⟩
  obtain ⟨hc, hd, hb, htop⟩ := h.live ht
  exact Upright.tidy ⟨hc, hd, hb, htop⟩ (isLive_iff.mpr hs)

lemma Runs.carries (h : Runs t u) (ht : t.status = .running) : t.Carries u :=
  ⟨h.id, h.name, fun _ => by simp [isLive, ht], fun _ => h.tidy⟩

end Thread

namespace Machine

def Continues (ts ts' : Array Thread) : Prop :=
  ∀ (i : Nat) (u : Thread), ts'[i]? = some u → ∃ t, ts[i]? = some t ∧ t.Carries u

section Arrays

variable {ts ts' : Array Thread}

lemma continues_refl (ts : Array Thread) : Continues ts ts :=
  fun _ u hu => ⟨u, hu, .refl u⟩

lemma Continues.mem (h : Continues ts ts') {u : Thread} (hu : u ∈ ts') :
    ∃ t ∈ ts, t.Carries u := by
  obtain ⟨i, hi⟩ := Array.mem_iff_getElem?.mp hu
  obtain ⟨t, ht, hc⟩ := h i u hi
  exact ⟨t, Array.mem_of_getElem? ht, hc⟩

lemma Continues.pairwise (h : Continues ts ts') {R : Thread → Thread → Prop}
    (hR : ∀ {t u t' u'}, t.Carries t' → u.Carries u' → R t u → R t' u')
    (hp : ts.toList.Pairwise R) : ts'.toList.Pairwise R := by
  rw [List.pairwise_iff_getElem] at hp ⊢
  intro i j hi hj hij
  obtain ⟨t, ht, hct⟩ := h i ts'[i] (Array.getElem?_eq_getElem hi)
  obtain ⟨u, hu, hcu⟩ := h j ts'[j] (Array.getElem?_eq_getElem hj)
  obtain ⟨hi', rfl⟩ := Array.getElem?_eq_some_iff.mp ht
  obtain ⟨hj', rfl⟩ := Array.getElem?_eq_some_iff.mp hu
  exact hR hct hcu (hp i j hi' hj' hij)

lemma continues_modify (i : Nat) {f : Thread → Thread}
    (hf : ∀ t, ts[i]? = some t → t.Carries (f t)) : Continues ts (ts.modify i f) := by
  intro j u hu
  rw [Array.getElem?_modify] at hu
  split at hu
  · next hij =>
    subst hij
    obtain ⟨t, ht, rfl⟩ := Option.map_eq_some_iff.mp hu
    exact ⟨t, ht, hf t ht⟩
  · exact ⟨u, hu, .refl u⟩

lemma continues_map {f : Thread → Thread} (hf : ∀ t ∈ ts, t.Carries (f t)) :
    Continues ts (ts.map f) := by
  intro i u hu
  rw [Array.getElem?_map] at hu
  obtain ⟨t, ht, rfl⟩ := Option.map_eq_some_iff.mp hu
  exact ⟨t, ht, hf t (Array.mem_of_getElem? ht)⟩

lemma continues_set {i : Nat} {t u : Thread} (ht : ts[i]? = some t) (hc : t.Carries u) :
    Continues ts (ts.setIfInBounds i u) := by
  intro j v hv
  rw [Array.getElem?_setIfInBounds] at hv
  split at hv
  · next hij =>
    subst hij
    split at hv
    · cases hv
      exact ⟨t, ht, hc⟩
    · cases hv
  · exact ⟨v, hv, .refl v⟩

lemma hasName_iff {name : String} {t : Thread} : hasName name t ↔ t.isLive ∧ t.name = name := by
  simp [hasName]

lemma update_eq_some {name : String} {f : Thread → Thread} (h : update name f ts = some ts') :
    ∃ i t, ts[i]? = some t ∧ t.isLive ∧ t.name = name ∧ ts' = ts.modify i f := by
  obtain ⟨i, hi, rfl⟩ := Option.map_eq_some_iff.mp h
  obtain ⟨hlt, hname, -⟩ := Array.findIdx?_eq_some_iff_getElem.mp hi
  obtain ⟨hlive, hname⟩ := hasName_iff.mp hname
  exact ⟨i, ts[i], Array.getElem?_eq_getElem hlt, hlive, hname, rfl⟩

lemma update_eq_none {name : String} {f : Thread → Thread} (h : update name f ts = none)
    {t : Thread} (ht : t ∈ ts) (hlive : t.isLive) : t.name ≠ name := by
  intro hname
  have hnone := Array.findIdx?_eq_none_iff.mp (Option.map_eq_none_iff.mp h) t ht
  rw [hasName_iff.mpr ⟨hlive, hname⟩] at hnone
  cases hnone

lemma continues_update {name : String} {f : Thread → Thread}
    (hf : ∀ t : Thread, t.isLive → t.name = name → t.Carries (f t))
    (h : update name f ts = some ts') : Continues ts ts' := by
  obtain ⟨i, t, ht, hlive, hname, rfl⟩ := update_eq_some h
  refine continues_modify i fun t' ht' => ?_
  cases Option.some.inj (ht.symm.trans ht')
  exact hf t hlive hname

end Arrays

variable {m m' : Machine}

namespace Orderly

lemma new (seed : Option UInt32) (budget : Nat) : (Machine.new seed budget).Orderly := by
  refine ⟨?_, ?_, ?_, ?_⟩ <;> simp [Machine.new]

lemma of_eq (h : m.Orderly) (ht : m'.threads = m.threads) (hn : m'.nextThread = m.nextThread) :
    m'.Orderly :=
  ⟨ht ▸ h.ids, ht ▸ hn ▸ h.below, ht ▸ h.names, ht ▸ h.tidy⟩

lemma of_continues (h : m.Orderly) (hc : Continues m.threads m'.threads)
    (hn : m'.nextThread = m.nextThread) : m'.Orderly := by
  refine ⟨hc.pairwise (fun ht hu h => ?_) h.ids, fun u hu => ?_,
    hc.pairwise (fun ht hu h lt lu => ?_) h.names, fun u hu => ?_⟩
  · rwa [ht.id, hu.id]
  · obtain ⟨t, ht, hcarry⟩ := hc.mem hu
    rw [hcarry.id, hn]
    exact h.below t ht
  · rw [ht.name, hu.name]
    exact h (ht.live lt) (hu.live lu)
  · obtain ⟨t, ht, hcarry⟩ := hc.mem hu
    exact hcarry.tidy (h.tidy t ht)

lemma eq_of_id (h : m.Orderly) {i j : Nat} {t u : Thread} (ht : m.threads[i]? = some t)
    (hu : m.threads[j]? = some u) (hid : t.id = u.id) : i = j := by
  obtain ⟨hi, rfl⟩ := Array.getElem?_eq_some_iff.mp ht
  obtain ⟨hj, rfl⟩ := Array.getElem?_eq_some_iff.mp hu
  have hp := List.pairwise_iff_getElem.mp h.ids
  rcases Nat.lt_trichotomy i j with hlt | heq | hgt
  · exact absurd hid (Nat.ne_of_lt (hp i j hi hj hlt))
  · exact heq
  · exact absurd hid (Nat.ne_of_gt (hp j i hj hi hgt))

lemma eq_of_name (h : m.Orderly) {i j : Nat} {t u : Thread} (ht : m.threads[i]? = some t)
    (hu : m.threads[j]? = some u) (lt : t.isLive) (lu : u.isLive) (hname : t.name = u.name) :
    i = j := by
  obtain ⟨hi, rfl⟩ := Array.getElem?_eq_some_iff.mp ht
  obtain ⟨hj, rfl⟩ := Array.getElem?_eq_some_iff.mp hu
  have hp := List.pairwise_iff_getElem.mp h.names
  rcases Nat.lt_trichotomy i j with hlt | heq | hgt
  · exact absurd hname (hp i j hi hj hlt lt lu)
  · exact heq
  · exact absurd hname.symm (hp j i hj hi hgt lu lt)

end Orderly

def cleared (m : Machine) (name : String) : Array Thread :=
  (update name Thread.terminate m.threads).getD m.threads

lemma continues_cleared (m : Machine) (name : String) :
    Continues m.threads (m.cleared name) := by
  unfold cleared
  cases h : update name Thread.terminate m.threads with
  | none => exact continues_refl _
  | some ts => exact continues_update (fun t _ _ => t.carries_terminate) h

lemma name_ne_of_cleared (hm : m.Orderly) {name : String} {u : Thread}
    (hu : u ∈ m.cleared name) (lu : u.isLive) : u.name ≠ name := by
  unfold cleared at hu
  cases h : update name Thread.terminate m.threads with
  | none =>
    rw [h] at hu
    exact update_eq_none h hu lu
  | some ts =>
    rw [h] at hu
    obtain ⟨i, t, ht, hlive, hname, rfl⟩ := update_eq_some h
    obtain ⟨j, hj⟩ := Array.mem_iff_getElem?.mp hu
    rw [Option.getD_some, Array.getElem?_modify] at hj
    split at hj
    · -- the one with the name has ended
      obtain ⟨t', -, rfl⟩ := Option.map_eq_some_iff.mp hj
      simp at lu
    · next hij =>
      intro heq
      exact hij (hm.eq_of_name ht hj hlive lu (hname.trans heq.symm))

def Accepts (s : Spawn) : Prop :=
  ∃ parameters, s.module.parameters s.routine = .ok parameters

lemma spawn_cases (m : Machine) (s : Spawn) :
    (¬Accepts s ∧ ∃ e, m.spawn s = (.error e, m)) ∨
      Accepts s ∧ ∃ arguments, m.spawn s = (.ok m.nextThread, { m with
        threads := (m.cleared s.name).push (Thread.start m.nextThread s arguments)
        nextThread := m.nextThread + 1 }) := by
  unfold spawn Accepts
  cases s.module.parameters s.routine with
  | error e => exact .inl ⟨by simp, .module e, rfl⟩
  | ok parameters => exact .inr ⟨⟨parameters, rfl⟩, _, rfl⟩

namespace Orderly

lemma push (hm : m.Orderly) (s : Spawn) (arguments : Array Value) :
    Orderly { m with
      threads := (m.cleared s.name).push (Thread.start m.nextThread s arguments)
      nextThread := m.nextThread + 1 } := by
  have hc : Orderly { m with threads := m.cleared s.name } :=
    hm.of_continues (continues_cleared m s.name) rfl
  refine ⟨?_, fun t ht => ?_, ?_, fun t ht => ?_⟩
  · rw [Array.toList_push, List.pairwise_append]
    refine ⟨hc.ids, List.pairwise_singleton _ _, fun t ht u hu => ?_⟩
    cases List.mem_singleton.mp hu
    exact hc.below t (Array.mem_toList_iff.mp ht)
  · rcases Array.mem_push.mp ht with ht | rfl
    · exact Nat.lt_succ_of_lt (hc.below t ht)
    · exact Nat.lt_succ_self _
  · rw [Array.toList_push, List.pairwise_append]
    refine ⟨hc.names, List.pairwise_singleton _ _, fun t ht u hu lt _ => ?_⟩
    cases List.mem_singleton.mp hu
    exact name_ne_of_cleared hm (Array.mem_toList_iff.mp ht) lt
  · rcases Array.mem_push.mp ht with ht | rfl
    · exact hc.tidy t ht
    · exact Thread.tidy_start _ _ _

lemma spawn (hm : m.Orderly) (s : Spawn) : (m.spawn s).2.Orderly := by
  obtain ⟨-, e, h⟩ | ⟨-, arguments, h⟩ := spawn_cases m s
  · rw [h]
    exact hm
  · rw [h]
    exact hm.push s arguments

lemma spawnAll (hm : m.Orderly) (spawns : List Spawn) : (m.spawnAll spawns).Orderly := by
  induction spawns generalizing m with
  | nil => exact hm
  | cons s rest ih =>
    have hs := hm.spawn s
    rw [Machine.spawnAll]
    rcases h : m.spawn s with ⟨r, m'⟩
    rw [h] at hs
    cases r with
    | ok id => exact ih hs
    | error e => exact ih (hs.of_eq rfl rfl)

lemma visit [Stage σ] (now budget : Nat) {turn : Turn σ} (i : Nat) (hm : turn.machine.Orderly) :
    (visit now budget turn i).machine.Orderly := by
  unfold Machine.visit
  dsimp only
  split
  · exact hm
  · next t ht =>
    split
    · exact hm
    · next hstatus =>
      have hr : t.status = .running := by simpa using hstatus
      have hlive : t.isLive := by simp [Thread.isLive, hr]
      have hu := (hm.tidy t (Array.mem_of_getElem? ht)).live hlive
      have hcarry := (Thread.runs_slice (s := ⟨turn.machine.modules, turn.machine.registry, now⟩)
        (w := ⟨turn.stage, turn.machine.random, #[]⟩) budget hu hr).carries hr
      refine spawnAll ?_ _
      exact hm.of_continues (continues_set ht hcarry) rfl

end Orderly

lemma carries_wake (now : Nat) (input : Input) {t : Thread} : t.Carries (wake now input t) := by
  unfold wake
  split
  · next reason h =>
    split
    · exact Thread.carries_status (by simp [Thread.isLive, h]) nofun
    · exact .refl t
  · exact .refl t

/-- The machine of a run before the first thread has its turn: ended threads are gone, and those
that waited for what has come go on. -/
def awake [Stage σ] (m : Machine) (stage : σ) : Machine :=
  { m with threads := m.live.map (wake (Stage.now stage) (Stage.input stage)) }

namespace Orderly

lemma awake [Stage σ] (hm : m.Orderly) (stage : σ) : (m.awake stage).Orderly := by
  have hsub : m.live.toList.Sublist m.threads.toList := by
    rw [live, Array.toList_filter]
    exact List.filter_sublist
  have hlive : Orderly { m with threads := m.live } :=
    ⟨hm.ids.sublist hsub, fun t ht => hm.below t (Array.mem_filter.mp ht).1,
      hm.names.sublist hsub, fun t ht => hm.tidy t (Array.mem_filter.mp ht).1⟩
  exact hlive.of_continues (continues_map fun _ _ => carries_wake _ _) rfl

lemma run [Stage σ] (hm : m.Orderly) (budget : Nat) (stage : σ) :
    (m.run budget stage).2.1.Orderly := by
  unfold Machine.run
  split
  · exact hm
  · exact List.foldlRecOn (motive := fun turn : Turn σ => turn.machine.Orderly) _ _
      (hm.awake stage) fun turn hturn i _ => hturn.visit _ _ i

end Orderly

lemma Operation.apply_cases (m : Machine) (operation : Operation) :
    (Continues m.threads (operation.apply m).threads ∧
      (operation.apply m).nextThread = m.nextThread) ∨
    (∃ s, operation.apply m = (m.spawn s).2) ∨
    ∃ (σ : Type) (_ : Stage σ) (budget : Nat) (stage : σ), operation = .run budget stage := by
  have control {name : String} {f : Thread → Thread}
      (hf : ∀ t : Thread, t.isLive → t.name = name → t.Carries (f t)) :
      Continues m.threads ((m.control name f).toOption.getD m).threads ∧
        ((m.control name f).toOption.getD m).nextThread = m.nextThread := by
    unfold Machine.control
    split
    · next threads hu => exact ⟨continues_update hf hu, rfl⟩
    · exact ⟨continues_refl _, rfl⟩
  cases operation with
  | addModule module => exact .inl ⟨continues_refl _, rfl⟩
  | createThread name module entry =>
    simp only [Operation.apply, Machine.createThread]
    split
    · exact .inl ⟨continues_refl _, rfl⟩
    · split
      · exact .inl ⟨continues_refl _, rfl⟩
      · exact .inr (.inl ⟨_, rfl⟩)
  | suspend name =>
    refine .inl (control fun t ht _ => ?_)
    split
    · exact Thread.carries_status ht nofun
    · exact .refl t
  | resume name =>
    refine .inl (control fun t ht _ => ?_)
    split
    · exact Thread.carries_status ht nofun
    · exact .refl t
  | kill name => exact .inl (control fun t _ _ => t.carries_terminate)
  | complete token =>
    refine .inl ⟨continues_map fun t _ => ?_, rfl⟩
    split
    · next h =>
      have hw : t.status = .waiting (.token token) := by simpa using h
      exact Thread.carries_status (by simp [Thread.isLive, hw]) nofun
    · exact .refl t
  | takeErrors => exact .inl ⟨continues_refl _, rfl⟩
  | run budget stage => exact .inr (.inr ⟨_, _, budget, stage, rfl⟩)

namespace Orderly

theorem apply (hm : m.Orderly) (operation : Operation) : (operation.apply m).Orderly := by
  obtain ⟨hc, hn⟩ | ⟨s, h⟩ | ⟨σ, _, budget, stage, rfl⟩ := operation.apply_cases m
  · exact hm.of_continues hc hn
  · rw [h]
    exact hm.spawn s
  · exact hm.run budget stage

lemma after (hm : m.Orderly) (history : List Operation) : (m.after history).Orderly := by
  induction history generalizing m with
  | nil => exact hm
  | cons operation rest ih => exact ih (hm.apply operation)

end Orderly

/-- Whatever a host does with a machine, its threads are in order. -/
theorem orderly_after_new (seed : Option UInt32) (budget : Nat) (history : List Operation) :
    ((Machine.new seed budget).after history).Orderly :=
  (Orderly.new seed budget).after history

end Machine

end Stagecraft
