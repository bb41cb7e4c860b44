import Mathlib
import Stagecraft.Proofs.Safety.Thread

namespace Stagecraft

structure Machine.Sound (modules : Std.TreeMap String Module) (m : Machine) : Prop where
  loaded : m.modules = modules
  registry : m.registry = .standard
  threads : ∀ t ∈ m.threads, t.Fits modules
  errors : ∀ e ∈ m.errors, e.error.Permitted

/-- What a host can do with a machine. The stage can be another one for every run. -/
inductive Machine.Act (m : Machine) : Machine → Prop
  | run {σ : Type} [Stage σ] (budget : Nat) (stage : σ) : Act m (m.run budget stage).2.1
  | createThread (name module entry : String) : Act m (m.createThread name module entry).2
  | suspend {m' : Machine} (name : String) : m.suspend name = .ok m' → Act m m'
  | resume {m' : Machine} (name : String) : m.resume name = .ok m' → Act m m'
  | kill {m' : Machine} (name : String) : m.kill name = .ok m' → Act m m'
  | complete (token : Nat) : Act m (m.complete token).2
  | takeErrors : Act m m.takeErrors.2

def Machine.Reaches : Machine → Machine → Prop :=
  Relation.ReflTransGen Act

namespace Machine

variable {modules : Std.TreeMap String Module} {m : Machine}

lemma fits_slice [Stage σ] {s : Setting} (hl : Linked s.modules) (hr : s.registry = .standard)
    (budget : Nat) {t : Thread} {w : World σ} (ht : t.Fits s.modules) (hw : w.Fits s.modules) :
    (slice s budget t w).1.Fits s.modules ∧ (∀ e ∈ (slice s budget t w).2.1, e.Permitted) ∧
      (slice s budget t w).2.2.Fits s.modules := by
  induction budget generalizing t w with
  | zero => exact ⟨ht, by simp [slice], hw⟩
  | succ budget ih =>
    have hstep := ht.step hl hr hw
    rw [slice]
    rcases h : t.step s w with ⟨r, w'⟩
    rw [h] at hstep
    obtain ⟨hresult, hworld⟩ := hstep
    cases r with
    | error e => exact ⟨t.fits_terminate, by simpa [Permits] using hresult, hworld⟩
    | ok r =>
      obtain ⟨flow, t'⟩ := r
      cases flow with
      | next => exact ih hresult hworld
      | yield | finished => exact ⟨hresult, by simp, hworld⟩

lemma fits_update {name : String} {f : Thread → Thread} {threads threads' : Array Thread}
    (hf : ∀ t : Thread, t.Fits modules → (f t).Fits modules) (ht : ∀ t ∈ threads, t.Fits modules)
    (h : update name f threads = some threads') : ∀ t ∈ threads', t.Fits modules := by
  obtain ⟨i, -, rfl⟩ := Option.map_eq_some_iff.mp h
  intro t hmem
  obtain ⟨j, hj, rfl⟩ := Array.getElem_of_mem hmem
  rw [Array.getElem_modify]
  split
  · exact hf _ (ht _ (Array.getElem_mem _))
  · exact ht _ (Array.getElem_mem _)

lemma Sound.control {m' : Machine} {name : String} {f : Thread → Thread} (hm : m.Sound modules)
    (hf : ∀ t : Thread, t.Fits modules → (f t).Fits modules) (h : m.control name f = .ok m') :
    m'.Sound modules := by
  unfold Machine.control at h
  split at h
  · next threads hu =>
    cases h
    exact { hm with threads := fits_update hf hm.threads hu }
  · cases h

lemma Sound.spawn (hl : Linked modules) {s : Spawn} (hm : m.Sound modules) (hs : s.Fits modules) :
    ∃ id m', m.spawn s = (.ok id, m') ∧ m'.Sound modules := by
  obtain ⟨hloaded, parameters, hp⟩ := hs
  rw [Machine.spawn, hp]
  refine ⟨_, _, rfl, hm.loaded, hm.registry, ?_, hm.errors⟩
  intro t ht
  rcases Array.mem_push.mp ht with ht | rfl
  · cases hu : update s.name Thread.terminate m.threads with
    | none =>
      rw [hu] at ht
      exact hm.threads t ht
    | some threads =>
      rw [hu] at ht
      exact fits_update (fun t _ => t.fits_terminate) hm.threads hu t ht
  · exact ⟨Nat.le_refl _, Frame.fits_start hl hloaded hp (by simp) rfl, trivial⟩

lemma Sound.spawnAll (hl : Linked modules) (spawns : List Spawn) (hm : m.Sound modules)
    (hs : ∀ s ∈ spawns, s.Fits modules) : (m.spawnAll spawns).Sound modules := by
  induction spawns generalizing m with
  | nil => exact hm
  | cons s rest ih =>
    obtain ⟨id, m', hspawn, hm'⟩ := hm.spawn hl (hs s List.mem_cons_self)
    rw [Machine.spawnAll, hspawn]
    exact ih hm' fun s' hs' => hs s' (List.mem_cons_of_mem s hs')

lemma Sound.visit [Stage σ] (hl : Linked modules) (now budget : Nat) {turn : Turn σ} (i : Nat)
    (hm : turn.machine.Sound modules) : (visit now budget turn i).machine.Sound modules := by
  obtain ⟨rfl, hregistry, hthreads, herrors⟩ := hm
  simp only [Machine.visit]
  split
  · exact ⟨rfl, hregistry, hthreads, herrors⟩
  · next t ht =>
    split
    · exact ⟨rfl, hregistry, hthreads, herrors⟩
    · have hslice := fits_slice (s := ⟨turn.machine.modules, turn.machine.registry, now⟩)
        (w := ⟨turn.stage, turn.machine.random, #[]⟩) hl hregistry budget
        (hthreads t (Array.mem_of_getElem? ht)) (by simp [World.Fits])
      generalize slice (σ := σ) _ budget t _ = result at hslice ⊢
      obtain ⟨t', error?, w'⟩ := result
      obtain ⟨hthread, herror, hworld⟩ := hslice
      refine Sound.spawnAll hl _ ⟨rfl, hregistry, ?_, ?_⟩ fun s hs =>
        hworld s (Array.mem_toList_iff.mp hs)
      · intro t'' ht''
        rcases Array.mem_or_eq_of_mem_setIfInBounds ht'' with hold | rfl
        · exact hthreads t'' hold
        · exact hthread
      · intro e he
        rcases Array.mem_append.mp he with hold | hnew
        · exact herrors e hold
        · rw [Option.mem_toArray, Option.map_eq_some_iff] at hnew
          obtain ⟨error, herr, rfl⟩ := hnew
          exact herror error herr

lemma Sound.run [Stage σ] (hl : Linked modules) (budget : Nat) (stage : σ)
    (hm : m.Sound modules) : (m.run budget stage).2.1.Sound modules := by
  rw [Machine.run]
  split
  · exact hm
  · refine List.foldlRecOn (motive := fun turn : Turn σ => turn.machine.Sound modules) _ _ ?_
      fun turn hturn i _ => hturn.visit hl _ _ i
    refine { hm with threads := fun t ht => ?_ }
    obtain ⟨t, hold, rfl⟩ := Array.mem_map.mp ht
    have hfits : t.Fits modules := hm.threads t (Array.mem_filter.mp hold).1
    unfold wake
    split
    · split <;> exact hfits
    · exact hfits

theorem Sound.act (hl : Linked modules) {m' : Machine} (hm : m.Sound modules) (h : m.Act m') :
    m'.Sound modules := by
  cases h with
  | run budget stage => exact hm.run hl budget stage
  | createThread name module entry =>
    unfold Machine.createThread
    split
    · exact hm
    · next found hfound =>
      split
      · exact hm
      · next routine hroutine =>
        rw [hm.loaded] at hfound
        have hs : Spawn.Fits modules { name, module := found, routine } :=
          ⟨⟨module, hfound⟩, hl.find module found hfound entry routine hroutine⟩
        obtain ⟨id, m', hspawn, hm'⟩ := hm.spawn hl hs
        rwa [hspawn]
  | suspend name h | resume name h =>
    refine hm.control (fun t ht => ?_) h
    split <;> exact ht
  | kill name h => exact hm.control (fun t _ => t.fits_terminate) h
  | complete token =>
    refine { hm with threads := fun t ht => ?_ }
    obtain ⟨t, hold, rfl⟩ := Array.mem_map.mp ht
    split <;> exact hm.threads t hold
  | takeErrors => exact { hm with errors := by simp [Machine.takeErrors] }

theorem Sound.reaches (hl : Linked modules) {m' : Machine} (hm : m.Sound modules)
    (h : m.Reaches m') : m'.Sound modules := by
  induction h with
  | refl => exact hm
  | tail _ hact ih => exact ih.act hl hact

end Machine

end Stagecraft
