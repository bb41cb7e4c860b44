import Stagecraft.Proofs.Machine.Effects

/-!
A live thread has between one and `callLimit` routines, and each of them leaves alone what was on
the stack when it was called. A step keeps this or ends the thread.
-/

namespace Stagecraft

namespace Thread

structure Upright (t : Thread) : Prop where
  called : 1 ≤ t.frames.length
  depth : t.frames.length ≤ MachineError.callLimit
  bases : t.frames.Pairwise fun inner outer => outer.base ≤ inner.base
  top : t.base ≤ t.stack.size

structure Tidy (t : Thread) : Prop where
  live : t.isLive → t.Upright
  ended : t.status = .terminated → t.frames = [] ∧ t.stack = #[]

variable {t t' : Thread}

lemma isLive_iff : t.isLive ↔ t.status ≠ .terminated := by
  simp [isLive]

@[simp] lemma id_terminate (t : Thread) : t.terminate.id = t.id := rfl

@[simp] lemma name_terminate (t : Thread) : t.terminate.name = t.name := rfl

@[simp] lemma status_terminate (t : Thread) : t.terminate.status = .terminated := rfl

@[simp] lemma terminate_terminate (t : Thread) : t.terminate.terminate = t.terminate := rfl

@[simp] lemma isLive_terminate (t : Thread) : t.terminate.isLive = false := rfl

lemma tidy_terminate (t : Thread) : t.terminate.Tidy :=
  ⟨by simp, fun _ => ⟨rfl, rfl⟩⟩

lemma Upright.tidy (h : t.Upright) (hlive : t.isLive) : t.Tidy :=
  ⟨fun _ => h, fun hended => absurd hended (isLive_iff.mp hlive)⟩

lemma tidy_start (id : Nat) (s : Spawn) (arguments : Array Value) :
    (start id s arguments).Tidy := by
  refine Upright.tidy ⟨Nat.le_refl 1, ?_, List.pairwise_singleton _ _, Nat.le_refl 0⟩ rfl
  change 1 ≤ 256
  omega

lemma Stays.bases (h : t.Stays t') : t'.frames.map Frame.base = t.frames.map Frame.base := by
  cases hf : t.frames with
  | nil => rw [h.nil hf]
  | cons frame rest =>
    obtain ⟨frame', hf', hsite⟩ := h.cons hf
    rw [hf', List.map_cons, List.map_cons, show frame'.base = frame.base from
      congrArg (·.2.2) hsite]

lemma Stays.upright (h : t.Stays t') (hu : t.Upright) : t'.Upright := by
  have hlength : t'.frames.length = t.frames.length := by
    simpa using congrArg List.length h.bases
  refine ⟨hlength ▸ hu.called, hlength ▸ hu.depth, ?_, ?_⟩
  · have hbases : (t.frames.map Frame.base).Pairwise (· ≥ ·) := List.pairwise_map.mpr hu.bases
    rw [← h.bases] at hbases
    exact List.pairwise_map.mp hbases
  · have hprefix : t.stack.toList.take t.base <+: t.stack.toList := List.take_prefix _ _
    have hbelow := h.below (by simp) hprefix
    have hle := hbelow.length_le
    rw [List.length_take, Array.length_toList, Array.length_toList, min_eq_left hu.top] at hle
    rwa [h.base]

lemma Calls.upright {m : Module} {routine : UInt16} {below arguments : List Value}
    (h : Calls m routine t t' below arguments) (hu : t.Upright) : t'.Upright := by
  rw [h.result]
  refine ⟨by simp, h.room, ?_, Nat.le_refl _⟩
  -- the new routine starts above everything that its callers own
  refine List.pairwise_cons.mpr ⟨fun outer ho => Nat.le_trans ?_ h.base, hu.bases⟩
  obtain ⟨frame, rest, hf⟩ := List.exists_cons_of_ne_nil (List.ne_nil_of_mem ho)
  have hbases := hu.bases
  rw [hf, List.pairwise_cons] at hbases
  rw [hf] at ho
  rw [Thread.base, hf]
  rcases List.mem_cons.mp ho with rfl | ho
  · exact Nat.le_refl _
  · exact hbases.1 outer ho

structure Becomes (t : Thread) (flow : Flow) (t' : Thread) : Prop where
  id : t'.id = t.id
  name : t'.name = t.name
  goesOn : flow = .next → t'.status = t.status ∧ t'.Upright
  yields : flow = .yield →
    (t'.status = t.status ∨ ∃ reason, t'.status = .waiting reason) ∧ t'.Upright
  ends : flow = .finished → t' = t'.terminate

lemma Stays.becomes (h : t.Stays t') (hu : t.Upright) : Becomes t .next t' :=
  ⟨h.id, h.name, fun _ => ⟨h.status, h.upright hu⟩, nofun, nofun⟩

lemma becomes_terminate (t : Thread) : Becomes t .finished t.terminate :=
  ⟨rfl, rfl, nofun, nofun, fun _ => rfl⟩

lemma Becomes.of_stays {t₁ : Thread} {flow : Flow} (h : t.Stays t₁) (h' : Becomes t₁ flow t') :
    Becomes t flow t' :=
  ⟨h'.id.trans h.id, h'.name.trans h.name, fun hf => h.status ▸ h'.goesOn hf,
    fun hf => h.status ▸ h'.yields hf, h'.ends⟩

lemma becomes_leave (hu : t.Upright) : Becomes t t.leave.1 t.leave.2 := by
  unfold leave
  dsimp only
  split
  · exact becomes_terminate t
  · exact becomes_terminate t
  · next frame rest hne hf =>
    obtain ⟨caller, callers, rfl⟩ := List.exists_cons_of_ne_nil hne
    refine ⟨rfl, rfl, fun _ => ⟨rfl, by simp, ?_, ?_, ?_⟩, nofun, nofun⟩
    · have := hu.depth
      rw [hf, List.length_cons] at this
      exact Nat.le_of_succ_le this
    · have := hu.bases
      rw [hf] at this
      exact this.of_cons
    · have hb := hu.bases
      rw [hf, List.pairwise_cons] at hb
      have hcaller : caller.base ≤ t.base := by
        simpa [base, hf] using hb.1 caller List.mem_cons_self
      have htop := hu.top
      simp only [base, Array.size_push, Array.take_eq_extract, Array.size_extract]
      rw [base, hf] at hcaller htop
      simp only [hf] at hcaller htop ⊢
      omega

theorem Effect.becomes {i : Instruction} {flow : Flow} (h : Effect t i flow t') (hu : t.Upright) :
    Becomes t flow t' := by
  cases h with
  | works h => exact h.becomes hu
  | yields h => exact ⟨h.id, h.name, nofun, fun _ => ⟨.inl h.status, h.upright hu⟩, nofun⟩
  | waits reason h =>
    obtain ⟨hcalled, hdepth, hbases, htop⟩ := h.upright hu
    exact ⟨h.id, h.name, nofun,
      fun _ => ⟨.inr ⟨reason, rfl⟩, hcalled, hdepth, hbases, htop⟩, nofun⟩
  | calls h =>
    have hu' := h.upright hu
    obtain rfl := h.result
    exact ⟨rfl, rfl, fun _ => ⟨rfl, hu'⟩, nofun, nofun⟩
  | leaves => exact becomes_leave hu

variable {σ : Type} [Stage σ] {s : Setting} {w w' : World σ}

theorem becomes_step {flow : Flow} (hu : t.Upright)
    (h : t.step s w = (.ok (flow, t'), w')) : Becomes t flow t' := by
  obtain ⟨-, rfl, rfl⟩ | ⟨frame, callers, i, size, hf, -, -, heffect⟩ := step_cases h
  · exact becomes_terminate t
  · have hpast := stays_past hf i
    exact .of_stays hpast (heffect.becomes (hpast.upright hu))

structure Runs (t t' : Thread) : Prop where
  id : t'.id = t.id
  name : t'.name = t.name
  tidy : t'.Tidy
  status : t'.status = .running ∨ (∃ reason, t'.status = .waiting reason) ∨
    t'.status = .terminated

theorem runs_slice (budget : Nat) (hu : t.Upright) (hr : t.status = .running) :
    Runs t (Machine.slice s budget t w).1 := by
  induction budget generalizing t w with
  | zero => exact ⟨rfl, rfl, hu.tidy (by simp [isLive, hr]), .inl hr⟩
  | succ budget ih =>
    rw [Machine.slice]
    rcases hstep : t.step s w with ⟨r, w'⟩
    cases r with
    | error e => exact ⟨rfl, rfl, t.tidy_terminate, .inr (.inr rfl)⟩
    | ok r =>
      obtain ⟨flow, t'⟩ := r
      have h := becomes_step hu hstep
      cases flow with
      | next =>
        obtain ⟨hs, hu'⟩ := h.goesOn rfl
        have hruns := ih (w := w') hu' (hs.trans hr)
        exact ⟨hruns.id.trans h.id, hruns.name.trans h.name, hruns.tidy, hruns.status⟩
      | yield =>
        obtain ⟨hs, hu'⟩ := h.yields rfl
        rw [hr] at hs
        have hlive : t'.isLive := by
          rcases hs with hs | ⟨reason, hs⟩ <;> simp [isLive, hs]
        exact ⟨h.id, h.name, hu'.tidy hlive, hs.imp_right .inl⟩
      | finished =>
        have hended := h.ends rfl
        refine ⟨h.id, h.name, ?_, .inr (.inr ?_)⟩
        · rw [hended]
          exact t'.tidy_terminate
        · rw [hended]
          rfl

end Thread

end Stagecraft
