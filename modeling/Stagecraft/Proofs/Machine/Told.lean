import Mathlib.Logic.Relation
import Stagecraft.Machine.Basic

namespace Stagecraft

inductive Stage.Told {σ : Type} [Stage σ] (stage : σ) : σ → Prop
  | perform (cue : Cue) : Told stage (Stage.perform cue stage)
  | load (asset : Asset) : Told stage (Stage.load asset stage).2
  | poll (thread label : String) : Told stage (Stage.poll thread label stage).2

open Relation (ReflTransGen)

variable {σ : Type} [Stage σ]

lemma Request.told_run (now : Nat) (w : World σ) (request : Request) :
    ReflTransGen Stage.Told w.stage (request.run now w).2.2.stage := by
  cases request with
  | reply | pause | awaitInput | spawn | random | time | clicked | ask => exact .refl
  | perform cue => exact .single (.perform cue)
  | load asset => exact .single (.load asset)
  | performAll pattern cue duration =>
    refine List.foldlRecOn (motive := fun stage => ReflTransGen Stage.Told w.stage stage) _ _
      .refl ?_
    intro stage h entity _
    exact h.tail (.perform (cue entity))

namespace Thread

lemma told_dispatch (s : Setting) (caller : Module) (builtin : UInt16) (count : Nat) (t : Thread)
    (w : World σ) :
    ReflTransGen Stage.Told w.stage (t.dispatch s caller builtin count w).2.stage := by
  unfold dispatch
  split
  · exact .refl
  · split
    · exact .refl
    · next request _ =>
      dsimp only
      split <;> exact request.told_run s.now w

lemma told_execute (s : Setting) (m : Module) (routine : UInt16) (next size : Nat) (t : Thread)
    (w : World σ) (i : Instruction) :
    ReflTransGen Stage.Told w.stage (t.execute s m routine next size w i).2.stage := by
  cases i with
  | dispatch builtin count => exact told_dispatch s m builtin count.toNat t w
  | storeGlobal token =>
    simp only [execute]
    split
    · exact .refl
    · exact .refl
    · exact .single (.perform _)
  | present token =>
    simp only [execute]
    split
    · exact .refl
    · exact .single (.perform _)
  | beginDialogue index =>
    simp only [execute]
    split
    · exact .refl
    · exact .single (.perform _)
  | selectStart => exact .single (.perform _)
  | isPressed token =>
    simp only [execute]
    split
    · exact .refl
    · next label _ => exact .single (.poll t.name label)
  | _ => exact .refl

lemma told_step (s : Setting) (t : Thread) (w : World σ) :
    ReflTransGen Stage.Told w.stage (t.step s w).2.stage := by
  unfold step
  split
  · exact .refl
  · split
    · exact .refl
    · exact told_execute s _ _ _ _ _ w _

end Thread

namespace Machine

lemma told_slice (s : Setting) (budget : Nat) (t : Thread) (w : World σ) :
    ReflTransGen Stage.Told w.stage (slice s budget t w).2.2.stage := by
  induction budget generalizing t w with
  | zero => exact .refl
  | succ budget ih =>
    have hstep := t.told_step s w
    rw [slice]
    split
    · next t' w' heq =>
      rw [heq] at hstep
      exact hstep.trans (ih t' w')
    · next heq =>
      rw [heq] at hstep
      exact hstep
    · next heq =>
      rw [heq] at hstep
      exact hstep

lemma told_visit (now budget : Nat) (turn : Turn σ) (i : Nat) :
    ReflTransGen Stage.Told turn.stage (visit now budget turn i).stage := by
  unfold visit
  dsimp only
  split
  · exact .refl
  · next t _ =>
    split
    · exact .refl
    · exact told_slice ⟨turn.machine.modules, turn.machine.registry, now⟩ budget t
        ⟨turn.stage, turn.machine.random, #[]⟩

theorem told_run (m : Machine) (budget : Nat) (stage : σ) :
    ReflTransGen Stage.Told stage (m.run budget stage).2.2 := by
  unfold run
  split
  · exact .refl
  · exact List.foldlRecOn (motive := fun turn : Turn σ => ReflTransGen Stage.Told stage turn.stage)
      _ _ .refl fun turn h i _ => h.trans (told_visit _ _ turn i)

end Machine

end Stagecraft
