import Stagecraft.Proofs.Code.Structured

namespace Stagecraft

lemma Step.size_pos (step : Step) : 0 < step.size := by
  cases step with
  | run i => exact i.size_pos
  | leave => exact Nat.succ_pos _

/-- The second code is the first one with its open jumps filled in. They lead to the place that is
`left` bytes after the first step. -/
inductive Fills : Nat → List Step → List Step → Prop
  | nil {left : Nat} : Fills left [] []
  | run {left : Nat} {i : Instruction} {steps steps' : List Step} (h : Fills left steps steps') :
      Fills (i.size + left) (.run i :: steps) (.run i :: steps')
  | leave {left : Nat} {offset : Int16} {steps steps' : List Step} (ho : offset.toInt = left)
      (h : Fills left steps steps') :
      Fills (Step.jumpSize + left) (.leave :: steps) (.run (.jump offset) :: steps')

namespace Fills

variable {left : Nat} {steps steps' : List Step}

lemma of_placed {bytes : ByteArray} {exit pos : Nat} (hc : ∀ step ∈ steps', step ≠ .leave)
    (h : Placed bytes (pos + left) pos steps) (h' : Placed bytes exit pos steps')
    (hs : (steps.map Step.size).sum = (steps'.map Step.size).sum)
    (hl : (steps.map Step.size).sum ≤ left) : Fills left steps steps' := by
  induction steps generalizing pos left steps' with
  | nil =>
    cases steps' with
    | nil => exact .nil
    | cons step rest =>
      have := step.size_pos
      simp only [List.map_nil, List.sum_nil, List.map_cons, List.sum_cons] at hs
      omega
  | cons step rest ih =>
    cases steps' with
    | nil =>
      have := step.size_pos
      simp only [List.map_nil, List.sum_nil, List.map_cons, List.sum_cons] at hs
      omega
    | cons step' rest' =>
      rw [List.forall_mem_cons] at hc
      rw [List.map_cons, List.sum_cons] at hs hl
      rw [List.map_cons, List.sum_cons] at hs
      obtain ⟨left, rfl⟩ := Nat.exists_eq_add_of_le (Nat.le_trans (Nat.le_add_right _ _) hl)
      rw [← Nat.add_assoc] at h
      cases step' with
      | leave => exact absurd rfl hc.1
      | run j =>
        cases step with
        | run i =>
          cases Instruction.eq_of_holds h.1 h'.1
          exact .run (ih hc.2 h.2 h'.2 (Nat.add_left_cancel hs) (Nat.le_of_add_le_add_left hl))
        | leave =>
          obtain ⟨⟨offset, hoffset, ho⟩, hrest⟩ := h
          cases Instruction.eq_of_holds hoffset h'.1
          refine .leave ?_
            (ih hc.2 hrest h'.2 (Nat.add_left_cancel hs) (Nat.le_of_add_le_add_left hl))
          rw [Step.size] at ho
          omega

lemma filter {p : Instruction → Bool} (h : Fills left steps steps')
    (hp : ∀ offset, p (.jump offset) = false) :
    (steps'.map Step.instruction).filter p = (steps.map Step.instruction).filter p := by
  induction h with
  | nil => rfl
  | run h ih => simp only [List.map_cons, List.filter_cons, ih]
  | leave ho h ih =>
    simp only [List.map_cons, Step.instruction, List.filter_cons, hp, ih, Bool.false_eq_true,
      if_false]

lemma append {more : List Step} (h : Fills left (steps ++ more) steps') :
    ∃ first second left', steps' = first ++ second ∧ Fills left steps first ∧
      Fills left' more second := by
  induction steps generalizing left steps' with
  | nil => exact ⟨[], steps', left, rfl, .nil, h⟩
  | cons step rest ih =>
    cases h with
    | run h =>
      obtain ⟨first, second, left', rfl, hfirst, hsecond⟩ := ih h
      exact ⟨_ :: first, second, left', rfl, .run hfirst, hsecond⟩
    | leave ho h =>
      obtain ⟨first, second, left', rfl, hfirst, hsecond⟩ := ih h
      exact ⟨_ :: first, second, left', rfl, .leave ho hfirst, hsecond⟩

lemma eq_of_closed (h : Fills left steps steps') (hc : ∀ step ∈ steps, step ≠ .leave) :
    steps' = steps := by
  induction h with
  | nil => rfl
  | run h ih => rw [ih (List.forall_mem_cons.mp hc).2]
  | leave ho h ih => exact absurd rfl (hc .leave List.mem_cons_self)

end Fills

lemma Emit.ExitsClosed.fills {beyond : Nat} {inner outer : Code}
    (h : ExitsClosed beyond inner outer) :
    Fills (inner.extent + beyond) inner.toList outer.toList := by
  have hself : Placed outer.encode 0 0 outer.toList :=
    .of_encode h.closed (Bytes.holds_self outer.encode)
  have hinner := h.placed _ _ _ hself
  rw [Nat.add_assoc] at hinner
  refine .of_placed (fun step hs => h.closed step (by simpa using hs)) hinner hself ?_ ?_
  · rw [← Code.extent_eq, ← Code.extent_eq, h.extent]
  · rw [← Code.extent_eq]
    exact Nat.le_add_right _ _

end Stagecraft
