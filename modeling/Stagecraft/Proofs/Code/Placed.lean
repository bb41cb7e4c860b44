import Stagecraft.Project.Code
import Stagecraft.Proofs.Instruction

namespace Stagecraft

open Bytes (Holds)

@[simp] lemma Step.size_instruction (step : Step) : step.instruction.size = step.size := by
  cases step <;> rfl

namespace Code

lemma foldl_size (steps : List Step) (n : Nat) :
    steps.foldl (fun n step => n + step.size) n = n + (steps.map Step.size).sum := by
  induction steps generalizing n with
  | nil => simp
  | cons step rest ih =>
    rw [List.foldl_cons, ih, List.map_cons, List.sum_cons, Nat.add_assoc]

lemma extent_eq (code : Code) : code.extent = (code.toList.map Step.size).sum := by
  rw [extent, ← Array.foldl_toList, foldl_size, Nat.zero_add]

@[simp] lemma extent_append (left right : Code) :
    (left ++ right).extent = left.extent + right.extent := by
  simp [extent_eq]

@[simp] lemma extent_one (i : Instruction) : (one i).extent = i.size := by
  simp [extent_eq, one, Step.size]

@[simp] lemma extent_toArray (steps : List Step) :
    extent steps.toArray = (steps.map Step.size).sum := by
  simp [extent_eq]

lemma size_encode (code : Code) : code.encode.size = code.extent := by
  have h (steps : List Step) : ((steps.map Step.instruction).flatMap Instruction.encode).length =
      (steps.map Step.size).sum := by
    induction steps with
    | nil => rfl
    | cons step rest ih =>
      cases step <;> simp [ih, Step.size, Step.instruction, Instruction.length_encode,
        Instruction.size, Step.jumpSize]
  rw [extent_eq, ← h]
  simp [encode, Instruction.encodeAll, ByteArray.size]

end Code

def Code.Closed (code : Code) : Prop :=
  ∀ step ∈ code, step ≠ .leave

lemma Code.closed_append {left right : Code} :
    (left ++ right).Closed ↔ left.Closed ∧ right.Closed := by
  simp [Closed, or_imp, forall_and]

@[simp] lemma Code.closed_toArray (steps : List Step) :
    Code.Closed steps.toArray ↔ ∀ step ∈ steps, step ≠ .leave := by
  simp [Closed]

@[simp] lemma Code.closed_one (i : Instruction) : (one i).Closed := by
  simp [Closed, one]

def Placed (bytes : ByteArray) (exit : Nat) : Nat → List Step → Prop
  | _, [] => True
  | pos, .run i :: rest => Holds bytes pos i.encode ∧ Placed bytes exit (pos + i.size) rest
  | pos, .leave :: rest =>
    (∃ offset : Int16, Holds bytes pos (Instruction.jump offset).encode ∧
      (pos + Step.jumpSize + offset.toInt : Int) = exit) ∧
    Placed bytes exit (pos + Step.jumpSize) rest

namespace Placed

variable {bytes : ByteArray} {exit pos : Nat}

lemma append_iff {left right : List Step} :
    Placed bytes exit pos (left ++ right) ↔
      Placed bytes exit pos left ∧ Placed bytes exit (pos + (left.map Step.size).sum) right := by
  induction left generalizing pos with
  | nil => simp [Placed]
  | cons step rest ih =>
    cases step with
    | run i => simp [Placed, ih, Step.size, and_assoc, Nat.add_assoc]
    | leave => simp [Placed, ih, Step.size, and_assoc, Nat.add_assoc]

lemma code_append_iff {left right : Code} :
    Placed bytes exit pos (left ++ right).toList ↔
      Placed bytes exit pos left.toList ∧ Placed bytes exit (pos + left.extent) right.toList := by
  rw [Array.toList_append, append_iff, Code.extent_eq]

lemma one_iff {i : Instruction} :
    Placed bytes exit pos (Code.one i).toList ↔ Holds bytes pos i.encode := by
  simp [Code.one, Placed]

lemma le_size {code : Code} (h : Placed bytes exit pos code.toList) (hp : pos ≤ bytes.size) :
    pos + code.extent ≤ bytes.size := by
  rw [Code.extent_eq]
  generalize code.toList = steps at h
  induction steps generalizing pos with
  | nil => simpa using hp
  | cons step rest ih =>
    rw [List.map_cons, List.sum_cons, ← Nat.add_assoc]
    cases step with
    | run i => exact ih (Instruction.le_size_of_holds h.1) h.2
    | leave =>
      obtain ⟨⟨offset, hholds, -⟩, hrest⟩ := h
      exact ih (Instruction.le_size_of_holds hholds) hrest

lemma le_size_of_one {code : Code} {i : Instruction}
    (h : Placed bytes exit pos (code ++ Code.one i).toList) :
    pos + (code ++ Code.one i).extent ≤ bytes.size := by
  rw [code_append_iff, one_iff] at h
  rw [Code.extent_append, Code.extent_one, ← Nat.add_assoc]
  exact Instruction.le_size_of_holds h.2

lemma cut {code : Code} {n : Nat} (h : Placed bytes exit pos code.toList)
    (hn : pos + code.extent ≤ n) : Placed (bytes.extract 0 n) exit pos code.toList := by
  rw [Code.extent_eq] at hn
  generalize code.toList = steps at h hn
  induction steps generalizing pos with
  | nil => trivial
  | cons step rest ih =>
    rw [List.map_cons, List.sum_cons, ← Nat.add_assoc] at hn
    cases step with
    | run i =>
      refine ⟨h.1.cut ?_, ih h.2 hn⟩
      rw [Instruction.length_encode]
      exact (Nat.le_add_right _ _).trans hn
    | leave =>
      obtain ⟨⟨offset, hholds, ho⟩, hrest⟩ := h
      refine ⟨⟨offset, hholds.cut ?_, ho⟩, ih hrest hn⟩
      rw [Instruction.length_encode]
      exact (Nat.le_add_right _ _).trans hn

lemma of_holds {steps : List Step} (hc : ∀ step ∈ steps, step ≠ .leave)
    (h : Holds bytes pos ((steps.map Step.instruction).flatMap Instruction.encode)) :
    Placed bytes exit pos steps := by
  induction steps generalizing pos with
  | nil => trivial
  | cons step rest ih =>
    rw [List.map_cons, List.flatMap_cons, Holds.append_iff, Instruction.length_encode] at h
    cases step with
    | run i => exact ⟨h.1, ih (fun step hs => hc step (by simp [hs])) h.2⟩
    | leave => exact absurd rfl (hc .leave (by simp))

lemma of_encode {code : Code} (hc : code.Closed) (h : Holds bytes pos code.encode.data.toList) :
    Placed bytes exit pos code.toList := by
  refine of_holds (fun step hs => hc step (by simpa using hs)) ?_
  simpa [Code.encode, Instruction.encodeAll] using h

end Placed

end Stagecraft
