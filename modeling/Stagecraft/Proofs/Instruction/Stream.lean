import Stagecraft.Proofs.Instruction

namespace Stagecraft.Instruction

open Bytes (Holds)

def located (pos : Nat) : List Instruction → List (Nat × Instruction)
  | [] => []
  | i :: rest => (pos, i) :: located (pos + i.size) rest

lemma located_eq (pos : Nat) (is : List Instruction) :
    located pos is = is.mapIdx fun k i => (pos + ((is.take k).map size).sum, i) := by
  induction is generalizing pos with
  | nil => rfl
  | cons i rest ih => simp [located, ih, List.mapIdx_cons, Nat.add_assoc]

@[simp] lemma map_snd_located (pos : Nat) (is : List Instruction) :
    (located pos is).map (·.2) = is := by
  induction is generalizing pos with
  | nil => rfl
  | cons i rest ih => simp [located, ih]

variable {code : ByteArray} {pos : Nat}

lemma decodeFrom_of_holds {is : List Instruction} (h : Holds code pos (is.flatMap encode))
    (hsize : code.size = pos + (is.flatMap encode).length) (found : Array (Nat × Instruction)) :
    decodeFrom code pos found = .ok (found ++ (located pos is).toArray) := by
  induction is generalizing pos found with
  | nil =>
    rw [decodeFrom, if_neg (by simp [hsize])]
    simp [located]
  | cons i rest ih =>
    rw [List.flatMap_cons] at h hsize
    rw [List.length_append, length_encode] at hsize
    have hpos := size_pos i
    have hright := h.right
    rw [length_encode] at hright
    rw [decodeFrom, if_pos (by omega), decode_of_holds h.left]
    simp only [ih hright (by omega) (found.push (pos, i)), located]
    simp

lemma size_encodeAll (is : List Instruction) : (encodeAll is).size = (is.map size).sum := by
  simp [encodeAll, ByteArray.size]

lemma decodeAll_encodeAll (is : List Instruction) :
    decodeAll (encodeAll is) = .ok (located 0 is) := by
  have hholds := Bytes.holds_self (encodeAll is)
  rw [encodeAll, List.data_toByteArray] at hholds
  have hread := decodeFrom_of_holds hholds (by simp) #[]
  rw [decodeAll, encodeAll, hread]
  simp [Except.map]

lemma le_of_located {is : List Instruction} {x : Nat × Instruction} (h : x ∈ located pos is) :
    x.1 + x.2.size ≤ pos + (is.map size).sum := by
  induction is generalizing pos with
  | nil => cases h
  | cons i rest ih =>
    rw [List.map_cons, List.sum_cons, ← Nat.add_assoc]
    rcases List.mem_cons.mp h with rfl | h
    · exact Nat.le_add_right _ _
    · exact ih h

lemma holds_of_decodeFrom {found out : Array (Nat × Instruction)}
    (h : decodeFrom code pos found = .ok out) (hpos : pos ≤ code.size) :
    ∃ is, out = found ++ (located pos is).toArray ∧ Holds code pos (is.flatMap encode) ∧
      code.size = pos + (is.flatMap encode).length := by
  fun_induction decodeFrom code pos found with
  | case1 pos found hlt i hi ih =>
    have hhead := holds_of_decode hi
    obtain ⟨is, rfl, hrest, hsize⟩ := ih h (le_size_of_holds hhead)
    refine ⟨i :: is, by simp [located], ?_, ?_⟩
    · rw [List.flatMap_cons, Holds.append_iff, length_encode]
      exact ⟨hhead, hrest⟩
    · rw [hsize, List.flatMap_cons, List.length_append, length_encode, Nat.add_assoc]
  | case2 pos found hlt e he => cases h
  | case3 pos found hge =>
    cases h
    exact ⟨[], by simp [located], Holds.nil, by simp; omega⟩

lemma toByteArray_eq_of_holds {part : List UInt8} (h : Holds code 0 part)
    (hsize : code.size = part.length) : part.toByteArray = code := by
  rw [← h.extract, Nat.zero_add, ← hsize, ByteArray.extract_zero_size]

/-- Writing and reading of byte code undo each other: the instructions that are written are read
back, each at the sum of the sizes before it; byte code that is read is what is written for its
instructions; and an instruction read at any offset covers just the bytes that are written for it.
-/
theorem decodeAll_roundTrip :
    (∀ is : List Instruction, decodeAll (encodeAll is) =
      .ok (is.mapIdx fun k i => (((is.take k).map size).sum, i))) ∧
    (∀ code found, decodeAll code = .ok found → encodeAll (found.map (·.2)) = code) ∧
    ∀ code offset i, decode code offset = .ok i → offset + i.size ≤ code.size ∧
      code.extract offset (offset + i.size) = i.encode.toByteArray ∧ i.encode.length = i.size := by
  refine ⟨fun is => ?_, fun code found h => ?_, fun code offset i h => ?_⟩
  · rw [decodeAll_encodeAll, located_eq]
    simp
  · obtain ⟨out, hout, h⟩ := Except.map_eq_ok_iff.mp h
    obtain ⟨is, rfl, hholds, hsize⟩ := holds_of_decodeFrom hout (Nat.zero_le _)
    rw [← h, encodeAll]
    simpa using toByteArray_eq_of_holds hholds (by simpa using hsize)
  · have hholds := holds_of_decode h
    have hextract := hholds.extract
    rw [length_encode] at hextract
    exact ⟨le_size_of_holds hholds, hextract, length_encode i⟩

def sampleCode : ByteArray :=
  [0x01, 0x04, 0x01, 0x00, 0x00, 0x00, 0x00, 0x00, 0xf8, 0x7f, 0x08, 0xf3, 0xff, 0x16].toByteArray

theorem decodeAll_roundTrip_sample :
    encodeAll [.load (.float 0x7ff8000000000001), .jump (-13), .ret] = sampleCode ∧
      decode sampleCode 10 = .ok (.jump (-13)) ∧
      sampleCode.extract 10 13 = (encode (.jump (-13))).toByteArray := by
  have hall : decodeAll sampleCode =
      .ok [(0, .load (.float 0x7ff8000000000001)), (10, .jump (-13)), (13, .ret)] := by
    cbv
  have hjump : decode sampleCode 10 = .ok (.jump (-13)) := rfl
  exact ⟨decodeAll_roundTrip.2.1 _ _ hall, hjump, (decodeAll_roundTrip.2.2 _ _ _ hjump).2.1⟩

end Stagecraft.Instruction
