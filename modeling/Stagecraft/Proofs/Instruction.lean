import Stagecraft.Instruction.Decode
import Stagecraft.Proofs.Basic
import Stagecraft.Proofs.Bytes

namespace Stagecraft

open Bytes (Holds of16 of32 of64)

lemma BinaryOperator.ofId_id (op : BinaryOperator) : ofId op.id = some op := by
  cases op <;> rfl

lemma UnaryOperator.ofId_id (op : UnaryOperator) : ofId op.id = some op := by
  cases op <;> rfl

lemma BinaryOperator.id_of_ofId {b : UInt8} {op : BinaryOperator} (h : ofId b = some op) :
    op.id = b := by
  obtain ⟨hb, rfl⟩ := Array.getElem?_eq_some_iff.mp h
  have hall : ∀ n (hn : n < table.size), table[n].id = UInt8.ofNat n := by decide
  rw [hall _ hb, UInt8.ofNat_toNat]

lemma UnaryOperator.id_of_ofId {b : UInt8} {op : UnaryOperator} (h : ofId b = some op) :
    op.id = b := by
  unfold ofId at h
  split_ifs at h with h0 h1 h2
  all_goals
    cases h
    exact (beq_iff_eq.mp ‹_›).symm

lemma Enumerator.ofId_id (c : Enumerator) : ofId c.id = some c := by
  cases c <;> decide +kernel

lemma Preset.ofId_id (c : Preset) : ofId c.id = some c := by
  cases c <;> decide +kernel

namespace Instruction

variable {code : ByteArray} {pos : Nat}

@[simp] lemma size_load_flag (b : Bool) : (load (.flag b)).size = 2 := rfl

@[simp] lemma size_load_null : (load .null).size = 2 := rfl

@[simp] lemma size_load_integer (n : Int32) : (load (.integer n)).size = 6 := rfl

@[simp] lemma length_payload (v : Immediate) : v.payload.length = v.payloadSize := by
  cases v <;> rfl

@[simp] lemma length_encode (i : Instruction) : i.encode.length = i.size := by
  cases i with
  | load v =>
    simp only [encode, size, List.length_cons, length_payload]
    omega
  | _ => rfl

lemma le_size_of_holds {i : Instruction} (h : Holds code pos i.encode) :
    pos + i.size ≤ code.size := by
  have hlength := length_encode i
  have hpos := size_pos i
  cases hi : i.encode with
  | nil =>
    rw [hi, List.length_nil] at hlength
    omega
  | cons b rest =>
    rw [hi] at h hlength
    have := h.lt_size
    rw [List.length_cons] at hlength
    omega

lemma decodeImmediate_of_holds {v : Immediate} (ht : Bytes.at? code (pos + 1) = some v.tag)
    (hp : Holds code (pos + 2) v.payload) : decodeImmediate code pos = .ok v := by
  cases v with
  | null => simp [decodeImmediate, ht, need, Immediate.tag, bind, Except.bind, pure, Except.pure]
  | flag b =>
    cases b <;>
      simp [decodeImmediate, ht, need, Immediate.tag, bind, Except.bind, pure, Except.pure]
  | integer n | deltaInteger n =>
    have hn := Holds.at32? hp
    simp [decodeImmediate, ht, hn, need, Immediate.tag, bind, Except.bind, pure, Except.pure]
  | float n | deltaFloat n =>
    have hn := Holds.at64? hp
    simp [decodeImmediate, ht, hn, need, Immediate.tag, bind, Except.bind, pure, Except.pure]
  | text n | enumerator n | preset n =>
    have hn := Holds.at16? hp
    simp [decodeImmediate, ht, hn, need, Immediate.tag, bind, Except.bind, pure, Except.pure]

lemma decode_of_holds {i : Instruction} (h : Holds code pos i.encode) :
    decode code pos = .ok i := by
  cases i with
  | load v =>
    obtain ⟨hb, ht, hp⟩ := by simpa only [encode, Holds.cons_iff] using h
    simp [decode, hb, need, decodeImmediate_of_holds ht hp, bind, Except.bind, pure, Except.pure]
  | loadArgument n | loadGlobal n | storeArgument n | storeGlobal n | call n | present n
  | beginDialogue n | isPressed n | trap n | jump n | jumpIfTrue n | jumpIfFalse n =>
    obtain ⟨hb, hn⟩ := Holds.cons_iff.mp h
    simp [decode, hb, Holds.at16? hn, need, bind, Except.bind, pure, Except.pure]
  | binary op =>
    obtain ⟨hb, ho, _⟩ := by simpa only [encode, Holds.cons_iff] using h
    simp [decode, hb, ho, need, BinaryOperator.ofId_id, bind, Except.bind, pure, Except.pure]
  | unary op =>
    obtain ⟨hb, ho, _⟩ := by simpa only [encode, Holds.cons_iff] using h
    simp [decode, hb, ho, need, UnaryOperator.ofId_id, bind, Except.bind, pure, Except.pure]
  | callFar k n =>
    obtain ⟨hb, hn⟩ := Holds.cons_iff.mp h
    have hk := Holds.at16? hn.left
    have hm := Holds.at16? hn.right
    simp only [Bytes.length_of16, Nat.add_assoc, Nat.reduceAdd] at hm
    simp [decode, hb, hk, hm, need, bind, Except.bind, pure, Except.pure]
  | dispatch n count =>
    obtain ⟨hb, hn⟩ := Holds.cons_iff.mp h
    have hk := Holds.at16? hn.left
    have hc := (Holds.cons_iff.mp hn.right).1
    simp only [Bytes.length_of16, Nat.add_assoc, Nat.reduceAdd] at hc
    simp [decode, hb, hk, hc, need, bind, Except.bind, pure, Except.pure]
  | selectStart | selectEnd | pop | dup | ret =>
    obtain ⟨hb, _⟩ := Holds.cons_iff.mp h
    simp [decode, hb, need, bind, Except.bind, pure, Except.pure]

lemma need_eq_ok_iff {offset : Nat} {x : Option α} {a : α} :
    need offset x = .ok a ↔ x = some a := by
  cases x <;> simp [need]

lemma holds_of_decodeImmediate {v : Immediate} (h : decodeImmediate code pos = .ok v) :
    Bytes.at? code (pos + 1) = some v.tag ∧ Holds code (pos + 2) v.payload := by
  obtain ⟨tag, ht, h⟩ := Except.bind_eq_ok_iff.mp h
  rw [need_eq_ok_iff] at ht
  dsimp only at h
  split at h
  case h_1 | h_2 | h_3 =>
    cases h
    exact ⟨ht, Holds.nil⟩
  case h_4 | h_6 =>
    obtain ⟨n, hn, h⟩ := Except.bind_eq_ok_iff.mp h
    cases h
    exact ⟨ht, Bytes.holds_of_at32? (need_eq_ok_iff.mp hn)⟩
  case h_5 | h_7 =>
    obtain ⟨n, hn, h⟩ := Except.bind_eq_ok_iff.mp h
    cases h
    exact ⟨ht, Bytes.holds_of_at64? (need_eq_ok_iff.mp hn)⟩
  case h_8 | h_9 | h_10 =>
    obtain ⟨n, hn, h⟩ := Except.bind_eq_ok_iff.mp h
    cases h
    exact ⟨ht, Bytes.holds_of_at16? (need_eq_ok_iff.mp hn)⟩
  case h_11 => cases h

lemma holds_of_decode {i : Instruction} (h : decode code pos = .ok i) :
    Holds code pos i.encode := by
  obtain ⟨byte, hb, h⟩ := Except.bind_eq_ok_iff.mp h
  rw [need_eq_ok_iff] at hb
  have hoperand {n : UInt16} {at_ : Nat} (hn : need pos (Bytes.at16? code at_) = .ok n) :
      Holds code at_ (of16 n) :=
    Bytes.holds_of_at16? (need_eq_ok_iff.mp hn)
  dsimp only at h
  split at h
  case h_1 =>
    obtain ⟨v, hv, h⟩ := Except.bind_eq_ok_iff.mp h
    cases h
    obtain ⟨ht, hp⟩ := holds_of_decodeImmediate hv
    exact Holds.cons_iff.mpr ⟨hb, Holds.cons_iff.mpr ⟨ht, hp⟩⟩
  case h_6 | h_7 =>
    obtain ⟨id, hid, h⟩ := Except.bind_eq_ok_iff.mp h
    split at h
    · next op hop =>
      cases h
      rw [need_eq_ok_iff] at hid
      first
      | rw [← BinaryOperator.id_of_ofId hop] at hid
      | rw [← UnaryOperator.id_of_ofId hop] at hid
      exact Holds.cons_iff.mpr ⟨hb, Holds.cons_iff.mpr ⟨hid, Holds.nil⟩⟩
    · cases h
  case h_12 =>
    obtain ⟨k, hk, h⟩ := Except.bind_eq_ok_iff.mp h
    obtain ⟨n, hn, h⟩ := Except.bind_eq_ok_iff.mp h
    cases h
    exact Holds.cons_iff.mpr ⟨hb, Holds.append_iff.mpr ⟨hoperand hk, hoperand hn⟩⟩
  case h_13 =>
    obtain ⟨n, hn, h⟩ := Except.bind_eq_ok_iff.mp h
    obtain ⟨count, hcount, h⟩ := Except.bind_eq_ok_iff.mp h
    cases h
    refine Holds.cons_iff.mpr ⟨hb, Holds.append_iff.mpr ⟨hoperand hn, ?_⟩⟩
    exact Holds.cons_iff.mpr ⟨need_eq_ok_iff.mp hcount, Holds.nil⟩
  case h_16 | h_18 | h_19 | h_20 | h_22 =>
    cases h
    exact Holds.cons_iff.mpr ⟨hb, Holds.nil⟩
  case h_23 => cases h
  all_goals
    obtain ⟨n, hn, h⟩ := Except.bind_eq_ok_iff.mp h
    cases h
    exact Holds.cons_iff.mpr ⟨hb, hoperand hn⟩

lemma eq_of_holds {i j : Instruction} (hi : Holds code pos i.encode)
    (hj : Holds code pos j.encode) : i = j :=
  Except.ok.inj ((decode_of_holds hi).symm.trans (decode_of_holds hj))

lemma encodeAll_injective {is js : List Instruction} (h : encodeAll is = encodeAll js) :
    is = js := by
  replace h : is.flatMap encode = js.flatMap encode := by
    simpa [encodeAll] using congrArg (fun bytes => bytes.data.toList) h
  induction is generalizing js with
  | nil =>
    cases js with
    | nil => rfl
    | cons j rest =>
      have hj := congrArg List.length h
      have hpos := j.size_pos
      simp only [List.flatMap_nil, List.flatMap_cons, List.length_nil, List.length_append,
        length_encode] at hj
      omega
  | cons i rest ih =>
    cases js with
    | nil =>
      have hi := congrArg List.length h
      have hpos := i.size_pos
      simp only [List.flatMap_nil, List.flatMap_cons, List.length_nil, List.length_append,
        length_encode] at hi
      omega
    | cons j rest' =>
      rw [List.flatMap_cons, List.flatMap_cons] at h
      have hself := Bytes.holds_self (i.encode ++ rest.flatMap encode).toByteArray
      rw [List.data_toByteArray] at hself
      have hi : Holds (i.encode ++ rest.flatMap encode).toByteArray 0 i.encode := hself.left
      rw [h] at hself
      have hj : Holds (i.encode ++ rest.flatMap encode).toByteArray 0 j.encode := by
        rw [h]
        exact hself.left
      cases eq_of_holds hi hj
      rw [ih (List.append_cancel_left h)]

end Instruction

end Stagecraft
