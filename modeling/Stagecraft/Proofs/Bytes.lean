import Mathlib
import Stagecraft.Bytes

namespace Stagecraft.Bytes

def Holds (bytes : ByteArray) (pos : Nat) (part : List UInt8) : Prop :=
  part <+: bytes.data.toList.drop pos

variable {bytes : ByteArray} {pos : Nat} {part more : List UInt8}

lemma at?_eq (bytes : ByteArray) (i : Nat) : at? bytes i = bytes.data.toList[i]? := by
  unfold at?
  split
  · next h =>
    rw [List.getElem?_eq_getElem (by simpa using h)]
    rfl
  · next h =>
    rw [List.getElem?_eq_none]
    simpa using h

lemma Holds.nil : Holds bytes pos [] :=
  List.nil_prefix

lemma Holds.append_iff :
    Holds bytes pos (part ++ more) ↔
      Holds bytes pos part ∧ Holds bytes (pos + part.length) more := by
  constructor
  · rintro ⟨rest, h⟩
    refine ⟨⟨more ++ rest, by simpa using h⟩, rest, ?_⟩
    rw [← List.drop_drop, ← h, List.append_assoc, List.drop_left]
  · rintro ⟨⟨rest, h⟩, rest', h'⟩
    rw [← List.drop_drop, ← h, List.drop_left] at h'
    exact ⟨rest', by rw [List.append_assoc, h', h]⟩

lemma Holds.left (h : Holds bytes pos (part ++ more)) : Holds bytes pos part :=
  (append_iff.mp h).1

lemma Holds.right (h : Holds bytes pos (part ++ more)) : Holds bytes (pos + part.length) more :=
  (append_iff.mp h).2

lemma Holds.cons_iff {b : UInt8} :
    Holds bytes pos (b :: part) ↔ at? bytes pos = some b ∧ Holds bytes (pos + 1) part := by
  rw [← List.singleton_append, append_iff, at?_eq, ← List.head?_drop]
  refine and_congr_left fun _ => ?_
  cases h : bytes.data.toList.drop pos <;> simp [Holds, h, eq_comm]

lemma holds_self (bytes : ByteArray) : Holds bytes 0 bytes.data.toList :=
  ⟨[], by simp⟩

lemma Holds.le_size (h : Holds bytes pos part) (hp : pos ≤ bytes.size) :
    pos + part.length ≤ bytes.size := by
  have hl := List.IsPrefix.length_le h
  simp only [List.length_drop, Array.length_toList, ByteArray.size_data] at hl
  omega

lemma Holds.lt_size {b : UInt8} (h : Holds bytes pos (b :: part)) :
    pos + part.length < bytes.size := by
  have hl := List.IsPrefix.length_le h
  simp only [List.length_cons, List.length_drop, Array.length_toList, ByteArray.size_data] at hl
  omega

lemma Holds.extract (h : Holds bytes pos part) :
    bytes.extract pos (pos + part.length) = part.toByteArray := by
  apply ByteArray.ext
  apply Array.toList_inj.mp
  obtain ⟨rest, h⟩ := h
  simp [ByteArray.data_extract, List.extract_eq_take_drop, ← h]

lemma Holds.slice? (h : Holds bytes pos part) (hp : pos ≤ bytes.size) :
    slice? bytes pos part.length = some part.toByteArray := by
  rw [Bytes.slice?, if_pos (h.le_size hp), h.extract]

@[simp] lemma length_of16 (n : UInt16) : (of16 n).length = 2 := rfl

@[simp] lemma length_of32 (n : UInt32) : (of32 n).length = 4 := rfl

@[simp] lemma length_of64 (n : UInt64) : (of64 n).length = 8 := rfl

lemma low_or_high (n k : Nat) : n % 2 ^ k ||| (n >>> k) <<< k = n := by
  rw [Nat.or_comm, Nat.shiftLeft_eq, Nat.mul_comm,
    ← Nat.two_pow_add_eq_or_of_lt (Nat.mod_lt _ (Nat.two_pow_pos k)), Nat.shiftRight_eq_div_pow]
  exact Nat.div_add_mod n (2 ^ k)

lemma to16_of16 (n : UInt16) : to16 n.toUInt8 (n >>> 8).toUInt8 = n := by
  have hn : n.toNat < 65536 := n.toNat_lt
  have hh : n.toNat >>> 8 < 256 := by omega
  have hf : (n.toNat >>> 8) <<< 8 < 65536 := by omega
  apply UInt16.toNat_inj.mp
  simp only [to16, UInt16.toNat_or, UInt16.toNat_shiftLeft, UInt8.toNat_toUInt16,
    UInt16.toNat_toUInt8, UInt16.toNat_shiftRight]
  change n.toNat % 2 ^ 8 ||| (n.toNat >>> 8 % 256) <<< 8 % 65536 = n.toNat
  rw [Nat.mod_eq_of_lt hh, Nat.mod_eq_of_lt hf, low_or_high]

lemma to32_of32 (n : UInt32) :
    to32 n.toUInt8 (n >>> 8).toUInt8 (n >>> 16).toUInt8 (n >>> 24).toUInt8 = n := by
  have hn : n.toNat < 2 ^ 32 := n.toNat_lt
  apply UInt32.toNat_inj.mp
  simp only [to32, UInt32.toNat_or, UInt32.toNat_shiftLeft, UInt8.toNat_toUInt32,
    UInt32.toNat_toUInt8, UInt32.toNat_shiftRight]
  generalize n.toNat = x at *
  change x % 2 ^ 8 ||| (x >>> 8 % 2 ^ 8) <<< 8 % 2 ^ 32 ||| (x >>> 16 % 2 ^ 8) <<< 16 % 2 ^ 32 |||
    (x >>> 24 % 2 ^ 8) <<< 24 % 2 ^ 32 = x
  apply Nat.eq_of_testBit_eq
  intro i
  simp only [Nat.testBit_or, Nat.testBit_mod_two_pow, Nat.testBit_shiftLeft, Nat.testBit_shiftRight]
  by_cases hi : i < 32
  · grind
  · have hp : 2 ^ 32 ≤ 2 ^ i := Nat.pow_le_pow_right (by decide) (by omega)
    rw [Nat.testBit_lt_two_pow (Nat.lt_of_lt_of_le hn hp)]
    grind

lemma halves_of_64 (n : UInt64) :
    n.toUInt32.toUInt64 ||| (n >>> 32).toUInt32.toUInt64 <<< 32 = n := by
  have hn : n.toNat < 2 ^ 64 := n.toNat_lt
  have hh : n.toNat >>> 32 < 2 ^ 32 := by omega
  have hf : (n.toNat >>> 32) <<< 32 < 2 ^ 64 := by omega
  apply UInt64.toNat_inj.mp
  simp only [UInt64.toNat_or, UInt64.toNat_shiftLeft, UInt32.toNat_toUInt64, UInt64.toNat_toUInt32,
    UInt64.toNat_shiftRight]
  change n.toNat % 2 ^ 32 ||| (n.toNat >>> 32 % 2 ^ 32) <<< 32 % 2 ^ 64 = n.toNat
  rw [Nat.mod_eq_of_lt hh, Nat.mod_eq_of_lt hf, low_or_high]

lemma Holds.at16? {n : UInt16} (h : Holds bytes pos (of16 n)) : at16? bytes pos = some n := by
  simp only [of16, cons_iff] at h
  obtain ⟨ha, hb, _⟩ := h
  simp [Bytes.at16?, ha, hb, to16_of16]

lemma Holds.at32? {n : UInt32} (h : Holds bytes pos (of32 n)) : at32? bytes pos = some n := by
  simp only [of32, cons_iff] at h
  obtain ⟨ha, hb, hc, hd, _⟩ := h
  simp [Bytes.at32?, ha, hb, hc, hd, to32_of32]

lemma Holds.at64? {n : UInt64} (h : Holds bytes pos (of64 n)) : at64? bytes pos = some n := by
  have hl := Holds.at32? h.left
  have hr := Holds.at32? h.right
  simp only [length_of32] at hr
  rw [Bytes.at64?, hl, hr]
  exact congrArg some (halves_of_64 n)

lemma eq_of_bits {a b : UInt8} (h : ∀ i < 8, a.toBitVec.getLsbD i = b.toBitVec.getLsbD i) :
    a = b :=
  UInt8.eq_of_toBitVec_eq (BitVec.eq_of_getLsbD_eq h)

lemma of16_to16 (a b : UInt8) : of16 (to16 a b) = [a, b] := by
  have hlow : (to16 a b).toUInt8 = a := eq_of_bits fun i hi => by simp [to16]
  have hhigh : (to16 a b >>> 8).toUInt8 = b := eq_of_bits fun i hi => by
    simp [to16]
    grind
  rw [of16, hlow, hhigh]

lemma of32_to32 (a b c d : UInt8) : of32 (to32 a b c d) = [a, b, c, d] := by
  have ha : (to32 a b c d).toUInt8 = a := eq_of_bits fun i hi => by simp [to32]
  have hb : (to32 a b c d >>> 8).toUInt8 = b := eq_of_bits fun i hi => by
    simp [to32]
    grind
  have hc : (to32 a b c d >>> 16).toUInt8 = c := eq_of_bits fun i hi => by
    simp [to32]
    grind
  have hd : (to32 a b c d >>> 24).toUInt8 = d := eq_of_bits fun i hi => by
    simp [to32]
    grind
  rw [of32, ha, hb, hc, hd]

lemma of64_join (low high : UInt32) :
    of64 (low.toUInt64 ||| high.toUInt64 <<< 32) = of32 low ++ of32 high := by
  have hlow : (low.toUInt64 ||| high.toUInt64 <<< 32).toUInt32 = low := by
    refine UInt32.eq_of_toBitVec_eq (BitVec.eq_of_getLsbD_eq fun i hi => ?_)
    simp
  have hhigh : ((low.toUInt64 ||| high.toUInt64 <<< 32) >>> 32).toUInt32 = high := by
    refine UInt32.eq_of_toBitVec_eq (BitVec.eq_of_getLsbD_eq fun i hi => ?_)
    simp
    grind
  rw [of64, hlow, hhigh]

lemma holds_of_at16? {n : UInt16} (h : at16? bytes pos = some n) : Holds bytes pos (of16 n) := by
  simp only [Bytes.at16?, Option.bind_eq_bind, Option.bind_eq_some_iff] at h
  obtain ⟨a, ha, b, hb, h⟩ := h
  cases h
  rw [of16_to16, Holds.cons_iff, Holds.cons_iff]
  exact ⟨ha, hb, Holds.nil⟩

lemma holds_of_at32? {n : UInt32} (h : at32? bytes pos = some n) : Holds bytes pos (of32 n) := by
  simp only [Bytes.at32?, Option.bind_eq_bind, Option.bind_eq_some_iff] at h
  obtain ⟨a, ha, b, hb, c, hc, d, hd, h⟩ := h
  cases h
  simp only [of32_to32, Holds.cons_iff]
  exact ⟨ha, hb, hc, hd, Holds.nil⟩

lemma holds_of_at64? {n : UInt64} (h : at64? bytes pos = some n) : Holds bytes pos (of64 n) := by
  simp only [Bytes.at64?, Option.bind_eq_bind, Option.bind_eq_some_iff] at h
  obtain ⟨low, hlow, high, hhigh, h⟩ := h
  cases h
  rw [of64_join, Holds.append_iff]
  exact ⟨holds_of_at32? hlow, holds_of_at32? hhigh⟩

section Cut

variable {n : Nat}

lemma toList_cut (bytes : ByteArray) (n : Nat) :
    (bytes.extract 0 n).data.toList = bytes.data.toList.take n := by
  simp [ByteArray.data_extract, List.extract_eq_take_drop]

lemma Holds.of_cut (h : Holds (bytes.extract 0 n) pos part) : Holds bytes pos part := by
  rw [Holds, toList_cut, List.drop_take] at h
  exact h.trans (List.take_prefix _ _)

lemma Holds.cut (h : Holds bytes pos part) (hn : pos + part.length ≤ n) :
    Holds (bytes.extract 0 n) pos part := by
  rw [Holds, toList_cut, List.drop_take]
  exact List.prefix_take_iff.mpr ⟨h, by omega⟩

lemma at16?_of_cut {k : UInt16} (h : at16? (bytes.extract 0 n) pos = some k) :
    at16? bytes pos = some k :=
  (holds_of_at16? h).of_cut.at16?

lemma at32?_of_cut {k : UInt32} (h : at32? (bytes.extract 0 n) pos = some k) :
    at32? bytes pos = some k :=
  (holds_of_at32? h).of_cut.at32?

lemma extract_cut {start stop : Nat} (h : stop ≤ n) :
    (bytes.extract 0 n).extract start stop = bytes.extract start stop := by
  rw [ByteArray.extract_extract, Nat.zero_add, Nat.zero_add, Nat.min_eq_left h]

end Cut

end Stagecraft.Bytes
