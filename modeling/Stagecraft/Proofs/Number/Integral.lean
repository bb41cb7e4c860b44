import Stagecraft.Project.Code
import Stagecraft.Proofs.Bytes

namespace Stagecraft.Number

open Float.Model Float.Model.UnpackedFloat

abbrev Bits := BitVec Format.binary64.numBits

lemma toNat_unpackMantissa (b : Bits) :
    (unpackMantissa b).toNat = b.toNat % 2 ^ 52 := by
  simp [unpackMantissa, BitVec.extractLsb]

lemma toNat_unpackExponent (b : Bits) :
    (unpackExponent b).toNat = (b.toNat >>> 52) % 2 ^ 11 := by
  simp [unpackExponent, BitVec.extractLsb]

lemma toNat_unpackSign (b : Bits) :
    (unpackSign b).toNat = b.toNat >>> 63 := by
  have hb : b.toNat < 2 ^ 64 := b.isLt
  have hs : b.toNat >>> 63 < 2 := by omega
  simp [unpackSign, BitVec.extractLsb, Nat.mod_eq_of_lt hs]

lemma toBitVec_ofBitVec (s : BitVec 1) : (Sign.ofBitVec s).toBitVec = s := by
  revert s
  decide

lemma packComponents_unpack (b : Bits) :
    packComponents Format.binary64 (Sign.ofBitVec (unpackSign b)) (unpackExponent b)
      (unpackMantissa b) = b := by
  apply BitVec.eq_of_toNat_eq
  simp only [packComponents, BitVec.toNat_append, toBitVec_ofBitVec, toNat_unpackSign,
    toNat_unpackExponent, toNat_unpackMantissa]
  have hhigh := Bytes.low_or_high (b.toNat >>> 52) 11
  rw [Nat.or_comm, ← Nat.shiftRight_add] at hhigh
  rw [hhigh, Nat.or_comm]
  exact Bytes.low_or_high b.toNat 52

def sign (negative : Bool) : Sign :=
  if negative then .negative else .positive

lemma ofBitVec_unpackSign (b : Bits) :
    Sign.ofBitVec (unpackSign b) = sign (b.toNat >>> 63 == 1) := by
  have hb : b.toNat < 2 ^ 64 := b.isLt
  have hs : b.toNat >>> 63 < 2 := by omega
  have h := toNat_unpackSign b
  simp only [Sign.ofBitVec, sign, ← BitVec.toNat_inj, h]
  obtain h0 | h1 : b.toNat >>> 63 = 0 ∨ b.toNat >>> 63 = 1 := by omega
  · simp [h0]
  · simp [h1]

def Parts.unpacked : Parts → UnpackedFloat
  | .nan => .notANumber
  | .infinite s => .infinity (sign s)
  | .finite s 0 _ => .zero (sign s)
  | .finite s (m + 1) e => .finite (sign s) (m + 1) e (Nat.succ_pos m)

lemma Parts.unpacked_finite {s : Bool} {m : Nat} {e : Int} (hm : 0 < m) :
    (Parts.finite s m e).unpacked = .finite (sign s) m e hm := by
  cases m with
  | zero => omega
  | succ m => rfl

lemma unpack_bits (b : Bits) :
    UnpackedFloat.unpack Format.binary64 b = (partsOfBits b.toNat).unpacked := by
  have hm := toNat_unpackMantissa b
  have he : (unpackExponent b).toNat = b.toNat >>> 52 % 2048 := toNat_unpackExponent b
  have hs := ofBitVec_unpackSign b
  have hall : (-(1#(Format.binary64.exponentBits))).toNat = 2047 := rfl
  have hfield : unpackExponent b = -1#_ ↔ b.toNat >>> 52 % 2048 = 2047 := by
    rw [← BitVec.toNat_inj, he, hall]
  have hzero : unpackExponent b = 0#_ ↔ b.toNat >>> 52 % 2048 = 0 := by
    rw [← BitVec.toNat_inj, he]
    rfl
  have hfraction : unpackMantissa b = 0#_ ↔ b.toNat % 2 ^ 52 = 0 := by
    rw [← BitVec.toNat_inj, hm]
    rfl
  unfold UnpackedFloat.unpack partsOfBits
  simp only [hfield, hzero, hfraction, hs, fractionBits, beq_iff_eq, Nat.pow_eq]
  split
  · split <;> rfl
  · split
    · next hexponent =>
      split
      · next hz => simp only [hz, Parts.unpacked]
      · next hz =>
        rw [Parts.unpacked_finite (Nat.pos_of_ne_zero hz)]
        congr 1
        rw [he]
        simp only [hexponent]
        rfl
    · next hexponent =>
      rw [Parts.unpacked_finite (by omega)]
      congr 1
      · rw [BitVec.toNat_append, hm]
        exact (Nat.two_pow_add_eq_or_of_lt (Nat.mod_lt _ (Nat.two_pow_pos 52)) 1).symm
      · have hbias : (Format.binary64.exponentBias : Int) = 1023 := rfl
        rw [he, hbias, leastExponent]
        omega

lemma unpack_eq (x : Float) : x.toModel.unpack = (parts x).unpacked :=
  unpack_bits x.toBits.toBitVec

lemma pack_unpack {b : Bits} (hb : Format.binary64.Valid b) :
    UnpackedFloat.pack Format.binary64 (UnpackedFloat.unpack Format.binary64 b) = b := by
  have hself := packComponents_unpack b
  have hm := toNat_unpackMantissa b
  have he := toNat_unpackExponent b
  have hbias : (Format.binary64.exponentBias : Int) = 1023 := rfl
  have hmb : Format.binary64.mantissaBits = 53 := rfl
  unfold UnpackedFloat.unpack
  simp only
  split
  · next hinf =>
    split
    · next hz =>
      rw [hinf, hz] at hself
      exact hself
    · next hz => exact (hb.eq_packedNaN hinf hz).symm
  · next hinf =>
    have hlt : (unpackExponent b).toNat < 2047 := by
      have hne : (unpackExponent b).toNat ≠ 2047 := fun h => hinf (BitVec.toNat_inj.mp h)
      omega
    split
    · next hzero =>
      split
      · next hz =>
        rw [hzero, hz] at hself
        exact hself
      · next hz =>
        -- below the normal numbers the mantissa is written as it is
        have hlog : (unpackMantissa b).toNat.log2 < 52 := by
          have hpos : (unpackMantissa b).toNat ≠ 0 := fun h => hz (BitVec.toNat_inj.mp h)
          rw [Nat.log2_lt hpos, hm]
          exact Nat.mod_lt _ (by decide)
        simp only [UnpackedFloat.pack, hbias, hmb]
        rw [if_neg, if_neg (by omega), BitVec.ofNat_toNat, BitVec.setWidth_eq]
        · rw [hzero] at hself
          exact hself
        · rw [hzero]
          decide
    · next hzero =>
      -- a normal number has a leading one, which is not written
      have hman : (1#1 ++ unpackMantissa b).toNat = 2 ^ 52 + (unpackMantissa b).toNat := by
        rw [BitVec.toNat_append]
        exact (Nat.two_pow_add_eq_or_of_lt (unpackMantissa b).isLt 1).symm
      have hlog : (1#1 ++ unpackMantissa b).toNat.log2 = 52 := by
        rw [hman, Nat.log2_eq_iff (by omega), hm]
        omega
      have hbiased : (((unpackExponent b).toNat : Int) - (1023 + (52 : Nat)) + 1023 +
          (52 : Nat)).toNat = (unpackExponent b).toNat := by
        omega
      simp only [UnpackedFloat.pack, hbias, hmb, hlog, hbiased]
      have hlow : BitVec.ofNat 52 (1#1 ++ unpackMantissa b).toNat = unpackMantissa b := by
        apply BitVec.toNat_inj.mp
        rw [BitVec.toNat_ofNat, hman, Nat.add_mod_left, Nat.mod_eq_of_lt (unpackMantissa b).isLt]
      rw [if_neg (by omega), if_pos trivial, BitVec.ofNat_toNat, BitVec.setWidth_eq, hlow]
      exact hself

lemma ofBits_toBits (x : Float) : Float.ofBits x.toBits = x := by
  obtain ⟨⟨bits, hvalid⟩⟩ := x
  change Float.ofModel (Float.Model.pack (UnpackedFloat.unpack Format.binary64 bits.toBitVec)) = _
  congr 1
  have h := pack_unpack hvalid
  simp only [Float.Model.pack]
  congr 1
  exact congrArg UInt64.ofBitVec h

inductive HasBits : Nat → Parts → Prop
  | low (s : Bool) (m : Nat) (hm : m < 2 ^ 52) :
    HasBits (s.toNat * 2 ^ 63 + m) (.finite s m leastExponent)
  | full (s : Bool) (field m : Nat) (hf : 0 < field ∧ field < 2047) (hm : m < 2 ^ 52) :
    HasBits (s.toNat * 2 ^ 63 + field * 2 ^ 52 + m) (.finite s (2 ^ 52 + m) (field - 1075))

lemma hasBits_of_parts {n m : Nat} {s : Bool} {e : Int} (hn : n < 2 ^ 64)
    (h : partsOfBits n = .finite s m e) : HasBits n (.finite s m e) := by
  simp only [partsOfBits, fractionBits, Nat.pow_eq, Nat.shiftRight_eq_div_pow, beq_iff_eq] at h
  have hs : (n / 2 ^ 63 == 1).toNat = n / 2 ^ 63 := by
    obtain h0 | h1 : n / 2 ^ 63 = 0 ∨ n / 2 ^ 63 = 1 := by omega
    · rw [h0]
      rfl
    · rw [h1]
      rfl
  split at h
  · split at h <;> cases h
  · next hinf =>
    split at h
    · next hzero =>
      cases h
      have hlow := HasBits.low (n / 2 ^ 63 == 1) (n % 2 ^ 52) (Nat.mod_lt _ (by decide))
      rw [hs] at hlow
      convert hlow using 1
      omega
    · next hzero =>
      cases h
      have hfull := HasBits.full (n / 2 ^ 63 == 1) (n / 2 ^ 52 % 2048) (n % 2 ^ 52) (by omega)
        (Nat.mod_lt _ (by decide))
      rw [hs] at hfull
      convert hfull using 1
      · omega
      · rw [leastExponent]
        congr 1
        omega

lemma scaled_neg (n k : Nat) : scaled n 1 (-(k : Int)) = (n * 2 ^ k, 1) := by
  cases k with
  | zero => simp [scaled]
  | succ k => rfl

lemma roundHalfEven_one (n : Nat) : roundHalfEven n 1 = n := by
  simp [roundHalfEven, Nat.mod_one]

lemma bitsOfRatio_whole {v k m : Nat} (hk : k ≤ 52) (hm : m < 2 ^ 52)
    (hv : v * 2 ^ k = 2 ^ 52 + m) : bitsOfRatio v 1 = (1075 - k) * 2 ^ 52 + m := by
  have hpos : v ≠ 0 := by
    rintro rfl
    omega
  have hpow : 2 ^ (52 - k) * 2 ^ k = 2 ^ 52 := by rw [← Nat.pow_add, Nat.sub_add_cancel hk]
  have hlog : v.log2 = 52 - k := by
    rw [Nat.log2_eq_iff hpos]
    constructor
    · apply Nat.le_of_mul_le_mul_right _ (Nat.two_pow_pos k)
      omega
    · apply Nat.lt_of_mul_lt_mul_right (a := 2 ^ k)
      rw [Nat.pow_succ, Nat.mul_right_comm, hpow]
      omega
  have hguess : ((v.log2 : Int) - (1 : Nat).log2 - fractionBits) = -(k : Int) := by
    rw [hlog, fractionBits, show (1 : Nat).log2 = 0 from rfl]
    omega
  have hexponent : exponentFor v 1 = -(k : Int) := by
    simp only [exponentFor, hguess, scaled_neg, Nat.div_one, hv]
    rw [if_neg (by simp [fractionBits]), leastExponent]
    omega
  have hfield : (-(k : Int) - leastExponent + 1).toNat = 1075 - k := by
    rw [leastExponent]
    omega
  simp only [bitsOfRatio, beq_iff_eq, hpos, if_false, hexponent, scaled_neg, hv, roundHalfEven_one,
    hfield]
  rw [if_neg (by simp [fractionBits]), if_neg (by omega)]
  simp only [fractionBits, Nat.pow_eq, Nat.shiftLeft_eq, Nat.add_sub_cancel_left]
  apply Nat.min_eq_left
  calc (1075 - k) * 2 ^ 52 + m
      ≤ (1075 - k) * 2 ^ 52 + 2 ^ 52 := Nat.add_le_add_left (Nat.le_of_lt hm) _
    _ = (1075 - k + 1) * 2 ^ 52 := (Nat.succ_mul _ _).symm
    _ ≤ 2047 * 2 ^ 52 := Nat.mul_le_mul_right _ (by omega)

lemma isLE_then_iff {e f : Int} {m n : Nat} :
    ((compare e f).then (compare m n)).isLE = true ↔ e < f ∨ e = f ∧ m ≤ n := by
  rw [Ordering.isLE_then_iff_or, Std.compare_eq_lt, Std.compare_eq_iff_eq, Nat.isLE_compare]

lemma bound_above {x : Float} {m : Nat} {e : Int} (hm : 0 < m) (hx : parts x = .finite false m e)
    (h : x ≤ 2147483647.0) : e < -22 ∨ e = -22 ∧ m ≤ 2147483647 * 2 ^ 22 := by
  have h : (x.toModel.unpack.le (Float.toModel 2147483647.0).unpack) = true := of_decide_eq_true h
  rw [unpack_eq, hx, Parts.unpacked_finite hm] at h
  exact isLE_then_iff.mp h

lemma bound_below {x : Float} {m : Nat} {e : Int} (hm : 0 < m) (hx : parts x = .finite true m e)
    (h : -2147483648.0 ≤ x) : e < -21 ∨ e = -21 ∧ m ≤ 2 ^ 52 := by
  have h : ((Float.toModel (-2147483648.0)).unpack.le x.toModel.unpack) = true :=
    of_decide_eq_true h
  rw [unpack_eq x, hx, Parts.unpacked_finite hm] at h
  change ((compare (-21) e).then (compare (2 ^ 52) m)).swap.isLE = true at h
  rw [Ordering.swap_then, Int.compare_swap, Nat.compare_swap] at h
  exact isLE_then_iff.mp h

lemma ofInt_signed {s : Bool} {v : Nat} (hv : 0 < v) :
    ofInt (if s then -(v : Int) else v) =
      Float.ofBits (UInt64.ofNat (s.toNat * 2 ^ 63 + bitsOfRatio v 1)) := by
  have hscaled : scaled v 1 (-0) = (v, 1) := rfl
  cases s with
  | false =>
    have h : decide ((v : Int) < 0) = false := decide_eq_false (by omega)
    simp only [ofInt, ofParts, ofRatio, Bool.false_eq_true, if_false, h, Int.natAbs_natCast,
      hscaled, Bool.toNat_false, Nat.zero_mul, Nat.zero_add]
  | true =>
    have h : decide (-(v : Int) < 0) = true := decide_eq_true (by omega)
    simp only [ofInt, ofParts, ofRatio, if_true, h, Int.natAbs_neg, Int.natAbs_natCast, hscaled,
      Bool.toNat_true, Nat.one_mul]
    exact congrArg (fun n => Float.ofBits (UInt64.ofNat n)) (Nat.add_comm _ _)

lemma ofBits_ofNat_toBits (x : Float) : Float.ofBits (UInt64.ofNat x.toBits.toNat) = x := by
  rw [UInt64.ofNat_toNat, ofBits_toBits]

lemma isIntegral_neg {x : Float} {s : Bool} {m k : Nat}
    (hx : parts x = .finite s m (-((k + 1 : Nat) : Int))) (h : isIntegral x = true) :
    2 ^ (k + 1) ∣ m := by
  have hk : -((k + 1 : Nat) : Int) = Int.negSucc k := rfl
  simp only [isIntegral, hx, hk, beq_iff_eq] at h
  exact Nat.dvd_of_mod_eq_zero h

lemma eq_zero_of_isIntegral {x : Float} {s : Bool} {m k : Nat}
    (hx : parts x = .finite s m (-((k + 1 : Nat) : Int))) (h : isIntegral x = true)
    (hk : 52 ≤ k + 1) (hm : m < 2 ^ 52) : m = 0 :=
  Nat.eq_zero_of_dvd_of_lt ((Nat.pow_dvd_pow 2 hk).trans (isIntegral_neg hx h)) hm

lemma ofInt_truncate {x : Float} {s : Bool} {v k m : Nat} (hk : 0 < k ∧ k ≤ 52) (hm : m < 2 ^ 52)
    (hv : v * 2 ^ k = 2 ^ 52 + m) (hs : v ≤ 2147483647 + s.toNat)
    (hp : parts x = .finite s (2 ^ 52 + m) (-(k : Int)))
    (hx : x.toBits.toNat = s.toNat * 2 ^ 63 + (1075 - k) * 2 ^ 52 + m) :
    ofInt (Int32.ofInt (truncateWithin (-2147483648) 2147483647 x)).toInt = x := by
  obtain ⟨k, rfl⟩ := Nat.exists_eq_succ_of_ne_zero (Nat.pos_iff_ne_zero.mp hk.1)
  have hpos : 0 < v := by
    apply Nat.pos_of_ne_zero
    rintro rfl
    omega
  have hneg : -((k.succ : Nat) : Int) = Int.negSucc k := rfl
  have htruncate : truncateParts s (2 ^ 52 + m) (Int.negSucc k) = if s then -(v : Int) else v := by
    simp only [truncateParts, ← hv, Nat.pow_eq]
    rw [← Int.natCast_ediv, Nat.mul_div_cancel v (Nat.two_pow_pos (k + 1))]
  have hrange : -2147483648 ≤ (if s then -(v : Int) else v) ∧
      (if s then -(v : Int) else v) ≤ 2147483647 := by
    cases s with
    | false =>
      rw [Bool.toNat_false] at hs
      simp only [Bool.false_eq_true, if_false]
      omega
    | true =>
      rw [Bool.toNat_true] at hs
      simp only [if_true]
      omega
  have hwithin : truncateWithin (-2147483648) 2147483647 x = if s then -(v : Int) else v := by
    simp only [truncateWithin, hp, hneg, htruncate]
    omega
  have hround : (Int32.ofInt (if s then -(v : Int) else v)).toInt =
      if s then -(v : Int) else v := by
    apply Int32.toInt_ofInt_of_le <;> omega
  rw [hwithin, hround, ofInt_signed hpos, bitsOfRatio_whole hk.2 hm hv, ← Nat.add_assoc, ← hx,
    ofBits_ofNat_toBits]

lemma ofInt_integral {x : Float} {n : Int32} (h : Emit.integral? x = some n) (hx : x ≠ -0.0) :
    ofInt n.toInt = x := by
  simp only [Emit.integral?, Option.ite_none_right_eq_some, Bool.and_eq_true, decide_eq_true_eq,
    Option.some.injEq] at h
  obtain ⟨⟨⟨hint, hlow⟩, hhigh⟩, rfl⟩ := h
  cases hp : parts x with
  | nan => simp [isIntegral, hp] at hint
  | infinite s => simp [isIntegral, hp] at hint
  | finite s m e =>
    have hb := hasBits_of_parts x.toBits.toNat_lt hp
    generalize hN : x.toBits.toNat = N at hb
    cases hb with
    | low s m hm =>
      -- only zero is below the smallest whole number
      obtain rfl : m = 0 := eq_zero_of_isIntegral (k := 1073) hp hint (by decide) hm
      have hself := ofBits_ofNat_toBits x
      rw [hN] at hself
      cases s with
      | true => exact absurd hself.symm hx
      | false =>
        rw [← hself]
        decide +kernel
    | full s field m hf hm =>
      have hexponent : s = false ∧ ((field : Int) - 1075 < -22 ∨
            (field : Int) - 1075 = -22 ∧ 2 ^ 52 + m ≤ 2147483647 * 2 ^ 22) ∨
          s = true ∧ ((field : Int) - 1075 < -21 ∨
            (field : Int) - 1075 = -21 ∧ 2 ^ 52 + m ≤ 2 ^ 52) := by
        cases s with
        | false => exact .inl ⟨rfl, bound_above (by omega) hp hhigh⟩
        | true => exact .inr ⟨rfl, bound_below (by omega) hp hlow⟩
      obtain ⟨k, hk⟩ : ∃ k : Nat, (field : Int) - 1075 = -((k + 1 : Nat) : Int) :=
        ⟨1074 - field, by omega⟩
      rw [hk] at hp hexponent
      obtain ⟨v, hv⟩ := isIntegral_neg hp hint
      rw [Nat.mul_comm] at hv
      have hle {j : Nat} (hj : j ≤ k + 1) : v * 2 ^ j ≤ 2 ^ 52 + m :=
        hv ▸ Nat.mul_le_mul_left v (Nat.pow_le_pow_right (by decide) hj)
      have hlt : k + 1 < 53 := by
        apply (Nat.pow_lt_pow_iff_right (a := 2) (by decide)).mp
        have : 2 ^ (k + 1) ≤ 2 ^ 52 + m := Nat.le_of_dvd (by omega) ⟨v, by rw [hv, Nat.mul_comm]⟩
        omega
      -- a number of 32 bits has at least 21 of its 53 binary digits behind the point
      have hbound : v ≤ 2147483647 + s.toNat := by
        obtain ⟨rfl, h | h⟩ | ⟨rfl, h | h⟩ := hexponent
        · have := hle (show 23 ≤ k + 1 by omega)
          omega
        · have := hle (show 22 ≤ k + 1 by omega)
          omega
        · have := hle (show 22 ≤ k + 1 by omega)
          rw [Bool.toNat_true]
          omega
        · have := hle (show 21 ≤ k + 1 by omega)
          rw [Bool.toNat_true]
          omega
      apply ofInt_truncate ⟨Nat.succ_pos k, by omega⟩ hm hv.symm hbound hp
      have hfield : 1075 - (k + 1) = field := by omega
      rw [hfield, hN]

end Stagecraft.Number
