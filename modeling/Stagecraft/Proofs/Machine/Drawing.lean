import Mathlib
import Stagecraft.Machine.Random

/-!
The states of the generator run through all 32-bit numbers, so a draw that goes on until a number is
accepted comes to an end.
-/

namespace Stagecraft.Random

/-- A draw below a bound that is not limited: it goes on after `n` numbers that are not accepted and
ends with the next one. -/
inductive Draws (bound : UInt32) : Nat → Random → UInt32 → Random → Prop
  | accept {r : Random} (h : r.next.1.toNat < accepted bound) :
    Draws bound 0 r (r.next.1 % bound) r.next.2
  | reject {n : Nat} {r s : Random} {value : UInt32} (h : accepted bound ≤ r.next.1.toNat)
    (rest : Draws bound n r.next.2 value s) : Draws bound (n + 1) r value s

variable {bound value value' : UInt32} {r s s' : Random} {n m : Nat}

lemma Draws.unique (h : Draws bound n r value s) (h' : Draws bound m r value' s') :
    n = m ∧ value = value' ∧ s = s' := by
  induction h generalizing m with
  | accept haccept =>
    cases h' with
    | accept => exact ⟨rfl, rfl, rfl⟩
    | reject hreject => omega
  | reject hreject _ ih =>
    cases h' with
    | accept haccept => omega
    | reject _ rest =>
      obtain ⟨rfl, hvalue, hs⟩ := ih rest
      exact ⟨rfl, hvalue, hs⟩

lemma Draws.value_lt (h : Draws bound n r value s) (hbound : bound ≠ 0) : value < bound := by
  induction h with
  | accept =>
    apply UInt32.mod_lt
    exact UInt32.pos_iff_ne_zero.mpr hbound
  | reject _ _ ih => exact ih

section Period

def after (r : Random) (n : Nat) : Random where
  state := r.state + .ofNat n * increment

@[simp] lemma after_zero (r : Random) : r.after 0 = r := by
  simp [after]

lemma after_next (r : Random) (n : Nat) : r.next.2.after n = r.after (n + 1) := by
  simp only [next, after, UInt32.ofNat_add, mk.injEq]
  generalize increment = step
  grind

lemma exists_state (r : Random) (target : UInt32) : ∃ n < 2 ^ 32, (r.after n).state = target := by
  refine ⟨((target - r.state) * 0xdc58aa5d).toNat, UInt32.toNat_lt _, ?_⟩
  -- the increment is odd, so it has an inverse
  have hinverse : 0xdc58aa5d * increment = 1 := by decide +kernel
  rw [after, UInt32.ofNat_toNat, UInt32.mul_assoc, hinverse, UInt32.mul_one]
  grind

lemma exists_next (r : Random) (target : UInt32) :
    ∃ n < 2 ^ 32, (r.after n).next.1 = scramble target := by
  obtain ⟨n, hn, hstate⟩ := r.exists_state (target - increment)
  have hnext : (r.after n).next.1 = scramble (target - increment + increment) :=
    congrArg (fun state => scramble (state + increment)) hstate
  exact ⟨n, hn, by rw [hnext, UInt32.sub_add_cancel]⟩

lemma accepted_pos (hbound : bound ≠ 0) : 0 < accepted bound := by
  have hpos : 0 < bound.toNat := UInt32.pos_iff_ne_zero.mpr hbound
  have hlt := bound.toNat_lt
  apply Nat.mul_pos _ hpos
  exact Nat.div_pos (by omega) hpos

lemma draws_draw {limit : Nat} (h : ∃ n < limit, (r.after n).next.1.toNat < accepted bound) :
    ∃ n < limit, Draws bound n r (draw bound limit r).1 (draw bound limit r).2 := by
  induction limit generalizing r with
  | zero => simp at h
  | succ limit ih =>
    rw [draw]
    split
    next candidate rest hnext =>
    have hcandidate : candidate = r.next.1 := by rw [hnext]
    have hrest : rest = r.next.2 := by rw [hnext]
    subst hcandidate hrest
    split
    · next haccept => exact ⟨0, limit.succ_pos, .accept haccept⟩
    · next hreject =>
      have hlater : ∃ n < limit, (r.next.2.after n).next.1.toNat < accepted bound := by
        obtain ⟨n, hn, haccept⟩ := h
        cases n with
        | zero => exact absurd haccept (by simpa using hreject)
        | succ n => exact ⟨n, by omega, by rwa [after_next]⟩
      obtain ⟨n, hn, hdraws⟩ := ih hlater
      exact ⟨n + 1, by omega, .reject (by omega) hdraws⟩

lemma draws_below (r : Random) (hbound : bound ≠ 0) :
    ∃ n < 2 ^ 32, Draws bound n r (r.below bound).1 (r.below bound).2 := by
  have hzero : scramble 0 = 0 := by decide +kernel
  obtain ⟨n, hn, hnext⟩ := r.exists_next 0
  have haccept : (r.after n).next.1.toNat < accepted bound := by
    rw [hnext, hzero]
    exact accepted_pos hbound
  rw [below, if_neg (by simpa using hbound)]
  exact draws_draw ⟨n, hn, haccept⟩

end Period

section Spread

lemma accepted_eq (bound : UInt32) : accepted bound = 2 ^ 32 / bound.toNat * bound.toNat := rfl

lemma add_lt_accepted {rest : UInt32} (hrest : rest < bound) (q : Fin (2 ^ 32 / bound.toNat)) :
    q * bound.toNat + rest.toNat < accepted bound := by
  have hrest : rest.toNat < bound.toNat := hrest
  calc
    q * bound.toNat + rest.toNat < (q + 1) * bound.toNat := by rw [Nat.succ_mul]; omega
    _ ≤ 2 ^ 32 / bound.toNat * bound.toNat := Nat.mul_le_mul_right _ q.isLt

def multiples {rest : UInt32} (hrest : rest < bound) :
    {c : UInt32 // c.toNat < accepted bound ∧ c % bound = rest} ≃ Fin (2 ^ 32 / bound.toNat) :=
  have hlt (q : Fin (2 ^ 32 / bound.toNat)) :=
    (add_lt_accepted hrest q).trans_le (Nat.div_mul_le_self _ _)
  { toFun := fun c => ⟨c.1.toNat / bound.toNat, Nat.div_lt_of_lt_mul (by
      rw [Nat.mul_comm, ← accepted_eq]
      exact c.2.1)⟩
    invFun := fun q => ⟨.ofNatLT (q * bound.toNat + rest.toNat) (hlt q), by
      refine ⟨add_lt_accepted hrest q, ?_⟩
      apply UInt32.toNat_inj.mp
      rw [UInt32.toNat_mod, UInt32.toNat_ofNatLT, Nat.mul_add_mod_self_right]
      exact Nat.mod_eq_of_lt hrest⟩
    left_inv := by
      rintro ⟨c, haccept, rfl⟩
      apply Subtype.ext
      apply UInt32.toNat_inj.mp
      rw [UInt32.toNat_ofNatLT, UInt32.toNat_mod]
      exact Nat.div_add_mod' _ _
    right_inv := by
      intro q
      apply Fin.ext
      change (q * bound.toNat + rest.toNat) / bound.toNat = q
      have hrest : rest.toNat < bound.toNat := hrest
      rw [Nat.mul_comm, Nat.mul_add_div (by omega), Nat.div_eq_of_lt hrest, Nat.add_zero] }

end Spread

/-- Whatever the state, a draw below a bound ends within `2 ^ 32` numbers, in one way only and with
a number below the bound, and the accepted numbers leave each remainder equally often. -/
theorem below_uniform (r : Random) (hbound : bound ≠ 0) :
    (∃ n < 2 ^ 32, ∀ m value s, Draws bound m r value s ↔
      m = n ∧ value = (r.below bound).1 ∧ s = (r.below bound).2) ∧
    (r.below bound).1 < bound ∧
    ∀ rest < bound, Nat.card {c : UInt32 // c.toNat < accepted bound ∧ c % bound = rest} =
      2 ^ 32 / bound.toNat := by
  obtain ⟨n, hn, hdraws⟩ := draws_below r hbound
  refine ⟨⟨n, hn, fun m value s => ⟨fun h => h.unique hdraws, ?_⟩⟩, hdraws.value_lt hbound, ?_⟩
  · rintro ⟨rfl, rfl, rfl⟩
    exact hdraws
  · intro rest hrest
    rw [Nat.card_congr (multiples hrest), Nat.card_fin]

theorem below_uniform_half :
    (0x80000001 : UInt32) ≠ 0 ∧ accepted 0x80000001 ≤ (next ⟨1⟩).1.toNat ∧
    (∃ n < 2 ^ 32, ∀ m value s, Draws 0x80000001 m ⟨1⟩ value s ↔
      m = n ∧ value = (below ⟨1⟩ 0x80000001).1 ∧ s = (below ⟨1⟩ 0x80000001).2) ∧
    (below ⟨1⟩ 0x80000001).1 < 0x80000001 ∧
    ∀ rest < 0x80000001, Nat.card {c : UInt32 //
      c.toNat < accepted 0x80000001 ∧ c % 0x80000001 = rest} = 2 ^ 32 / 0x80000001 :=
  ⟨by decide, by decide +kernel, below_uniform ⟨1⟩ (by decide)⟩

end Stagecraft.Random
