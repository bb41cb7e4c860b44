import Mathlib
import Stagecraft.Text.Class

namespace Stagecraft.Text

def blanks : List Nat :=
  [9, 10, 11, 12, 13, 0x20, 0x85, 0xa0, 0x1680, 0x2000, 0x2001, 0x2002, 0x2003, 0x2004, 0x2005,
    0x2006, 0x2007, 0x2008, 0x2009, 0x200a, 0x2028, 0x2029, 0x202f, 0x205f, 0x3000]

lemma mem_blanks {c : Char} (h : isBlank c = true) : c.toNat ∈ blanks := by
  simp only [isBlank, Bool.or_eq_true, Bool.and_eq_true, decide_eq_true_eq, beq_iff_eq] at h
  simp only [blanks, List.mem_cons, List.not_mem_nil, or_false]
  omega

lemma isBlank_of {p : Char → Bool} {c : Char} (h : p c = true)
    (hp : ∀ n ∈ blanks, p (Char.ofNat n) = false) : isBlank c = false := by
  by_contra hc
  have hnot := hp _ (mem_blanks (Bool.not_eq_false _ ▸ hc))
  rw [Char.ofNat_toNat, h] at hnot
  cases hnot

lemma isBlank_of_isLetter {c : Char} (h : isLetter c = true) : isBlank c = false :=
  isBlank_of h (by decide +kernel)

lemma isBlank_of_isAlphabetic {c : Char} (h : isAlphabetic c = true) : isBlank c = false :=
  isBlank_of h (by decide +kernel)

section Apart

variable {cs rest : List Char} {p : Char → Bool}

lemma takeWhile_apart (hcs : ∀ c ∈ cs, p c = true) (hrest : ∀ c ∈ rest.head?, p c = false) :
    (cs ++ rest).takeWhile p = cs := by
  rw [List.takeWhile_append_of_pos hcs]
  cases rest with
  | nil => simp
  | cons c rest => simp [hrest c rfl]

lemma dropWhile_apart (hcs : ∀ c ∈ cs, p c = true) (hrest : ∀ c ∈ rest.head?, p c = false) :
    (cs ++ rest).dropWhile p = rest := by
  rw [List.dropWhile_append_of_pos hcs]
  cases rest with
  | nil => rfl
  | cons c rest => simp [hrest c rfl]

lemma split_first (p : Char → Bool) (cs : List Char) : (∀ c ∈ cs, p c = true) ∨
    ∃ a d b, cs = a ++ d :: b ∧ (∀ c ∈ a, p c = true) ∧ p d = false := by
  induction cs with
  | nil => exact .inl (by simp)
  | cons c cs ih =>
    cases hc : p c with
    | false => exact .inr ⟨[], c, cs, rfl, by simp, hc⟩
    | true =>
      obtain hall | ⟨a, d, b, rfl, ha, hd⟩ := ih
      · exact .inl (by simpa [hc] using hall)
      · exact .inr ⟨c :: a, d, b, rfl, by simpa [hc] using ha, hd⟩

lemma takeWhile_first {a b : List Char} {d : Char} (ha : ∀ c ∈ a, p c = true)
    (hd : p d = false) : (a ++ d :: b).takeWhile p = a :=
  takeWhile_apart ha (by simpa using hd)

lemma dropWhile_first {a b : List Char} {d : Char} (ha : ∀ c ∈ a, p c = true)
    (hd : p d = false) : (a ++ d :: b).dropWhile p = d :: b :=
  dropWhile_apart ha (by simpa using hd)

end Apart

section Split

variable {sep c : Char} {cs line piece : List Char} {pieces : List (List Char)}

lemma split_sep : split sep (sep :: cs) = [] :: split sep cs := by
  simp [split]

lemma split_ne_nil (sep : Char) (cs : List Char) : split sep cs ≠ [] := by
  unfold split
  cases cs with
  | nil => simp
  | cons c cs =>
    rw [List.foldr_cons]
    split
    · simp
    · split <;> simp

lemma exists_split (sep : Char) (cs : List Char) : ∃ piece pieces, split sep cs = piece :: pieces :=
  List.exists_cons_of_ne_nil (split_ne_nil sep cs)

lemma split_cons (hc : c ≠ sep) (h : split sep cs = piece :: pieces) :
    split sep (c :: cs) = (c :: piece) :: pieces := by
  unfold split at h ⊢
  rw [List.foldr_cons, h]
  simp [hc]

lemma split_append (hline : sep ∉ line) (h : split sep cs = piece :: pieces) :
    split sep (line ++ cs) = (line ++ piece) :: pieces := by
  induction line with
  | nil => exact h
  | cons c line ih =>
    obtain ⟨hc, hline⟩ := not_or.mp (List.mem_cons.not.mp hline)
    exact split_cons (Ne.symm hc) (ih hline)

lemma split_apart (h : sep ∉ line) : split sep line = [line] := by
  have hnil : split sep [] = [[]] := rfl
  simpa using split_append h hnil

lemma split_append_sep (sep : Char) (a b : List Char) :
    split sep (a ++ sep :: b) = split sep a ++ split sep b := by
  induction a with
  | nil => exact split_sep
  | cons c a ih =>
    by_cases hc : c = sep
    · subst hc
      rw [List.cons_append, split_sep, split_sep, ih, List.cons_append]
    · obtain ⟨first, others, hsplit⟩ := exists_split sep a
      rw [hsplit, List.cons_append] at ih
      rw [List.cons_append, split_cons hc ih, split_cons hc hsplit, List.cons_append]

lemma of_mem_split (h : piece ∈ split sep cs) : sep ∉ piece ∧ ∀ c ∈ piece, c ∈ cs := by
  induction cs generalizing piece with
  | nil =>
    obtain rfl := List.mem_singleton.mp h
    simp
  | cons d cs ih =>
    have hbehind {piece : List Char} (h : piece ∈ split sep cs) :
        sep ∉ piece ∧ ∀ c ∈ piece, c ∈ d :: cs :=
      (ih h).imp_right fun hmem c hc => List.mem_cons_of_mem _ (hmem c hc)
    by_cases hd : d = sep
    · rw [hd, split_sep, List.mem_cons] at h
      rcases h with rfl | h
      · simp
      · exact hbehind h
    · obtain ⟨first, others, hsplit⟩ := exists_split sep cs
      rw [split_cons hd hsplit, List.mem_cons] at h
      rcases h with rfl | h
      · obtain ⟨hsep, hmem⟩ := hbehind (hsplit ▸ List.mem_cons_self)
        exact ⟨by simpa [Ne.symm hd] using hsep, List.forall_mem_cons.mpr ⟨List.mem_cons_self, hmem⟩⟩
      · exact hbehind (hsplit ▸ List.mem_cons_of_mem _ h)

end Split

lemma join_split (sep : Char) (cs : List Char) :
    join (String.ofList [sep]) ((split sep cs).map String.ofList) = String.ofList cs := by
  have hlists : [sep].intercalate (split sep cs) = cs := by
    induction cs with
    | nil => rfl
    | cons c cs ih =>
      obtain ⟨first, others, hsplit⟩ := exists_split sep cs
      rw [hsplit] at ih
      by_cases hc : c = sep
      · rw [hc, split_sep, hsplit, List.intercalate_cons_cons, ih]
        rfl
      · rw [split_cons hc hsplit, ← ih]
        cases others with
        | nil => rfl
        | cons other others => rw [List.intercalate_cons_cons, List.intercalate_cons_cons]; rfl
  apply String.ext
  simpa [join, String.toList_intercalate, Function.comp_def] using hlists

lemma mem_join {sep : String} {parts : List String} {c : Char} (h : c ∈ (join sep parts).toList) :
    c ∈ sep.toList ∨ ∃ part ∈ parts, c ∈ part.toList := by
  induction parts with
  | nil => exact absurd h List.not_mem_nil
  | cons part parts ih =>
    cases parts with
    | nil =>
      rw [join, String.intercalate_singleton] at h
      exact .inr ⟨part, List.mem_cons_self, h⟩
    | cons other parts =>
      rw [join, String.intercalate_cons_cons, String.toList_append, String.toList_append,
        List.mem_append, List.mem_append] at h
      rcases h with (h | h) | h
      · exact .inr ⟨part, List.mem_cons_self, h⟩
      · exact .inl h
      · exact (ih h).imp_right fun ⟨name, hname, hc⟩ => ⟨name, List.mem_cons_of_mem _ hname, hc⟩

def IsTrimmed (cs : List Char) : Prop :=
  (∀ c ∈ cs.head?, isBlank c = false) ∧ ∀ c ∈ cs.getLast?, isBlank c = false

section Trim

variable {cs : List Char}

lemma trimStart_of_head (h : ∀ c ∈ cs.head?, isBlank c = false) : trimStart cs = cs := by
  cases cs with
  | nil => rfl
  | cons c cs => simp [trimStart, h c rfl]

lemma trimEnd_of_getLast (h : ∀ c ∈ cs.getLast?, isBlank c = false) : trimEnd cs = cs := by
  rw [trimEnd, show cs.reverse.dropWhile isBlank = cs.reverse from
    trimStart_of_head (by simpa using h), List.reverse_reverse]

lemma trim_of_isTrimmed (h : IsTrimmed cs) : trimEnd (trimStart cs) = cs := by
  rw [trimStart_of_head h.1, trimEnd_of_getLast h.2]

lemma head_trimStart (cs : List Char) : ∀ c ∈ (trimStart cs).head?, isBlank c = false := by
  intro c hc
  have := List.head?_dropWhile_not isBlank cs
  unfold trimStart at hc
  rw [Option.mem_def.mp hc] at this
  simpa using this

lemma getLast_trimEnd : ∀ c ∈ (trimEnd cs).getLast?, isBlank c = false := by
  intro c hc
  rw [trimEnd, List.getLast?_reverse] at hc
  exact head_trimStart cs.reverse c hc

lemma exists_trimStart (cs : List Char) :
    ∃ front, cs = front ++ trimStart cs ∧ ∀ c ∈ front, isBlank c = true :=
  ⟨cs.takeWhile isBlank, List.takeWhile_append_dropWhile.symm, fun _ => List.mem_takeWhile_imp⟩

lemma exists_trimEnd (cs : List Char) :
    ∃ back, cs = trimEnd cs ++ back ∧ ∀ c ∈ back, isBlank c = true := by
  obtain ⟨front, hfront, hblank⟩ := exists_trimStart cs.reverse
  refine ⟨front.reverse, ?_, fun c hc => hblank c (List.mem_reverse.mp hc)⟩
  rw [trimEnd, ← List.reverse_append, ← trimStart, ← hfront, List.reverse_reverse]

lemma head_trimEnd {c : Char} (h : c ∈ (trimEnd cs).head?) : c ∈ cs.head? := by
  obtain ⟨back, hback, -⟩ := exists_trimEnd cs
  obtain ⟨tail, hc⟩ := List.head?_eq_some_iff.mp (Option.mem_def.mp h)
  rw [hback, hc]
  rfl

lemma isTrimmed_trim : IsTrimmed (trimEnd (trimStart cs)) :=
  ⟨fun c hc => head_trimStart cs c (head_trimEnd hc), getLast_trimEnd⟩

lemma mem_of_mem_trim {c : Char} (h : c ∈ trimEnd (trimStart cs)) : c ∈ cs := by
  rw [trimEnd, List.mem_reverse] at h
  have hstart := (List.dropWhile_sublist _).mem h
  rw [List.mem_reverse] at hstart
  exact (List.dropWhile_sublist _).mem hstart

end Trim

end Stagecraft.Text
