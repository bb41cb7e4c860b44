import Stagecraft.Proofs.Module.Interned

/-!
The numbers of texts are for good: a number that a heap told belongs to its text from then on.
-/

namespace Stagecraft.TextHeap

abbrev Reply := String × Except ModuleError UInt16

/-- Gives texts to a heap one after another. A text that is refused does not stop those after it. -/
def internAll (heap : TextHeap) : List String → List Reply × TextHeap
  | [] => ([], heap)
  | s :: rest =>
    ((s, (heap.intern s).1) :: ((heap.intern s).2.internAll rest).1,
      ((heap.intern s).2.internAll rest).2)

def taken (replies : List Reply) : List String :=
  (replies.filter (·.2.isOk)).map (·.1)

/-- The number of a text among the different ones that a heap is given, if it fits sixteen bits. -/
def numberIn (different : List String) (s : String) : Except ModuleError UInt16 :=
  if different.idxOf s < 65536 then .ok (UInt16.ofNat (different.idxOf s)) else .error .textsFull

variable {heap heap' : TextHeap} {given more : List String} {replies : List Reply} {s s' : String}
  {token token' : UInt16} {answer : Except ModuleError UInt16} {e : ModuleError}

lemma mem_taken : s ∈ taken replies ↔ ∃ token, (s, .ok token) ∈ replies := by
  simp only [taken, List.mem_map, List.mem_filter, Prod.exists]
  constructor
  · rintro ⟨_, answer, ⟨hmem, hok⟩, rfl⟩
    cases answer with
    | ok token => exact ⟨token, hmem⟩
    | error e => cases hok
  · rintro ⟨token, hmem⟩
    exact ⟨s, .ok token, ⟨hmem, rfl⟩, rfl⟩

lemma taken_concat_ok : taken (replies ++ [(s, .ok token)]) = taken replies ++ [s] := by
  simp [taken, Except.isOk, Except.toBool]

lemma taken_concat_error : taken (replies ++ [(s, .error e)]) = taken replies := by
  simp [taken, Except.isOk, Except.toBool]

lemma map_fst_internAll (heap : TextHeap) (given : List String) :
    (heap.internAll given).1.map (·.1) = given := by
  induction given generalizing heap with
  | nil => rfl
  | cons s rest ih => exact congrArg (s :: ·) (ih (heap.intern s).2)

section Step

lemma index_of_intern (hi : heap.intern s = (.ok token, heap')) : heap'.index[s]? = some token := by
  obtain ⟨texts, index⟩ := heap
  simp only [TextHeap.intern] at hi
  split at hi
  · next known hknown =>
    cases hi
    exact hknown
  · split at hi
    · cases hi
      exact Std.HashMap.getElem?_insert_self
    · cases hi

lemma Holds.intern_eq_error_iff (h : heap.Holds given) :
    heap.intern s = (.error e, heap') ↔
      e = .textsFull ∧ heap' = heap ∧ s ∉ heap.texts ∧ heap.texts.size = 65536 := by
  rw [h.mem_texts]
  by_cases hs : s ∈ given
  · obtain ⟨token, hknown, -⟩ := h.intern_mem hs
    simp [hknown, hs]
  · by_cases hsize : heap.texts.size < 65536
    · obtain ⟨heap'', hnew, -⟩ := h.intern_new hs hsize
      simp [hnew, hsize.ne]
    · have hfull : heap.texts.size = 65536 := Nat.le_antisymm h.size (Nat.not_lt.mp hsize)
      simp [h.intern_full hs hsize, hs, hfull, eq_comm]

lemma Holds.begins (h : heap.Holds given) (h' : heap'.Holds (given ++ more)) :
    heap.texts.toList <+: heap'.texts.toList := by
  rw [h.texts, h'.texts, List.eraseDups_append]
  exact List.prefix_append _ _

lemma Holds.text_mono (h : heap.Holds given) (h' : heap'.Holds (given ++ more)) {i : ℕ}
    (hi : heap.texts[i]? = some s) : heap'.texts[i]? = some s := by
  rw [← Array.getElem?_toList] at hi ⊢
  obtain ⟨hlt, rfl⟩ := List.getElem?_eq_some_iff.mp hi
  exact List.prefix_iff_getElem?.mp (h.begins h') i hlt

lemma Holds.texts_of_full (h : heap.Holds given) (h' : heap'.Holds (given ++ more))
    (hfull : heap.texts.size = 65536) : heap'.texts = heap.texts := by
  have hsize : heap'.texts.toList.length ≤ heap.texts.toList.length := by
    simpa [hfull] using h'.size
  exact Array.toList_inj.mp ((h.begins h').eq_of_length_le hsize).symm

end Step

structure Knows (heap : TextHeap) (replies : List Reply) : Prop where
  holds : heap.Holds (taken replies)
  first : heap.texts.toList = (replies.map (·.1)).eraseDups.take 65536
  denotes : ∀ s token, (s, .ok token) ∈ replies → heap.texts[token.toNat]? = some s
  refuses : ∀ s e, (s, .error e) ∈ replies →
    e = .textsFull ∧ s ∉ heap.texts ∧ heap.texts.size = 65536

lemma knows_empty : ({} : TextHeap).Knows [] :=
  ⟨holds_empty, rfl, by simp, by simp⟩

namespace Knows

lemma size (h : heap.Knows replies) :
    heap.texts.size = min 65536 (replies.map (·.1)).eraseDups.length := by
  rw [← Array.length_toList, h.first, List.length_take]

lemma first_ok (h : heap.Knows replies) (hholds : heap'.Holds (taken replies ++ [s])) :
    heap'.texts.toList = (replies.map (·.1) ++ [s]).eraseDups.take 65536 := by
  by_cases hs : s ∈ taken replies
  · obtain ⟨known, hknown⟩ := mem_taken.mp hs
    rw [take_eraseDups_of_mem_or (.inl (List.mem_map_of_mem hknown)), ← h.first, hholds.texts,
      h.holds.texts, eraseDups_concat, if_pos hs]
  · have htexts : heap'.texts.toList = heap.texts.toList ++ [s] := by
      rw [hholds.texts, h.holds.texts, eraseDups_concat, if_neg hs]
    have hroom : (replies.map (·.1)).eraseDups.length < 65536 := by
      have hsize := hholds.size
      rw [← Array.length_toList, htexts, List.length_append, Array.length_toList, h.size,
        List.length_singleton] at hsize
      omega
    -- As long as there is room, every text that was given is held.
    have hnew : s ∉ replies.map (·.1) := by
      rwa [← List.mem_eraseDups, ← List.take_of_length_le hroom.le, ← h.first,
        Array.mem_toList_iff, h.holds.mem_texts]
    rw [take_eraseDups_of_notMem hnew hroom, ← h.first, htexts]

lemma intern_ok (h : heap.Knows replies) (hi : heap.intern s = (.ok token, heap')) :
    heap'.Knows (replies ++ [(s, .ok token)]) := by
  have hholds := h.holds.intern hi
  have htext : heap'.texts[token.toNat]? = some s := (hholds.index s token).mp (index_of_intern hi)
  refine ⟨by rwa [taken_concat_ok], ?_, fun r t hr => ?_, fun r e hr => ?_⟩
  · rw [List.map_append]
    exact h.first_ok hholds
  · rcases List.mem_append.mp hr with hr | hr
    · exact h.holds.text_mono hholds (h.denotes r t hr)
    · obtain ⟨rfl, rfl⟩ : r = s ∧ t = token := by simpa using hr
      exact htext
  · -- After a refusal the heap is full, so that what is taken from then on adds nothing.
    obtain ⟨he, hnew, hfull⟩ := h.refuses r e (by simpa using hr)
    rw [h.holds.texts_of_full hholds hfull]
    exact ⟨he, hnew, hfull⟩

lemma intern_error (h : heap.Knows replies) (hi : heap.intern s = (.error e, heap')) :
    heap'.Knows (replies ++ [(s, .error e)]) := by
  obtain ⟨rfl, rfl, hs, hfull⟩ := h.holds.intern_eq_error_iff.mp hi
  refine ⟨by rw [taken_concat_error]; exact h.holds, ?_, fun r token hr => ?_, fun r e hr => ?_⟩
  · rw [List.map_append, List.map_singleton,
      take_eraseDups_of_mem_or (.inr (by have := h.size; omega)), h.first]
  · exact h.denotes r token (by simpa using hr)
  · rcases List.mem_append.mp hr with hr | hr
    · exact h.refuses r e hr
    · obtain ⟨rfl, rfl⟩ : r = s ∧ e = .textsFull := by simpa using hr
      exact ⟨rfl, hs, hfull⟩

lemma intern (h : heap.Knows replies) (s : String) :
    (heap.intern s).2.Knows (replies ++ [(s, (heap.intern s).1)]) := by
  rcases hi : heap.intern s with ⟨answer, heap'⟩
  cases answer with
  | ok token => exact h.intern_ok hi
  | error e => exact h.intern_error hi

lemma internAll (h : heap.Knows replies) (given : List String) :
    (heap.internAll given).2.Knows (replies ++ (heap.internAll given).1) := by
  induction given generalizing heap replies with
  | nil => simpa [TextHeap.internAll] using h
  | cons s rest ih => simpa [TextHeap.internAll] using ih (h.intern s)

lemma index (h : heap.Knows replies) (hs : (s, .ok token) ∈ replies) :
    heap.index[s]? = some token :=
  (h.holds.index s token).mpr (h.denotes s token hs)

lemma eq_iff (h : heap.Knows replies) (hs : (s, .ok token) ∈ replies)
    (hs' : (s', .ok token') ∈ replies) : s = s' ↔ token = token' := by
  constructor
  · rintro rfl
    exact Option.some.inj ((h.index hs).symm.trans (h.index hs'))
  · rintro rfl
    exact Option.some.inj ((h.denotes s token hs).symm.trans (h.denotes s' token hs'))

lemma intern_again (h : heap.Knows replies) (hs : (s, .ok token) ∈ replies) :
    heap.intern s = (.ok token, heap) := by
  simp [TextHeap.intern, h.index hs]

lemma answer_eq (h : heap.Knows replies) (hs : (s, answer) ∈ replies) :
    answer = numberIn (replies.map (·.1)).eraseDups s := by
  have hmem : s ∈ (replies.map (·.1)).eraseDups := List.mem_eraseDups.mpr (List.mem_map_of_mem hs)
  rw [numberIn]
  cases answer with
  | ok token =>
    have htoken : token.toNat < 65536 := token.toNat_lt
    have htext := h.denotes s token hs
    rw [← Array.getElem?_toList, h.first, List.getElem?_take_of_lt htoken] at htext
    obtain ⟨hlt, rfl⟩ := List.getElem?_eq_some_iff.mp htext
    rw [(nodup_eraseDups _).idxOf_getElem, if_pos htoken, UInt16.ofNat_toNat]
  | error e =>
    obtain ⟨rfl, hnew, -⟩ := h.refuses s e hs
    rw [← Array.mem_toList_iff, h.first, List.mem_take_iff_idxOf_lt hmem] at hnew
    rw [if_neg hnew]

end Knows

lemma knows_internAll (given : List String) :
    (({} : TextHeap).internAll given).2.Knows (({} : TextHeap).internAll given).1 :=
  knows_empty.internAll given

lemma internAll_empty (given : List String) :
    (({} : TextHeap).internAll given).1 = given.map (fun s => (s, numberIn given.eraseDups s)) ∧
      (({} : TextHeap).internAll given).2.texts.toList = given.eraseDups.take 65536 := by
  have hknows := knows_internAll given
  have hgiven := map_fst_internAll {} given
  generalize ({} : TextHeap).internAll given = r at hknows hgiven ⊢
  obtain ⟨replies, heap⟩ := r
  subst hgiven
  have hreply : ∀ r ∈ replies, r = (r.1, numberIn (replies.map (·.1)).eraseDups r.1) :=
    fun r hr => Prod.ext rfl (hknows.answer_eq hr)
  refine ⟨?_, hknows.first⟩
  rw [List.map_map]
  exact (List.map_id _).symm.trans (List.map_congr_left hreply)

/-- A heap that started empty holds each text that was taken once, in the order in which they first
came. A number that was told belongs to its text still, so that the same text was told the same
number and different texts different ones. From now on a text is refused exactly if it is new and
the heap is full, and the heap stays as it is; a text that it holds gets the number again that it
was told. -/
theorem tokens_stable (given : List String) :
    ∃ replies heap, ({} : TextHeap).internAll given = (replies, heap) ∧
      heap.texts.toList = (taken replies).eraseDups ∧ heap.texts.toList.Nodup ∧
      (∀ s token, (s, .ok token) ∈ replies → heap.texts[token.toNat]? = some s) ∧
      (∀ s s' token token', (s, .ok token) ∈ replies → (s', .ok token') ∈ replies →
        (s = s' ↔ token = token')) ∧
      (∀ s e heap', heap.intern s = (.error e, heap') ↔
        e = .textsFull ∧ heap' = heap ∧ s ∉ heap.texts ∧ heap.texts.size = 65536) ∧
      ∀ s ∈ heap.texts, ∃ token, (s, .ok token) ∈ replies ∧ heap.intern s = (.ok token, heap) := by
  have hknows := knows_internAll given
  refine ⟨_, _, rfl, hknows.holds.texts, ?_, hknows.denotes, fun s s' token token' => hknows.eq_iff,
    fun s e heap' => hknows.holds.intern_eq_error_iff, fun s hs => ?_⟩
  · rw [hknows.holds.texts]
    exact nodup_eraseDups _
  · obtain ⟨token, htoken⟩ := mem_taken.mp (hknows.holds.mem_texts.mp hs)
    exact ⟨token, htoken, hknows.intern_again htoken⟩

def numerals (n : ℕ) : List String :=
  (List.range n).map Nat.repr

lemma nodup_numerals (n : ℕ) : (numerals n).Nodup :=
  List.nodup_range.map fun _ _ => Nat.repr_inj.mp

lemma repr_mem_numerals {n i : ℕ} : i.repr ∈ numerals n ↔ i < n := by
  simp [numerals, Nat.repr_inj]

lemma numberIn_numerals {n i : ℕ} (hi : i < n) (hn : n ≤ 65536) :
    numberIn (numerals n) i.repr = .ok (UInt16.ofNat i) := by
  have hlength : i < (numerals n).length := by simpa [numerals] using hi
  have hrepr : (numerals n)[i] = i.repr := by simp [numerals]
  rw [numberIn, ← hrepr, (nodup_numerals n).idxOf_getElem, if_pos (hi.trans_le hn)]

theorem tokens_stable_numerals :
    ∃ replies heap, ({} : TextHeap).internAll (numerals 65536) = (replies, heap) ∧
      ("7", .ok 7) ∈ replies ∧ heap.texts[7]? = some "7" ∧
      heap.intern "65536" = (.error .textsFull, heap) ∧ heap.intern "7" = (.ok 7, heap) := by
  obtain ⟨replies, heap, hrun, -, -, hdenotes, hsame, hfails, hknown⟩ :=
    tokens_stable (numerals 65536)
  obtain ⟨hreplies, htexts⟩ : replies = _ ∧ heap.texts.toList = _ := by
    simpa only [hrun] using internAll_empty (numerals 65536)
  rw [eraseDups_of_nodup (nodup_numerals _)] at hreplies htexts
  rw [List.take_of_length_le (by simp [numerals])] at htexts
  have hreply : ("7", .ok 7) ∈ replies := by
    rw [hreplies]
    exact List.mem_map.mpr ⟨Nat.repr 7, repr_mem_numerals.mpr (by decide),
      congrArg (Prod.mk "7") (numberIn_numerals (by decide) le_rfl)⟩
  have htext := hdenotes _ _ hreply
  obtain ⟨token, htoken, hagain⟩ := hknown "7" (Array.mem_of_getElem? htext)
  obtain rfl : token = 7 := (hsame _ _ _ _ htoken hreply).mp rfl
  refine ⟨replies, heap, hrun, hreply, htext, (hfails _ _ _).mpr ⟨rfl, rfl, ?_, ?_⟩, hagain⟩
  · rw [← Array.mem_toList_iff, htexts]
    exact fun hmem : Nat.repr 65536 ∈ numerals 65536 => (repr_mem_numerals.mp hmem).ne rfl
  · rw [← Array.length_toList, htexts]
    simp [numerals]

end Stagecraft.TextHeap
