import Mathlib
import Stagecraft.Module.Builder
import Stagecraft.Proofs.Basic

namespace Stagecraft

section Distinct

variable [DecidableEq α]

lemma eraseDups_concat (l : List α) (a : α) :
    (l ++ [a]).eraseDups = if a ∈ l then l.eraseDups else l.eraseDups ++ [a] := by
  rw [List.eraseDups_append]
  by_cases ha : a ∈ l <;> simp [List.removeAll, List.eraseDups_cons, ha]

lemma nodup_eraseDups (l : List α) : l.eraseDups.Nodup := by
  induction l using List.reverseRecOn with
  | nil => exact List.nodup_nil
  | append_singleton l a ih =>
    rw [eraseDups_concat]
    split
    · exact ih
    · next ha =>
      rw [← List.concat_eq_append]
      exact ih.concat (List.mem_eraseDups.not.mpr ha)

lemma length_eraseDups (l : List α) : l.eraseDups.length = l.toFinset.card := by
  rw [← List.toFinset_card_of_nodup (nodup_eraseDups l)]
  congr 1
  ext a
  simp

lemma take_eraseDups_of_mem_or {l : List α} {a : α} {n : ℕ} (h : a ∈ l ∨ n ≤ l.eraseDups.length) :
    (l ++ [a]).eraseDups.take n = l.eraseDups.take n := by
  rw [eraseDups_concat]
  split
  · rfl
  · next ha => exact List.take_append_of_le_length (h.resolve_left ha)

lemma take_eraseDups_of_notMem {l : List α} {a : α} {n : ℕ} (ha : a ∉ l)
    (hn : l.eraseDups.length < n) :
    (l ++ [a]).eraseDups.take n = l.eraseDups.take n ++ [a] := by
  rw [eraseDups_concat, if_neg ha, List.take_of_length_le hn.le,
    List.take_of_length_le (by simpa using hn)]

lemma eraseDups_of_nodup {l : List α} (h : l.Nodup) : l.eraseDups = l := by
  induction l using List.reverseRecOn with
  | nil => rfl
  | append_singleton l a ih =>
    obtain ⟨hl, -, hne⟩ := List.nodup_append.mp h
    rw [eraseDups_concat, if_neg fun ha => hne a ha a (List.mem_singleton_self a) rfl, ih hl]

end Distinct

namespace TextHeap

variable {heap heap' : TextHeap} {given : List String} {s : String} {token : UInt16}

/-- The heap holds each of the given texts once, in the order in which they came, and the index
knows their numbers. -/
structure Holds (heap : TextHeap) (given : List String) : Prop where
  texts : heap.texts.toList = given.eraseDups
  index : ∀ (s : String) (token : UInt16),
    heap.index[s]? = some token ↔ heap.texts[token.toNat]? = some s
  size : heap.texts.size ≤ 65536

lemma holds_empty : ({} : TextHeap).Holds [] :=
  ⟨rfl, fun s token => by simp, by simp⟩

lemma Holds.mem_texts (h : heap.Holds given) : s ∈ heap.texts ↔ s ∈ given := by
  rw [← Array.mem_toList_iff, h.texts, List.mem_eraseDups]

lemma Holds.intern_mem (h : heap.Holds given) (hs : s ∈ given) :
    ∃ token, heap.intern s = (.ok token, heap) ∧ heap.texts[token.toNat]? = some s := by
  obtain ⟨i, hi, heq⟩ := Array.getElem_of_mem (h.mem_texts.mpr hs)
  have hnat : (UInt16.ofNat i).toNat = i :=
    UInt16.toNat_ofNat_of_lt' (Nat.lt_of_lt_of_le hi h.size)
  have htext : heap.texts[(UInt16.ofNat i).toNat]? = some s := by
    rw [hnat, Array.getElem?_eq_getElem hi, heq]
  exact ⟨UInt16.ofNat i, by simp [intern, (h.index s _).mpr htext], htext⟩

lemma Holds.index_eq_none (h : heap.Holds given) (hs : s ∉ given) : heap.index[s]? = none := by
  by_contra hsome
  obtain ⟨token, htoken⟩ := Option.ne_none_iff_exists'.mp hsome
  exact hs (h.mem_texts.mp (Array.mem_of_getElem? ((h.index s token).mp htoken)))

lemma Holds.intern_new (h : heap.Holds given) (hs : s ∉ given) (hsize : heap.texts.size < 65536) :
    ∃ heap', heap.intern s = (.ok (UInt16.ofNat heap.texts.size), heap') ∧
      heap'.Holds (given ++ [s]) := by
  refine ⟨{ texts := heap.texts.push s,
            index := heap.index.insert s (UInt16.ofNat heap.texts.size) },
    by simp [intern, h.index_eq_none hs, hsize], ?_, fun r token => ?_, by simpa using hsize⟩
  · rw [Array.toList_push, h.texts, eraseDups_concat, if_neg hs]
  · have hnat : (UInt16.ofNat heap.texts.size).toNat = heap.texts.size :=
      UInt16.toNat_ofNat_of_lt' hsize
    have hplace : UInt16.ofNat heap.texts.size = token ↔ token.toNat = heap.texts.size := by
      rw [eq_comm, ← UInt16.toNat_inj, hnat]
    change (heap.index.insert s (UInt16.ofNat heap.texts.size))[r]? = some token ↔
      (heap.texts.push s)[token.toNat]? = some r
    rw [Std.HashMap.getElem?_insert, Array.getElem?_push]
    by_cases hr : s = r
    · subst hr
      rw [if_pos (beq_self_eq_true s), Option.some.injEq, hplace]
      split
      · next htoken => exact iff_of_true htoken rfl
      · next htoken =>
        refine iff_of_false htoken fun hmem => ?_
        exact hs (h.mem_texts.mp (Array.mem_of_getElem? hmem))
    · rw [if_neg (by simpa using hr), h.index]
      split
      · next htoken => simp [htoken, hr]
      · exact Iff.rfl

lemma Holds.intern_full (h : heap.Holds given) (hs : s ∉ given) (hsize : ¬heap.texts.size < 65536) :
    heap.intern s = (.error .textsFull, heap) := by
  simp [intern, h.index_eq_none hs, hsize]

lemma Holds.intern (h : heap.Holds given) (hi : heap.intern s = (.ok token, heap')) :
    heap'.Holds (given ++ [s]) := by
  by_cases hs : s ∈ given
  · obtain ⟨known, hknown, -⟩ := h.intern_mem hs
    rw [hknown] at hi
    cases hi
    exact ⟨by rw [h.texts, eraseDups_concat, if_pos hs], h.index, h.size⟩
  · by_cases hsize : heap.texts.size < 65536
    · obtain ⟨heap'', hnew, hholds⟩ := h.intern_new hs hsize
      rw [hnew] at hi
      cases hi
      exact hholds
    · rw [h.intern_full hs hsize] at hi
      cases hi

end TextHeap

namespace Builder

inductive Call where
  | intern (s : String)
  | addImport (name : String)
  | push (d : Definition)

namespace Call

def perform : Call → Build UInt16
  | intern s => Builder.intern s
  | addImport name => Builder.addImport name
  | push d => Builder.push d

def text? : Call → Option String
  | intern s => some s
  | _ => none

def import? : Call → Option String
  | addImport name => some name
  | _ => none

def routine? : Call → Option Definition
  | push d => some d
  | _ => none

end Call

def performAll : List Call → Build Unit
  | [] => pure ()
  | c :: rest => do
    let _ ← c.perform
    performAll rest

structure Gathers (calls : List Call) (b : Builder) : Prop where
  heap : b.heap.Holds (calls.filterMap Call.text?)
  imports : b.imports.toList = (calls.filterMap Call.import?).eraseDups
  importCount : b.imports.size ≤ 65536
  routines : b.routines.toList = calls.filterMap Call.routine?

variable {calls : List Call} {b b' : Builder} {c : Call} {i : UInt16}

lemma gathers_empty : Gathers [] {} :=
  ⟨TextHeap.holds_empty, rfl, by simp, rfl⟩

lemma Gathers.card_texts (h : Gathers calls b) :
    b.heap.texts.size = (calls.filterMap Call.text?).toFinset.card := by
  rw [← Array.length_toList, h.heap.texts, length_eraseDups]

lemma Gathers.card_imports (h : Gathers calls b) :
    b.imports.size = (calls.filterMap Call.import?).toFinset.card := by
  rw [← Array.length_toList, h.imports, length_eraseDups]

lemma Gathers.addImport {name : String} (h : Gathers calls b)
    (hc : Builder.addImport name b = (.ok i, b')) : Gathers (calls ++ [.addImport name]) b' := by
  obtain ⟨routines, imports, heap⟩ := b
  obtain ⟨hheap, himports, hcount, hroutines⟩ := h
  simp only at hheap himports hcount hroutines
  have hmem : (imports.findIdx? (· == name)).isSome = true ↔
      name ∈ calls.filterMap Call.import? := by
    rw [← List.mem_eraseDups, ← himports, Array.findIdx?_isSome, Array.mem_toList_iff]
    simp [Array.mem_iff_getElem]
  simp only [Builder.addImport] at hc
  have hgiven : (calls ++ [Call.addImport name]).filterMap Call.import? =
      calls.filterMap Call.import? ++ [name] := by
    simp [Call.import?]
  cases hfind : imports.findIdx? (· == name) with
  | some k =>
    simp only [hfind] at hc
    cases hc
    refine ⟨by simpa [List.filterMap_cons, Call.text?] using hheap, ?_, hcount,
      by simpa [List.filterMap_cons, Call.routine?] using hroutines⟩
    rw [hgiven, eraseDups_concat, if_pos (hmem.mp (by simp [hfind]))]
    exact himports
  | none =>
    simp only [hfind] at hc
    split at hc
    · next hsize =>
      cases hc
      refine ⟨by simpa [List.filterMap_cons, Call.text?] using hheap, ?_, by simpa using hsize,
        by simpa [List.filterMap_cons, Call.routine?] using hroutines⟩
      rw [hgiven, eraseDups_concat, if_neg (by rw [← hmem, hfind]; simp), Array.toList_push,
        himports]
    · cases hc

lemma Gathers.push {d : Definition} (h : Gathers calls b) (hc : Builder.push d b = (.ok i, b')) :
    Gathers (calls ++ [.push d]) b' := by
  simp only [Builder.push] at hc
  split at hc
  · cases hc
    exact ⟨by simpa [List.filterMap_cons, Call.text?] using h.heap,
      by simpa [List.filterMap_cons, Call.import?] using h.imports,
      h.importCount, by simp [Call.routine?, h.routines]⟩
  · cases hc

lemma Gathers.intern {s : String} (h : Gathers calls b)
    (hc : Builder.intern s b = (.ok i, b')) : Gathers (calls ++ [.intern s]) b' := by
  simp only [Builder.intern] at hc
  cases hs : b.heap.intern s with
  | mk token heap =>
    rw [hs] at hc
    cases hc
    exact ⟨by simpa [List.filterMap_cons, Call.text?] using h.heap.intern hs,
      by simpa [List.filterMap_cons, Call.import?] using h.imports,
      h.importCount, by simpa [List.filterMap_cons, Call.routine?] using h.routines⟩

lemma Gathers.perform (h : Gathers calls b) (hc : c.perform b = (.ok i, b')) :
    Gathers (calls ++ [c]) b' := by
  cases c with
  | intern s => exact h.intern hc
  | addImport name => exact h.addImport hc
  | push d => exact h.push hc

lemma Gathers.performAll {more : List Call} (h : Gathers calls b)
    (hc : performAll more b = (.ok (), b')) : Gathers (calls ++ more) b' := by
  induction more generalizing calls b with
  | nil =>
    cases hc
    simpa using h
  | cons c rest ih =>
    rw [Builder.performAll, StateExcept.bind_apply] at hc
    cases hone : c.perform b with
    | mk r mid =>
      rw [hone] at hc
      cases r with
      | error e => cases hc
      | ok i =>
        rw [List.append_cons]
        exact ih (h.perform hone) hc

lemma card_filterMap_le [DecidableEq β] (f : Call → Option β) (calls : List Call) :
    (calls.filterMap f).toFinset.card ≤ calls.length :=
  (List.toFinset_card_le _).trans (List.length_filterMap_le f calls)

lemma Gathers.exists_perform (h : Gathers calls b) (hlength : calls.length < 65536) (c : Call) :
    ∃ i b', c.perform b = (.ok i, b') := by
  cases c with
  | intern s =>
    have hsize : b.heap.texts.size < 65536 := by
      rw [h.card_texts]
      exact (card_filterMap_le _ _).trans_lt hlength
    by_cases hs : s ∈ calls.filterMap Call.text?
    · obtain ⟨token, htoken, -⟩ := h.heap.intern_mem hs
      exact ⟨token, b, by simp only [Call.perform, Builder.intern, htoken]⟩
    · obtain ⟨heap, hheap, -⟩ := h.heap.intern_new hs hsize
      simp only [Call.perform, Builder.intern, hheap]
      exact ⟨_, _, rfl⟩
  | addImport name =>
    have hsize : b.imports.size < 65536 := by
      rw [h.card_imports]
      exact (card_filterMap_le _ _).trans_lt hlength
    simp only [Call.perform, Builder.addImport, if_pos hsize]
    split
    · exact ⟨_, _, rfl⟩
    · exact ⟨_, _, rfl⟩
  | push d =>
    have hsize : b.routines.size < 65536 := by
      rw [← Array.length_toList, h.routines]
      exact (List.length_filterMap_le _ _).trans_lt hlength
    simp only [Call.perform, Builder.push, if_pos hsize]
    exact ⟨_, _, rfl⟩

lemma Gathers.exists_performAll (h : Gathers calls b) (more : List Call)
    (hlength : (calls ++ more).length ≤ 65536) :
    ∃ b', Builder.performAll more b = (.ok (), b') := by
  induction more generalizing calls b with
  | nil => exact ⟨b, rfl⟩
  | cons c rest ih =>
    rw [List.append_cons] at hlength
    obtain ⟨i, mid, hone⟩ := h.exists_perform (by simp at hlength; omega) c
    obtain ⟨b', hrest⟩ := ih (h.perform hone) hlength
    exact ⟨b', by rw [Builder.performAll, StateExcept.bind_apply, hone]; exact hrest⟩

end Builder

end Stagecraft
