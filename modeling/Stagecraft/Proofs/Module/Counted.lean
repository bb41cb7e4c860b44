import Stagecraft.Proofs.Module.Interned
import Stagecraft.Proofs.Module.Loaded

/-!
The counts of imports and texts are cut off to sixteen bits, which a table of 65536 rows does not
survive.
-/

namespace Stagecraft.Builder

section Writes

lemma exists_appendText {s : String} (out : ByteArray) (hs : s.toByteArray.size < 65536) :
    ∃ out', appendText out s = .ok out' :=
  ⟨_, if_pos hs⟩

lemma exists_appendTexts {ss : List String} (out : ByteArray)
    (hs : ∀ s ∈ ss, s.toByteArray.size < 65536) : ∃ out', appendTexts out ss = .ok out' := by
  induction ss generalizing out with
  | nil => exact ⟨out, rfl⟩
  | cons s rest ih =>
    rw [List.forall_mem_cons] at hs
    obtain ⟨mid, hmid⟩ := exists_appendText out hs.1
    obtain ⟨out', hout⟩ := ih mid hs.2
    exact ⟨out', by rw [appendTexts, hmid]; exact hout⟩

lemma count16_of_lt (what : Counted) {n : Nat} (hn : n < 65536) :
    count16 what n = .ok (UInt16.ofNat n) :=
  if_pos hn

lemma place32_of_lt {n : Nat} (hn : n < 0x100000000) : place32 n = .ok (UInt32.ofNat n) :=
  if_pos hn

lemma exists_appendEntry {d : Definition} (out : ByteArray) (hd : Fits d) :
    ∃ out', appendEntry out d = .ok out' := by
  obtain ⟨named, hnamed⟩ := exists_appendText (out.push d.kind.toByte) hd.name
  obtain ⟨told, htold⟩ := exists_appendTexts
    (append16 named (UInt16.ofNat d.dialogues.length)) hd.dialogueNames
  obtain ⟨out', hout⟩ := exists_appendTexts
    (append16 told (UInt16.ofNat d.parameters.length)) hd.parameterNames
  refine ⟨out', ?_⟩
  rw [appendEntry, hnamed, Except.ok_bind, count16_of_lt _ hd.dialogues, Except.ok_bind, htold,
    Except.ok_bind, count16_of_lt _ hd.parameters, Except.ok_bind, hout]

lemma exists_entryTable (marks entries : ByteArray) {ds : List Definition} (hd : ∀ d ∈ ds, Fits d)
    (hsize : entries.size + (ds.flatMap entryBytes).length < 65536) :
    ∃ r, entryTable marks entries ds = .ok r := by
  induction ds generalizing marks entries with
  | nil => exact ⟨_, by rw [entryTable, count16_of_lt _ (by simpa using hsize)]; rfl⟩
  | cons d rest ih =>
    rw [List.forall_mem_cons] at hd
    rw [List.flatMap_cons, List.length_append] at hsize
    obtain ⟨next, hnext⟩ := exists_appendEntry entries hd.1
    have hlength : next.size = entries.size + (entryBytes d).length := by
      simpa using congrArg List.length (appendEntry_ok hnext).2
    obtain ⟨r, hr⟩ := ih (append16 marks (UInt16.ofNat entries.size)) next hd.2
      (by rw [hlength]; omega)
    exact ⟨r, by rw [entryTable, count16_of_lt _ (by omega), Except.ok_bind, hnext]; exact hr⟩

lemma exists_textTable (start : Nat) (marks texts : ByteArray) {ss : List String}
    (hs : ∀ s ∈ ss, s.toByteArray.size < 65536)
    (hplaces : ∀ p ∈ starts textBytes (start + texts.size) ss, p < 0x100000000) :
    ∃ r, textTable start marks texts ss = .ok r := by
  induction ss generalizing marks texts with
  | nil => exact ⟨_, rfl⟩
  | cons s rest ih =>
    rw [List.forall_mem_cons] at hs
    rw [starts, List.forall_mem_cons] at hplaces
    obtain ⟨next, hnext⟩ := exists_appendText texts hs.1
    have hlength : start + next.size = start + texts.size + (textBytes s).length := by
      rw [Nat.add_assoc]
      simpa using congrArg List.length (appendText_ok hnext).2
    obtain ⟨r, hr⟩ := ih (append32 marks (UInt32.ofNat (start + texts.size))) next hs.2
      (by rw [hlength]; exact hplaces.2)
    exact ⟨r, by rw [textTable, place32_of_lt hplaces.1, Except.ok_bind, hnext]; exact hr⟩

lemma exists_bodyTable (start : Nat) (marks bodies : ByteArray) {ds : List Definition}
    (hd : ∀ d ∈ ds, d.dialogues.length < 65536)
    (hplaces : ∀ p ∈ starts bodyBytes (start + bodies.size) ds, p < 0x100000000) :
    ∃ r, bodyTable start marks bodies ds = .ok r := by
  induction ds generalizing marks bodies with
  | nil => exact ⟨_, rfl⟩
  | cons d rest ih =>
    rw [List.forall_mem_cons] at hd
    rw [starts, List.forall_mem_cons] at hplaces
    obtain ⟨next, hnext⟩ : ∃ next, appendBody bodies d = .ok next :=
      ⟨_, by rw [appendBody, count16_of_lt _ hd.1]; rfl⟩
    have hlength : start + next.size = start + bodies.size + (bodyBytes d).length := by
      rw [Nat.add_assoc]
      simpa using congrArg List.length (appendBody_ok hnext)
    obtain ⟨r, hr⟩ := ih (append32 marks (UInt32.ofNat (start + bodies.size))) next hd.2
      (by rw [hlength]; exact hplaces.2)
    exact ⟨r, by rw [bodyTable, place32_of_lt hplaces.1, Except.ok_bind, hnext]; exact hr⟩

lemma Writable.exists_write {b : Builder} (h : b.Writable) : ∃ bytes, b.write = .ok bytes := by
  obtain ⟨⟨entryMarks, entries⟩, he⟩ := exists_entryTable .empty .empty
    h.routines (by simpa using h.entries)
  obtain ⟨imports, hi⟩ := exists_appendTexts .empty h.imports
  obtain ⟨⟨textMarks, texts⟩, ht⟩ := exists_textTable b.heapAt .empty .empty h.texts
    (by simpa using h.textPlaces)
  have hcodeAt : b.heapAt + texts.size = b.codeAt := by
    obtain ⟨-, -, htexts, -⟩ := textTable_ok ht
    rw [size_eq_length (by simpa using htexts), codeAt]
  obtain ⟨⟨bodyMarks, bodies⟩, hb⟩ := exists_bodyTable b.codeAt .empty .empty
    (fun d hd => (h.routines d hd).dialogues) (by simpa using h.bodyPlaces)
  have htextsPlace : b.textsAt < 0x100000000 := by
    have := h.places
    simp only [codeAt, heapAt] at this
    omega
  have hentriesPlace : b.entriesAt < 0x100000000 := by
    simp only [textsAt, importsAt, entryRowsAt] at htextsPlace
    omega
  rw [heapAt] at ht hcodeAt
  unfold write
  simp only [he, hi, Except.ok_bind, textsAt_eq he hi, ht, hcodeAt, hb]
  change ∃ bytes, (place32 b.entriesAt >>= fun _ => _) = _
  simp only [place32_of_lt hentriesPlace, place32_of_lt htextsPlace, place32_of_lt h.places,
    Except.ok_bind]
  exact ⟨_, rfl⟩

theorem write_iff_writable {b : Builder} : (∃ bytes, b.write = .ok bytes) ↔ b.Writable :=
  ⟨fun ⟨_, h⟩ => (write_ok h).1, Writable.exists_write⟩

end Writes

section Counts

variable {calls : List Call} {b : Builder} {bytes : ByteArray}

/-- A number of rows as sixteen bits tell it: a full table is told as an empty one. -/
def told (n : Nat) : Nat :=
  if n = 65536 then 0 else n

lemma mod_eq_told {n : Nat} (hn : n ≤ 65536) : n % 65536 = told n := by
  unfold told
  split <;> omega

lemma told_eq_self_iff {n : Nat} (hn : n ≤ 65536) : told n = n ↔ n ≤ 65535 := by
  unfold told
  split <;> omega

lemma Gathers.load (h : Gathers calls b) (name : String) (hwrite : b.write = .ok bytes) :
    ∃ m, Module.load name bytes = .ok m ∧
      m.routineCount = (calls.filterMap Call.routine?).length ∧
      m.textCount = told (calls.filterMap Call.text?).toFinset.card ∧
      m.imports.size = told (calls.filterMap Call.import?).toFinset.card := by
  obtain ⟨hwritable, hlayout⟩ := write_ok hwrite
  have hload := Module.load_tables name hwritable (parts_of_layout hlayout).toTables
  rw [← h.card_texts, ← h.card_imports, ← mod_eq_told h.heap.size, ← mod_eq_told h.importCount]
  refine ⟨_, hload, ?_, ?_, ?_⟩
  · simp [Module.routineCount, Module.readBodies, ← h.routines]
  · simp [Module.textCount, Module.ofBuilder, counted, Nat.mod_le]
  · simp [Module.ofBuilder, counted, Nat.mod_le]

/-- A module that was put together by calls, then written and loaded, tells how many routines were
pushed, how many texts were interned and how many imports were added, each text and import counted
once. All of this is right if and only if there are at most 65535 texts and 65535 imports. -/
theorem load_write_counts (name : String) (hcalls : performAll calls {} = (.ok (), b))
    (hwrite : b.write = .ok bytes) :
    ∃ m, Module.load name bytes = .ok m ∧
      m.routineCount = (calls.filterMap Call.routine?).length ∧
      m.textCount = told (calls.filterMap Call.text?).toFinset.card ∧
      m.imports.size = told (calls.filterMap Call.import?).toFinset.card ∧
      (m.textCount = (calls.filterMap Call.text?).toFinset.card ∧
          m.imports.size = (calls.filterMap Call.import?).toFinset.card ↔
        (calls.filterMap Call.text?).toFinset.card ≤ 65535 ∧
          (calls.filterMap Call.import?).toFinset.card ≤ 65535) := by
  have hgathers := gathers_empty.performAll hcalls
  rw [List.nil_append] at hgathers
  obtain ⟨m, hload, hroutines, htexts, himports⟩ := hgathers.load name hwrite
  refine ⟨m, hload, hroutines, htexts, himports, ?_⟩
  rw [htexts, himports, told_eq_self_iff (hgathers.card_texts ▸ hgathers.heap.size),
    told_eq_self_iff (hgathers.card_imports ▸ hgathers.importCount)]

def sampleCalls : List Call :=
  [.intern "a", .addImport "lib.nss", .intern "b", .intern "a",
    .push { kind := .chapter, name := "main", parameters := [], dialogues := [], code := .empty }]

theorem load_write_counts_sample : ∃ b bytes m, performAll sampleCalls {} = (.ok (), b) ∧
    b.write = .ok bytes ∧ Module.load "main.nss" bytes = .ok m ∧
      m.routineCount = 1 ∧ m.textCount = 2 ∧ m.imports.size = 1 := by
  obtain ⟨b, hcalls⟩ := gathers_empty.exists_performAll sampleCalls (by decide)
  have hgathers := gathers_empty.performAll hcalls
  obtain ⟨bytes, hwrite⟩ : ∃ bytes, b.write = .ok bytes := by
    obtain ⟨⟨routines⟩, ⟨imports⟩, ⟨texts⟩, index⟩ := b
    obtain ⟨⟨htexts, -, -⟩, himports, -, hroutines⟩ := hgathers
    obtain rfl : routines = _ := hroutines
    obtain rfl : imports = ["lib.nss"] := himports.trans (by decide)
    obtain rfl : texts = ["a", "b"] := htexts.trans (by decide)
    exact ⟨_, rfl⟩
  obtain ⟨m, hload, hroutines, htexts, himports, -⟩ :=
    load_write_counts "main.nss" hcalls hwrite
  exact ⟨b, bytes, m, hcalls, hwrite, hload, hroutines, htexts.trans (by decide),
    himports.trans (by decide)⟩

def manyTexts (n : Nat) : List Call :=
  (List.range n).map fun i => .intern ("s" ++ toString i)

lemma texts_manyTexts (n : Nat) : (manyTexts n).filterMap Call.text? =
    (List.range n).map fun i => "s" ++ toString i := by
  rw [manyTexts, List.filterMap_map]
  exact congrFun (List.filterMap_eq_map (f := fun i => "s" ++ toString i)) _

lemma card_manyTexts (n : Nat) : ((manyTexts n).filterMap Call.text?).toFinset.card = n := by
  have hinjective : Function.Injective fun i : Nat => "s" ++ toString i := by
    intro i j hij
    exact Nat.repr_inj.mp ((String.append_right_inj "s").mp hij)
  rw [texts_manyTexts, List.toFinset_card_of_nodup (List.nodup_range.map hinjective),
    List.length_map, List.length_range]

lemma utf8ByteSize_le (s : String) : s.utf8ByteSize ≤ 4 * s.length := by
  rw [← String.ofList_toList (s := s), String.utf8ByteSize_ofList, String.length_ofList]
  induction s.toList with
  | nil => rfl
  | cons c cs ih =>
    have hc := c.utf8Size_le_four
    rw [String.utf8Len_cons, List.length_cons]
    omega

lemma size_manyTexts {n : Nat} (hn : n ≤ 65536) {s : String}
    (hs : s ∈ (manyTexts n).filterMap Call.text?) : s.toByteArray.size ≤ 24 := by
  rw [texts_manyTexts] at hs
  obtain ⟨i, hi, rfl⟩ := List.mem_map.mp hs
  have hlength : (toString i).length ≤ 5 :=
    Nat.repr_length i 5 (by decide) (by have := List.mem_range.mp hi; omega)
  have hsize := utf8ByteSize_le ("s" ++ toString i)
  rw [String.length_append, show "s".length = 1 from rfl] at hsize
  exact hsize.trans (by omega)

lemma writable_of_texts {b : Builder} (hroutines : b.routines = #[]) (himports : b.imports = #[])
    (hsize : b.heap.texts.size ≤ 65536)
    (htexts : ∀ s ∈ b.heap.texts.toList, s.toByteArray.size ≤ 24) : b.Writable := by
  have hlength : (b.heap.texts.toList.flatMap textBytes).length ≤ b.heap.texts.size * 26 := by
    have hsum := List.sum_le_card_nsmul
        (b.heap.texts.toList.map fun s => (textBytes s).length) 26 <| by
      rintro _ h
      obtain ⟨s, hs, rfl⟩ := List.mem_map.mp h
      have := htexts s hs
      simp only [textBytes, List.length_append, Bytes.length_of16, Array.length_toList,
        ByteArray.size_data]
      omega
    rwa [List.length_map, smul_eq_mul, Array.length_toList, ← List.length_flatMap] at hsum
  have hplace : b.codeAt < 0x100000000 := by
    have hat : b.codeAt = 50 + 4 * b.heap.texts.size +
        (b.heap.texts.toList.flatMap textBytes).length := by
      simp only [codeAt, heapAt, textsAt, importsAt, entryRowsAt, entriesAt, headerSize,
        tableHeaderSize, hroutines, himports]
      simp
    omega
  refine ⟨by simp [hroutines], by simp [hroutines], by simp [himports], fun s hs => ?_,
    fun p hp => ?_, by simp [hroutines, starts], hplace⟩
  · exact (htexts s hs).trans_lt (by decide)
  · exact (le_of_mem_starts hp).2.trans_lt hplace

/-- A module with all the texts that it can have is written as one without texts. -/
theorem load_write_manyTexts : ∃ b bytes m, performAll (manyTexts 65536) {} = (.ok (), b) ∧
    b.write = .ok bytes ∧ Module.load "main.nss" bytes = .ok m ∧
      ((manyTexts 65536).filterMap Call.text?).toFinset.card = 65536 ∧ m.textCount = 0 := by
  obtain ⟨b, hcalls⟩ := gathers_empty.exists_performAll (manyTexts 65536)
    (by simp [manyTexts])
  have hgathers := gathers_empty.performAll hcalls
  rw [List.nil_append] at hgathers
  obtain ⟨bytes, hwrite⟩ : ∃ bytes, b.write = .ok bytes := by
    refine (writable_of_texts ?_ ?_ hgathers.heap.size fun s hs => ?_).exists_write
    · apply Array.toList_inj.mp
      rw [hgathers.routines]
      simp [manyTexts, List.filterMap_map, Function.comp_def, Call.routine?]
    · apply Array.toList_inj.mp
      rw [hgathers.imports]
      simp [manyTexts, List.filterMap_map, Function.comp_def, Call.import?]
    · rw [hgathers.heap.texts, List.mem_eraseDups] at hs
      exact size_manyTexts (Nat.le_refl _) hs
  obtain ⟨m, hload, -, htexts, -⟩ := hgathers.load "main.nss" hwrite
  refine ⟨b, bytes, m, hcalls, hwrite, hload, card_manyTexts _, ?_⟩
  rw [htexts, card_manyTexts]
  rfl

end Counts

end Stagecraft.Builder
