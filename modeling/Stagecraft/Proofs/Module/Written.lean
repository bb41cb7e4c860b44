import Stagecraft.Module.Builder
import Stagecraft.Proofs.Basic
import Stagecraft.Proofs.Bytes

namespace Stagecraft.Builder

open Bytes (of16 of32)

def textBytes (s : String) : List UInt8 :=
  of16 (UInt16.ofNat s.toByteArray.size) ++ s.toByteArray.data.toList

def textsBytes (texts : List String) : List UInt8 :=
  of16 (UInt16.ofNat texts.length) ++ texts.flatMap textBytes

def entryBytes (d : Definition) : List UInt8 :=
  d.kind.toByte :: (textBytes d.name ++ textsBytes (d.dialogues.map (·.name)) ++
    textsBytes d.parameters)

def bodyBytes (d : Definition) : List UInt8 :=
  of16 (UInt16.ofNat d.dialogues.length) ++ (d.dialogues.map (·.offset)).flatMap of16 ++
    d.code.data.toList

def headerBytes (marker : String) (rows : Nat) : List UInt8 :=
  marker.toByteArray.data.toList ++ of16 (UInt16.ofNat tableHeaderSize) ++ of16 (UInt16.ofNat rows)

def starts (f : α → List UInt8) (pos : Nat) : List α → List Nat
  | [] => []
  | a :: rest => pos :: starts f (pos + (f a).length) rest

@[simp] lemma length_starts (f : α → List UInt8) (pos : Nat) (rows : List α) :
    (starts f pos rows).length = rows.length := by
  induction rows generalizing pos with
  | nil => rfl
  | cons a rest ih => simp [starts, ih]

variable {out out' : ByteArray}

@[simp] lemma toList_append16 (out : ByteArray) (n : UInt16) :
    (append16 out n).data.toList = out.data.toList ++ of16 n := by
  simp [append16, of16]

@[simp] lemma toList_append32 (out : ByteArray) (n : UInt32) :
    (append32 out n).data.toList = out.data.toList ++ of32 n := by
  simp [append32, of32]

@[simp] lemma toList_appendTableHeader (out : ByteArray) (marker : String) (rows : Nat) :
    (appendTableHeader out marker rows).data.toList =
      out.data.toList ++ headerBytes marker rows := by
  simp [appendTableHeader, headerBytes]

lemma appendText_ok {s : String} (h : appendText out s = .ok out') :
    s.toByteArray.size < 65536 ∧ out'.data.toList = out.data.toList ++ textBytes s := by
  simp only [appendText, String.toUTF8_eq_toByteArray] at h
  split at h
  · next hs =>
    cases h
    exact ⟨hs, by simp [textBytes]⟩
  · cases h

lemma appendTexts_ok {texts : List String} (h : appendTexts out texts = .ok out') :
    (∀ s ∈ texts, s.toByteArray.size < 65536) ∧
      out'.data.toList = out.data.toList ++ texts.flatMap textBytes := by
  induction texts generalizing out with
  | nil =>
    cases h
    simp
  | cons s rest ih =>
    obtain ⟨mid, hs, hr⟩ := Except.bind_eq_ok_iff.mp h
    obtain ⟨hsize, hmid⟩ := appendText_ok hs
    obtain ⟨hsizes, hout⟩ := ih hr
    refine ⟨by simpa using ⟨hsize, hsizes⟩, ?_⟩
    simp [hout, hmid]

lemma count16_ok {what : Counted} {n : Nat} {c : UInt16} (h : count16 what n = .ok c) :
    n < 65536 ∧ c = UInt16.ofNat n := by
  unfold count16 at h
  split at h
  · next hn =>
    cases h
    exact ⟨hn, rfl⟩
  · cases h

lemma place32_ok {n : Nat} {c : UInt32} (h : place32 n = .ok c) :
    n < 0x100000000 ∧ c = UInt32.ofNat n := by
  unfold place32 at h
  split at h
  · next hn =>
    cases h
    exact ⟨hn, rfl⟩
  · cases h

structure Fits (d : Definition) : Prop where
  name : d.name.toByteArray.size < 65536
  dialogues : d.dialogues.length < 65536
  dialogueNames : ∀ s ∈ d.dialogues.map (·.name), s.toByteArray.size < 65536
  parameters : d.parameters.length < 65536
  parameterNames : ∀ s ∈ d.parameters, s.toByteArray.size < 65536

lemma appendEntry_ok {d : Definition} (h : appendEntry out d = .ok out') :
    Fits d ∧ out'.data.toList = out.data.toList ++ entryBytes d := by
  obtain ⟨named, hn, h⟩ := Except.bind_eq_ok_iff.mp h
  obtain ⟨dialogues, hd, h⟩ := Except.bind_eq_ok_iff.mp h
  obtain ⟨told, ht, h⟩ := Except.bind_eq_ok_iff.mp h
  obtain ⟨parameters, hp, h⟩ := Except.bind_eq_ok_iff.mp h
  obtain ⟨hname, hnamed⟩ := appendText_ok hn
  obtain ⟨hdialogues, rfl⟩ := count16_ok hd
  obtain ⟨hdialogueNames, htold⟩ := appendTexts_ok ht
  obtain ⟨hparameters, rfl⟩ := count16_ok hp
  obtain ⟨hparameterNames, hout⟩ := appendTexts_ok h
  refine ⟨⟨hname, hdialogues, hdialogueNames, hparameters, hparameterNames⟩, ?_⟩
  simp [hout, htold, hnamed, entryBytes, textsBytes]

lemma entryTable_ok {marks entries marks' entries' : ByteArray} {ds : List Definition}
    (h : entryTable marks entries ds = .ok (marks', entries')) :
    (∀ d ∈ ds, Fits d) ∧ entries'.size < 65536 ∧
      entries'.data.toList = entries.data.toList ++ ds.flatMap entryBytes ∧
      marks'.data.toList = marks.data.toList ++
        (starts entryBytes entries.size ds ++ [entries'.size]).flatMap
          (of16 <| UInt16.ofNat ·) := by
  induction ds generalizing marks entries with
  | nil =>
    obtain ⟨mark, hm, h⟩ := Except.bind_eq_ok_iff.mp h
    obtain ⟨hsize, rfl⟩ := count16_ok hm
    cases h
    simp [hsize, starts]
  | cons d rest ih =>
    obtain ⟨mark, hm, h⟩ := Except.bind_eq_ok_iff.mp h
    obtain ⟨next, hn, h⟩ := Except.bind_eq_ok_iff.mp h
    obtain ⟨_, rfl⟩ := count16_ok hm
    obtain ⟨hfits, hnext⟩ := appendEntry_ok hn
    obtain ⟨hrest, hsize, hentries, hmarks⟩ := ih h
    have hlen : next.size = entries.size + (entryBytes d).length := by
      simpa using congrArg List.length hnext
    refine ⟨by simpa using ⟨hfits, hrest⟩, hsize, ?_, ?_⟩
    · simp [hentries, hnext]
    · simp [hmarks, starts, hlen]

lemma textTable_ok {start : Nat} {marks texts marks' texts' : ByteArray} {ss : List String}
    (h : textTable start marks texts ss = .ok (marks', texts')) :
    (∀ s ∈ ss, s.toByteArray.size < 65536) ∧
      (∀ p ∈ starts textBytes (start + texts.size) ss, p < 0x100000000) ∧
      texts'.data.toList = texts.data.toList ++ ss.flatMap textBytes ∧
      marks'.data.toList = marks.data.toList ++
        (starts textBytes (start + texts.size) ss).flatMap (of32 <| UInt32.ofNat ·) := by
  induction ss generalizing marks texts with
  | nil =>
    cases h
    simp [starts]
  | cons s rest ih =>
    obtain ⟨mark, hm, h⟩ := Except.bind_eq_ok_iff.mp h
    obtain ⟨next, hn, h⟩ := Except.bind_eq_ok_iff.mp h
    obtain ⟨hplace, rfl⟩ := place32_ok hm
    obtain ⟨hs, hnext⟩ := appendText_ok hn
    obtain ⟨hrest, hplaces, htexts, hmarks⟩ := ih h
    have hlen : start + next.size = start + texts.size + (textBytes s).length := by
      rw [Nat.add_assoc]
      simpa using congrArg List.length hnext
    rw [hlen] at hplaces hmarks
    refine ⟨by simpa using ⟨hs, hrest⟩, by simpa [starts] using ⟨hplace, hplaces⟩, ?_, ?_⟩
    · simp [htexts, hnext]
    · simp [hmarks, starts]

lemma toList_foldl_append16 (marks : List DialogueMark) (out : ByteArray) :
    (marks.foldl (fun out mark => append16 out mark.offset) out).data.toList =
      out.data.toList ++ (marks.map (·.offset)).flatMap of16 := by
  induction marks generalizing out with
  | nil => simp
  | cons mark rest ih => simp [ih]

lemma appendBody_ok {d : Definition} (h : appendBody out d = .ok out') :
    out'.data.toList = out.data.toList ++ bodyBytes d := by
  obtain ⟨dialogues, hd, h⟩ := Except.bind_eq_ok_iff.mp h
  obtain ⟨_, rfl⟩ := count16_ok hd
  cases h
  simp [toList_foldl_append16, bodyBytes]

lemma bodyTable_ok {start : Nat} {marks bodies marks' bodies' : ByteArray} {ds : List Definition}
    (h : bodyTable start marks bodies ds = .ok (marks', bodies')) :
    (∀ p ∈ starts bodyBytes (start + bodies.size) ds, p < 0x100000000) ∧
      bodies'.data.toList = bodies.data.toList ++ ds.flatMap bodyBytes ∧
      marks'.data.toList = marks.data.toList ++
        (starts bodyBytes (start + bodies.size) ds).flatMap (of32 <| UInt32.ofNat ·) := by
  induction ds generalizing marks bodies with
  | nil =>
    cases h
    simp [starts]
  | cons d rest ih =>
    obtain ⟨mark, hm, h⟩ := Except.bind_eq_ok_iff.mp h
    obtain ⟨next, hn, h⟩ := Except.bind_eq_ok_iff.mp h
    obtain ⟨hplace, rfl⟩ := place32_ok hm
    have hnext := appendBody_ok hn
    obtain ⟨hplaces, hbodies, hmarks⟩ := ih h
    have hlen : start + next.size = start + bodies.size + (bodyBytes d).length := by
      rw [Nat.add_assoc]
      simpa using congrArg List.length hnext
    rw [hlen] at hplaces hmarks
    refine ⟨by simpa [starts] using ⟨hplace, hplaces⟩, ?_, ?_⟩
    · simp [hbodies, hnext]
    · simp [hmarks, starts]

section Layout

variable (b : Builder)

def entriesAt : Nat :=
  headerSize + tableHeaderSize + 4 * b.routines.size

def entryRowsAt : Nat :=
  b.entriesAt + tableHeaderSize + 2 * (b.routines.size + 1)

def importsAt : Nat :=
  b.entryRowsAt + (b.routines.toList.flatMap entryBytes).length

def textsAt : Nat :=
  b.importsAt + tableHeaderSize + (b.imports.toList.flatMap textBytes).length

def heapAt : Nat :=
  b.textsAt + tableHeaderSize + 4 * b.heap.texts.size

def codeAt : Nat :=
  b.heapAt + (b.heap.texts.toList.flatMap textBytes).length

def layout : List UInt8 :=
  magic ++ of32 (UInt32.ofNat b.entriesAt) ++ of32 (UInt32.ofNat b.textsAt) ++
    of32 (UInt32.ofNat b.codeAt) ++
  headerBytes "SUBR" b.routines.size ++
    (starts bodyBytes b.codeAt b.routines.toList).flatMap (of32 <| UInt32.ofNat ·) ++
  headerBytes "RTI_" b.routines.size ++
    (starts entryBytes 0 b.routines.toList ++
      [(b.routines.toList.flatMap entryBytes).length]).flatMap (of16 <| UInt16.ofNat ·) ++
    b.routines.toList.flatMap entryBytes ++
  headerBytes "IMPT" b.imports.size ++ b.imports.toList.flatMap textBytes ++
  headerBytes "STRT" b.heap.texts.size ++
    (starts textBytes b.heapAt b.heap.texts.toList).flatMap (of32 <| UInt32.ofNat ·) ++
    b.heap.texts.toList.flatMap textBytes ++
  b.routines.toList.flatMap bodyBytes

structure Writable : Prop where
  routines : ∀ d ∈ b.routines.toList, Fits d
  entries : (b.routines.toList.flatMap entryBytes).length < 65536
  imports : ∀ s ∈ b.imports.toList, s.toByteArray.size < 65536
  texts : ∀ s ∈ b.heap.texts.toList, s.toByteArray.size < 65536
  textPlaces : ∀ p ∈ starts textBytes b.heapAt b.heap.texts.toList, p < 0x100000000
  bodyPlaces : ∀ p ∈ starts bodyBytes b.codeAt b.routines.toList, p < 0x100000000
  places : b.codeAt < 0x100000000

end Layout

lemma length_flatMap_const (f : α → List UInt8) {k : Nat} (hf : ∀ a, (f a).length = k)
    (rows : List α) : (rows.flatMap f).length = k * rows.length := by
  induction rows with
  | nil => simp
  | cons a rest ih =>
    simp only [List.flatMap_cons, List.length_append, hf, ih, List.length_cons]
    rw [Nat.mul_add, Nat.mul_one, Nat.add_comm]

lemma size_eq_length {bytes : ByteArray} {part : List UInt8} (h : bytes.data.toList = part) :
    bytes.size = part.length := by
  simpa using congrArg List.length h

lemma textsAt_eq {b : Builder} {entryMarks entries imports : ByteArray}
    (he : entryTable .empty .empty b.routines.toList = .ok (entryMarks, entries))
    (hi : appendTexts .empty b.imports.toList = .ok imports) :
    headerSize + tableHeaderSize + 4 * b.routines.size + tableHeaderSize + entryMarks.size +
      entries.size + tableHeaderSize + imports.size = b.textsAt := by
  obtain ⟨-, -, hentryBytes, hentryMarks⟩ := entryTable_ok he
  obtain ⟨-, himportBytes⟩ := appendTexts_ok hi
  simp only [ByteArray.data_empty, List.nil_append, ByteArray.size_empty]
    at hentryBytes hentryMarks himportBytes
  have hmarks := size_eq_length hentryMarks
  rw [length_flatMap_const _ fun _ => Bytes.length_of16 _, List.length_append, length_starts,
    Array.length_toList] at hmarks
  rw [hmarks, size_eq_length hentryBytes, size_eq_length himportBytes]
  rfl

lemma write_ok {b : Builder} {bytes : ByteArray} (h : b.write = .ok bytes) :
    b.Writable ∧ bytes.data.toList = b.layout := by
  obtain ⟨⟨entryMarks, entries⟩, he, h⟩ := Except.bind_eq_ok_iff.mp h
  obtain ⟨imports, hi, h⟩ := Except.bind_eq_ok_iff.mp h
  obtain ⟨⟨textMarks, texts⟩, ht, h⟩ := Except.bind_eq_ok_iff.mp h
  obtain ⟨⟨bodyMarks, bodies⟩, hb, h⟩ := Except.bind_eq_ok_iff.mp h
  obtain ⟨entriesPlace, hep, h⟩ := Except.bind_eq_ok_iff.mp h
  obtain ⟨textsPlace, htp, h⟩ := Except.bind_eq_ok_iff.mp h
  obtain ⟨codePlace, hcp, h⟩ := Except.bind_eq_ok_iff.mp h
  obtain ⟨hroutines, hentries, hentryBytes, hentryMarks⟩ := entryTable_ok he
  obtain ⟨himports, himportBytes⟩ := appendTexts_ok hi
  simp only [ByteArray.data_empty, List.nil_append, ByteArray.size_empty]
    at hentryBytes hentryMarks himportBytes
  -- the sizes of the parts give the positions of the next ones
  have hes := size_eq_length hentryBytes
  rw [textsAt_eq he hi] at ht hb htp hcp
  change textTable b.heapAt _ _ _ = _ at ht
  obtain ⟨htexts, htextPlaces, htextBytes, htextMarks⟩ := textTable_ok ht
  simp only [ByteArray.data_empty, List.nil_append, ByteArray.size_empty, Nat.add_zero]
    at htextPlaces htextBytes htextMarks
  have hcodeAt : b.heapAt + texts.size = b.codeAt := by rw [size_eq_length htextBytes, codeAt]
  change bodyTable (b.heapAt + texts.size) _ _ _ = _ at hb
  change place32 (b.heapAt + texts.size) = _ at hcp
  rw [hcodeAt] at hb hcp
  obtain ⟨hbodyPlaces, hbodyBytes, hbodyMarks⟩ := bodyTable_ok hb
  simp only [ByteArray.data_empty, List.nil_append, ByteArray.size_empty, Nat.add_zero]
    at hbodyPlaces hbodyBytes hbodyMarks
  obtain ⟨_, rfl⟩ := place32_ok hep
  obtain ⟨_, rfl⟩ := place32_ok htp
  obtain ⟨hcode, rfl⟩ := place32_ok hcp
  refine ⟨⟨hroutines, hes ▸ hentries, himports, htexts, htextPlaces, hbodyPlaces, hcode⟩, ?_⟩
  rw [← Except.pure_eq_ok_iff.mp h]
  simp [layout, hentryBytes, hentryMarks, himportBytes, htextBytes, htextMarks, hbodyBytes,
    hbodyMarks, hes, entriesAt]

end Stagecraft.Builder
