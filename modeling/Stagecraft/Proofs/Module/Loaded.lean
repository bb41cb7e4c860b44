import Stagecraft.Proofs.Module.Guarded
import Stagecraft.Proofs.Module.Written

namespace Stagecraft

open Bytes (Holds of16 of32)
open Builder (textBytes textsBytes entryBytes bodyBytes headerBytes starts)

namespace Text.Utf8

lemma decode_toByteArray (s : String) : decode s.toByteArray = .ok s := by
  have h : String.fromUTF8? s.toByteArray = some s := dif_pos s.isValidUTF8
  simp [decode, h]

end Text.Utf8

namespace Module

variable {data : ByteArray} {pos : Nat}

lemma readMany_of_holds {f : Nat → Except ModuleError (α × Nat)} {g : β → List UInt8} {a : β → α}
    {rows : List β}
    (hf : ∀ b ∈ rows, ∀ pos, Holds data pos (g b) → f pos = .ok (a b, pos + (g b).length))
    (h : Holds data pos (rows.flatMap g)) (found : Array α) :
    readMany f rows.length pos found =
      .ok (found ++ (rows.map a).toArray, pos + (rows.flatMap g).length) := by
  induction rows generalizing pos found with
  | nil => simp [readMany]
  | cons b rest ih =>
    rw [List.flatMap_cons] at h
    have hb := hf b (by simp) pos h.left
    have hrest := ih (fun c hc => hf c (by simp [hc])) h.right (found.push (a b))
    simp [readMany, hb, hrest, Nat.add_assoc]

lemma read16_of_holds {n : UInt16} (h : Holds data pos (of16 n)) :
    read16 data pos = .ok (n, pos + 2) := by
  simp [read16, h.at16?, need, pure, Except.pure]

lemma toByteArray_toList (bytes : ByteArray) : bytes.data.toList.toByteArray = bytes := by
  apply ByteArray.ext
  simp

lemma readText_of_holds {s : String} (hs : s.toByteArray.size < 65536)
    (h : Holds data pos (textBytes s)) :
    readText data pos = .ok (s, pos + (textBytes s).length) := by
  have hsize := Holds.at16? h.left
  have hp : pos + 2 ≤ data.size := Holds.lt_size h.left
  have hslice := Holds.slice? h.right hp
  rw [Bytes.length_of16, Array.length_toList, ByteArray.size_data, toByteArray_toList] at hslice
  simp only [readText, hsize, need, Except.ok_bind, UInt16.toNat_ofNat_of_lt' hs, hslice,
    Text.Utf8.decode_toByteArray, textBytes, List.length_append, Bytes.length_of16,
    Array.length_toList, ByteArray.size_data, Nat.add_assoc]

lemma readTexts_of_holds {texts : List String} (hn : texts.length < 65536)
    (hs : ∀ s ∈ texts, s.toByteArray.size < 65536) (h : Holds data pos (textsBytes texts)) :
    readTexts data pos = .ok (texts, pos + (textsBytes texts).length) := by
  have hc := read16_of_holds h.left
  have hr := readMany_of_holds (f := readText data) (a := id)
    (fun s hm pos => readText_of_holds (hs s hm)) h.right #[]
  simp only [Bytes.length_of16] at hr
  simp [readTexts, hc, UInt16.toNat_ofNat_of_lt' hn, hr, textsBytes, Nat.add_assoc, pure,
    Except.pure]

lemma bne_self (bytes : ByteArray) : (bytes != bytes) = false := by
  have h : (bytes == bytes) = true := beq_self_eq_true bytes.data
  simp [bne, h]

lemma readTableHeader_of_holds {marker : String} {rows : Nat} (hm : marker.toByteArray.size = 4)
    (h : Holds data pos (headerBytes marker rows)) :
    readTableHeader data marker pos = .ok (UInt16.ofNat rows, pos + 8) := by
  have hmarker : Holds data pos marker.toByteArray.data.toList := h.left.left
  have hsize := Holds.at16? h.left.right
  have hcount := Holds.at16? h.right
  have hp : pos ≤ data.size := by
    have := Holds.lt_size h.right
    omega
  have hfound := Holds.slice? hmarker hp
  rw [Array.length_toList, ByteArray.size_data, hm, toByteArray_toList] at hfound
  simp only [List.length_append, Array.length_toList, ByteArray.size_data, hm, Bytes.length_of16]
    at hsize hcount
  simp [readTableHeader, hfound, hsize, hcount, need, Builder.tableHeaderSize, bne_self, pure,
    Except.pure]

lemma readRoutineOffset_of_holds {codeAt n : Nat} (hn : n < 0x100000000) (hl : codeAt ≤ n)
    (hu : n ≤ data.size) (h : Holds data pos (of32 (UInt32.ofNat n))) :
    readRoutineOffset data codeAt pos = .ok (n, pos + 4) := by
  have hbad : ¬(n < codeAt ∨ data.size < n) := by omega
  simp only [readRoutineOffset, h.at32?, need, Except.ok_bind, UInt32.toNat_ofNat_of_lt' hn,
    Bool.or_eq_true, decide_eq_true_eq, if_neg hbad, pure, Except.pure]

lemma readTextOffset_of_holds {n : Nat} (hn : n < 0x100000000) (hu : n < data.size)
    (h : Holds data pos (of32 (UInt32.ofNat n))) :
    readTextOffset data pos = .ok (n, pos + 4) := by
  simp only [readTextOffset, h.at32?, need, Except.ok_bind, UInt32.toNat_ofNat_of_lt' hn,
    if_neg (Nat.not_le.mpr hu), pure, Except.pure]

end Module

@[simp] lemma RoutineKind.ofByte_toByte (k : RoutineKind) : ofByte k.toByte = some k := by
  cases k <;> rfl

def Definition.entry (d : Definition) : Entry :=
  { kind := d.kind, name := d.name, dialogues := d.dialogues.map (·.name) }

def Definition.body (d : Definition) : Body :=
  { dialogueOffsets := d.dialogues.map (·.offset), code := d.code }

namespace Module

variable {data : ByteArray} {pos : Nat}

lemma readEntry_of_holds {d : Definition} (hd : Builder.Fits d)
    (h : Holds data pos (entryBytes d)) :
    ∃ at_, readEntry data pos = .ok (d.entry, at_) ∧
      (readTexts data at_).map (·.1) = .ok d.parameters := by
  obtain ⟨hkind, h⟩ := Holds.cons_iff.mp h
  have hname := readText_of_holds hd.name h.left.left
  have hdialogues := readTexts_of_holds (by simpa using hd.dialogues) hd.dialogueNames h.left.right
  have hparameters := readTexts_of_holds hd.parameters hd.parameterNames h.right
  rw [List.length_append, ← Nat.add_assoc] at hparameters
  refine ⟨_, ?_, congrArg (Except.map (·.1)) hparameters⟩
  simp [readEntry, hkind, need, hname, hdialogues, Definition.entry, pure, Except.pure]

lemma readEntries_of_holds {ds : List Definition} {start : Nat} (hd : ∀ d ∈ ds, Builder.Fits d)
    (h : Holds data (start + pos) (ds.flatMap entryBytes))
    (hsize : pos + (ds.flatMap entryBytes).length < 65536) (found : Array (Entry × Nat)) :
    ∃ rows : List (Entry × Nat),
      readEntries data start ((starts entryBytes pos ds).map UInt16.ofNat) found =
        .ok (found ++ rows.toArray) ∧
      rows.map (·.1) = ds.map Definition.entry ∧
      rows.map (fun row => (readTexts data row.2).map (·.1)) = ds.map (.ok ·.parameters) := by
  induction ds generalizing pos found with
  | nil => exact ⟨[], by simp [starts, readEntries]⟩
  | cons d rest ih =>
    rw [List.flatMap_cons] at h hsize
    rw [List.length_append] at hsize
    obtain ⟨at_, hentry, hparameters⟩ := readEntry_of_holds (hd d (by simp)) h.left
    have hright := h.right
    rw [Nat.add_assoc] at hright
    obtain ⟨rows, hrows, hentries, hlists⟩ :=
      ih (fun c hc => hd c (by simp [hc])) hright (by omega) (found.push (d.entry, at_))
    refine ⟨(d.entry, at_) :: rows, ?_, by simp [hentries], by simp [hlists, hparameters]⟩
    rw [starts, List.map_cons, readEntries, UInt16.toNat_ofNat_of_lt' (show pos < 65536 by omega),
      hentry]
    simp [hrows]

lemma map_starts_of_holds {f : β → List UInt8} {g : Nat → α} {a : β → α} {rows : List β}
    (hg : ∀ b ∈ rows, ∀ pos, Holds data pos (f b) → g pos = a b)
    (h : Holds data pos (rows.flatMap f)) : (starts f pos rows).map g = rows.map a := by
  induction rows generalizing pos with
  | nil => rfl
  | cons b rest ih =>
    rw [List.flatMap_cons] at h
    rw [starts, List.map_cons, List.map_cons, hg b (by simp) pos h.left,
      ih (fun c hc => hg c (by simp [hc])) h.right]

lemma readMarks_of_holds {offsets : List UInt16} (hn : offsets.length < 65536)
    (h : Holds data 0 (of16 (UInt16.ofNat offsets.length) ++ offsets.flatMap of16)) :
    readMarks data = .ok (offsets.toArray, 2 + (offsets.flatMap of16).length) := by
  have hmarks := readMany_of_holds (f := read16 data) (a := id)
    (fun n _ pos => read16_of_holds) h.right #[]
  simp only [Bytes.length_of16, Nat.zero_add, List.map_id, Array.empty_append] at hmarks
  rw [readMarks, read16_of_holds h.left, Except.ok_bind]
  simp only [UInt16.toNat_ofNat_of_lt' hn, Nat.zero_add, hmarks, id]

lemma readBody_of_holds {d : Definition} (hn : d.dialogues.length < 65536)
    (h : Holds data pos (bodyBytes d)) :
    readBody data pos (pos + (bodyBytes d).length) =
      bodyOf (d.dialogues.map (·.offset)).toArray d.code := by
  have hself := Bytes.holds_self (bodyBytes d).toByteArray
  rw [List.data_toByteArray] at hself
  have hcode := Holds.extract hself.right
  have hsize : (bodyBytes d).toByteArray.size = 2 +
      ((d.dialogues.map (·.offset)).flatMap of16).length + d.code.data.toList.length := by
    simp [bodyBytes, Nat.add_assoc]
  rw [Nat.zero_add, List.length_append, Bytes.length_of16, ← hsize, toByteArray_toList] at hcode
  have hmarks : readMarks _ = .ok ((d.dialogues.map (·.offset)).toArray, _) :=
    readMarks_of_holds (by simpa using hn) (by simpa using hself.left)
  rw [readBody_eq (by omega), h.extract, hmarks, Except.ok_bind, hcode]

lemma bodyOf_body {d : Definition}
    (hoffsets : ∀ mark ∈ d.dialogues, mark.offset.toNat ≤ d.code.size) :
    bodyOf (d.dialogues.map (·.offset)).toArray d.code = .ok d.body := by
  have hfind : (d.dialogues.map (·.offset)).find? (fun offset => d.code.size < offset.toNat) =
      none := by
    simpa using hoffsets
  simp only [bodyOf, List.find?_toArray, hfind, Definition.body]

lemma readBodies_of_holds {ds : List Definition} (hn : ∀ d ∈ ds, d.dialogues.length < 65536)
    (hoffsets : ∀ d ∈ ds, ∀ mark ∈ d.dialogues, mark.offset.toNat ≤ d.code.size)
    (h : Holds data pos (ds.flatMap bodyBytes))
    (hsize : data.size = pos + (ds.flatMap bodyBytes).length) :
    readBodies data (starts bodyBytes pos ds).toArray = (ds.map (.ok ·.body)).toArray := by
  unfold readBodies
  rw [List.mapIdx_toArray]
  congr 1
  induction ds generalizing pos with
  | nil => rfl
  | cons d rest ih =>
    rw [List.flatMap_cons] at h hsize
    rw [List.length_append] at hsize
    have hd := (readBody_of_holds (hn d (by simp)) h.left).trans
      (bodyOf_body (hoffsets d (by simp)))
    have hrest := ih (fun c hc => hn c (by simp [hc])) (fun c hc => hoffsets c (by simp [hc]))
      h.right (by omega)
    have hnext : ((starts bodyBytes pos (d :: rest)).toArray.getD 1 data.size) =
        pos + (bodyBytes d).length := by
      cases rest with
      | nil => simp [starts, hsize]
      | cons e rest => simp [starts]
    rw [starts, List.mapIdx_cons, List.map_cons, ← hrest]
    congr 1
    · rw [Nat.zero_add, ← starts, hnext, hd]
    · simp

end Module

namespace Builder

lemma le_of_mem_starts {f : α → List UInt8} {pos p : Nat} {rows : List α}
    (hp : p ∈ starts f pos rows) : pos ≤ p ∧ p ≤ pos + (rows.flatMap f).length := by
  induction rows generalizing pos with
  | nil => simp [starts] at hp
  | cons a rest ih =>
    simp only [starts, List.mem_cons] at hp
    rw [List.flatMap_cons, List.length_append]
    obtain rfl | hp := hp
    · omega
    · have := ih hp
      omega

lemma lt_of_mem_starts {f : α → List UInt8} (hf : ∀ a, 0 < (f a).length) {pos p : Nat}
    {rows : List α} (hp : p ∈ starts f pos rows) : p < pos + (rows.flatMap f).length := by
  induction rows generalizing pos with
  | nil => simp [starts] at hp
  | cons a rest ih =>
    have ha := hf a
    simp only [starts, List.mem_cons] at hp
    rw [List.flatMap_cons, List.length_append]
    obtain rfl | hp := hp
    · omega
    · have := ih hp
      omega

lemma length_le_length_flatMap {f : α → List UInt8} (hf : ∀ a, 0 < (f a).length) (rows : List α) :
    rows.length ≤ (rows.flatMap f).length := by
  induction rows with
  | nil => simp
  | cons a rest ih =>
    have := hf a
    rw [List.flatMap_cons, List.length_append, List.length_cons]
    omega

lemma holds_take {data : ByteArray} {pos : Nat} {f : α → List UInt8} {rows : List α} (k : Nat)
    (h : Holds data pos (rows.flatMap f)) : Holds data pos ((rows.take k).flatMap f) := by
  rw [← List.take_append_drop k rows, List.flatMap_append] at h
  exact h.left

def counted (b : Builder) : Builder :=
  { b with
    imports := b.imports.take (b.imports.size % 65536)
    heap := { b.heap with texts := b.heap.texts.take (b.heap.texts.size % 65536) } }

lemma counted_eq {b : Builder} (htexts : b.heap.texts.size < 65536)
    (himports : b.imports.size < 65536) : b.counted = b := by
  simp [counted, Nat.mod_eq_of_lt htexts, Nat.mod_eq_of_lt himports]

lemma Writable.routines_lt {b : Builder} (h : b.Writable) : b.routines.size < 65536 :=
  Nat.lt_of_le_of_lt (length_le_length_flatMap (fun _ => by simp [entryBytes]) _) h.entries

structure Tables (b : Builder) (data : ByteArray) : Prop where
  magic : Holds data 0 magic
  entriesAt : Holds data 4 (of32 (UInt32.ofNat b.entriesAt))
  textsAt : Holds data 8 (of32 (UInt32.ofNat b.textsAt))
  codeAt : Holds data 12 (of32 (UInt32.ofNat b.codeAt))
  bodyHeader : Holds data headerSize (headerBytes "SUBR" b.routines.size)
  bodyMarks : Holds data (headerSize + tableHeaderSize)
    ((starts bodyBytes b.codeAt b.routines.toList).flatMap (of32 <| UInt32.ofNat ·))
  entryHeader : Holds data b.entriesAt (headerBytes "RTI_" b.routines.size)
  entryMarks : Holds data (b.entriesAt + tableHeaderSize)
    ((starts entryBytes 0 b.routines.toList ++
      [(b.routines.toList.flatMap entryBytes).length]).flatMap (of16 <| UInt16.ofNat ·))
  entries : Holds data b.entryRowsAt (b.routines.toList.flatMap entryBytes)
  importHeader : Holds data b.importsAt (headerBytes "IMPT" b.imports.size)
  imports : Holds data (b.importsAt + tableHeaderSize) (b.imports.toList.flatMap textBytes)
  textHeader : Holds data b.textsAt (headerBytes "STRT" b.heap.texts.size)
  textMarks : Holds data (b.textsAt + tableHeaderSize)
    ((starts textBytes b.heapAt b.heap.texts.toList).flatMap (of32 <| UInt32.ofNat ·))
  texts : Holds data b.heapAt (b.heap.texts.toList.flatMap textBytes)
  inside : b.codeAt ≤ data.size
  bodiesInside : ∀ p ∈ starts bodyBytes b.codeAt b.routines.toList, p ≤ data.size

structure Parts (b : Builder) (data : ByteArray) : Prop extends Tables b data where
  bodies : Holds data b.codeAt (b.routines.toList.flatMap bodyBytes)
  size : data.size = b.codeAt + (b.routines.toList.flatMap bodyBytes).length

lemma length_headerBytes (marker : String) (hm : marker.toByteArray.size = 4) (rows : Nat) :
    (headerBytes marker rows).length = tableHeaderSize := by
  simp only [headerBytes, List.length_append, Array.length_toList, ByteArray.size_data, hm,
    Bytes.length_of16]
  rfl

lemma parts_of_layout {b : Builder} {data : ByteArray} (h : data.data.toList = b.layout) :
    b.Parts data := by
  have hself := Bytes.holds_self data
  have hsize := size_eq_length h
  rw [h] at hself
  simp only [layout, List.append_assoc, Holds.append_iff, List.length_append,
    length_headerBytes "SUBR" rfl, length_headerBytes "RTI_" rfl,
    length_headerBytes "IMPT" rfl, length_headerBytes "STRT" rfl,
    length_flatMap_const _ fun _ => Bytes.length_of16 _,
    length_flatMap_const _ fun _ => Bytes.length_of32 _, Bytes.length_of32, length_starts,
    Array.length_toList, List.length_singleton, show magic.length = 4 from rfl]
    at hself hsize
  obtain ⟨h1, h2, h3, h4, h5, h6, h7, h8, h9, h10, h11, h12, h13, h14, h15⟩ := hself
  have hdata : data.size = b.codeAt + (b.routines.toList.flatMap bodyBytes).length := by
    simp only [Builder.codeAt, heapAt, Builder.textsAt, importsAt, entryRowsAt, Builder.entriesAt,
      headerSize]
    omega
  refine ⟨⟨h1, h2, h3, h4, h5, h6, h7, h8, h9, h10, h11, h12, h13, h14, ?_, fun p hp => ?_⟩, h15,
    hdata⟩
  · rw [hdata]
    exact Nat.le_add_right _ _
  · rw [hdata]
    exact (le_of_mem_starts hp).2

end Builder

namespace Module

def ofBuilder (name : String) (b : Builder) : Module where
  name := name
  imports := b.imports
  entries := b.routines.map Definition.entry
  bodies := b.routines.map (.ok ·.body)
  parameterLists := b.routines.map (.ok ·.parameters)
  texts := b.heap.texts.map .ok

lemma load_tables {b : Builder} {data : ByteArray} (name : String) (hw : b.Writable)
    (hp : b.Tables data) :
    load name data = .ok { ofBuilder name b.counted with
      bodies := readBodies data (starts bodyBytes b.codeAt b.routines.toList).toArray } := by
  have hroutines := hw.routines_lt
  have hentriesPlace : b.entriesAt < 0x100000000 := by
    have := hw.places
    simp only [Builder.codeAt, Builder.heapAt, Builder.textsAt, Builder.importsAt,
      Builder.entryRowsAt] at this
    omega
  have htextsPlace : b.textsAt < 0x100000000 := by
    have := hw.places
    simp only [Builder.codeAt, Builder.heapAt] at this
    omega
  -- what is read from each of the tables
  have hbodyMarks := readMany_of_holds (f := readRoutineOffset data b.codeAt) (a := id)
    (fun p hm pos => readRoutineOffset_of_holds (hw.bodyPlaces p hm)
      (Builder.le_of_mem_starts hm).1 (hp.bodiesInside p hm)) hp.bodyMarks #[]
  have hentryMarks := readMany_of_holds (f := read16 data) (a := UInt16.ofNat)
    (fun p hm pos => read16_of_holds) hp.entryMarks #[]
  have himportRows := readMany_of_holds (f := readText data) (a := id)
    (fun s hm pos => readText_of_holds (hw.imports s (List.mem_of_mem_take hm)))
    (Builder.holds_take (b.imports.size % 65536) hp.imports) #[]
  have htextEnd (p : Nat) (hm : p ∈ starts textBytes b.heapAt b.heap.texts.toList) :
      p < data.size := by
    have hlt : p < b.codeAt :=
      Builder.lt_of_mem_starts (fun s => Nat.lt_of_lt_of_le (by decide : 0 < 2)
        (by simp [textBytes])) hm
    exact Nat.lt_of_lt_of_le hlt hp.inside
  have htextMarks := readMany_of_holds (f := readTextOffset data) (a := id)
    (fun p hm pos => readTextOffset_of_holds (hw.textPlaces p (List.mem_of_mem_take hm))
      (htextEnd p (List.mem_of_mem_take hm)))
    (Builder.holds_take (b.heap.texts.size % 65536) hp.textMarks) #[]
  obtain ⟨rows, hrows, hentries, hlists⟩ :=
    readEntries_of_holds hw.routines (show Holds data (b.entryRowsAt + 0) _ from hp.entries)
      (by simpa using hw.entries) #[]
  have htextRows := map_starts_of_holds (g := fun p => (readText data p).map (·.1)) (a := .ok)
    (fun s hm pos h => by rw [readText_of_holds (hw.texts s hm) h]; rfl) hp.texts
  simp only [Builder.length_starts, List.length_append, List.length_singleton,
    Array.length_toList, List.map_id, id, Array.empty_append, List.map_append, List.map_singleton,
    List.length_take, Nat.min_eq_left (Nat.mod_le _ _),
    Builder.length_flatMap_const _ fun _ => Bytes.length_of16 _]
    at hbodyMarks hentryMarks himportRows htextMarks hrows
  have hmagic : Bytes.slice? data 0 4 = some Builder.magic.toByteArray :=
    hp.magic.slice? (Nat.zero_le _)
  have hsize : ¬data.size < b.codeAt := Nat.not_lt.mpr hp.inside
  have htake : (((starts entryBytes 0 b.routines.toList).map UInt16.ofNat ++
      [UInt16.ofNat (b.routines.toList.flatMap entryBytes).length]).toArray.toList.take
        b.routines.size) = (starts entryBytes 0 b.routines.toList).map UInt16.ofNat := by
    simp
  have hback : (((starts entryBytes 0 b.routines.toList).map UInt16.ofNat ++
      [UInt16.ofNat (b.routines.toList.flatMap entryBytes).length]).toArray.back?.getD 0) =
        UInt16.ofNat (b.routines.toList.flatMap entryBytes).length := by
    simp
  -- the same readings in the order in which loading makes them
  simp only [load, hmagic, hp.entriesAt.at32?, hp.textsAt.at32?, hp.codeAt.at32?, need,
    Except.ok_bind, bne_self, Bool.false_eq_true, if_false, UInt32.toNat_ofNat_of_lt' hw.places,
    if_neg hsize, UInt32.toNat_ofNat_of_lt' hentriesPlace, UInt32.toNat_ofNat_of_lt' htextsPlace,
    UInt16.toNat_ofNat_of_lt' hroutines,
    readTableHeader_of_holds rfl hp.bodyHeader, readTableHeader_of_holds rfl hp.entryHeader,
    readTableHeader_of_holds rfl hp.textHeader, bne_self_eq_false]
  change (readMany _ _ (Builder.headerSize + Builder.tableHeaderSize) _ >>= _) = _
  rw [hbodyMarks, Except.ok_bind]
  change (readMany _ _ (b.entriesAt + Builder.tableHeaderSize) _ >>= _) = _
  rw [hentryMarks, Except.ok_bind]
  simp only [htake, hback]
  change (readEntries data b.entryRowsAt _ _ >>= _) = _
  rw [hrows, Except.ok_bind, UInt16.toNat_ofNat_of_lt' hw.entries]
  change (readTableHeader data "IMPT" b.importsAt >>= _) = _
  rw [readTableHeader_of_holds rfl hp.importHeader, Except.ok_bind]
  simp only [UInt16.toNat_ofNat']
  change (readMany _ _ (b.importsAt + Builder.tableHeaderSize) _ >>= _) = _
  rw [himportRows, Except.ok_bind]
  change (readMany _ _ (b.textsAt + Builder.tableHeaderSize) _ >>= _) = _
  rw [htextMarks, Except.ok_bind]
  simp only [List.map_toArray, List.map_take, hentries, hlists, htextRows, pure,
    Except.pure]
  have htakeArray {α : Type} (rows : Array α) (k : Nat) :
      (rows.toList.take k).toArray = rows.take k := by
    apply Array.toList_inj.mp
    simp
  simp only [← List.map_take, ← List.map_toArray, htakeArray, Array.toArray_toList]
  rfl

lemma load_counted {b : Builder} {data : ByteArray} (name : String) (hw : b.Writable)
    (hp : b.Parts data)
    (hoffsets : ∀ d ∈ b.routines, ∀ mark ∈ d.dialogues, mark.offset.toNat ≤ d.code.size) :
    load name data = .ok (ofBuilder name b.counted) := by
  have hbodies := readBodies_of_holds (fun d hd => (hw.routines d hd).dialogues)
    (fun d hd => hoffsets d (by simpa using hd)) hp.bodies hp.size
  rw [load_tables name hw hp.toTables, hbodies, ← List.map_toArray, Array.toArray_toList]
  rfl

lemma load_ok {b : Builder} {data : ByteArray} (name : String) (hw : b.Writable)
    (hp : b.Parts data) (htexts : b.heap.texts.size < 65536) (himports : b.imports.size < 65536)
    (hoffsets : ∀ d ∈ b.routines, ∀ mark ∈ d.dialogues, mark.offset.toNat ≤ d.code.size) :
    load name data = .ok (ofBuilder name b) := by
  rw [load_counted name hw hp hoffsets, Builder.counted_eq htexts himports]

lemma find?_ofBuilder {b : Builder} (name : String) (hb : b.routines.size < 65536) (n : String)
    (i : UInt16) : (ofBuilder name b).find? n = some i ↔
      (∃ d, b.routines[i.toNat]? = some d ∧ d.name = n) ∧
        ∀ j < i.toNat, ∀ d, b.routines[j]? = some d → d.name ≠ n := by
  simp only [find?, ofBuilder, Array.findIdx?_map, Option.map_eq_some_iff,
    Array.findIdx?_eq_some_iff_getElem, Function.comp_apply, Definition.entry, beq_iff_eq]
  constructor
  · rintro ⟨k, ⟨hk, hn, hmin⟩, rfl⟩
    rw [UInt16.toNat_ofNat_of_lt' (show k < 65536 by omega)]
    refine ⟨⟨_, Array.getElem?_eq_getElem hk, hn⟩, fun j hj d hd => ?_⟩
    obtain ⟨_, rfl⟩ := Array.getElem?_eq_some_iff.mp hd
    exact hmin j hj
  · rintro ⟨⟨d, hd, hn⟩, hmin⟩
    obtain ⟨hi, rfl⟩ := Array.getElem?_eq_some_iff.mp hd
    refine ⟨i.toNat, ⟨hi, hn, fun j hj => ?_⟩, UInt16.ofNat_toNat⟩
    exact hmin j hj _ (Array.getElem?_eq_getElem (by omega))

end Module

namespace Builder

/-- A module that was written is loaded with exactly what its builder holds. -/
theorem load_write {b : Builder} {bytes : ByteArray} (name : String)
    (htexts : b.heap.texts.size ≤ 65535) (himports : b.imports.size ≤ 65535)
    (hoffsets : ∀ d ∈ b.routines, ∀ mark ∈ d.dialogues, mark.offset.toNat ≤ d.code.size)
    (h : b.write = .ok bytes) :
    ∃ m, Module.load name bytes = .ok m ∧ m.name = name ∧
      m.routineCount = b.routines.size ∧ m.textCount = b.heap.texts.size ∧
      m.imports = b.imports ∧
      (∀ i (hi : i < b.heap.texts.size), m.text (UInt16.ofNat i) = .ok b.heap.texts[i]) ∧
      (∀ i (hi : i < b.routines.size),
        m.entry (UInt16.ofNat i) = .ok b.routines[i].entry ∧
        m.body (UInt16.ofNat i) = .ok b.routines[i].body ∧
        m.parameters (UInt16.ofNat i) = .ok b.routines[i].parameters) ∧
      ∀ n i, m.find? n = some i ↔
        (∃ d, b.routines[i.toNat]? = some d ∧ d.name = n) ∧
          ∀ j < i.toNat, ∀ d, b.routines[j]? = some d → d.name ≠ n := by
  obtain ⟨hw, hl⟩ := write_ok h
  have hload := Module.load_ok name hw (parts_of_layout hl) (by omega) (by omega) hoffsets
  have hroutines := hw.routines_lt
  refine ⟨_, hload, rfl, by simp [Module.routineCount, Module.ofBuilder],
    by simp [Module.textCount, Module.ofBuilder], rfl, fun i hi => ?_, fun i hi => ?_,
    Module.find?_ofBuilder name hroutines⟩
  · have hnat := UInt16.toNat_ofNat_of_lt' (show i < 65536 by omega)
    simp [Module.text, Module.lookup, Module.ofBuilder, hnat, hi]
  · have hnat := UInt16.toNat_ofNat_of_lt' (show i < 65536 by omega)
    simp [Module.entry, Module.body, Module.parameters, Module.lookup, Module.ofBuilder, hnat, hi]

def sample : Builder where
  routines := #[
    { kind := .chapter, name := "main", parameters := []
      dialogues := [{ name := "dialogue0", offset := 1 }], code := [0x17, 0x16].toByteArray },
    { kind := .function, name := "main", parameters := ["é"], dialogues := [], code := .empty }]
  imports := #["lib.nss"]
  heap := { texts := #["", "é"] }

theorem load_write_sample :
    ∃ bytes m, sample.write = .ok bytes ∧ Module.load "main.nss" bytes = .ok m ∧
      m.text 1 = .ok "é" ∧ m.parameters 1 = .ok ["é"] ∧ m.find? "main" = some 0 := by
  obtain ⟨m, hm, _, _, _, _, htext, hroutine, hfind⟩ :=
    load_write "main.nss" (b := sample) (by decide) (by decide) (by decide) rfl
  exact ⟨_, m, rfl, hm, htext 1 (by decide), (hroutine 1 (by decide)).2.2,
    (hfind "main" 0).mpr ⟨⟨_, rfl, rfl⟩, by simp⟩⟩

end Builder

end Stagecraft
