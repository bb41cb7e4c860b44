import Stagecraft.Module.Basic
import Stagecraft.Proofs.Basic
import Stagecraft.Proofs.Bytes

/-!
Whatever the bytes, reading either succeeds or says what is wrong with them; what is read lazily
later lies inside the data, as far as the tables that were checked when the module was loaded.
-/

namespace Stagecraft

namespace ModuleError

def isDamage : ModuleError → Bool
  | truncated | badMagic _ | badOffset _ _ | tableMarker _ _ | tableSize _ _ | entryCount _ _
  | unknownKind _ | invalidText _ => true
  | _ => false

def OfModule (e : ModuleError) : Prop :=
  "MODULE_".toList <+: e.code.toList

lemma code_of_isDamage {e : ModuleError} (h : e.isDamage = true) :
    e.OfModule ∧ e.code ≠ "MODULE_INDEX_OUT_OF_RANGE" := by
  have hcode : e.code ∈ ["MODULE_TRUNCATED", "MODULE_BAD_MAGIC", "MODULE_BAD_OFFSET",
      "MODULE_TABLE_MARKER", "MODULE_TABLE_SIZE", "MODULE_CORRUPT", "MODULE_INVALID_UTF8"] := by
    cases e <;> first | cases h; done | simp [code]
  have hall : ∀ c ∈ ["MODULE_TRUNCATED", "MODULE_BAD_MAGIC", "MODULE_BAD_OFFSET",
      "MODULE_TABLE_MARKER", "MODULE_TABLE_SIZE", "MODULE_CORRUPT", "MODULE_INVALID_UTF8"],
      "MODULE_".toList <+: c.toList ∧ c ≠ "MODULE_INDEX_OUT_OF_RANGE" := by
    decide +kernel
  exact hall _ hcode

end ModuleError

namespace Module

variable {α β : Type}

def Vets (x : Except ModuleError α) (Q : α → Prop) : Prop :=
  match x with
  | .ok a => Q a
  | .error e => e.isDamage = true

section Vets

variable {data : ByteArray} {pos : Nat}

lemma Vets.bind {x : Except ModuleError α} {f : α → Except ModuleError β} {Q : α → Prop}
    {R : β → Prop} (hx : Vets x Q) (hf : ∀ a, Q a → Vets (f a) R) : Vets (x >>= f) R := by
  cases x with
  | ok a => exact hf a hx
  | error e => exact hx

lemma Vets.mono {x : Except ModuleError α} {Q R : α → Prop} (hx : Vets x Q)
    (h : ∀ a, Q a → R a) : Vets x R := by
  cases x with
  | ok a => exact h a hx
  | error e => exact hx

lemma Vets.map {x : Except ModuleError α} {Q : α → Prop} (hx : Vets x Q) (f : α → β) :
    Vets (x.map f) fun _ => True := by
  cases x with
  | ok a => trivial
  | error e => exact hx

lemma vets_need (x : Option α) : Vets (need x) (x = some ·) := by
  cases x with
  | some a => rfl
  | none => rfl

lemma le_size_of_at16? {n : UInt16} (h : Bytes.at16? data pos = some n) : pos + 2 ≤ data.size :=
  (Bytes.holds_of_at16? h).lt_size

lemma vets_read16 : Vets (read16 data pos) fun r => r.2 ≤ data.size :=
  (vets_need _).bind fun _ h => le_size_of_at16? h

lemma vets_read16_row :
    Vets (read16 data pos) fun r => r.2 = pos + 2 ∧ Bytes.at16? data pos = some r.1 :=
  (vets_need _).bind fun _ h => ⟨rfl, h⟩

lemma vets_readMany {f : Nat → Except ModuleError (α × Nat)} {I : Nat → Prop}
    (hf : ∀ p, I p → Vets (f p) fun r => I r.2) (n : Nat) (hpos : I pos) (found : Array α) :
    Vets (readMany f n pos found) fun r => r.1.size = found.size + n ∧ I r.2 := by
  induction n generalizing pos found with
  | zero => exact ⟨rfl, hpos⟩
  | succ n ih =>
    have hfirst := hf pos hpos
    rw [readMany]
    cases h : f pos with
    | error e =>
      rw [h] at hfirst
      exact hfirst
    | ok r =>
      rw [h] at hfirst
      refine (ih hfirst (found.push r.1)).mono fun out hout => ⟨?_, hout.2⟩
      rw [hout.1, Array.size_push, Nat.add_right_comm, Nat.add_assoc]

lemma vets_readMany_true {f : Nat → Except ModuleError (α × Nat)}
    (hf : ∀ p, Vets (f p) fun _ => True) (n : Nat) (found : Array α) :
    Vets (readMany f n pos found) fun r => r.1.size = found.size + n :=
  (vets_readMany (I := fun _ => True) (fun p _ => (hf p).mono fun _ _ => trivial) n trivial
    found).mono fun _ h => h.1

lemma vets_readText : Vets (readText data pos) fun _ => True := by
  refine (vets_need _).bind fun size _ => (vets_need _).bind fun bytes _ => ?_
  cases Text.Utf8.decode bytes with
  | ok s => trivial
  | error place => rfl

lemma vets_readTexts : Vets (readTexts data pos) fun _ => True :=
  vets_read16.bind fun r _ =>
    (vets_readMany_true (fun _ => vets_readText) r.1.toNat #[]).bind fun _ _ => trivial

lemma vets_readTableHeader {marker : String} :
    Vets (readTableHeader data marker pos) fun r =>
      r.2 = pos + 8 ∧ Bytes.at16? data (pos + 6) = some r.1 := by
  refine (vets_need _).bind fun found _ => ?_
  split
  · rfl
  · refine (vets_need _).bind fun size _ => ?_
    split
    · rfl
    · exact (vets_need _).bind fun rows hrows => ⟨rfl, hrows⟩

lemma vets_readTextOffset : Vets (readTextOffset data pos) fun r =>
    r.2 = pos + 4 ∧ (Bytes.at32? data pos).map (·.toNat) = some r.1 := by
  refine (vets_need _).bind fun offset hoffset => ?_
  split
  · rfl
  · exact ⟨rfl, by rw [hoffset, Option.map_some]⟩

lemma vets_readEntry (data : ByteArray) (pos : Nat) : Vets (readEntry data pos) fun _ => True := by
  refine (vets_need _).bind fun byte _ => ?_
  split
  · rfl
  · exact vets_readText.bind fun _ _ => vets_readTexts.bind fun _ _ => trivial

lemma vets_readEntries {start : Nat} (marks : List UInt16) (found : Array (Entry × Nat)) :
    Vets (readEntries data start marks found) fun rows => ∃ entries : List (Entry × Nat),
      rows = found ++ entries.toArray ∧
        List.Forall₂ (fun mark entry => readEntry data (start + mark.toNat) = .ok entry) marks
          entries := by
  induction marks generalizing found with
  | nil => exact ⟨[], by simp, .nil⟩
  | cons mark rest ih =>
    have hfirst := vets_readEntry data (start + mark.toNat)
    rw [readEntries]
    cases h : readEntry data (start + mark.toNat) with
    | error e =>
      rw [h] at hfirst
      exact hfirst
    | ok entry =>
      refine (ih (found.push entry)).mono ?_
      rintro _ ⟨entries, rfl, hentries⟩
      exact ⟨entry :: entries, by simp, .cons h hentries⟩

end Vets

section Body

variable {data : ByteArray} {start stop : Nat}

def cut? (data : ByteArray) (start stop : Nat) : Option ByteArray :=
  if start ≤ stop ∧ stop ≤ data.size then some (data.extract start stop) else none

def readMarks (body : ByteArray) : Except ModuleError (Array UInt16 × Nat) := do
  let (n, pos) ← read16 body 0
  readMany (read16 body) n.toNat pos #[]

def bodyOf (offsets : Array UInt16) (code : ByteArray) : Except ModuleError Body :=
  match offsets.find? fun offset => code.size < offset.toNat with
  | some offset => .error (.badOffset .dialogue offset.toNat)
  | none => .ok { dialogueOffsets := offsets.toList, code }

def cutBody? (data : ByteArray) (start stop : Nat) : Option (Except ModuleError Body) :=
  if stop < start then some (.error (.badOffset .routine start))
  else do
    let body ← cut? data start stop
    match readMarks body with
    | .error e => some (.error e)
    | .ok (offsets, pos) => (cut? body pos body.size).map (bodyOf offsets)

lemma vets_readMarks (body : ByteArray) : Vets (readMarks body) fun r => r.2 ≤ body.size := by
  refine vets_read16.bind fun r hr => ?_
  exact (vets_readMany (I := (· ≤ body.size)) (fun _ _ => vets_read16) r.1.toNat hr #[]).mono
    fun _ h => h.2

lemma vets_bodyOf (offsets : Array UInt16) (code : ByteArray) :
    Vets (bodyOf offsets code) fun body =>
      ∀ offset ∈ body.dialogueOffsets, offset.toNat ≤ body.code.size := by
  unfold bodyOf
  split
  · rfl
  · next h =>
    change ∀ offset ∈ offsets.toList, offset.toNat ≤ code.size
    simpa using h

lemma readBody_eq (h : ¬stop < start) : readBody data start stop =
    readMarks (data.extract start stop) >>= fun r =>
      bodyOf r.1 ((data.extract start stop).extract r.2 (data.extract start stop).size) := by
  rw [readBody, if_neg h, readMarks, bind_assoc]
  rfl

lemma cutBody?_eq (hstop : stop ≤ data.size) :
    cutBody? data start stop = some (readBody data start stop) := by
  by_cases horder : stop < start
  · rw [cutBody?, readBody, if_pos horder, if_pos horder]
  · have hmarks := vets_readMarks (data.extract start stop)
    rw [readBody_eq horder, cutBody?, if_neg horder, cut?,
      if_pos ⟨Nat.not_lt.mp horder, hstop⟩, Option.bind_eq_bind, Option.bind_some]
    cases h : readMarks (data.extract start stop) with
    | error e => rfl
    | ok r =>
      rw [h] at hmarks
      rw [Except.ok_bind]
      dsimp only
      rw [cut?, if_pos ⟨hmarks, Nat.le_refl _⟩, Option.map_some]

lemma vets_readBody : Vets (readBody data start stop) fun body =>
    ∀ offset ∈ body.dialogueOffsets, offset.toNat ≤ body.code.size := by
  by_cases horder : stop < start
  · rw [readBody, if_pos horder]
    rfl
  · rw [readBody_eq horder]
    exact (vets_readMarks _).bind fun r _ => vets_bodyOf _ _

end Body

section Load

variable {data : ByteArray}

lemma vets_readMany_rows {f : Nat → Except ModuleError (α × Nat)} {w : Nat} {P : Nat → α → Prop}
    (hf : ∀ p, Vets (f p) fun r => r.2 = p + w ∧ P p r.1) (n pos : Nat) (found : Array α) :
    Vets (readMany f n pos found) fun r => r.2 = pos + w * n ∧ ∃ rows : List α,
      r.1 = found ++ rows.toArray ∧ rows.length = n ∧
        ∀ k (hk : k < rows.length), P (pos + w * k) rows[k] := by
  induction n generalizing pos found with
  | zero => exact ⟨rfl, [], by simp⟩
  | succ n ih =>
    have hfirst := hf pos
    rw [readMany]
    cases h : f pos with
    | error e =>
      rw [h] at hfirst
      exact hfirst
    | ok r =>
      rw [h] at hfirst
      obtain ⟨a, next⟩ := r
      obtain ⟨rfl, ha⟩ : next = pos + w ∧ P pos a := hfirst
      have hnext (k : Nat) : pos + w + w * k = pos + w * (k + 1) := by
        rw [Nat.mul_succ, Nat.add_right_comm, ← Nat.add_assoc]
      refine (ih (pos + w) (found.push a)).mono ?_
      rintro ⟨out, stop⟩ ⟨rfl, rows, rfl, hlength, hrows⟩
      refine ⟨hnext n, a :: rows, by simp, by simp [hlength], fun k hk => ?_⟩
      cases k with
      | zero => exact ha
      | succ k =>
        rw [← hnext]
        exact hrows k (by simpa using hk)

def rowAt (i : Nat) : Nat :=
  Builder.headerSize + Builder.tableHeaderSize + 4 * i

lemma vets_readRoutineOffset {codeAt pos : Nat} :
    Vets (readRoutineOffset data codeAt pos) fun r => r.2 = pos + 4 ∧
      (Bytes.at32? data pos).map (·.toNat) = some r.1 ∧ r.1 ≤ data.size := by
  refine (vets_need _).bind fun offset hoffset => ?_
  split
  · rfl
  · next h =>
    simp only [Bool.or_eq_true, decide_eq_true_eq, not_or, Nat.not_lt] at h
    exact ⟨rfl, by rw [hoffset, Option.map_some], h.2⟩

/-- What loading makes sure of: the bodies start at the given positions, which are those of the
table of routines and lie in the data; there is an entry and a parameter list for each of them; the
lists stand behind the entries, and the texts where the table of texts says; and what has not been
read yet fails only for damage. -/
structure Vetted (data : ByteArray) (m : Module) (offsets : Array Nat) : Prop where
  codeAt : ∃ n, Bytes.at32? data 12 = some n ∧ n.toNat ≤ data.size
  rows : (Bytes.at16? data (Builder.headerSize + 6)).map (·.toNat) = some offsets.size
  table : ∀ i (h : i < offsets.size), (Bytes.at32? data (rowAt i)).map (·.toNat) = some offsets[i]
  inside : ∀ i (h : i < offsets.size), offsets[i] ≤ data.size
  bodies : m.bodies = readBodies data offsets
  entries : m.entries.size = offsets.size
  parameterLists : m.parameterLists.size = offsets.size
  listRows : ∃ at_ : UInt32, Bytes.at32? data 4 = some at_ ∧
    (Bytes.at16? data (at_.toNat + 6)).map (·.toNat) = some offsets.size ∧
    ∀ i < offsets.size, ∃ mark entry place,
      Bytes.at16? data (at_.toNat + Builder.tableHeaderSize + 2 * i) = some mark ∧
      readEntry data (at_.toNat + Builder.tableHeaderSize + 2 * (offsets.size + 1) + mark.toNat) =
        .ok (entry, place) ∧
      m.parameterLists[i]? = some ((readTexts data place).map (·.1))
  textRows : ∃ (at_ : UInt32) (places : Array Nat), Bytes.at32? data 8 = some at_ ∧
    (Bytes.at16? data (at_.toNat + 6)).map (·.toNat) = some places.size ∧
    (∀ i (h : i < places.size),
      (Bytes.at32? data (at_.toNat + Builder.tableHeaderSize + 4 * i)).map (·.toNat) =
        some places[i]) ∧
    m.texts = places.map fun place => (readText data place).map (·.1)
  lists : ∀ row ∈ m.parameterLists, Vets row fun _ => True
  texts : ∀ row ∈ m.texts, Vets row fun _ => True

lemma getElem?_lists {start pos n : Nat} {marks : List UInt16} {entries : List (Entry × Nat)}
    (hlength : marks.length = n + 1)
    (hmarks : ∀ k (hk : k < marks.length), Bytes.at16? data (pos + 2 * k) = some marks[k])
    (hentries : List.Forall₂ (fun mark entry => readEntry data (start + mark.toNat) = .ok entry)
      (marks.take n) entries) {i : Nat} (hi : i < n) :
    ∃ mark entry place, Bytes.at16? data (pos + 2 * i) = some mark ∧
      readEntry data (start + mark.toNat) = .ok (entry, place) ∧
      entries[i]? = some (entry, place) := by
  have hi' : i < entries.length := by
    rw [← hentries.length_eq, List.length_take]
    omega
  have hread := hentries.get (i := i) (by rw [List.length_take]; omega) hi'
  simp only [List.get_eq_getElem, List.getElem_take] at hread
  exact ⟨marks[i], entries[i].1, entries[i].2, hmarks i (by omega), hread,
    List.getElem?_eq_getElem hi'⟩

lemma vets_load (name : String) (data : ByteArray) :
    Vets (load name data) fun m => ∃ offsets, Vetted data m offsets := by
  -- along the steps of loading; each tells what it has made sure of
  refine (vets_need _).bind fun found _ => ?_
  split
  · rfl
  refine (vets_need _).bind fun entriesAt hentriesAt => (vets_need _).bind fun textsAt htextsAt =>
    (vets_need _).bind fun codeAt hcodeAt => ?_
  split
  · rfl
  rename_i hcode
  refine vets_readTableHeader.bind fun header hheader => ?_
  refine (vets_readMany_rows (P := fun p n => (Bytes.at32? data p).map (·.toNat) = some n ∧
    n ≤ data.size) (fun _ => vets_readRoutineOffset) _ _ _).bind fun bodies hbodies => ?_
  refine vets_readTableHeader.bind fun entryHeader hentryHeader => ?_
  dsimp only
  split
  · rfl
  rename_i hcounts
  refine (vets_readMany_rows (P := fun p mark => Bytes.at16? data p = some mark)
    (fun _ => vets_read16_row) _ _ _).bind fun marks hmarks => ?_
  refine (vets_readEntries _ _).bind fun entries hentries => ?_
  refine vets_readTableHeader.bind fun importHeader _ => ?_
  refine (vets_readMany_true (fun _ => vets_readText) _ _).bind fun imports _ => ?_
  refine vets_readTableHeader.bind fun textHeader htextHeader => ?_
  refine (vets_readMany_rows (P := fun p n => (Bytes.at32? data p).map (·.toNat) = some n)
    (fun _ => vets_readTextOffset) _ _ _).bind fun texts htexts => ?_
  -- the rows that were read are those of the tables that were announced
  obtain ⟨-, rows, hrows, hlength, htable⟩ := hbodies
  obtain ⟨hstart, markRows, hmarkRows, hmarkCount, hmarkTable⟩ := hmarks
  obtain ⟨entryRows, hentryRows, hread⟩ := hentries
  obtain ⟨-, textRows, htextRows, htextCount, htextTable⟩ := htexts
  rw [hheader.1] at htable
  rw [Array.empty_append] at hrows hmarkRows hentryRows htextRows
  rw [hmarkRows, List.toList_toArray] at hread
  rw [hentryHeader.1] at hmarkTable hstart
  rw [htextHeader.1] at htextTable
  have hsame : entryHeader.1 = header.1 := by simpa using hcounts
  have hsize : bodies.1.size = header.1.toNat := by rw [hrows, List.size_toArray, hlength]
  have hcount : entries.size = bodies.1.size := by
    rw [hsize, hentryRows, List.size_toArray, ← hread.length_eq, List.length_take, hmarkCount]
    omega
  have hrow (i : Nat) (h : i < bodies.1.size) :
      (Bytes.at32? data (rowAt i)).map (·.toNat) = some bodies.1[i] ∧ bodies.1[i] ≤ data.size := by
    simp only [hrows, List.getElem_toArray]
    exact htable i (by simpa [hrows] using h)
  refine ⟨bodies.1, ⟨codeAt, hcodeAt, Nat.not_lt.mp hcode⟩, ?_, fun i h => (hrow i h).1,
    fun i h => (hrow i h).2, rfl, ?_, ?_, ⟨entriesAt, hentriesAt, ?_, fun i hi => ?_⟩,
    ⟨textsAt, texts.1, htextsAt, ?_, fun i hi => ?_, rfl⟩, fun row hrow => ?_, fun row hrow => ?_⟩
  · rw [hheader.2, hrows, List.size_toArray, hlength, Option.map_some]
  · simpa using hcount
  · simpa using hcount
  · rw [hentryHeader.2, hsame, hsize, Option.map_some]
  · rw [hsize] at hi ⊢
    obtain ⟨mark, entry, place, hmark, hentry, hfound⟩ :=
      getElem?_lists hmarkCount hmarkTable hread hi
    rw [hstart] at hentry
    refine ⟨mark, entry, place, hmark, hentry, ?_⟩
    simp only [hentryRows, List.map_toArray, List.getElem?_toArray, List.getElem?_map, hfound,
      Option.map_some]
  · rw [htextHeader.2, htextRows, List.size_toArray, htextCount, Option.map_some]
  · simp only [htextRows, List.getElem_toArray]
    exact htextTable i (by simpa [htextRows] using hi)
  · obtain ⟨⟨_, pos⟩, -, rfl⟩ := Array.mem_map.mp hrow
    exact vets_readTexts.map _
  · obtain ⟨pos, -, rfl⟩ := Array.mem_map.mp hrow
    exact vets_readText.map _

end Load

section Bounded

/-- A lookup that finds an index out of range exactly from `n` on, and fails with errors of modules
only. -/
def Bounded (n : Nat) (x : UInt16 → Except ModuleError α) : Prop :=
  ∀ i, ((∃ e, x i = .error e ∧ e.code = "MODULE_INDEX_OUT_OF_RANGE") ↔ n ≤ i.toNat) ∧
    ∀ e, x i = .error e → e.OfModule

lemma lookup_of_lt {table : Table} {rows : Array α} {i : UInt16} (h : i.toNat < rows.size) :
    lookup table rows i = .ok rows[i.toNat] := by
  rw [lookup, Array.getElem?_eq_getElem h]

lemma lookup_of_ge {table : Table} {rows : Array α} {i : UInt16} (h : rows.size ≤ i.toNat) :
    lookup table rows i = .error (.outOfRange table i) := by
  rw [lookup, Array.getElem?_eq_none h]

lemma ofModule_outOfRange (table : Table) (i : UInt16) :
    (ModuleError.outOfRange table i).OfModule :=
  (by decide +kernel : "MODULE_".toList <+: "MODULE_INDEX_OUT_OF_RANGE".toList)

lemma bounded_lookup_bind {table : Table} {rows : Array α} {f : α → Except ModuleError β}
    (hf : ∀ row ∈ rows, Vets (f row) fun _ => True) :
    Bounded rows.size fun i => lookup table rows i >>= f := by
  intro i
  by_cases h : i.toNat < rows.size
  · have hrow := hf rows[i.toNat] (Array.getElem_mem h)
    simp only [lookup_of_lt h, Except.ok_bind]
    cases hx : f rows[i.toNat] with
    | ok b => simp [h]
    | error e =>
      rw [hx] at hrow
      obtain ⟨hcode, hrange⟩ := ModuleError.code_of_isDamage hrow
      have hnot : ¬rows.size ≤ i.toNat := Nat.not_le.mpr h
      simpa [hnot] using ⟨hrange, hcode⟩
  · rw [Nat.not_lt] at h
    simp only [lookup_of_ge h]
    refine ⟨⟨fun _ => h, fun _ => ⟨_, rfl, rfl⟩⟩, ?_⟩
    rintro e ⟨⟩
    exact ofModule_outOfRange table i

lemma bounded_lookup (table : Table) (rows : Array α) : Bounded rows.size (lookup table rows) := by
  have h : Bounded rows.size fun i => lookup table rows i >>= pure :=
    bounded_lookup_bind fun _ _ => trivial
  simpa only [bind_pure] using h

end Bounded

section Vetted

variable {data : ByteArray} {m : Module} {offsets : Array Nat}

lemma Vetted.routineCount (h : Vetted data m offsets) : m.routineCount = offsets.size := by
  rw [Module.routineCount, h.bodies, readBodies, Array.size_mapIdx]

lemma Vetted.vets_bodies (h : Vetted data m offsets) : ∀ row ∈ m.bodies, Vets row fun body =>
    ∀ offset ∈ body.dialogueOffsets, offset.toNat ≤ body.code.size := by
  intro row hrow
  rw [h.bodies, readBodies] at hrow
  obtain ⟨i, hi, rfl⟩ := Array.mem_mapIdx.mp hrow
  exact vets_readBody

lemma Vetted.next_le (h : Vetted data m offsets) (i : Nat) :
    offsets.getD i data.size ≤ data.size := by
  by_cases hi : i < offsets.size
  · simpa [Array.getD, hi] using h.inside i hi
  · simp [Array.getD, hi]

lemma Vetted.body_eq (h : Vetted data m offsets) (i : UInt16) (hi : i.toNat < offsets.size) :
    cutBody? data offsets[i.toNat] (offsets.getD (i.toNat + 1) data.size) = some (m.body i) := by
  have hsize : i.toNat < m.bodies.size := by
    rw [← Module.routineCount, h.routineCount]
    exact hi
  rw [cutBody?_eq (h.next_le _), body, lookup_of_lt hsize, Except.ok_bind]
  simp [h.bodies, readBodies]

lemma Vetted.dialogueOffset_le (h : Vetted data m offsets) {i : UInt16} {body : Body}
    (hbody : m.body i = .ok body) : ∀ offset ∈ body.dialogueOffsets,
      offset.toNat ≤ body.code.size := by
  obtain ⟨row, hrow, rfl⟩ := Except.bind_eq_ok_iff.mp hbody
  unfold lookup at hrow
  split at hrow
  · next found hfound =>
    cases hrow
    exact h.vets_bodies _ (Array.mem_of_getElem? hfound)
  · cases hrow

end Vetted

/-- Whatever the data, loading it and looking into what was loaded fail with errors of modules only.
An index is out of range exactly when the table has no such row. The slices that reading a body
takes lie in the data, by the positions that were checked when the table of routines was read; and
the dialogue blocks of a body that can be read start in its code or right behind it. -/
theorem load_guards (name : String) (data : ByteArray) :
    (∀ e, load name data = .error e → e.OfModule) ∧
    ∀ m, load name data = .ok m →
      m.entries.size = m.routineCount ∧
      Bounded m.routineCount m.body ∧ Bounded m.routineCount m.parameters ∧
      Bounded m.routineCount m.entry ∧ Bounded m.textCount m.text ∧
      Bounded m.imports.size m.import? ∧
      (∃ offsets : Array Nat, offsets.size = m.routineCount ∧
        ∀ (i : UInt16) (hi : i.toNat < offsets.size),
          (Bytes.at32? data (rowAt i.toNat)).map (·.toNat) = some offsets[i.toNat] ∧
          cutBody? data offsets[i.toNat] (offsets.getD (i.toNat + 1) data.size) =
            some (m.body i)) ∧
      ∀ i body, m.body i = .ok body →
        ∀ offset ∈ body.dialogueOffsets, offset.toNat ≤ body.code.size := by
  have hload := vets_load name data
  refine ⟨fun e he => ?_, fun m hm => ?_⟩
  · rw [he] at hload
    exact (ModuleError.code_of_isDamage hload).1
  · rw [hm] at hload
    obtain ⟨offsets, h⟩ := hload
    have hcount := h.routineCount
    have hbodies : ∀ row ∈ m.bodies, Vets row fun _ => True :=
      fun row hrow => (h.vets_bodies row hrow).mono fun _ _ => trivial
    have hparameters : Bounded _ fun i => lookup .routines m.parameterLists i >>= id :=
      bounded_lookup_bind h.lists
    have hentries := bounded_lookup .routines m.entries
    rw [h.parameterLists, ← hcount] at hparameters
    rw [h.entries, ← hcount] at hentries
    exact ⟨h.entries.trans hcount.symm, bounded_lookup_bind (f := id) hbodies, hparameters,
      hentries, bounded_lookup_bind (f := id) h.texts, bounded_lookup _ _,
      ⟨offsets, hcount.symm, fun i hi => ⟨h.table _ hi, h.body_eq i hi⟩⟩,
      fun _ _ => h.dialogueOffset_le⟩

def stub : ByteArray :=
  [0x4e, 0x53, 0x58, 0x01, 28, 0, 0, 0, 55, 0, 0, 0, 63, 0, 0, 0,
    0x53, 0x55, 0x42, 0x52, 8, 0, 1, 0, 63, 0, 0, 0,
    0x52, 0x54, 0x49, 0x5f, 8, 0, 1, 0, 0, 0, 7, 0, 0, 0, 0, 0, 0, 0, 0,
    0x49, 0x4d, 0x50, 0x54, 8, 0, 0, 0,
    0x53, 0x54, 0x52, 0x54, 8, 0, 0, 0].toByteArray

theorem load_guards_stub :
    ∃ m, load "stub.nss" stub = .ok m ∧ m.routineCount = 1 ∧ m.body 0 = .error .truncated ∧
      ModuleError.OfModule .truncated ∧
      ∃ e, m.body 1 = .error e ∧ e.code = "MODULE_INDEX_OUT_OF_RANGE" := by
  obtain ⟨m, hm, hcount, hbody⟩ : ∃ m, load "stub.nss" stub = .ok m ∧ m.routineCount = 1 ∧
      m.body 0 = .error .truncated := ⟨_, rfl, rfl, rfl⟩
  obtain ⟨-, hbodies, -⟩ := (load_guards "stub.nss" stub).2 m hm
  exact ⟨m, hm, hcount, hbody, (hbodies 0).2 _ hbody, (hbodies 1).1.mpr (by rw [hcount]; decide)⟩

end Module

end Stagecraft
