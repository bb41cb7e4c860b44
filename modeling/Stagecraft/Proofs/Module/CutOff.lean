import Stagecraft.Proofs.Module.Guarded
import Stagecraft.Proofs.Module.Loaded

/-!
How long a module is stands nowhere in it: the last body reaches to the end of the data.
-/

namespace Stagecraft

open Bytes (Holds of16 of32)
open Builder (textBytes entryBytes bodyBytes headerBytes starts)

lemma Bytes.Holds.start {data : ByteArray} {pos stop : Nat} {part : List UInt8}
    (h : Holds data pos part) (hstop : pos + part.length ≤ stop) :
    Holds (data.extract pos stop) 0 part := by
  rw [Holds, ByteArray.data_extract, Array.toList_extract, List.extract_eq_take_drop, List.drop_zero]
  exact List.prefix_take_iff.mpr ⟨h, by omega⟩

def Definition.cutBody (d : Definition) (k : Nat) : Except ModuleError Body :=
  if k < 2 + 2 * d.dialogues.length then .error .truncated
  else Module.bodyOf (d.dialogues.map (·.offset)).toArray
    (d.code.extract 0 (k - (2 + 2 * d.dialogues.length)))

namespace Module

variable {data : ByteArray} {pos : Nat}

lemma readMany_read16_short {n : Nat} (hpos : pos ≤ data.size) (hshort : data.size < pos + 2 * n)
    (found : Array UInt16) : readMany (read16 data) n pos found = .error .truncated := by
  induction n generalizing pos found with
  | zero => omega
  | succ n ih =>
    cases h : Bytes.at16? data pos with
    | none => simp [readMany, read16, need, h]
    | some first =>
      have hnext := le_size_of_at16? h
      simp [readMany, read16, need, h, pure, Except.pure, ih hnext (by omega)]

lemma readMarks_short {n : Nat} (hn : n < 65536) (h : 2 ≤ data.size → Holds data 0 (of16 (.ofNat n)))
    (hshort : data.size < 2 + 2 * n) : readMarks data = .error .truncated := by
  cases hcount : Bytes.at16? data 0 with
  | none =>
    simp only [readMarks, read16, need, hcount]
    rfl
  | some count =>
    have hsize := le_size_of_at16? hcount
    rw [readMarks, read16_of_holds (h (by omega)), Except.ok_bind]
    simp only [UInt16.toNat_ofNat_of_lt' hn]
    exact readMany_read16_short (by omega) (by omega) #[]

lemma length_bodyBytes (d : Definition) :
    (bodyBytes d).length = 2 + 2 * d.dialogues.length + d.code.size := by
  simp [bodyBytes, Builder.length_flatMap_const _ fun _ => Bytes.length_of16 _, Nat.add_assoc]

lemma readBody_cut {d : Definition} (hn : d.dialogues.length < 65536)
    (h : Holds data pos (bodyBytes d)) (hpos : pos ≤ data.size) {k : Nat}
    (hk : k ≤ (bodyBytes d).length) : readBody data pos (pos + k) = d.cutBody k := by
  have hsize : (data.extract pos (pos + k)).size = k := by
    have := h.le_size hpos
    rw [ByteArray.size_extract]
    omega
  unfold Definition.cutBody
  split
  · next hshort =>
    rw [readBody_eq (by omega), readMarks_short hn (fun h2 => ?_) (by omega)]
    · rfl
    · exact h.left.left.start (by rw [Bytes.length_of16]; omega)
  · next hfront =>
    rw [length_bodyBytes] at hk
    -- the rest of the body is the whole body of a routine with less code
    have hrest : readBody data pos _ = _ :=
      readBody_of_holds (d := { d with code := d.code.extract 0 (k - (2 + 2 * d.dialogues.length)) })
        hn (List.IsPrefix.trans ?_ h)
    · rw [length_bodyBytes] at hrest
      simpa [Nat.min_eq_left, show k - (2 + 2 * d.dialogues.length) ≤ d.code.size by omega,
        Nat.add_sub_cancel' (Nat.not_lt.mp hfront)] using hrest
    · simp only [bodyBytes, Bytes.toList_cut]
      exact List.prefix_append_right_inj _ |>.mpr (List.take_prefix _ _)

end Module

namespace Builder

lemma starts_append (f : α → List UInt8) (pos : Nat) (rows more : List α) :
    starts f pos (rows ++ more) =
      starts f pos rows ++ starts f (pos + (rows.flatMap f).length) more := by
  induction rows generalizing pos with
  | nil => simp [starts]
  | cons a rest ih => simp [starts, ih, Nat.add_assoc]

/-- Where the last body starts. Without any this is the end of the written module. -/
def lastAt (b : Builder) : Nat :=
  (starts bodyBytes b.codeAt b.routines.toList).getLastD b.codeAt

variable {b : Builder} {data : ByteArray} {n : Nat}

lemma lastAt_of_nil (h : b.routines.toList = []) : b.lastAt = b.codeAt := by
  rw [lastAt, h]
  rfl

lemma lastAt_of_append {init : List Definition} {d : Definition}
    (h : b.routines.toList = init ++ [d]) :
    b.lastAt = b.codeAt + (init.flatMap bodyBytes).length := by
  rw [lastAt, h, starts_append]
  simp [starts]

lemma starts_le_lastAt (b : Builder) :
    b.codeAt ≤ b.lastAt ∧ ∀ p ∈ starts bodyBytes b.codeAt b.routines.toList, p ≤ b.lastAt := by
  obtain h | ⟨init, d, h⟩ := b.routines.toList.eq_nil_or_concat
  · rw [lastAt_of_nil h, h]
    simp [starts]
  · rw [List.concat_eq_append] at h
    rw [lastAt_of_append h, h, starts_append]
    refine ⟨Nat.le_add_right _ _, fun p hp => ?_⟩
    obtain hp | hp := List.mem_append.mp hp
    · exact (le_of_mem_starts hp).2
    · rw [starts, starts, List.mem_singleton] at hp
      exact hp.le

lemma Parts.lastAt_le (hp : b.Parts data) : b.lastAt ≤ data.size := by
  rw [hp.size]
  obtain h | ⟨init, d, h⟩ := b.routines.toList.eq_nil_or_concat
  · rw [lastAt_of_nil h]
    exact Nat.le_add_right _ _
  · rw [List.concat_eq_append] at h
    rw [lastAt_of_append h, h, List.flatMap_append, List.length_append]
    omega

lemma Parts.cut (hp : b.Parts data) (hn : b.lastAt ≤ n) : b.Tables (data.extract 0 n) := by
  obtain ⟨hcode, hstarts⟩ := starts_le_lastAt b
  have hlast := hp.lastAt_le
  have hsize : (data.extract 0 n).size = min n data.size := by
    rw [ByteArray.size_extract, Nat.sub_zero]
  have hle : b.codeAt ≤ n := hcode.trans hn
  simp only [Builder.codeAt, Builder.heapAt, Builder.textsAt, Builder.importsAt,
    Builder.entryRowsAt, Builder.entriesAt, Builder.headerSize, Builder.tableHeaderSize] at hle
  have hheader (marker : String) (hm : marker.toByteArray.size = 4) (rows : Nat) :
      (headerBytes marker rows).length = 8 := length_headerBytes marker hm rows
  refine ⟨hp.magic.cut ?_, hp.entriesAt.cut ?_, hp.textsAt.cut ?_, hp.codeAt.cut ?_,
    hp.bodyHeader.cut ?_, hp.bodyMarks.cut ?_, hp.entryHeader.cut ?_, hp.entryMarks.cut ?_,
    hp.entries.cut ?_, hp.importHeader.cut ?_, hp.imports.cut ?_, hp.textHeader.cut ?_,
    hp.textMarks.cut ?_, hp.texts.cut ?_, ?_, fun p hm => ?_⟩
  case refine_15 => rw [hsize]; omega
  case refine_16 =>
    have := hstarts p hm
    omega
  all_goals
    simp only [hheader "SUBR" rfl, hheader "RTI_" rfl, hheader "IMPT" rfl, hheader "STRT" rfl,
      length_flatMap_const _ fun _ => Bytes.length_of16 _,
      length_flatMap_const _ fun _ => Bytes.length_of32 _, Bytes.length_of32, length_starts,
      List.length_append, List.length_singleton, Array.length_toList,
      show magic.length = 4 from rfl, Builder.heapAt, Builder.textsAt, Builder.importsAt,
      Builder.entryRowsAt, Builder.entriesAt, Builder.headerSize, Builder.tableHeaderSize]
    omega

lemma Parts.lastAt_le_of_load (hp : b.Parts data) (hw : b.Writable) {name : String} {m : Module}
    (h : Module.load name (data.extract 0 n) = .ok m) : b.lastAt ≤ n := by
  have hload := Module.vets_load name (data.extract 0 n)
  rw [h] at hload
  obtain ⟨offsets, hloaded⟩ := hload
  have hsize : (data.extract 0 n).size ≤ n := by
    rw [ByteArray.size_extract]
    omega
  obtain hnil | ⟨init, d, hinit⟩ := b.routines.toList.eq_nil_or_concat
  · obtain ⟨place, hplace, hle⟩ := hloaded.codeAt
    have := Bytes.at32?_of_cut hplace
    rw [hp.codeAt.at32?, Option.some_inj] at this
    rw [← this, UInt32.toNat_ofNat_of_lt' hw.places] at hle
    rw [lastAt_of_nil hnil]
    exact hle.trans hsize
  · rw [List.concat_eq_append] at hinit
    have hcount : offsets.size = init.length + 1 := by
      obtain ⟨rows, hrows, heq⟩ := Option.map_eq_some_iff.mp hloaded.rows
      have hrows' : Bytes.at16? data (headerSize + 6) = some _ := hp.bodyHeader.right.at16?
      rw [Bytes.at16?_of_cut hrows, Option.some_inj] at hrows'
      rw [← heq, hrows', UInt16.toNat_ofNat_of_lt' hw.routines_lt, ← Array.length_toList, hinit,
        List.length_append, List.length_singleton]
    have hlast : init.length < offsets.size := by omega
    obtain ⟨place, hplace, heq⟩ := Option.map_eq_some_iff.mp (hloaded.table _ hlast)
    have hmarks := hp.bodyMarks
    have hlimit := hw.bodyPlaces
    rw [hinit, starts_append, starts, starts, ← lastAt_of_append hinit] at hmarks hlimit
    rw [List.flatMap_append, List.flatMap_singleton] at hmarks
    have hplace' := hmarks.right.at32?
    rw [length_flatMap_const _ fun _ => Bytes.length_of32 _, length_starts] at hplace'
    change Bytes.at32? data (Module.rowAt init.length) = _ at hplace'
    rw [Bytes.at32?_of_cut hplace, Option.some_inj] at hplace'
    rw [hplace', UInt32.toNat_ofNat_of_lt' (hlimit _ (by simp))] at heq
    rw [heq]
    exact (hloaded.inside _ hlast).trans hsize

end Builder

namespace Module

open Builder (starts_append)

variable {data : ByteArray} {n : Nat}

lemma readBody_of_extract_eq {data' : ByteArray} {start stop : Nat}
    (h : data'.extract start stop = data.extract start stop) :
    readBody data' start stop = readBody data start stop := by
  rw [readBody, readBody, h]

lemma readBodies_cut {places : List Nat} {last : Nat} (hplaces : ∀ p ∈ places, p ≤ last)
    (hn : last ≤ n) (hsize : n ≤ data.size) :
    readBodies (data.extract 0 n) (places ++ [last]).toArray =
      (readBodies data (places ++ [last]).toArray).pop.push (readBody data last n) := by
  have hcut : (data.extract 0 n).size = n := by
    rw [ByteArray.size_extract]
    omega
  apply Array.ext
  · simp [readBodies]
  intro i hi _
  have hi' : i < places.length + 1 := by simpa [readBodies] using hi
  by_cases hlast : i = places.length
  · subst hlast
    simpa [readBodies, Array.getElem_push, hcut] using
      readBody_of_extract_eq (Bytes.extract_cut (Nat.le_refl n))
  · have hnext : i + 1 < (places ++ [last]).length := by simp; omega
    have hle : (places ++ [last])[i + 1] ≤ n := by
      have hmem := List.getElem_mem hnext
      obtain hmem | hmem := List.mem_append.mp hmem
      · exact (hplaces _ hmem).trans hn
      · exact (List.mem_singleton.mp hmem).trans_le hn
    have hbody : readBody (data.extract 0 n) (places ++ [last])[i] _ =
        readBody data (places ++ [last])[i] _ :=
      readBody_of_extract_eq (Bytes.extract_cut hle)
    simpa [readBodies, Array.getElem_push, show i < places.length by omega, Array.getD, hnext]
      using hbody

end Module

namespace Builder

/-- A written module that is cut off before its last body starts is not loaded. From there on it is,
and what is missing shows in the last body only. -/
theorem load_cut {b : Builder} {bytes : ByteArray} (name : String) (h : b.write = .ok bytes)
    {n : Nat} (hn : n < bytes.size) :
    (n < b.lastAt → ∃ e, Module.load name (bytes.extract 0 n) = .error e ∧ e.OfModule) ∧
    (b.lastAt ≤ n → ∃ whole d, Module.load name bytes = .ok whole ∧ b.routines.back? = some d ∧
      Module.load name (bytes.extract 0 n) = .ok { whole with
        bodies := whole.bodies.pop.push (d.cutBody (n - b.lastAt)) }) := by
  obtain ⟨hw, hl⟩ := write_ok h
  have hp := parts_of_layout hl
  refine ⟨fun hlt => ?_, fun hle => ?_⟩
  · cases hload : Module.load name (bytes.extract 0 n) with
    | ok m => exact absurd (hp.lastAt_le_of_load hw hload) (Nat.not_le.mpr hlt)
    | error e =>
      have hvets := Module.vets_load name (bytes.extract 0 n)
      rw [hload] at hvets
      exact ⟨e, rfl, (ModuleError.code_of_isDamage hvets).1⟩
  · obtain hnil | ⟨init, d, hinit⟩ := b.routines.toList.eq_nil_or_concat
    · rw [lastAt_of_nil hnil] at hle
      have hsize := hp.size
      rw [hnil, List.flatMap_nil, List.length_nil] at hsize
      omega
    · rw [List.concat_eq_append] at hinit
      have hlast := lastAt_of_append hinit
      have hbodies := hp.bodies
      have hsize := hp.size
      rw [hinit, List.flatMap_append, List.flatMap_singleton] at hbodies hsize
      rw [List.length_append, ← Nat.add_assoc, ← hlast] at hsize
      have hbody := Module.readBody_cut (k := n - b.lastAt)
        (hw.routines d (by simp [hinit])).dialogues (hlast ▸ hbodies.right) hp.lastAt_le (by omega)
      rw [Nat.add_sub_cancel' hle] at hbody
      have hplaces (p : Nat) (hm : p ∈ starts bodyBytes b.codeAt init) : p ≤ b.lastAt :=
        hlast ▸ (le_of_mem_starts hm).2
      refine ⟨_, d, Module.load_tables name hw hp.toTables, ?_, ?_⟩
      · rw [← Array.getLast?_toList, hinit, List.getLast?_concat]
      · rw [Module.load_tables name hw (hp.cut hle), hinit, starts_append, starts, starts, ← hlast,
          Module.readBodies_cut hplaces hle hn.le, hbody]

theorem load_cut_sample : ∃ bytes whole, sample.write = .ok bytes ∧
    (∃ e, Module.load "main.nss" (bytes.extract 0 20) = .error e ∧ e.OfModule) ∧
    Module.load "main.nss" bytes = .ok whole ∧
    Module.load "main.nss" (bytes.extract 0 (bytes.size - 1)) = .ok { whole with
      bodies := whole.bodies.pop.push (.error .truncated) } := by
  obtain ⟨bytes, hwrite, hlast, hsize⟩ : ∃ bytes, sample.write = .ok bytes ∧
      sample.lastAt + 2 = bytes.size ∧ 20 < sample.lastAt := ⟨_, rfl, by decide +kernel, by decide⟩
  obtain ⟨hfails, -⟩ := load_cut "main.nss" hwrite (n := 20) (by omega)
  obtain ⟨-, hloads⟩ := load_cut "main.nss" hwrite (n := bytes.size - 1) (by omega)
  obtain ⟨whole, d, hwhole, hd, hcut⟩ := hloads (by omega)
  cases hd
  rw [show bytes.size - 1 - sample.lastAt = 1 by omega] at hcut
  exact ⟨bytes, whole, hwrite, hfails hsize, hwhole, hcut⟩

/-- That the last byte is missing is not noticed when a module is loaded. -/
theorem load_without_last_byte : ¬∀ (b : Builder) (bytes : ByteArray) (name : String) (n : Nat),
    b.write = .ok bytes → n < bytes.size →
      ∃ e, Module.load name (bytes.extract 0 n) = .error e ∧ e.OfModule := by
  intro h
  obtain ⟨bytes, hwrite, hsize, hload⟩ : ∃ bytes, sample.write = .ok bytes ∧ 129 < bytes.size ∧
      (Module.load "main.nss" (bytes.extract 0 129)).isOk = true :=
    ⟨_, rfl, by decide +kernel, by decide +kernel⟩
  obtain ⟨e, he, -⟩ := h sample bytes "main.nss" 129 hwrite hsize
  rw [he] at hload
  cases hload

end Builder

end Stagecraft
