import Stagecraft.Module.Memo
import Stagecraft.Proofs.Module.Guarded

/-!
A memo answers as the data does, and counts one reading for each row that could be read, and one for
each time that a row could not.
-/

namespace Stagecraft

inductive Inquiry where
  | body (i : UInt16)
  | parameters (i : UInt16)
  | text (i : UInt16)
  deriving DecidableEq, Repr

inductive Answer where
  | body (found : Except ModuleError Body)
  | parameters (found : Except ModuleError (List String))
  | text (found : Except ModuleError String)

def Answer.isOk : Answer → Bool
  | body found => found.isOk
  | parameters found => found.isOk
  | text found => found.isOk

namespace Module

variable {data : ByteArray} {name : String} {m : Module}

def answer (m : Module) : Inquiry → Answer
  | .body i => .body (m.body i)
  | .parameters i => .parameters (m.parameters i)
  | .text i => .text (m.text i)

def hasRow (m : Module) : Inquiry → Bool
  | .body i | .parameters i => i.toNat < m.routineCount
  | .text i => i.toNat < m.textCount

section Afresh

def rowAfresh (table : Table) (data : ByteArray) (pos : Nat) (i : UInt16)
    (read : Nat → Except ModuleError α) : Except ModuleError α := do
  let rows ← need (Bytes.at16? data (pos + 6))
  if i.toNat < rows.toNat then read rows.toNat else .error (.outOfRange table i)

def bodyAfresh (data : ByteArray) (i : UInt16) : Except ModuleError Body :=
  rowAfresh .routines data Builder.headerSize i fun rows => do
    let start ← need (Bytes.at32? data (rowAt i.toNat))
    if i.toNat + 1 < rows then
      let stop ← need (Bytes.at32? data (rowAt (i.toNat + 1)))
      readBody data start.toNat stop.toNat
    else readBody data start.toNat data.size

def parametersAfresh (data : ByteArray) (i : UInt16) : Except ModuleError (List String) := do
  let entriesAt ← need (Bytes.at32? data 4)
  let marksAt := entriesAt.toNat + Builder.tableHeaderSize
  rowAfresh .routines data entriesAt.toNat i fun rows => do
    let mark ← need (Bytes.at16? data (marksAt + 2 * i.toNat))
    let (_, place) ← readEntry data (marksAt + 2 * (rows + 1) + mark.toNat)
    (readTexts data place).map (·.1)

def textAfresh (data : ByteArray) (i : UInt16) : Except ModuleError String := do
  let textsAt ← need (Bytes.at32? data 8)
  rowAfresh .texts data textsAt.toNat i fun _ => do
    let place ← need (Bytes.at32? data (textsAt.toNat + Builder.tableHeaderSize + 4 * i.toNat))
    (readText data place.toNat).map (·.1)

/-- What the data says, with nothing read but the one row. -/
def afresh (data : ByteArray) : Inquiry → Answer
  | .body i => .body (bodyAfresh data i)
  | .parameters i => .parameters (parametersAfresh data i)
  | .text i => .text (textAfresh data i)

lemma rowAfresh_eq {table : Table} {pos : Nat} {i : UInt16}
    {read : Nat → Except ModuleError α} {rows : Array (Except ModuleError α)}
    (hcount : (Bytes.at16? data (pos + 6)).map (·.toNat) = some rows.size)
    (hread : ∀ h : i.toNat < rows.size, read rows.size = rows[i.toNat]) :
    rowAfresh table data pos i read = lookup table rows i >>= id := by
  obtain ⟨count, hcount, hsize⟩ := Option.map_eq_some_iff.mp hcount
  rw [rowAfresh, hcount]
  by_cases h : i.toNat < rows.size
  · simp only [need, Except.ok_bind, hsize, if_pos h, lookup_of_lt h, hread h, id]
  · simp only [need, Except.ok_bind, hsize, if_neg h, lookup_of_ge (Nat.not_lt.mp h)]
    rfl

variable {offsets : Array Nat}

lemma Vetted.bodyAfresh (h : Vetted data m offsets) (i : UInt16) :
    bodyAfresh data i = m.body i := by
  have hsize : m.bodies.size = offsets.size := h.routineCount
  refine rowAfresh_eq (by rw [hsize]; exact h.rows) fun hi => ?_
  rw [hsize] at hi
  obtain ⟨start, hstart, hstartAt⟩ := Option.map_eq_some_iff.mp (h.table _ hi)
  simp only [hstart, need, Except.ok_bind, hstartAt, hsize]
  by_cases hnext : i.toNat + 1 < offsets.size
  · obtain ⟨stop, hstop, hstopAt⟩ := Option.map_eq_some_iff.mp (h.table _ hnext)
    simp [hstop, hstopAt, h.bodies, readBodies, hnext, Array.getD]
  · simp [h.bodies, readBodies, hnext, Array.getD]

lemma Vetted.parametersAfresh (h : Vetted data m offsets) (i : UInt16) :
    parametersAfresh data i = m.parameters i := by
  obtain ⟨entriesAt, hentriesAt, hcount, hrows⟩ := h.listRows
  rw [Module.parametersAfresh, hentriesAt, need, Except.ok_bind]
  refine rowAfresh_eq (by rw [h.parameterLists]; exact hcount) fun hi => ?_
  obtain ⟨mark, entry, place, hmark, hentry, hlist⟩ := hrows _ (h.parameterLists ▸ hi)
  rw [Array.getElem?_eq_getElem hi, Option.some.injEq] at hlist
  simp only [hmark, need, Except.ok_bind, h.parameterLists, hentry, hlist]

lemma Vetted.textAfresh (h : Vetted data m offsets) (i : UInt16) :
    textAfresh data i = m.text i := by
  obtain ⟨textsAt, places, htextsAt, hcount, hrows, htexts⟩ := h.textRows
  have hsize : m.texts.size = places.size := by rw [htexts, Array.size_map]
  rw [Module.textAfresh, htextsAt, need, Except.ok_bind]
  refine rowAfresh_eq (by rw [hsize]; exact hcount) fun hi => ?_
  rw [hsize] at hi
  obtain ⟨place, hplace, hplaceAt⟩ := Option.map_eq_some_iff.mp (hrows _ hi)
  simp only [hplace, need, Except.ok_bind, hplaceAt, htexts, Array.getElem_map]

lemma Vetted.answer_eq (h : Vetted data m offsets) (q : Inquiry) : m.answer q = afresh data q := by
  cases q with
  | body i => exact congrArg Answer.body (h.bodyAfresh i).symm
  | parameters i => exact congrArg Answer.parameters (h.parametersAfresh i).symm
  | text i => exact congrArg Answer.text (h.textAfresh i).symm

end Afresh

/-- One reading for each question that has an answer, however often it is asked, and one for each
time that a row is asked for and cannot be read. -/
def readings (m : Module) (asked : List Inquiry) : Nat :=
  (asked.toFinset.filter fun q => (m.answer q).isOk).card +
    asked.countP fun q => m.hasRow q && !(m.answer q).isOk

lemma readings_cons (m : Module) (q : Inquiry) (asked : List Inquiry) :
    m.readings (q :: asked) = m.readings asked +
      if (m.answer q).isOk then (if q ∈ asked then 0 else 1) else if m.hasRow q then 1 else 0 := by
  unfold readings
  rw [List.toFinset_cons, Finset.filter_insert, List.countP_cons]
  by_cases hok : (m.answer q).isOk
  · by_cases hmem : q ∈ asked
    · simp [hok, hmem]
    · simp [hok, hmem, Nat.add_right_comm]
  · simp [hok, Nat.add_assoc]

lemma readings_perm {asked asked' : List Inquiry} (h : asked.Perm asked') :
    m.readings asked = m.readings asked' := by
  rw [readings, readings, List.toFinset_eq_of_perm _ _ h, h.countP_eq]

end Module

namespace Memo

variable {α : Type} {m : Module} {c : Memo} {asked : List Inquiry}

def ask (c : Memo) : Inquiry → Answer × Memo
  | .body i => (c.body i).map .body id
  | .parameters i => (c.parameters i).map .parameters id
  | .text i => (c.text i).map .text id

def askAll (c : Memo) : List Inquiry → List Answer × Memo
  | [] => ([], c)
  | q :: rest => ((c.ask q).1 :: ((c.ask q).2.askAll rest).1, ((c.ask q).2.askAll rest).2)

section Look

variable {rows : Array (Except ModuleError α)} {slots : Array (Option α)} {seen : UInt16 → Prop}

structure Keeps (rows : Array (Except ModuleError α)) (slots : Array (Option α))
    (seen : UInt16 → Prop) : Prop where
  size : slots.size = rows.size
  filled : ∀ i a, slots[i.toNat]? = some (some a) ↔ rows[i.toNat]? = some (.ok a) ∧ seen i

lemma keeps_replicate (rows : Array (Except ModuleError α)) :
    Keeps rows (Array.replicate rows.size none) fun _ => False := by
  refine ⟨Array.size_replicate, fun i a => ?_⟩
  simp [Array.getElem?_replicate]

lemma Keeps.congr {seen' : UInt16 → Prop} (h : Keeps rows slots seen)
    (hseen : ∀ i, seen' i ↔ seen i) : Keeps rows slots seen' :=
  ⟨h.size, fun i a => by rw [h.filled, hseen]⟩

lemma Keeps.add_of_ne (h : Keeps rows slots seen) {i : UInt16}
    (hi : ∀ a, rows[i.toNat]? ≠ some (.ok a)) : Keeps rows slots fun j => j = i ∨ seen j := by
  refine ⟨h.size, fun j a => ?_⟩
  rw [h.filled]
  by_cases hj : j = i
  · subst hj
    simp [hi a]
  · simp [hj]

lemma Keeps.add (h : Keeps rows slots seen) {i : UInt16} {a : α}
    (hi : rows[i.toNat]? = some (.ok a)) :
    Keeps rows (slots.setIfInBounds i.toNat (some a)) fun j => j = i ∨ seen j := by
  have hlt : i.toNat < slots.size := by
    rw [h.size]
    exact (Array.getElem?_eq_some_iff.mp hi).1
  refine ⟨by rw [Array.size_setIfInBounds, h.size], fun j b => ?_⟩
  by_cases hj : j = i
  · subst hj
    simp [hlt, hi]
  · have hne : i.toNat ≠ j.toNat := fun he => hj (UInt16.toNat_inj.mp he).symm
    simp [hne, h.filled, hj]

lemma look_spec [DecidablePred seen] (h : Keeps rows slots seen) (table : Table) (i : UInt16) :
    (look table rows slots i).1 = Module.lookup table rows i >>= id ∧
      Keeps rows (look table rows slots i).2.1 (fun j => j = i ∨ seen j) ∧
      (look table rows slots i).2.2 =
        if (Module.lookup table rows i >>= id).isOk then (if seen i then 0 else 1)
        else if i.toNat < rows.size then 1 else 0 := by
  have hfilled := h.filled i
  by_cases hi : i.toNat < rows.size
  · have hrow := Array.getElem?_eq_getElem hi
    have hi' : i.toNat < slots.size := h.size ▸ hi
    have hslot := Array.getElem?_eq_getElem hi'
    rw [Module.lookup_of_lt hi]
    cases hr : rows[i.toNat] with
    | error e =>
      rw [hr] at hrow
      cases hs : slots[i.toNat] with
      | none =>
        rw [hs] at hslot
        have hlook : look table rows slots i = (.error e, slots, 1) := by
          simp only [look, hslot, hrow]
        simp only [hlook, if_pos hi]
        exact ⟨rfl, h.add_of_ne (by simp [hrow]), rfl⟩
      -- no slot is filled for a row that cannot be read
      | some a => simp [hslot, hs, hrow] at hfilled
    | ok a =>
      rw [hr] at hrow
      cases hs : slots[i.toNat] with
      | none =>
        rw [hs] at hslot
        have hnew : ¬seen i := fun hseen => by simpa [hslot] using (hfilled a).mpr ⟨hrow, hseen⟩
        have hlook : look table rows slots i =
            (.ok a, slots.setIfInBounds i.toNat (some a), 1) := by
          simp only [look, hslot, hrow]
        simp only [hlook, if_neg hnew]
        exact ⟨rfl, h.add hrow, rfl⟩
      | some b =>
        rw [hs] at hslot
        obtain ⟨hb, hseen⟩ := (hfilled b).mp hslot
        obtain rfl : a = b := by simpa [hrow] using hb
        have hlook : look table rows slots i = (.ok a, slots, 0) := by
          simp only [look, hslot]
        simp only [hlook, if_pos hseen]
        refine ⟨rfl, h.congr fun j => or_iff_right_of_imp ?_, rfl⟩
        rintro rfl
        exact hseen
  · have hrow := Array.getElem?_eq_none (Nat.not_lt.mp hi)
    have hslot := Array.getElem?_eq_none (h.size ▸ Nat.not_lt.mp hi : slots.size ≤ i.toNat)
    have hlook : look table rows slots i = (.error (.outOfRange table i), slots, 0) := by
      simp only [look, hslot]
    simp only [Module.lookup_of_ge (Nat.not_lt.mp hi), hlook, if_neg hi]
    exact ⟨rfl, h.add_of_ne (by simp [hrow]), rfl⟩

end Look

structure Remembers (m : Module) (asked : List Inquiry) (c : Memo) : Prop where
  subject : c.subject = m
  bodies : Keeps m.bodies c.bodies fun i => .body i ∈ asked
  parameterLists : Keeps m.parameterLists c.parameterLists fun i => .parameters i ∈ asked
  texts : Keeps m.texts c.texts fun i => .text i ∈ asked
  reads : c.reads = m.readings asked

lemma remembers_ofModule (m : Module) : Remembers m [] (ofModule m) where
  subject := rfl
  bodies := (keeps_replicate _).congr (by simp)
  parameterLists := (keeps_replicate _).congr (by simp)
  texts := (keeps_replicate _).congr (by simp)
  reads := rfl

lemma Remembers.ask (h : Remembers m asked c) (hlists : m.parameterLists.size = m.routineCount)
    (q : Inquiry) :
    (c.ask q).1 = m.answer q ∧ Remembers m (q :: asked) (c.ask q).2 := by
  obtain ⟨rfl, hbodies, hparameters, htexts, hreads⟩ := h
  cases q with
  | body i =>
    obtain ⟨hanswer, hkeeps, hcost⟩ := look_spec hbodies .routines i
    refine ⟨congrArg Answer.body hanswer, rfl, hkeeps.congr (by simp), hparameters.congr (by simp),
      htexts.congr (by simp), ?_⟩
    change c.reads + (look .routines c.subject.bodies c.bodies i).2.2 = _
    rw [hcost, hreads, Module.readings_cons]
    simp only [Module.hasRow, decide_eq_true_eq]
    rfl
  | parameters i =>
    obtain ⟨hanswer, hkeeps, hcost⟩ := look_spec hparameters .routines i
    rw [hlists] at hcost
    refine ⟨congrArg Answer.parameters hanswer, rfl, hbodies.congr (by simp),
      hkeeps.congr (by simp), htexts.congr (by simp), ?_⟩
    change c.reads + (look .routines c.subject.parameterLists c.parameterLists i).2.2 = _
    rw [hcost, hreads, Module.readings_cons]
    simp only [Module.hasRow, decide_eq_true_eq]
    rfl
  | text i =>
    obtain ⟨hanswer, hkeeps, hcost⟩ := look_spec htexts .texts i
    refine ⟨congrArg Answer.text hanswer, rfl, hbodies.congr (by simp), hparameters.congr (by simp),
      hkeeps.congr (by simp), ?_⟩
    change c.reads + (look .texts c.subject.texts c.texts i).2.2 = _
    rw [hcost, hreads, Module.readings_cons]
    simp only [Module.hasRow, decide_eq_true_eq]
    rfl

lemma Remembers.askAll (h : Remembers m asked c) (hlists : m.parameterLists.size = m.routineCount)
    (qs : List Inquiry) :
    (c.askAll qs).1 = qs.map m.answer ∧ Remembers m (qs.reverse ++ asked) (c.askAll qs).2 := by
  induction qs generalizing c asked with
  | nil => exact ⟨rfl, h⟩
  | cons q rest ih =>
    obtain ⟨hanswer, hnext⟩ := h.ask hlists q
    obtain ⟨hanswers, hlast⟩ := ih hnext
    rw [List.reverse_cons, List.append_assoc, List.singleton_append]
    exact ⟨congrArg₂ List.cons hanswer hanswers, hlast⟩

end Memo

namespace Module

/-- Each answer about a loaded module is what reading that row of the data afresh gives, whatever
was asked before. There is one reading for each of the different questions that have an answer, and
one for each time that a row was asked for and could not be read. -/
theorem askAll_ofModule {name : String} {data : ByteArray} {m : Module}
    (h : load name data = .ok m) (qs : List Inquiry) :
    ((Memo.ofModule m).askAll qs).1 = qs.map (afresh data) ∧
      ((Memo.ofModule m).askAll qs).2.reads =
        (qs.toFinset.filter fun q => (afresh data q).isOk).card +
          qs.countP fun q => m.hasRow q && !(afresh data q).isOk := by
  have hload := vets_load name data
  rw [h] at hload
  obtain ⟨offsets, hvetted⟩ := hload
  have hanswer : m.answer = afresh data := funext hvetted.answer_eq
  have hlists := hvetted.parameterLists.trans hvetted.routineCount.symm
  obtain ⟨hanswers, hlast⟩ := (Memo.remembers_ofModule m).askAll hlists qs
  rw [List.append_nil] at hlast
  rw [← hanswer]
  exact ⟨hanswers, hlast.reads.trans (readings_perm (List.reverse_perm qs))⟩

theorem askAll_ofModule_stub :
    ∃ m, load "stub.nss" stub = .ok m ∧
      ((Memo.ofModule m).askAll [.body 0, .parameters 0, .body 0, .parameters 0, .body 1]).1 =
        [.body (.error .truncated), .parameters (.ok []), .body (.error .truncated),
          .parameters (.ok []), .body (.error (.outOfRange .routines 1))] ∧
      ((Memo.ofModule m).askAll
        [.body 0, .parameters 0, .body 0, .parameters 0, .body 1]).2.reads = 3 := by
  obtain ⟨m, hm, hcount⟩ : ∃ m, load "stub.nss" stub = .ok m ∧ m.routineCount = 1 :=
    ⟨_, rfl, rfl⟩
  obtain ⟨hanswers, hreads⟩ := askAll_ofModule hm
    [.body 0, .parameters 0, .body 0, .parameters 0, .body 1]
  have hbody : (afresh stub (.body 0)).isOk = false := rfl
  have hlist : (afresh stub (.parameters 0)).isOk = true := rfl
  have hread : (Finset.filter (fun q => (afresh stub q).isOk) <| List.toFinset
      [.body 0, .parameters 0, .body 0, .parameters 0, .body 1]).card = 1 := by decide +kernel
  refine ⟨m, hm, hanswers, hreads.trans ?_⟩
  rw [hread]
  simp [hasRow, hcount, hbody, hlist]

end Module

end Stagecraft
