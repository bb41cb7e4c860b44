import Stagecraft.Proofs.Code.ExpressionRun
import Stagecraft.Proofs.Code.Structured

namespace Stagecraft

open Bytes (Holds)

structure MenuEntry where
  label : String
  body : Code

structure Menu where
  start : Nat
  entries : List MenuEntry

def MenuEntry.extent (entry : MenuEntry) : Nat :=
  6 + entry.body.extent + 3

structure MenuEntry.Laid (entry : MenuEntry) (module : Module) (bytes : ByteArray)
    (stop pos : Nat) : Prop where
  asks : ∃ token, module.text token = .ok entry.label ∧
    Holds bytes pos (Instruction.isPressed token).encode
  skips : ∃ offset, Holds bytes (pos + 3) (Instruction.jumpIfFalse offset).encode ∧
    (pos + 6 + offset.toInt : Int) = (pos + entry.extent : Nat)
  body : Placed bytes stop (pos + 6) entry.body.toList
  leaves : ∃ offset, Holds bytes (pos + 6 + entry.body.extent) (Instruction.jump offset).encode ∧
    (pos + entry.extent + offset.toInt : Int) = stop

namespace Menu

def labels (menu : Menu) : List String :=
  menu.entries.map (·.label)

def ask (menu : Menu) (i : Nat) : Nat :=
  menu.start + 1 + ((menu.entries.take i).map MenuEntry.extent).sum

def wait (menu : Menu) : Nat :=
  menu.ask menu.entries.length

def stop (menu : Menu) : Nat :=
  menu.wait + 4

structure Laid (menu : Menu) (module : Module) (bytes : ByteArray) : Prop where
  begins : Holds bytes menu.start Instruction.selectStart.encode
  entries : ∀ (i : Nat) entry, menu.entries[i]? = some entry →
    entry.Laid module bytes menu.stop (menu.ask i)
  waits : Holds bytes menu.wait Instruction.selectEnd.encode
  again : ∃ offset, Holds bytes (menu.wait + 1) (Instruction.jump offset).encode ∧
    (menu.stop + offset.toInt : Int) = menu.ask 0

variable {menu : Menu} {i : Nat} {entry : MenuEntry} {module : Module} {bytes : ByteArray}

@[simp] lemma ask_zero (menu : Menu) : menu.ask 0 = menu.start + 1 := by
  simp [ask]

lemma ask_succ (h : menu.entries[i]? = some entry) :
    menu.ask (i + 1) = menu.ask i + entry.extent := by
  simp [ask, List.take_add_one, h, Nat.add_assoc]

lemma ask_le_wait (menu : Menu) (i : Nat) : menu.ask i ≤ menu.wait := by
  have h := List.sum_take_add_sum_drop (menu.entries.map MenuEntry.extent) i
  simp only [wait, ask, List.take_length]
  rw [List.map_take]
  omega

lemma ask_add_le (h : menu.entries[i]? = some entry) : menu.ask i + entry.extent ≤ menu.wait :=
  ask_succ h ▸ menu.ask_le_wait (i + 1)

lemma Laid.stop_le (h : menu.Laid module bytes) : menu.stop ≤ bytes.size := by
  obtain ⟨offset, hholds, -⟩ := h.again
  exact Instruction.le_size_of_holds hholds

end Menu

namespace Emit

variable {c : Context} {b : Builder} {module : Module} {bytes : ByteArray}

def Enters (c : Context) (b : Builder) (case : Choice) (entry : MenuEntry) : Prop :=
  entry.label = case.label ∧ StatementCode c b true case.body entry.body

lemma ChoiceCode.laid (hb : b.TextsIn module) {case : Choice} {code : Code}
    (h : ChoiceCode c b case code) (bytes : ByteArray) :
    ∃ entry, Enters c b case entry ∧ code.extent = entry.extent ∧
      ∀ stop pos, Placed bytes stop pos code.toList → entry.Laid module bytes stop pos := by
  cases case with
  | mk node label body =>
    obtain ⟨token, skip, inner, htoken, hskip, hinner, rfl⟩ := h
    have hskipSize : skip.size = 3 := hskip.size fun _ => rfl
    have htest : (Instruction.isPressed token).size = 3 := rfl
    have hextent : Code.extent #[.run (.isPressed token), .run skip] = 6 := by
      simp [Step.size, htest, hskipSize]
    refine ⟨⟨label, inner⟩, ⟨rfl, hinner⟩, ?_, fun stop pos hplaced => ?_⟩
    · rw [Code.extent_append, Code.extent_append, hextent]
      rfl
    · rw [Placed.code_append_iff, Placed.code_append_iff, Code.extent_append, hextent,
        ← Nat.add_assoc] at hplaced
      obtain ⟨⟨⟨hask, hpskip, -⟩, hbody⟩, ⟨offset, hleave, hoffset⟩, -⟩ := hplaced
      obtain ⟨hfits, rfl⟩ := hskip
      refine ⟨⟨token, hb _ _ htoken, hask⟩, ⟨_, hpskip, ?_⟩, hbody, offset, hleave, ?_⟩
      · rw [Int16.toInt_ofInt_of_le hfits.1 (by omega)]
        simp only [MenuEntry.extent]
        push_cast
        omega
      · simp only [MenuEntry.extent, Step.jumpSize] at hoffset ⊢
        push_cast at hoffset ⊢
        omega

lemma ChoicesCode.laid (hb : b.TextsIn module) {cases : List Choice} {code : Code}
    (h : ChoicesCode c b cases code) (bytes : ByteArray) :
    ∃ entries, List.Forall₂ (Enters c b) cases entries ∧
      code.extent = (entries.map MenuEntry.extent).sum ∧
      ∀ stop pos, Placed bytes stop pos code.toList → ∀ (i : Nat) entry, entries[i]? = some entry →
        entry.Laid module bytes stop (pos + ((entries.take i).map MenuEntry.extent).sum) := by
  induction cases generalizing code with
  | nil =>
    cases h
    exact ⟨[], .nil, rfl, by simp⟩
  | cons case rest ih =>
    obtain ⟨first, more, hfirst, hmore, rfl⟩ := h
    obtain ⟨entry, henters, hextent, hlaid⟩ := hfirst.laid hb bytes
    obtain ⟨entries, hrest, hextents, hlaids⟩ := ih hmore
    refine ⟨entry :: entries, .cons henters hrest, by simp [hextent, hextents], ?_⟩
    intro stop pos hplaced i found hfound
    rw [Placed.code_append_iff, hextent] at hplaced
    cases i with
    | zero =>
      cases hfound
      exact hlaid stop pos hplaced.1
    | succ i => simpa [Nat.add_assoc] using hlaids stop _ hplaced.2 i found hfound

lemma StatementCode.laid (hb : b.TextsIn module) {node : Node} {cases : List Choice} {inLoop : Bool}
    {code : Code} {exit start : Nat} (h : StatementCode c b inLoop (.select node cases) code)
    (hplaced : Placed bytes exit start code.toList) :
    ∃ entries, List.Forall₂ (Enters c b) cases entries ∧
      Menu.Laid ⟨start, entries⟩ module bytes ∧
      Menu.stop ⟨start, entries⟩ = start + code.extent := by
  obtain ⟨inner, closed, back, hinner, hclosed, hback, rfl⟩ := h
  have hbackSize : back.size = 3 := hback.size fun _ => rfl
  rw [Placed.code_append_iff, Placed.code_append_iff, Placed.one_iff] at hplaced
  obtain ⟨⟨hbegin, hpclosed⟩, hwait, hpback, -⟩ := hplaced
  have hpinner := hclosed.placed _ _ _ hpclosed
  obtain ⟨entries, hentries, hextent, hlaid⟩ := hinner.laid hb bytes
  have hwaitAt : Menu.wait ⟨start, entries⟩ = start + 1 + inner.extent := by
    rw [Menu.wait, Menu.ask, List.take_length, hextent]
  have hstop : Menu.stop ⟨start, entries⟩ = start + 1 + inner.extent + 4 := by
    rw [Menu.stop, hwaitAt]
  have hbegin1 : Instruction.selectStart.size = 1 := rfl
  have hwait1 : Instruction.selectEnd.size = 1 := rfl
  simp only [Code.extent_append, Code.extent_one, hclosed.extent, hbegin1, hwait1, ← Nat.add_assoc]
    at hpinner hwait hpback
  refine ⟨entries, hentries, ⟨hbegin, fun i entry hentry => ?_, hwaitAt ▸ hwait, ?_⟩, ?_⟩
  · rw [hstop]
    exact hlaid _ _ hpinner i entry hentry
  · obtain ⟨hfits, rfl⟩ := hback
    refine ⟨_, hwaitAt ▸ hpback, ?_⟩
    rw [Int16.toInt_ofInt_of_le hfits.1 (by omega), hstop, Menu.ask_zero]
    push_cast
    omega
  · rw [hstop]
    simp [hclosed.extent, hbackSize, Step.size, hbegin1, hwait1, Nat.add_assoc]

end Emit

end Stagecraft
