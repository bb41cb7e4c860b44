import Stagecraft.Proofs.Code.Polling
import Stagecraft.Proofs.Safety.Allowed

namespace Stagecraft

open Bytes (Holds)

namespace Site

variable {s : Site} {B : Nat → Prop} {K : Nat → Nat → Prop} {i : Instruction} {pos depth : Nat}

lemma Leads.confine {offset : Int16} (h : s.Leads (pos + i.size) offset depth K)
    (hl : LeadsTo B pos i) (ho : i.offset? = some offset) :
    s.Leads (pos + i.size) offset depth fun p d => K p d ∧ B p := by
  obtain ⟨target, ht, hs, hK⟩ := h
  obtain ⟨target', ht', hB⟩ := hl offset ho
  push_cast at ht
  obtain rfl : target' = target := by omega
  exact ⟨target', by push_cast; exact ht, hs, hK, hB⟩

lemma Allows.confine (h : s.Allows (pos + i.size) depth K i) (hl : LeadsTo B pos i)
    (hnext : (∀ offset, i ≠ .jump offset) → B (pos + i.size)) :
    s.Allows (pos + i.size) depth (fun p d => K p d ∧ B p) i := by
  cases i with
  | load _ | loadArgument _ | loadGlobal _ | isPressed _ | present _ | binary _ | unary _ | pop
  | dup => exact ⟨h.1, h.2, hnext nofun⟩
  | storeArgument _ | storeGlobal _ => exact ⟨h.1, h.2.1, h.2.2, hnext nofun⟩
  | jump _ => exact Leads.confine h hl rfl
  | jumpIfTrue _ | jumpIfFalse _ => exact ⟨h.1, ⟨h.2.1, hnext nofun⟩, h.2.2.confine hl rfl⟩
  | call _ =>
    obtain ⟨parameters, hp, hd, h⟩ := h
    exact ⟨parameters, hp, hd, h, hnext nofun⟩
  | callFar _ _ =>
    obtain ⟨name, m, hname, hm, parameters, hp, hd, h⟩ := h
    exact ⟨name, m, hname, hm, parameters, hp, hd, h, hnext nofun⟩
  | dispatch _ _ =>
    obtain ⟨signature, hs, ha, hd, h⟩ := h
    exact ⟨signature, hs, ha, hd, h, hnext nofun⟩
  | beginDialogue _ | selectStart | selectEnd => exact ⟨h, hnext nofun⟩
  | trap _ | ret => exact h

end Site

def GoesOn (B : Nat → Prop) (bytes : ByteArray) (pos : Nat) : Prop :=
  ∃ i, Holds bytes pos i.encode ∧ LeadsTo B pos i ∧
    ((∀ offset, i ≠ .jump offset) → B (pos + i.size))

lemma GoesOn.of_jump {B : Nat → Prop} {bytes : ByteArray} {pos target : Nat} {offset : Int16}
    (h : Holds bytes pos (Instruction.jump offset).encode)
    (ht : (pos + 3 + offset.toInt : Int) = target) (hB : B target) : GoesOn B bytes pos := by
  refine ⟨_, h, ?_, fun hne => absurd rfl (hne offset)⟩
  rintro _ ⟨⟩
  exact ⟨target, ht, hB⟩

lemma GoesOn.of_starts {B : Nat → Prop} {bytes : ByteArray} {code : Code} {exit start pos : Nat}
    (hplaced : Placed bytes exit start code.toList) (hbounds : Boundaries B start code.toList)
    (hlands : Lands B exit start code.toList) (h : code.Starts start pos)
    (hne : pos ≠ start + code.extent) : GoesOn B bytes pos := by
  obtain ⟨before, after, hcode, rfl⟩ := h
  rw [hcode, Placed.code_append_iff] at hplaced
  rw [hcode, Lands.code_append_iff] at hlands
  rw [hcode, Boundaries.code_append_iff] at hbounds
  obtain ⟨steps⟩ := after
  cases steps with
  | nil => exact absurd (by simp [hcode]) hne
  | cons step rest =>
    cases step with
    | run i => exact ⟨i, hplaced.2.1, hlands.2.1, fun _ => hbounds.2.2.head⟩
    | leave =>
      obtain ⟨offset, hholds, hoffset⟩ := hplaced.2.1
      exact .of_jump hholds hoffset hlands.2.1

namespace MenuEntry

variable {c : Emit.Context} {b : Builder} {entry : MenuEntry} {case : Choice} {module : Module}
  {bytes : ByteArray} {stop start pos : Nat}

def Reaches (entry : MenuEntry) (stop start pos : Nat) : Prop :=
  entry.body.Starts start pos ∨ pos = stop

lemma starts_add_le (h : entry.body.Starts start pos) : pos ≤ start + entry.body.extent := by
  obtain ⟨before, after, hcode, rfl⟩ := h
  rw [hcode, Code.extent_append]
  omega

lemma Laid.goesOn (hlaid : entry.Laid module bytes stop start)
    (henters : Emit.Enters c b case entry) (h : entry.body.Starts (start + 6) pos) :
    GoesOn (entry.Reaches stop (start + 6)) bytes pos := by
  have hbounds : Boundaries (entry.Reaches stop (start + 6)) (start + 6) entry.body.toList :=
    (entry.body.boundaries_starts (start + 6)).mono fun _ => .inl
  have hlands : Lands (entry.Reaches stop (start + 6)) stop (start + 6) entry.body.toList :=
    henters.2.lands case.body hbounds fun _ => .inr rfl
  by_cases hend : pos = start + 6 + entry.body.extent
  · obtain ⟨offset, hholds, hoffset⟩ := hlaid.leaves
    refine .of_jump (hend ▸ hholds) ?_ (.inr rfl)
    rw [hend]
    simp only [MenuEntry.extent] at hoffset
    push_cast at hoffset ⊢
    omega
  · exact .of_starts hlaid.body hbounds hlands h hend

end MenuEntry

namespace Menu

open Thread (Stands Waits Busy Rests)

def Free (menu : Menu) (s : Site) : Nat → Nat → Prop :=
  Site.Free { s with code := s.code.extract 0 menu.stop } fun p d => p = menu.stop ∧ d = 0

def InBody (menu : Menu) (s : Site) (i : Nat) (entry : MenuEntry) (pos depth : Nat) : Prop :=
  menu.Free s pos depth ∧ entry.body.Starts (menu.ask i + 6) pos

def Leaving (menu : Menu) (s : Site) (i : Nat) (entry : MenuEntry) (pos depth : Nat) : Prop :=
  menu.Free s pos depth ∧ entry.Reaches menu.stop (menu.ask i + 6) pos

variable {menu : Menu} {s : Site} {c : Emit.Context} {b : Builder} {P : Nat → Prop} {case : Choice}
  {entry : MenuEntry} {i pos depth : Nat} {j : Instruction}

lemma Free.eq_zero (h : menu.Free s menu.stop depth) : depth = 0 :=
  Site.UpTo.eq_left h

lemma Free.allows (h : menu.Free s pos depth) (hne : pos ≠ menu.stop)
    (hj : Holds s.code pos j.encode) :
    Site.Allows { s with code := s.code.extract 0 menu.stop } (pos + j.size) depth
      (menu.Free s) j :=
  Site.UpTo.allows h hne hj

lemma ne_stop (hentry : menu.entries[i]? = some entry)
    (h : entry.body.Starts (menu.ask i + 6) pos) :
    pos ≠ menu.stop := by
  have hle := ask_add_le hentry
  have hpos := MenuEntry.starts_add_le h
  simp only [MenuEntry.extent, stop] at hle ⊢
  omega

section Laid

variable (hlaid : menu.Laid s.module s.code) (hentry : menu.entries[i]? = some entry)

include hlaid hentry

lemma free_ask (links : s.Links c b P) (hnames : Names P (case.body.uses #[]))
    (henters : Emit.Enters c b case entry) : menu.Free s (menu.ask i + 6) 0 := by
  intro n
  have hle := ask_add_le hentry
  have hlast := hlaid.stop_le
  simp only [MenuEntry.extent, stop] at hle hlast
  have hsize : menu.stop ≤ (s.code.extract 0 menu.stop).size := by
    rw [ByteArray.size_extract, stop]
    omega
  have hend : Site.Clear { s with code := s.code.extract 0 menu.stop }
      (fun p d => p = menu.stop ∧ d = 0) n menu.stop 0 :=
    .ended ⟨rfl, rfl⟩
  have hbody : Placed (s.code.extract 0 menu.stop) menu.stop (menu.ask i + 6) entry.body.toList :=
    (hlaid.entries i entry hentry).body.cut (by rw [stop]; omega)
  have hlinks : Site.Links { s with code := s.code.extract 0 menu.stop } c b P :=
    ⟨links.texts, links.imports, links.home, links.parameters, links.routines⟩
  refine Site.Clear.of_statement hlinks case.body hnames henters.2 hbody
    (fun _ => ⟨hsize, hend⟩) ?_
  obtain ⟨offset, hleave, hoffset⟩ := (hlaid.entries i entry hentry).leaves
  refine .cons (hleave.cut ?_) ⟨menu.stop, ?_, hsize, hend⟩
  · rw [Instruction.length_encode, stop]
    simp only [Instruction.size]
    omega
  · simp only [MenuEntry.extent] at hoffset
    simp only [Instruction.size]
    push_cast at hoffset ⊢
    omega

lemma Free.eq_zero_of_end (h : menu.Free s (menu.ask i + 6 + entry.body.extent) depth) :
    depth = 0 := by
  have hle := ask_add_le hentry
  simp only [MenuEntry.extent] at hle
  obtain ⟨offset, hleave, hoffset⟩ := (hlaid.entries i entry hentry).leaves
  obtain ⟨target, htarget, -, hfree⟩ := h.allows (by rw [stop]; omega) hleave
  simp only [MenuEntry.extent] at hoffset
  simp only [Instruction.size] at htarget
  push_cast at hoffset htarget
  obtain rfl : target = menu.stop := by omega
  exact hfree.eq_zero

lemma InBody.allows (henters : Emit.Enters c b case entry) (h : menu.InBody s i entry pos depth) :
    menu.Leaving s i entry pos depth ∧ ∃ j, Holds s.code pos j.encode ∧
      Site.Allows { s with code := s.code.extract 0 menu.stop } (pos + j.size) depth
        (menu.Leaving s i entry) j := by
  obtain ⟨hfree, hstarts⟩ := h
  obtain ⟨j, hj, hlands, hnext⟩ := (hlaid.entries i entry hentry).goesOn henters hstarts
  exact ⟨⟨hfree, .inl hstarts⟩, j, hj,
    (hfree.allows (ne_stop hentry hstarts) hj).confine hlands hnext⟩

end Laid

section Body

variable {f : Frame} {callers : List Frame} {stack : Array Value} {t t' : Thread} {phase : Phase}

lemma rests_of_stands (h : t.Stands f callers pos 0) (hin : t.Inside f stack.toList callers)
    (hbase : f.base = stack.size) : t.Rests f callers pos stack := by
  refine ⟨h.1, ?_⟩
  have hlength : stack.toList.length = t.stack.toList.length := by
    simp [h.2, hbase]
  exact (Array.toList_inj.mp (hin.stack.eq_of_length hlength)).symm

lemma phase_of_busy (hlaid : menu.Laid s.module s.code) (hentry : menu.entries[i]? = some entry)
    (hbase : f.base = stack.size) (h : t.Busy f callers stack (menu.Leaving s i entry)) :
    ∃ phase ∈ [Phase.plays i, .leaves i, .left i], menu.At f callers stack t phase ∧
      (phase = .plays i → t.Busy f callers stack (menu.InBody s i entry)) := by
  have hi : i < menu.entries.length := (List.getElem?_eq_some_iff.mp hentry).1
  obtain ⟨pos, depth, hstands, hfree, hstarts | rfl⟩ | ⟨pos, depth, hwaits, hfree, hreaches⟩ :=
    h.place
  · by_cases hend : pos = menu.ask i + 6 + entry.body.extent
    · subst hend
      cases hfree.eq_zero_of_end hlaid hentry
      exact ⟨.leaves i, by simp, ⟨entry, hentry, rests_of_stands hstands h.inside hbase⟩, nofun⟩
    · obtain ⟨arguments, hframes⟩ := hstands.1
      refine ⟨.plays i, by simp, ⟨entry, hentry, h.inside.stack, [], pos, arguments, hframes,
        by simp, hstarts⟩, fun _ => ⟨h.inside, .inl ⟨pos, depth, hstands, hfree, hstarts⟩⟩⟩
  · cases hfree.eq_zero
    exact ⟨.left i, by simp, ⟨hi, rests_of_stands hstands h.inside hbase⟩, nofun⟩
  · -- the call puts a value on the stack, and there is none where the selection is left
    have hstarts : entry.body.Starts (menu.ask i + 6) pos := by
      rcases hreaches with hstarts | rfl
      · exact hstarts
      · cases hfree.eq_zero
    have hbusy : t.Busy f callers stack (menu.InBody s i entry) :=
      ⟨h.inside, .inr ⟨pos, depth, hwaits, hfree, hstarts⟩⟩
    obtain ⟨callee, below, arguments, hcallee, hlength, hcalled⟩ := hwaits
    obtain ⟨inner, frame, hframes, hsite, hinner⟩ := hcalled.frames
    have hframe : frame.base = callee.base := congrArg (·.2.2) hsite
    refine ⟨.plays i, by simp, ⟨entry, hentry, h.inside.stack, inner ++ [frame], pos, arguments,
      by simp [hframes], ?_, hstarts⟩, fun _ => hbusy⟩
    intro g hg
    rcases List.mem_append.mp hg with hg | hg
    · have := hinner g hg
      omega
    · cases List.mem_singleton.mp hg
      omega

end Body

end Menu

end Stagecraft
