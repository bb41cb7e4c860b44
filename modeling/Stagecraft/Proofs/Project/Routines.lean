import Stagecraft.Proofs.Code.Kept
import Stagecraft.Proofs.Code.Structured
import Stagecraft.Proofs.Project.Tables

namespace Stagecraft

structure Builder.Opens (b b' : Builder) : Prop where
  routines : b.routines.toList <+: b'.routines.toList
  texts : b.heap.texts.toList <+: b'.heap.texts.toList
  imports : b.imports.toList <+: b'.imports.toList

namespace Builder

variable {b b' b'' : Builder}

lemma Opens.refl (b : Builder) : b.Opens b :=
  ⟨List.prefix_rfl, List.prefix_rfl, List.prefix_rfl⟩

lemma Opens.trans (h : b.Opens b') (h' : b'.Opens b'') : b.Opens b'' :=
  ⟨h.routines.trans h'.routines, h.texts.trans h'.texts, h.imports.trans h'.imports⟩

lemma Leads.opens (h : b.Leads b') : b.Opens b' :=
  ⟨h.routines ▸ List.prefix_rfl, h.texts, h.imports⟩

lemma push_ok {d : Definition} {i : UInt16} (h : Builder.push d b = (.ok i, b')) :
    b' = { b with routines := b.routines.push d } := by
  obtain ⟨routines, imports, heap⟩ := b
  simp only [Builder.push] at h
  split at h
  · cases h
    rfl
  · cases h

end Builder

def Diagnostic.trapMessage (path : String) (d : Diagnostic) : String :=
  s!"{d.issue.message} ({path}:{d.span.render})"

def Member.Traps (c : Emit.Context) (member : Member) (d : Diagnostic) : Prop :=
  ∃ draft draft', Emit.member c member draft = (.error (.trap d), draft')

structure Definition.Makes (c : Emit.Context) (b : Builder) (member : Member) (d : Definition) :
    Prop where
  parameters : d.parameters = member.parameterNames
  offsets : ∀ mark ∈ d.dialogues, mark.offset.toNat ≤ d.code.size
  code : (∃ b' code, b'.Opens b ∧ Emit.MemberCode c b' member code ∧ d.code = code.encode) ∨
    ∃ token diagnostic, (member.Traps c diagnostic ∧
      b.HasText token (diagnostic.trapMessage c.table.path)) ∧
      d.code = Instruction.encodeAll [.trap token, .ret]

lemma Definition.Makes.mono {c : Emit.Context} {b b' : Builder} {member : Member} {d : Definition}
    (h : d.Makes c b member) (hb : b.Opens b') : d.Makes c b' member := by
  refine ⟨h.parameters, h.offsets, ?_⟩
  obtain ⟨b₀, code, hopens, hcode, hd⟩ | ⟨token, diagnostic, ⟨htraps, ht⟩, hd⟩ := h.code
  · exact .inl ⟨b₀, code, hopens.trans hb, hcode, hd⟩
  · exact .inr ⟨token, diagnostic, ⟨htraps, Builder.getElem?_of_prefix hb.texts ht⟩, hd⟩

namespace Compiled

variable {c : Emit.Context} {b b' : Builder} {name : String} {kind : RoutineKind} {member : Member}

lemma mem_sortMarks {marks : List (UInt16 × DialogueMark)} {m : DialogueMark}
    (h : m ∈ sortMarks marks) : ∃ mark ∈ marks, mark.2 = m := by
  obtain ⟨mark, hmark, rfl⟩ := List.mem_map.mp h
  exact ⟨mark, List.mem_mergeSort.mp hmark, rfl⟩

lemma offset_trapMarks {scope : Scope} {m : DialogueMark} (h : m ∈ trapMarks scope) :
    m.offset = 0 := by
  obtain ⟨mark, hmark, rfl⟩ := mem_sortMarks h
  obtain ⟨x, -, rfl⟩ := List.mem_map.mp hmark
  rfl

lemma trapRoutine_ok {diagnostic : Diagnostic} {d : Definition} (hs : b.Sound)
    (ht : member.Traps c diagnostic)
    (h : trapRoutine c.table name kind member diagnostic b = (.ok d, b')) :
    b.Leads b' ∧ d.Makes c b' member := by
  rw [trapRoutine, StateExcept.bind_apply] at h
  split at h
  · next token b₁ htoken =>
    obtain ⟨hl, htext⟩ := Builder.intern_ok htoken
    cases h
    refine ⟨hl, rfl, fun m hm => ?_, .inr ⟨token, diagnostic, ⟨ht, htext hs⟩, rfl⟩⟩
    cases hscope : c.table.scopeOf? member.node.id with
    | none => simp [hscope] at hm
    | some scope =>
      simp only [hscope, Option.map_some, Option.getD_some] at hm
      simp [offset_trapMarks hm]
  · cases h

lemma routineOf_ok {d : Definition} {diagnostic? : Option Diagnostic} (hs : b.Sound)
    (h : routineOf c name kind member b = (.ok (d, diagnostic?), b')) :
    b.Leads b' ∧ d.Makes c b' member := by
  have hkeeps := (Emit.keeps_member (c := c) member).builder { builder := b }
  simp only [routineOf] at h
  split at h
  · next code builder marks hmember =>
    obtain ⟨hgrows, hcode⟩ := Emit.member_ok hs hmember
    cases h
    refine ⟨hgrows.builder, rfl, fun m hm => ?_,
      .inl ⟨_, code, .refl _, hcode _ (.refl _), rfl⟩⟩
    obtain ⟨mark, hmark, rfl⟩ := mem_sortMarks hm
    rw [Code.size_encode]
    exact (hgrows.marks mark (by simpa using hmark)).resolve_left (by simp)
  · next diagnostic builder marks hmember =>
    rw [hmember] at hkeeps
    split at h
    · next hroutine =>
      cases h
      obtain ⟨hl, hmakes⟩ := trapRoutine_ok (hkeeps.sound hs) ⟨_, _, hmember⟩ hroutine
      exact ⟨hkeeps.trans hl, hmakes⟩
    · cases h
  · cases h

lemma addRoutines_each {members : Std.TreeMap Nat Member} {entries : List (String × Declaration)}
    {ds ds' : Array Diagnostic}
    (hm : ∀ x ∈ entries, ∃ member, members[x.2.node]? = some member) (hs : b.Sound)
    (h : addRoutines c members entries b ds = (.ok b', ds')) :
    b.Opens b' ∧ b'.routines.size = b.routines.size + entries.length ∧
      ∃ issues : List (Option Diagnostic), ds'.toList = ds.toList ++ issues.reduceOption ∧
        issues.length = entries.length ∧ ∀ (i : Nat) x, entries[i]? = some x →
          ∃ member before after d issue?, members[x.2.node]? = some member ∧ before.Sound ∧
            (addRoutines c members (entries.take i) b ds).1 = .ok before ∧
            routineOf c x.1 x.2.kind member before = (.ok (d, issue?), after) ∧
            after.Opens b' ∧ b'.routines[b.routines.size + i]? = some d ∧
            issues[i]? = some issue? := by
  induction entries generalizing b ds with
  | nil =>
    cases h
    exact ⟨.refl _, rfl, [], by simp, rfl, by simp⟩
  | cons x rest ih =>
    obtain ⟨name, entry⟩ := x
    rw [List.forall_mem_cons] at hm
    obtain ⟨⟨member, hmember⟩, hrest⟩ := hm
    simp only [addRoutines, hmember] at h
    split at h
    · cases h
    · next d issue? b₁ hroutine =>
      obtain ⟨hl, -⟩ := routineOf_ok hs hroutine
      split at h
      · cases h
      · next index b₂ hpush =>
        -- the routine is pushed behind what its code has put into the module
        have hb₂ := Builder.push_ok hpush
        have hs₂ : b₂.Sound := by
          have hs₁ := hl.sound hs
          subst hb₂
          exact ⟨hs₁.index, hs₁.imports⟩
        have hopens : b₁.Opens b₂ := by
          subst hb₂
          exact ⟨by simp, List.prefix_rfl, List.prefix_rfl⟩
        have hroutines : b₂.routines = b.routines.push d := by
          subst hb₂
          simp [hl.routines]
        obtain ⟨hopens', hsize, issues, hds, hlength, heach⟩ := ih hrest hs₂ h
        refine ⟨(hl.opens.trans hopens).trans hopens', ?_, issue? :: issues, ?_, by simp [hlength],
          fun i x hx => ?_⟩
        · rw [hsize, hroutines, Array.size_push, List.length_cons]
          omega
        · rw [hds]
          cases issue? <;> simp [List.reduceOption]
        cases i with
        | zero =>
          cases hx
          refine ⟨member, b, b₁, d, issue?, hmember, hs, rfl, hroutine, hopens.trans hopens', ?_,
            rfl⟩
          obtain ⟨more, hmore⟩ := hopens'.routines
          rw [← Array.getElem?_toList, ← hmore, hroutines]
          simp
        | succ i =>
          obtain ⟨member', before, after, d', issue', hmember', hbefore, htake, hroutine', hafter,
            hd', hissue⟩ := heach i x hx
          refine ⟨member', before, after, d', issue', hmember', hbefore, ?_, hroutine', hafter, ?_,
            hissue⟩
          · simpa only [List.take_succ_cons, addRoutines, hmember, hroutine, hpush] using htake
          · rw [hroutines, Array.size_push] at hd'
            rwa [show b.routines.size + (i + 1) = b.routines.size + 1 + i by omega]

lemma addRoutines_ok {members : Std.TreeMap Nat Member} {entries : List (String × Declaration)}
    {ds ds' : Array Diagnostic}
    (hm : ∀ x ∈ entries, ∃ member, members[x.2.node]? = some member) (hs : b.Sound)
    (h : addRoutines c members entries b ds = (.ok b', ds')) :
    b.Opens b' ∧ b'.routines.size = b.routines.size + entries.length ∧
      ∀ (i : Nat) x, entries[i]? = some x → ∃ member d, members[x.2.node]? = some member ∧
        b'.routines[b.routines.size + i]? = some d ∧ d.Makes c b' member := by
  obtain ⟨hopens, hsize, issues, -, -, heach⟩ := addRoutines_each hm hs h
  refine ⟨hopens, hsize, fun i x hx => ?_⟩
  obtain ⟨member, before, after, d, issue?, hmember, hbefore, -, hroutine, hafter, hd, -⟩ :=
    heach i x hx
  exact ⟨member, d, hmember, hd, (routineOf_ok hbefore hroutine).2.mono hafter⟩

end Compiled

end Stagecraft
