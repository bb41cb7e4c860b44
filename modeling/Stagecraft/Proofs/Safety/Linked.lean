import Stagecraft.Proofs.Module.Loaded
import Stagecraft.Proofs.Project.Routines
import Stagecraft.Proofs.Safety.Machine

/-!
If every table of a project has its module, then every name in the code leads to a routine that is
there and takes as many arguments as it gets, and all code is safe.
-/

namespace Stagecraft

open Bytes (Holds)

structure Assembled (tables : SymbolTables) (visible : List String) (path : String)
    (members : List Member) (c : Emit.Context) (b : Builder) : Prop where
  apart : members.Pairwise Member.Apart
  table : tables[path]? = some c.table
  describes : c.table.Describes path members
  bindings : c.bindings.From ⟨tables, path, visible⟩ members
  size : b.routines.size = c.table.members.entries.size
  small : b.routines.size < 65536
  routines : ∀ (i : Nat) name entry, c.table.members.entries[i]? = some (name, entry) →
    ∃ member ∈ members, entry.Declares path i member ∧
      ∃ d, b.routines[i]? = some d ∧ d.Makes c b member

lemma Member.length_parameterNames (m : Member) :
    m.parameterNames.length = m.parameters.length := by
  cases m with
  | function node name formals body => exact List.length_map _
  | chapter _ _ _ | scene _ _ _ | dialogue _ => rfl

namespace Module

variable {path : String} {b : Builder} {i : UInt16}

lemma lookup_map {table : Table} {rows : Array α} {f : α → β} {i : UInt16} {y : β} :
    lookup table (rows.map f) i = .ok y ↔ ∃ x, rows[i.toNat]? = some x ∧ f x = y := by
  rw [lookup, Array.getElem?_map]
  cases rows[i.toNat]? with
  | none => simp
  | some x => simp

lemma parameters_ofBuilder {names : List String} :
    (ofBuilder path b).parameters i = .ok names ↔
      ∃ d, b.routines[i.toNat]? = some d ∧ d.parameters = names := by
  simp [parameters, ofBuilder, Except.bind_eq_ok_iff, lookup_map]

lemma body_ofBuilder {d : Definition} (h : b.routines[i.toNat]? = some d) :
    (ofBuilder path b).body i = .ok d.body := by
  simp [body, ofBuilder, Except.bind_eq_ok_iff, lookup_map, h]

lemma entry_ofBuilder {d : Definition} (h : b.routines[i.toNat]? = some d) :
    (ofBuilder path b).entry i = .ok d.entry :=
  lookup_map.mpr ⟨d, h, rfl⟩

lemma text_ofBuilder {t : String} (h : b.HasText i t) : (ofBuilder path b).text i = .ok t := by
  have h : b.heap.texts[i.toNat]? = some t := h
  simp [text, ofBuilder, Except.bind_eq_ok_iff, lookup_map, h]

lemma import?_ofBuilder {name : String} (h : b.HasImport i name) :
    (ofBuilder path b).import? i = .ok name := by
  have h : b.imports[i.toNat]? = some name := h
  simp [import?, ofBuilder, lookup, h]

end Module

lemma Site.Good.of_trap {s : Site} {token : UInt16} {n : Nat} (ht : s.HasText token)
    (hc : s.code = Instruction.encodeAll [.trap token, .ret]) : s.Good n 0 0 := by
  refine Site.good_iff_clear.mpr (.cons (i := .trap token) ?_ ht)
  have h := Bytes.holds_self s.code
  rw [hc] at h ⊢
  simp only [Instruction.encodeAll, List.flatMap_cons, List.data_toByteArray] at h
  exact h.left

lemma Assembled.links {tables : SymbolTables} {modules : Std.TreeMap String Module}
    {visible : List String} {path : String} {members : List Member} {c : Emit.Context}
    {b b' : Builder} (ha : Assembled tables visible path members c b)
    (hdescribes : ∀ (path : String) t, tables[path]? = some t → ∃ members, t.Describes path members)
    (hroutines : ∀ symbol routine, tables.Offers symbol → symbol.routine? = some routine →
      ∃ m parameters, modules[routine.module]? = some m ∧
        m.parameters routine.index = .ok parameters ∧ parameters.length = routine.parameterCount)
    (hmodule : modules[path]? = some (Module.ofBuilder path b)) (hb : b'.Opens b)
    {member : Member} (hmember : member ∈ members) (code : ByteArray) :
    Site.Links ⟨modules, Module.ofBuilder path b, member.parameters.length, code⟩ c b'
      fun id => ∃ use ∈ member.uses, use.node.id = id := by
  refine ⟨fun token t htext => ?_, fun i name himport => ?_, ?_, ?_, ?_⟩
  · exact ⟨t, Module.text_ofBuilder (Builder.getElem?_of_prefix hb.texts htext)⟩
  · exact Module.import?_ofBuilder (Builder.getElem?_of_prefix hb.imports himport)
  · rw [ha.describes.home]
    exact hmodule
  · rintro id symbol ⟨use, huse, rfl⟩ href
    exact ha.bindings.parameter_lt hdescribes ha.apart ha.table ha.describes hmember huse href
  · intro id symbol routine href hr
    exact hroutines symbol routine (ha.bindings.offers hdescribes href hr) hr

section Linked

variable {tables : SymbolTables} {modules : Std.TreeMap String Module}
  (hm : ∀ (path : String) m, modules[path]? = some m → ∃ visible members c b,
    Assembled tables visible path members c b ∧ m = Module.ofBuilder path b)
  (ht : ∀ (path : String) t, tables[path]? = some t → ∃ m, modules[path]? = some m)

include hm ht

lemma describes_of_table {path : String} {t : SymbolTable} (htable : tables[path]? = some t) :
    ∃ members, t.Describes path members := by
  obtain ⟨m, hmodule⟩ := ht path t htable
  obtain ⟨visible, members, c, b, ha, -⟩ := hm path m hmodule
  cases Option.some.inj (htable.symm.trans ha.table)
  exact ⟨members, ha.describes⟩

lemma routine_of_offers {symbol : Symbol} {routine : RoutineSymbol} (ho : tables.Offers symbol)
    (hr : symbol.routine? = some routine) :
    ∃ m parameters, modules[routine.module]? = some m ∧
      m.parameters routine.index = .ok parameters ∧
      parameters.length = routine.parameterCount := by
  obtain ⟨path, t, htable, i, name, entry, hentry, rfl⟩ := ho
  obtain ⟨m, hmodule⟩ := ht path t htable
  obtain ⟨visible, members, c, b, ha, rfl⟩ := hm path m hmodule
  cases Option.some.inj (htable.symm.trans ha.table)
  obtain ⟨member, -, hdeclares, d, hd, hmakes⟩ := ha.routines i name entry hentry
  obtain ⟨routine', hr', hmod, hindex, hcount⟩ := hdeclares.routine
  cases Option.some.inj (hr'.symm.trans hr)
  have hi : i < 65536 := Nat.lt_trans (Array.getElem?_eq_some_iff.mp hd).1 ha.small
  refine ⟨_, d.parameters, hmod ▸ hmodule, Module.parameters_ofBuilder.mpr ⟨d, ?_, rfl⟩, ?_⟩
  · rw [hindex, UInt16.toNat_ofNat_of_lt' hi, hd]
  · rw [hmakes.parameters, Member.length_parameterNames, hcount]

theorem linked_of_assembled : Linked modules := by
  refine ⟨fun path m hmodule r parameters hp => ?_, fun path m hmodule n r hfind => ?_⟩
  · obtain ⟨visible, members, c, b, ha, rfl⟩ := hm path m hmodule
    obtain ⟨d, hd, rfl⟩ := Module.parameters_ofBuilder.mp hp
    refine ⟨d.body, d.entry, Module.body_ofBuilder hd, Module.entry_ofBuilder hd, fun n => ?_⟩
    have hlt : r.toNat < c.table.members.entries.size := by
      rw [← ha.size]
      exact (Array.getElem?_eq_some_iff.mp hd).1
    obtain ⟨member, hmember, -, d', hd', hmakes⟩ :=
      ha.routines r.toNat _ _ (Array.getElem?_eq_getElem hlt)
    cases Option.some.inj (hd.symm.trans hd')
    rw [hmakes.parameters, Member.length_parameterNames]
    obtain ⟨b', code, hopens, hcode, hdcode⟩ | ⟨token, diagnostic, ⟨-, htext⟩, hdcode⟩ := hmakes.code
    · have hlinks := ha.links (fun _ _ => describes_of_table hm ht)
        (fun _ _ => routine_of_offers hm ht) hmodule hopens hmember d.body.code
      have hholds : Holds d.body.code 0 code.encode.data.toList := by
        rw [← hdcode]
        exact Bytes.holds_self d.code
      have hplaced : Placed d.body.code 0 0 code.toList := .of_encode hcode.closed hholds
      exact Site.good_iff_clear.mpr
        (.of_member hlinks member (fun use huse => ⟨use, huse, rfl⟩) hcode hplaced)
    · exact .of_trap ⟨_, Module.text_ofBuilder htext⟩ hdcode
  · obtain ⟨visible, members, c, b, ha, rfl⟩ := hm path m hmodule
    obtain ⟨⟨d, hd, -⟩, -⟩ := (Module.find?_ofBuilder path ha.small n r).mp hfind
    exact ⟨d.parameters, Module.parameters_ofBuilder.mpr ⟨d, hd, rfl⟩⟩

end Linked

end Stagecraft
