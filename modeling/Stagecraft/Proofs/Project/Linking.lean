import Stagecraft.Proofs.Code.CallSites
import Stagecraft.Proofs.Safety.Arguments
import Stagecraft.Proofs.Safety.Launched

/-!
Numbers of routines are given out when tables are made, used when code is written, and take effect
when the routines are put into their modules. These three agree.
-/

namespace Stagecraft

structure Declaration.Labels (i : Nat) (name : String) (member : Member) (entry : Declaration) :
    Prop where
  node : entry.node = member.node.id
  named : name = member.nameAt i
  kind : entry.kind = member.kind
  routine : ∃ routine, entry.symbol.routine? = some routine ∧ routine.name = name ∧
    routine.kind = entry.kind

def SymbolTable.Labels (members : List Member) (t : SymbolTable) : Prop :=
  ∀ (i : Nat) name entry, t.members.entries[i]? = some (name, entry) →
    ∃ member ∈ members, entry.Labels i name member

namespace SymbolTable

lemma Labels.addMember {members : List Member} {p : Progress} (h : p.table.Labels members)
    {member : Member} (hm : member ∈ members) : (addMember p member).table.Labels members := by
  simp only [SymbolTable.addMember]
  split
  · exact h
  · next hnew =>
    intro i name entry he
    rw [Dictionary.entries_insert (by simpa using hnew), Array.getElem?_push] at he
    split at he
    · next hi =>
      cases he
      exact ⟨member, hm, rfl, hi ▸ rfl, rfl, _, routine?_symbolOf _ _ _, rfl, rfl⟩
    · exact h i name entry he

lemma labels_ofScript (path : String) (includes : List String) (script : Script) :
    (ofScript path includes script).table.Labels script.members := by
  refine List.foldlRecOn (motive := fun p : Progress => p.table.Labels script.members) _ _ ?_
    fun p hp member hm => hp.addMember hm
  intro i name entry he
  simp at he

end SymbolTable

namespace Compiled

variable {c : Emit.Context} {b b' : Builder}

def label (d : Definition) : String × RoutineKind :=
  (d.name, d.kind)

lemma label_routineOf {name : String} {kind : RoutineKind} {member : Member} {d : Definition}
    {diagnostic? : Option Diagnostic}
    (h : routineOf c name kind member b = (.ok (d, diagnostic?), b')) :
    label d = (name, kind) := by
  simp only [routineOf] at h
  split at h
  · cases h
    rfl
  · split at h
    · next hroutine =>
      cases h
      rw [trapRoutine, StateExcept.bind_apply] at hroutine
      split at hroutine
      · cases hroutine
        rfl
      · cases hroutine
    · cases h
  · cases h

lemma labels_addRoutines {members : Std.TreeMap Nat Member}
    {entries : List (String × Declaration)} {ds ds' : Array Diagnostic}
    (hm : ∀ x ∈ entries, ∃ member, members[x.2.node]? = some member)
    (h : addRoutines c members entries {} ds = (.ok b', ds')) :
    b'.routines.toList.map label = entries.map fun x => (x.1, x.2.kind) := by
  obtain ⟨-, hsize, issues, -, -, heach⟩ := addRoutines_each hm Builder.sound_empty h
  have hlength : b'.routines.size = entries.length := by simpa using hsize
  refine List.ext_getElem? fun i => ?_
  rw [List.getElem?_map, List.getElem?_map, Array.getElem?_toList]
  cases hx : entries[i]? with
  | none =>
    rw [List.getElem?_eq_none_iff] at hx
    rw [Array.getElem?_eq_none (hlength ▸ hx)]
    rfl
  | some x =>
    obtain ⟨member, before, after, d, issue?, -, -, -, hroutine, -, hd, -⟩ := heach i x hx
    have hd : b'.routines[i]? = some d := by simpa using hd
    rw [hd, Option.map_some, Option.map_some, label_routineOf hroutine]

end Compiled

namespace CompiledProject

/-- The project has the routine that a symbol stands for: in its module, at its number, with its
name and its kind. As it is loaded, it has `count` parameters. -/
def Has (project : CompiledProject) (routine : RoutineSymbol) (count : Nat) : Prop :=
  ∃ compiled d module names, project.modules[routine.module]? = some compiled ∧
    compiled.routines[routine.index.toNat]? = some d ∧ d.name = routine.name ∧
    d.kind = routine.kind ∧ Module.load routine.module compiled.bytes = .ok module ∧
    module.entry routine.index = .ok d.entry ∧ module.parameters routine.index = .ok names ∧
    names.length = count

/-- An instruction of the module at `path` calls the routine that a call of the tree reaches. -/
def Links (project : CompiledProject) (path : String) (imports : Array String)
    (bindings : Bindings) (site : CallSite) (i : Instruction) : Prop :=
  ∃ routine, site.routine? bindings = some routine ∧ project.Has routine site.count ∧
    (routine.module = path ∧ i = .call routine.index ∨
      ∃ k : UInt16, routine.module ≠ path ∧ imports[k.toNat]? = some routine.module ∧
        i = .callFar k routine.index)

def LoadedIn (project : CompiledProject) (modules : Std.TreeMap String Module) : Prop :=
  ∀ (path : String) compiled m, project.modules[path]? = some compiled →
    Module.load path compiled.bytes = .ok m → modules[path]? = some m

/-- In front of the call number `k` of a routine stands the code of the arguments of `site`. In
every machine that has the project loaded, that code leaves as many values as `site` has arguments,
if the module does not have too many imports and texts for their counts. -/
def Furnishes (project : CompiledProject) (module : Module) (r : UInt16) (c : Emit.Context)
    (b : Builder) (is : List Instruction) (site : CallSite) (k : Nat) : Prop :=
  ∃ (before arguments after : Code) (i : Instruction) (b' : Builder),
    is = (before ++ arguments ++ Code.one i ++ after).instructions ∧ i.isCall ∧ (before ++ arguments).calls.length = k ∧ b'.Opens b ∧
    Emit.ExpressionsCode c b' site.arguments arguments ∧
    (b.imports.size ≤ 65535 → b.heap.texts.size ≤ 65535 → ∀ modules, project.LoadedIn modules →
      ∀ f : Frame, f.module = module → f.routine = r →
        Thread.Gains modules f before.extent (before.extent + arguments.extent) site.count)

variable {files : Files} {sources : Sources} {project : CompiledProject} {path : String}
  {source : Source} {compiled : Compiled} {c : Emit.Context} {b : Builder}

structure Compiles (files : Files) (sources : Sources) (path : String) (source : Source)
    (c : Emit.Context) (b : Builder) (compiled : Compiled) : Prop where
  read : sources[path]? = some source
  bindings : (bindAll sources (SymbolTables.ofSources sources).1).1[path]? = some c.bindings
  builder : assemble? files path = some b
  written : b.write = .ok compiled.bytes
  routines : compiled.routines = b.routines.toList
  assembled : Assembled (SymbolTables.ofSources sources).1 (sources.visibleFrom path) path
    source.script.members c b
  loaded : Module.load path compiled.bytes = .ok (Module.ofBuilder path b.counted)
  labels : c.table.Labels source.script.members
  labelled : b.routines.toList.map Compiled.label =
    c.table.members.toList.map fun x => (x.1, x.2.kind)

lemma compiles_of_ofScript {ds : Array FileDiagnostic} {table : SymbolTable} {bound : Bindings}
    {ds' : Array Diagnostic} (hread : Sources.read files = .ok (sources, ds))
    (hsource : sources[path]? = some source)
    (htable : (SymbolTables.ofSources sources).1[path]? = some table)
    (hbound : (bindAll sources (SymbolTables.ofSources sources).1).1[path]? = some bound)
    (h : Compiled.ofScript source.script table bound = (.ok compiled, ds')) :
    ∃ b, Compiles files sources path source ⟨table, bound⟩ b compiled := by
  obtain ⟨b, hb, hwrite, hroutines, ha, hload⟩ := assembled_compiled hread hsource htable hbound h
  have hlabels : table.Labels source.script.members := by
    obtain ⟨source', hsource', rfl⟩ := (collects_ofSources sources).of_toList htable
    cases Option.some.inj (hsource'.symm.trans hsource)
    exact SymbolTable.labels_ofScript path source.includes source.script
  refine ⟨b, hsource, hbound, hb, hwrite, hroutines, ha, hload, hlabels, ?_⟩
  obtain ⟨b', hassemble, -⟩ := Compiled.ofScript_ok h
  have hsame : b' = b := by
    simpa [assemble?, hread, hsource, htable, hbound, hassemble, Except.toOption] using hb
  subst hsame
  rcases hadd : Compiled.addRoutines { table, bindings := bound }
    (Compiled.membersOf source.script) table.members.toList {} #[] with ⟨r, ds⟩
  rw [Compiled.assemble, hadd] at hassemble
  cases hassemble
  have hmembers := Compiled.exists_member (Sources.sound_read hread hsource) ha.describes
  exact Compiled.labels_addRoutines hmembers hadd

lemma Compiles.label (h : Compiles files sources path source c b compiled) {i : Nat}
    {name : String} {entry : Declaration} {d : Definition}
    (he : c.table.members.entries[i]? = some (name, entry)) (hd : b.routines[i]? = some d) :
    d.name = name ∧ d.kind = entry.kind := by
  have hi := congrArg (·[i]?) h.labelled
  have hlabel : Compiled.label d = (name, entry.kind) := by
    simpa [Dictionary.toList, hd, he] using hi
  exact ⟨congrArg Prod.fst hlabel, congrArg Prod.snd hlabel⟩

lemma Compiles.has (h : Compiles files sources path source c b compiled)
    (hm : project.modules[path]? = some compiled) {i : Nat} {name : String} {entry : Declaration}
    (he : c.table.members.entries[i]? = some (name, entry)) {routine : RoutineSymbol}
    (hr : entry.symbol.routine? = some routine) : project.Has routine routine.parameterCount := by
  obtain ⟨member, -, hdeclares, d, hd, hmakes⟩ := h.assembled.routines i name entry he
  obtain ⟨routine', hr', hmodule, hindex, hcount⟩ := hdeclares.routine
  cases Option.some.inj (hr'.symm.trans hr)
  obtain ⟨member', -, hlabels⟩ := h.labels i name entry he
  obtain ⟨routine', hr', hname, hkind⟩ := hlabels.routine
  cases Option.some.inj (hr'.symm.trans hr)
  obtain ⟨hdname, hdkind⟩ := h.label he hd
  have hi : i < 65536 :=
    Nat.lt_trans (Array.getElem?_eq_some_iff.mp hd).1 h.assembled.small
  have hd' : b.counted.routines[routine.index.toNat]? = some d := by
    rw [hindex, UInt16.toNat_ofNat_of_lt' hi]
    exact hd
  refine ⟨compiled, d, _, d.parameters, hmodule ▸ hm, ?_, hdname.trans hname.symm,
    hdkind.trans hkind.symm, hmodule ▸ h.loaded, Module.entry_ofBuilder hd',
    Module.parameters_ofBuilder.mpr ⟨d, hd', rfl⟩, ?_⟩
  · rw [h.routines, Array.getElem?_toList]
    exact hd'
  · rw [hmakes.parameters, Member.length_parameterNames, hcount]

section Linked

variable (hm : ∀ (path : String) compiled, project.modules[path]? = some compiled →
    ∃ source c b, Compiles files sources path source c b compiled)
  (ht : ∀ (path : String) t, (SymbolTables.ofSources sources).1[path]? = some t →
    ∃ compiled, project.modules[path]? = some compiled)

include hm ht

lemma has_of_offers {symbol : Symbol} {routine : RoutineSymbol}
    (ho : (SymbolTables.ofSources sources).1.Offers symbol)
    (hr : symbol.routine? = some routine) : project.Has routine routine.parameterCount := by
  obtain ⟨path, t, htable, i, name, entry, hentry, rfl⟩ := ho
  obtain ⟨compiled, hcompiled⟩ := ht path t htable
  obtain ⟨source, c, b, hc⟩ := hm path compiled hcompiled
  cases Option.some.inj (htable.symm.trans hc.assembled.table)
  exact hc.has hcompiled hentry hr

lemma describes_of_table {t : SymbolTable}
    (htable : (SymbolTables.ofSources sources).1[path]? = some t) :
    ∃ members, t.Describes path members := by
  obtain ⟨compiled, hcompiled⟩ := ht path t htable
  obtain ⟨source, c, b, hc⟩ := hm path compiled hcompiled
  cases Option.some.inj (htable.symm.trans hc.assembled.table)
  exact ⟨_, hc.assembled.describes⟩

lemma links_of_callsAt (hc : Compiles files sources path source c b compiled) {b' : Builder}
    (hb : b'.Opens b) {site : CallSite} {i : Instruction} (h : Emit.CallsAt c b' site i) :
    project.Links path b.imports c.bindings site i := by
  obtain ⟨routine, hroutine, hcount, hi⟩ := h
  obtain ⟨symbol, hs, hr⟩ := Option.bind_eq_some_iff.mp hroutine
  have hoffers := hc.assembled.bindings.offers (fun _ _ => describes_of_table hm ht) hs hr
  refine ⟨routine, hroutine, hcount ▸ has_of_offers hm ht hoffers hr, ?_⟩
  rw [hc.assembled.describes.home] at hi
  refine hi.imp_right fun ⟨k, hne, himport, hi⟩ => ⟨k, hne, ?_, hi⟩
  exact Builder.getElem?_of_prefix hb.imports himport

lemma routine_of_loadedIn {modules : Std.TreeMap String Module} (hl : project.LoadedIn modules)
    {symbol : Symbol} {routine : RoutineSymbol}
    (ho : (SymbolTables.ofSources sources).1.Offers symbol)
    (hr : symbol.routine? = some routine) :
    ∃ m parameters, modules[routine.module]? = some m ∧
      m.parameters routine.index = .ok parameters ∧
      parameters.length = routine.parameterCount := by
  obtain ⟨compiled, -, m, names, hcompiled, -, -, -, hload, -, hnames, hcount⟩ :=
    has_of_offers hm ht ho hr
  exact ⟨m, names, hl _ compiled m hcompiled hload, hnames, hcount⟩

lemma furnishes_of_prepares (hc : Compiles files sources path source c b compiled)
    (hcompiled : project.modules[path]? = some compiled) {b' : Builder} (hb : b'.Opens b)
    {member : Member} (hmember : member ∈ source.script.members) {r : Nat} {d : Definition}
    (hd : b.routines[r]? = some d) {code : Code} (hcode : Emit.MemberCode c b' member code)
    (hdcode : d.code = code.encode) {site : CallSite} (hsite : site ∈ member.calls) {k : Nat}
    (h : Emit.Prepares c b' code site k) :
    project.Furnishes (Module.ofBuilder path b.counted) (UInt16.ofNat r) c b code.instructions
      site k := by
  obtain ⟨before, arguments, i, after, hsplit, hi, hk, harguments⟩ := h
  refine ⟨before, arguments, after, i, b', by rw [hsplit], hi, hk, hb, harguments, ?_⟩
  rintro himports htexts modules hl f hmodule hroutine
  have hcounted : b.counted = b := Builder.counted_eq (by omega) (by omega)
  have hloaded := hl path compiled _ hcompiled hc.loaded
  rw [hcounted] at hmodule hloaded
  have hr : r < 65536 := Nat.lt_trans (Array.getElem?_eq_some_iff.mp hd).1 hc.assembled.small
  have hbody : f.module.body f.routine = .ok d.body := by
    rw [hmodule, hroutine]
    exact Module.body_ofBuilder (by rwa [UInt16.toNat_ofNat_of_lt' hr])
  have hlinks := hc.assembled.links (fun _ _ => describes_of_table hm ht)
    (fun _ _ => routine_of_loadedIn hm ht hl) hloaded hb hmember d.code
  have hholds : Bytes.Holds d.code 0 code.encode.data.toList := by
    rw [← hdcode]
    exact Bytes.holds_self d.code
  have hplaced : Placed d.code 0 0 code.toList := .of_encode hcode.closed hholds
  rw [hsplit] at hplaced
  simp only [Placed.code_append_iff, Nat.zero_add] at hplaced
  obtain ⟨⟨⟨-, hplaced⟩, -⟩, -⟩ := hplaced
  exact Site.gains_of_arguments harguments hplaced hmodule.symm hbody rfl hlinks
    (member.names_of_calls (fun use huse => ⟨use, huse, rfl⟩) site hsite)

end Linked

/-- Every call in the code of a project leads to the routine that it stands for. The calls of a
routine are those of its member, in order; each of them is a near call of a routine of its own
module, or a far call through the import of another module of the project. The code in front of it
is that of its arguments, and leaves as many values as the routine has parameters. -/
theorem calls_linked {encoding : Encoding} (h : compile files encoding = .ok project) :
    ∃ sources ds, Sources.read files = .ok (sources, ds) ∧
      ∀ (path : String) compiled, project.modules[path]? = some compiled →
        ∃ source table bindings b module, sources[path]? = some source ∧
          (SymbolTables.ofSources sources).1[path]? = some table ∧
          (bindAll sources (SymbolTables.ofSources sources).1).1[path]? = some bindings ∧
          assemble? files path = some b ∧ b.write = .ok compiled.bytes ∧
          compiled.routines = b.routines.toList ∧ Module.load path compiled.bytes = .ok module ∧
          (b.imports.size ≤ 65535 → module.imports = b.imports) ∧
          ∀ (r : Nat) d, compiled.routines[r]? = some d →
            ∃ member ∈ source.script.members, d.name = member.nameAt r ∧ d.kind = member.kind ∧
              ((∃ token, d.code = Instruction.encodeAll [.trap token, .ret]) ∨
                ∃ is, d.code = Instruction.encodeAll is ∧
                  List.Forall₂ (project.Links path b.imports bindings)
                    (member.calls.filter fun site => (site.routine? bindings).isSome)
                    (is.filter Instruction.isCall) ∧
                  ∀ (k : Nat) site,
                    (member.calls.filter fun site => (site.routine? bindings).isSome)[k]? =
                      some site →
                    project.Furnishes module (UInt16.ofNat r) ⟨table, bindings⟩ b is site k) := by
  obtain ⟨sources, ds, hread, hcollects⟩ := compile_ok h
  have hm (path : String) (compiled : Compiled) (hc : project.modules[path]? = some compiled) :
      ∃ source c b, Compiles files sources path source c b compiled := by
    obtain ⟨source, hsource, table, bound, ds', htable, hbound, hscript⟩ := hcollects.of_toList hc
    obtain ⟨b, hb⟩ := compiles_of_ofScript hread hsource htable hbound hscript
    exact ⟨source, _, b, hb⟩
  have ht (path : String) (t : SymbolTable)
      (htable : (SymbolTables.ofSources sources).1[path]? = some t) :
      ∃ compiled, project.modules[path]? = some compiled := by
    obtain ⟨source, hsource, -⟩ := (collects_ofSources sources).of_toList htable
    exact hcollects.exists_of_toList hsource
  refine ⟨sources, ds, hread, fun path compiled hcompiled => ?_⟩
  obtain ⟨source, c, b, hc⟩ := hm path compiled hcompiled
  refine ⟨source, c.table, c.bindings, b, _, hc.read, hc.assembled.table, hc.bindings, hc.builder,
    hc.written, hc.routines, hc.loaded, fun hsize => ?_, fun r d hd => ?_⟩
  · have hmod := Nat.mod_eq_of_lt (show b.imports.size < 65536 by omega)
    simp [Module.ofBuilder, Builder.counted, hmod]
  · rw [hc.routines, Array.getElem?_toList] at hd
    have hlt : r < c.table.members.entries.size := by
      rw [← hc.assembled.size]
      exact (Array.getElem?_eq_some_iff.mp hd).1
    have hentry := Array.getElem?_eq_getElem hlt
    obtain ⟨member, hmember, hdeclares, d', hd', hmakes⟩ := hc.assembled.routines r _ _ hentry
    cases Option.some.inj (hd.symm.trans hd')
    obtain ⟨hname, hkind⟩ := hc.label hentry hd
    obtain ⟨member', hmember', hlabels⟩ := hc.labels r _ _ hentry
    -- no two members have the node of the entry
    cases Member.eq_of_node hc.assembled.apart hmember hmember'
      (hdeclares.node.symm.trans hlabels.node)
    refine ⟨member, hmember, hname.trans hlabels.named, hkind.trans hlabels.kind, ?_⟩
    obtain ⟨b', code, hopens, hcode, hdcode⟩ | ⟨token, t, -, hdcode⟩ := hmakes.code
    · have hcalls := hcode.calls
      refine .inr ⟨code.instructions, hdcode, ?_, fun k site hsite => ?_⟩
      · exact hcalls.each.imp fun site i hi => links_of_callsAt hm ht hc hopens hi
      · have hmem := (List.mem_filter.mp (List.mem_of_getElem? hsite)).1
        exact furnishes_of_prepares hm ht hc hcompiled hopens hmember hd hcode hdcode hmem
          (hcalls.prepares k site hsite)
    · exact .inl ⟨token, hdcode⟩

lemma extents_sample {c : Emit.Context} {b : Builder} {before arguments after : Code}
    {i : Instruction} {rest : List Instruction}
    (his : .load (.flag true) :: .call 0 :: rest =
      (before ++ arguments ++ Code.one i ++ after).instructions)
    (hcalls : (before ++ arguments).calls.length = 0)
    (h : Emit.ExpressionsCode c b Launch.Sample.arguments arguments) :
    before.extent = 0 ∧ arguments.extent = 2 := by
  obtain ⟨_, _, ⟨_, rfl, rfl⟩, rfl, rfl⟩ := h
  obtain ⟨steps⟩ := before
  match steps with
  | [] => exact ⟨rfl, rfl⟩
  | [step] => simp [Code.instructions, Code.one, Step.instruction] at his
  | first :: second :: more =>
    -- the call would be in front of itself
    obtain ⟨-, hcall, -⟩ :
        first.instruction = .load (.flag true) ∧ second.instruction = .call 0 ∧ _ := by
      simpa [Code.instructions, eq_comm] using his
    simp [Code.calls, Code.instructions, hcall, Instruction.isCall] at hcalls

lemma loadedIn_sample {module : Module}
    (h : compile Launch.sample.files Launch.sample.encoding = .ok project)
    (hcompiled : project.modules["main.nss"]? = some compiled)
    (hload : Module.load "main.nss" compiled.bytes = .ok module) :
    project.LoadedIn ((∅ : Std.TreeMap String Module).insert "main.nss" module) := by
  intro path compiled' m hcompiled' hload'
  obtain ⟨sources, ds, hread, hcollects⟩ := compile_ok h
  cases Except.ok.inj (hread.symm.trans Launch.Sample.read_files)
  obtain ⟨source, hsource, -⟩ := hcollects.of_toList hcompiled'
  obtain rfl : "main.nss" = path := by
    by_contra hpath
    simp [Launch.Sample.sources, hpath] at hsource
  cases Option.some.inj (hcompiled.symm.trans hcompiled')
  cases Except.ok.inj (hload.symm.trans hload')
  exact Std.TreeMap.getElem?_insert_self

theorem calls_linked_sample :
    ∃ project compiled module, compile Launch.sample.files Launch.sample.encoding = .ok project ∧
      project.modules["main.nss"]? = some compiled ∧
      Module.load "main.nss" compiled.bytes = .ok module ∧
      project.Links "main.nss" #[] Launch.Sample.bindings
        ⟨Launch.Sample.call, Launch.Sample.arguments⟩ (.call 0) ∧
      project.Furnishes module 1 ⟨Launch.Sample.table, Launch.Sample.bindings⟩
        Launch.Sample.builder [.load (.flag true), .call 0, .pop, .load .null, .ret]
        ⟨Launch.Sample.call, Launch.Sample.arguments⟩ 0 ∧
      Thread.Gains ((∅ : Std.TreeMap String Module).insert "main.nss" module)
        { module, routine := 1, arguments := #[] } 0 2 1 := by
  obtain ⟨project, hproject⟩ := Launch.Sample.compile_files
  obtain ⟨sources, ds, hread, hcollects⟩ := compile_ok hproject
  cases Except.ok.inj (hread.symm.trans Launch.Sample.read_files)
  have hsource : Launch.Sample.sources["main.nss"]? = some Launch.Sample.source := by
    simp [Launch.Sample.sources]
  obtain ⟨compiled, hcompiled⟩ := hcollects.exists_of_toList hsource
  obtain ⟨sources, _, hread', hlinked⟩ := calls_linked hproject
  cases Except.ok.inj (hread'.symm.trans Launch.Sample.read_files)
  obtain ⟨source, table, bindings, b, module, hsource', htable, hbound, hb, -, hroutines, hload, -,
    hcalls⟩ := hlinked "main.nss" compiled hcompiled
  cases Option.some.inj (hsource'.symm.trans hsource)
  obtain rfl : Launch.Sample.table = table := by
    simpa [Launch.Sample.tables_sources] using htable
  obtain rfl : Launch.Sample.bindings = bindings := by
    simpa [Launch.Sample.tables_sources, Launch.Sample.bindAll_sources] using hbound
  obtain rfl : Launch.Sample.builder = b := by
    simp only [assemble?, Launch.Sample.read_files, Launch.Sample.tables_sources,
      Launch.Sample.bindAll_sources] at hb
    simpa [Launch.Sample.sources, Compiled.assemble, Launch.Sample.addRoutines_table,
      Except.toOption] using hb
  obtain ⟨member, hmember, hname, -, ⟨token, htrap⟩ | ⟨is, his, hlinks, hfurnishes⟩⟩ :=
    hcalls 1 _ (by rw [hroutines]; rfl)
  · cases Instruction.encodeAll_injective htrap
  · cases Instruction.encodeAll_injective his
    have hsites : (member.calls.filter fun site =>
        (site.routine? Launch.Sample.bindings).isSome) =
          [⟨Launch.Sample.call, Launch.Sample.arguments⟩] := by
      obtain rfl | rfl := List.mem_pair.mp hmember
      · simp [Member.nameAt] at hname
      · simp [Member.calls, Block.calls, Statement.callsAll, Statement.calls, Expression.calls,
          Expression.callsAll, Launch.Sample.arguments, CallSite.routine?, Launch.Sample.bindings,
          Symbol.routine?]
    rw [hsites] at hlinks hfurnishes
    obtain ⟨hlink, -⟩ := List.forall₂_cons.mp hlinks
    have hfurnishes := hfurnishes 0 _ rfl
    refine ⟨project, compiled, module, hproject, hcompiled, hload, hlink, hfurnishes, ?_⟩
    obtain ⟨before, arguments, after, i, b', his, -, hcalls, -, hcode, hgains⟩ := hfurnishes
    obtain ⟨hbefore, harguments⟩ := extents_sample his hcalls hcode
    have hgains := hgains (by decide) (by decide) _ (loadedIn_sample hproject hcompiled hload)
      { module, routine := 1, arguments := #[] } rfl rfl
    rwa [hbefore, harguments] at hgains

end CompiledProject

end Stagecraft
