import Stagecraft.Machine.Launch
import Stagecraft.Proofs.Safety.Linked

namespace Stagecraft

lemma getElem?_foldl_insert {κ α β : Type} [Ord κ] [Std.TransOrd κ] [Std.LawfulEqOrd κ]
    [BEq κ] [LawfulBEq κ] (key : α → κ) (value : α → β) (xs : List α) (m : Std.TreeMap κ β)
    (k : κ) :
    (xs.foldl (fun m x => m.insert (key x) (value x)) m)[k]? =
      ((xs.reverse.find? (key · == k)).map value).or m[k]? := by
  induction xs generalizing m with
  | nil => simp
  | cons x xs ih =>
    rw [List.foldl_cons, ih, List.reverse_cons, List.find?_append]
    cases xs.reverse.find? (key · == k) with
    | some y => rfl
    | none =>
      rw [Std.TreeMap.getElem?_insert]
      by_cases hx : key x = k
      · simp [hx]
      · simp [hx]

namespace Compiled

def membersOf (script : Script) : Std.TreeMap Nat Member :=
  script.members.foldl (fun found m => found.insert m.node.id m) ∅

def assemble (script : Script) (table : SymbolTable) (bindings : Bindings) :
    Except ModuleError Builder :=
  (addRoutines { table, bindings } (membersOf script) table.members.toList {} #[]).1

lemma getElem?_membersOf {script : Script} (ha : script.members.Pairwise Member.Apart)
    {m : Member} (hm : m ∈ script.members) : (membersOf script)[m.node.id]? = some m := by
  rw [membersOf, getElem?_foldl_insert (fun m : Member => m.node.id) fun m => m]
  cases hfind : script.members.reverse.find? (·.node.id == m.node.id) with
  | none =>
    rw [List.find?_eq_none] at hfind
    exact absurd (beq_self_eq_true _) (hfind m (List.mem_reverse.mpr hm))
  | some m' =>
    have hmem := List.mem_reverse.mp (List.mem_of_find?_eq_some hfind)
    have hnode : (m'.node.id == m.node.id) = true := by simpa using List.find?_some hfind
    cases Member.eq_of_node ha hmem hm (eq_of_beq hnode)
    rfl

lemma ofScript_ok {script : Script} {table : SymbolTable} {bindings : Bindings}
    {compiled : Compiled} {ds : Array Diagnostic}
    (h : ofScript script table bindings = (.ok compiled, ds)) :
    ∃ b, assemble script table bindings = .ok b ∧ b.write = .ok compiled.bytes ∧
      compiled.name = table.path ∧ compiled.routines = b.routines.toList := by
  simp only [ofScript] at h
  split at h
  · cases h
  · next b ds' hadd =>
    refine ⟨b, congrArg Prod.fst hadd, ?_⟩
    have hwrite := congrArg Prod.fst h
    cases hw : b.write with
    | error e => simp [hw, Except.map] at hwrite
    | ok bytes =>
      rw [hw] at hwrite
      cases hwrite
      exact ⟨rfl, rfl, rfl⟩

lemma exists_member {path : String} {source : Source} {table : SymbolTable}
    (hs : source.Sound path) (hd : table.Describes path source.script.members)
    (x : String × Declaration) (hx : x ∈ table.members.toList) :
    ∃ member, (membersOf source.script)[x.2.node]? = some member := by
  obtain ⟨name, entry⟩ := x
  obtain ⟨i, hi⟩ := List.getElem?_of_mem hx
  obtain ⟨member, hm, hdeclares⟩ :=
    hd.entries i name entry (by simpa [Dictionary.toList] using hi)
  exact ⟨member, hdeclares.node ▸ getElem?_membersOf hs.apart hm⟩

end Compiled

lemma assembled_of_assemble {tables : SymbolTables} {visible : List String} {path : String}
    {source : Source} {table : SymbolTable} {bindings : Bindings} {b : Builder} {bytes : ByteArray}
    (hs : source.Sound path) (ht : tables[path]? = some table)
    (hd : table.Describes path source.script.members)
    (hb : bindings.From ⟨tables, path, visible⟩ source.script.members)
    (h : Compiled.assemble source.script table bindings = .ok b) (hw : b.write = .ok bytes) :
    Assembled tables visible path source.script.members ⟨table, bindings⟩ b := by
  obtain ⟨hwritable, -⟩ := Builder.write_ok hw
  rcases hadd : Compiled.addRoutines { table, bindings } (Compiled.membersOf source.script)
    table.members.toList {} #[] with ⟨r, ds⟩
  rw [Compiled.assemble, hadd] at h
  cases h
  obtain ⟨-, hsize, hroutines⟩ :=
    Compiled.addRoutines_ok (Compiled.exists_member hs hd) Builder.sound_empty hadd
  refine ⟨hs.apart, ht, hd, hb, by simpa [Dictionary.toList] using hsize,
    hwritable.routines_lt, fun i name entry he => ?_⟩
  obtain ⟨member, hm, hdeclares⟩ := hd.entries i name entry he
  obtain ⟨member', d, hmember', hd', hmakes⟩ := hroutines i (name, entry)
    (by simpa [Dictionary.toList] using he)
  have hsame := Compiled.getElem?_membersOf hs.apart hm
  rw [← hdeclares.node, hmember'] at hsame
  cases hsame
  exact ⟨member, hm, hdeclares, d, by simpa using hd', hmakes⟩

namespace CompiledProject

/-- The module of the file at a path of a project, before it is written. -/
def assemble? (files : Files) (path : String) : Option Builder :=
  match Sources.read files with
  | .error _ => none
  | .ok (sources, _) =>
    let tables := (SymbolTables.ofSources sources).1
    match sources[path]?, tables[path]?, (bindAll sources tables).1[path]? with
    | some source, some table, some bindings =>
      (Compiled.assemble source.script table bindings).toOption
    | _, _, _ => none

lemma collects_ofSources (sources : Sources) :
    Collects (fun path source table => table = (SymbolTable.ofScript path source.includes
      source.script).table) sources.toList ∅ (SymbolTables.ofSources sources).1 := by
  unfold SymbolTables.ofSources
  refine Collects.foldl Prod.fst ?_ (∅, #[])
  exact fun _ _ _ => ⟨_, rfl, rfl⟩

lemma collects_bindAll (sources : Sources) (tables : SymbolTables) :
    Collects (fun path source bindings => bindings = (Bindings.ofScript tables
      (sources.visibleFrom path) source.script).bindings) sources.toList ∅
      (bindAll sources tables).1 := by
  unfold bindAll
  refine Collects.foldl Prod.fst ?_ (∅, #[])
  exact fun _ _ _ => ⟨_, rfl, rfl⟩

lemma collects_addModules {tables : SymbolTables} {bindings : Std.TreeMap String Bindings}
    {pairs : List (String × Source)} {project project' : CompiledProject}
    (hp : ∀ pair ∈ pairs, (∃ t, tables[pair.1]? = some t) ∧ ∃ b, bindings[pair.1]? = some b)
    (h : addModules tables bindings pairs project = .ok project') :
    Collects (fun path source compiled => ∃ table bound ds, tables[path]? = some table ∧
      bindings[path]? = some bound ∧
      Compiled.ofScript source.script table bound = (.ok compiled, ds)) pairs
      project.modules project'.modules := by
  induction pairs generalizing project with
  | nil =>
    cases h
    exact .nil
  | cons pair rest ih =>
    obtain ⟨path, source⟩ := pair
    rw [List.forall_mem_cons] at hp
    obtain ⟨⟨⟨table, htable⟩, bound, hbound⟩, hrest⟩ := hp
    simp only [addModules, htable, hbound] at h
    split at h
    · next compiled ds hcompiled =>
      exact .cons ⟨table, bound, ds, htable, hbound, hcompiled⟩ (ih hrest h)
    · cases h

end CompiledProject

namespace Launch

lemma loadAll_ok {pairs : List (String × Compiled)}
    (hp : ∀ pair ∈ pairs, ∃ m, Module.load pair.1 pair.2.bytes = .ok m ∧ m.name = pair.1)
    (machine : Machine) :
    ∃ machine' : Machine, loadAll machine pairs = .ok machine' ∧
      machine'.registry = machine.registry ∧ machine'.threads = machine.threads ∧
      machine'.errors = machine.errors ∧
      Collects (fun name compiled m => Module.load name compiled.bytes = .ok m) pairs
        machine.modules machine'.modules := by
  induction pairs generalizing machine with
  | nil => exact ⟨machine, rfl, rfl, rfl, rfl, .nil⟩
  | cons pair rest ih =>
    obtain ⟨name, compiled⟩ := pair
    rw [List.forall_mem_cons] at hp
    obtain ⟨⟨m, hload, hname⟩, hrest⟩ := hp
    obtain ⟨machine', hall, hregistry, hthreads, herrors, hcollects⟩ :=
      ih hrest (machine.addModule m)
    refine ⟨machine', ?_, hregistry, hthreads, herrors, .cons hload ?_⟩
    · simp only [loadAll, hload, Except.ok_bind, hall]
    · rw [Machine.addModule, hname] at hcollects
      exact hcollects

end Launch

namespace CompiledProject

def Small (files : Files) : Prop :=
  ∀ path b, assemble? files path = some b →
    b.heap.texts.size ≤ 65535 ∧ b.imports.size ≤ 65535

lemma compile_ok {files : Files} {encoding : Encoding} {project : CompiledProject}
    (h : compile files encoding = .ok project) :
    ∃ sources ds, Sources.read files = .ok (sources, ds) ∧
      Collects (fun path source compiled => ∃ table bound ds,
        (SymbolTables.ofSources sources).1[path]? = some table ∧
        (bindAll sources (SymbolTables.ofSources sources).1).1[path]? = some bound ∧
        Compiled.ofScript source.script table bound = (.ok compiled, ds))
        sources.toList ∅ project.modules := by
  unfold compile at h
  split at h
  · cases h
  · simp only [Except.bind_eq_ok_iff] at h
    obtain ⟨⟨sources, ds⟩, hread, -, -, h⟩ := h
    refine ⟨sources, ds, hread, collects_addModules (fun pair hpair => ?_) h⟩
    have hsource : sources[pair.1]? = some pair.2 :=
      Std.TreeMap.mem_toList_iff_getElem?_eq_some.mp hpair
    exact ⟨(collects_ofSources sources).exists_of_toList hsource,
      (collects_bindAll sources _).exists_of_toList hsource⟩

lemma assembled_compiled {files : Files} {sources : Sources} {ds : Array FileDiagnostic}
    {path : String} {source : Source} {table : SymbolTable} {bound : Bindings}
    {compiled : Compiled} {ds' : Array Diagnostic}
    (hread : Sources.read files = .ok (sources, ds)) (hsource : sources[path]? = some source)
    (htable : (SymbolTables.ofSources sources).1[path]? = some table)
    (hbound : (bindAll sources (SymbolTables.ofSources sources).1).1[path]? = some bound)
    (h : Compiled.ofScript source.script table bound = (.ok compiled, ds')) :
    ∃ b, assemble? files path = some b ∧ b.write = .ok compiled.bytes ∧
      compiled.routines = b.routines.toList ∧
      Assembled (SymbolTables.ofSources sources).1 (sources.visibleFrom path) path
        source.script.members ⟨table, bound⟩ b ∧
      Module.load path compiled.bytes = .ok (Module.ofBuilder path b.counted) := by
  obtain ⟨b, hassemble, hwrite, -, hroutines⟩ := Compiled.ofScript_ok h
  have hsound := Sources.sound_read hread hsource
  have hb : assemble? files path = some b := by
    simp [assemble?, hread, hsource, htable, hbound, hassemble, Except.toOption]
  obtain ⟨source', hsource', rfl⟩ := (collects_ofSources sources).of_toList htable
  cases Option.some.inj (hsource'.symm.trans hsource)
  obtain ⟨source', hsource', rfl⟩ := (collects_bindAll sources _).of_toList hbound
  cases Option.some.inj (hsource'.symm.trans hsource)
  have hfrom := Bindings.from_ofScript (SymbolTables.ofSources sources).1
    (sources.visibleFrom path) source.script
  rw [hsound.path] at hfrom
  have ha := assembled_of_assemble hsound htable
    (SymbolTable.describes_ofScript path source.includes source.script) hfrom hassemble hwrite
  refine ⟨b, hb, hwrite, hroutines, ha, ?_⟩
  obtain ⟨hwritable, hlayout⟩ := Builder.write_ok hwrite
  refine Module.load_counted path hwritable (Builder.parts_of_layout hlayout) fun d hd => ?_
  obtain ⟨i, hi, rfl⟩ := Array.getElem_of_mem hd
  have hentry := Array.getElem?_eq_getElem (ha.size ▸ hi)
  obtain ⟨member, -, -, d', hd', hmakes⟩ := ha.routines i _ _ hentry
  rw [Array.getElem?_eq_getElem hi] at hd'
  cases hd'
  exact hmakes.offsets

lemma load_compiled {files : Files} {sources : Sources} {ds : Array FileDiagnostic}
    {path : String} {source : Source} {table : SymbolTable} {bound : Bindings}
    {compiled : Compiled} {ds' : Array Diagnostic} (hsmall : Small files)
    (hread : Sources.read files = .ok (sources, ds)) (hsource : sources[path]? = some source)
    (htable : (SymbolTables.ofSources sources).1[path]? = some table)
    (hbound : (bindAll sources (SymbolTables.ofSources sources).1).1[path]? = some bound)
    (h : Compiled.ofScript source.script table bound = (.ok compiled, ds')) :
    ∃ visible members c b, Assembled (SymbolTables.ofSources sources).1 visible path members c b ∧
      Module.load path compiled.bytes = .ok (Module.ofBuilder path b) := by
  obtain ⟨b, hb, -, -, ha, hload⟩ := assembled_compiled hread hsource htable hbound h
  obtain ⟨htexts, himports⟩ := hsmall path b hb
  rw [Builder.counted_eq (by omega) (by omega)] at hload
  exact ⟨_, _, _, b, ha, hload⟩

lemma loadAll_compiled {files : Files} {encoding : Encoding} {project : CompiledProject}
    (hsmall : Small files) (h : compile files encoding = .ok project) (seed : Option UInt32)
    (budget : Nat) :
    ∃ machine, Launch.loadAll (.new seed budget) project.modules.toList = .ok machine ∧
      Linked machine.modules ∧ machine.Sound machine.modules := by
  obtain ⟨sources, ds, hread, hcollects⟩ := compile_ok h
  have hload (path : String) (compiled : Compiled) (hc : project.modules[path]? = some compiled) :
      ∃ visible members c b,
        Assembled (SymbolTables.ofSources sources).1 visible path members c b ∧
        Module.load path compiled.bytes = .ok (Module.ofBuilder path b) := by
    obtain ⟨source, hsource, table, bound, ds', htable, hbound, hscript⟩ := hcollects.of_toList hc
    exact load_compiled hsmall hread hsource htable hbound hscript
  have hpairs : ∀ pair ∈ project.modules.toList, ∃ m,
      Module.load pair.1 pair.2.bytes = .ok m ∧ m.name = pair.1 := by
    rintro ⟨path, compiled⟩ hpair
    obtain ⟨_, _, _, b, -, hb⟩ :=
      hload path compiled (Std.TreeMap.mem_toList_iff_getElem?_eq_some.mp hpair)
    exact ⟨_, hb, rfl⟩
  obtain ⟨machine, hall, hregistry, hthreads, herrors, hmodules⟩ :=
    Launch.loadAll_ok hpairs (.new seed budget)
  refine ⟨machine, hall, ?_, rfl, hregistry, by simp [hthreads, Machine.new],
    by simp [herrors, Machine.new]⟩
  apply linked_of_assembled
  · intro path m hm
    obtain ⟨compiled, hc, hm⟩ := hmodules.of_toList hm
    obtain ⟨visible, members, c, b, ha, hb⟩ := hload path compiled hc
    exact ⟨visible, members, c, b, ha, Except.ok.inj (hm.symm.trans hb)⟩
  · intro path t ht
    obtain ⟨source, hsource, -⟩ := (collects_ofSources sources).of_toList ht
    obtain ⟨compiled, hc⟩ := hcollects.exists_of_toList hsource
    exact hmodules.exists_of_toList hc

end CompiledProject

namespace Launch

lemma reaches_launch {options : Options} {project : CompiledProject} {machine : Machine}
    {launched : Launched}
    (hcompile : CompiledProject.compile options.files options.encoding = .ok project)
    (hload : loadAll (.new options.seed options.budget) project.modules.toList = .ok machine)
    (h : launch options = .ok launched) : machine.Reaches launched.machine := by
  simp only [launch, hcompile, hload, Except.mapError, Except.ok_bind, Except.bind_eq_ok_iff] at h
  obtain ⟨module, -, h⟩ := h
  split at h
  · cases h
  · split at h
    · cases h
    · next entry _ =>
      split at h
      · next machine' hcreate =>
        cases h
        have hact := Machine.Act.createThread (m := machine) mainThread module entry
        rw [hcreate] at hact
        exact .single hact
      · cases h

/-- A project that compiles can be loaded, and whatever a host does with the machine, before or
after the first thread is started, threads end with permitted errors only. -/
theorem errors_permitted (options : Options) {project : CompiledProject}
    (hcompile : CompiledProject.compile options.files options.encoding = .ok project)
    (hsmall : CompiledProject.Small options.files) :
    (∃ machine, loadAll (.new options.seed options.budget) project.modules.toList = .ok machine ∧
      ∀ m, machine.Reaches m → ∀ e ∈ m.errors, e.error.code ∈ MachineError.permitted) ∧
    ∀ launched, launch options = .ok launched →
      ∀ m, launched.machine.Reaches m → ∀ e ∈ m.errors, e.error.code ∈ MachineError.permitted := by
  obtain ⟨machine, hall, hlinked, hsound⟩ :=
    CompiledProject.loadAll_compiled hsmall hcompile options.seed options.budget
  refine ⟨⟨machine, hall, fun m hm => (hsound.reaches hlinked hm).errors⟩, ?_⟩
  intro launched hlaunch m hm
  have hreach := (reaches_launch hcompile hall hlaunch).trans hm
  exact (hsound.reaches hlinked hreach).errors

section SingleFile

variable {text : String} {script : Script} {source : Source}

lemma read_singleFile (hparse : Parse.parseScript "main.nss" text = ⟨script, []⟩)
    (hincludes : script.includes = []) :
    Sources.read ((∅ : Files).insert "main.nss" text) =
      .ok ((∅ : Sources).insert "main.nss" ⟨script, []⟩, #[]) := by
  have hpath : Path.normalize "main.nss" = "main.nss" := by cbv
  have hscript : Sources.isScript "main.nss" = true := by cbv
  have hfiles : ((∅ : Files).insert "main.nss" text).toList = [("main.nss", text)] := rfl
  simp [Sources.read, hfiles, Sources.readFile, hpath, hscript, hparse, hincludes]

lemma toList_singleFile (source : Source) :
    ((∅ : Sources).insert "main.nss" source).toList = [("main.nss", source)] := rfl

lemma ofSources_singleFile (source : Source) :
    SymbolTables.ofSources ((∅ : Sources).insert "main.nss" source) =
      let p := SymbolTable.ofScript "main.nss" source.includes source.script
      ((∅ : SymbolTables).insert "main.nss" p.table,
        CompiledProject.inFile "main.nss" p.diagnostics) := by
  simp [SymbolTables.ofSources, toList_singleFile, CompiledProject.inFile]

lemma bindAll_singleFile (tables : SymbolTables)
    (hvisible : Sources.visibleFrom ((∅ : Sources).insert "main.nss" source) "main.nss" =
      ["main.nss"]) :
    CompiledProject.bindAll ((∅ : Sources).insert "main.nss" source) tables =
      let p := Bindings.ofScript tables ["main.nss"] source.script
      ((∅ : Std.TreeMap String Bindings).insert "main.nss" p.bindings,
        CompiledProject.inFile "main.nss" p.diagnostics) := by
  simp [CompiledProject.bindAll, toList_singleFile, hvisible]

lemma compile_singleFile {files : Files} {table : SymbolTable} {bindings : Bindings}
    {builder : Builder} {bytes : ByteArray}
    (hread : Sources.read files = .ok ((∅ : Sources).insert "main.nss" source, #[]))
    (hincludes : Sources.checkIncludes ((∅ : Sources).insert "main.nss" source) = .ok ())
    (htables : SymbolTables.ofSources ((∅ : Sources).insert "main.nss" source) =
      ((∅ : SymbolTables).insert "main.nss" table, #[]))
    (hbindings : CompiledProject.bindAll ((∅ : Sources).insert "main.nss" source)
      ((∅ : SymbolTables).insert "main.nss" table) =
        ((∅ : Std.TreeMap String Bindings).insert "main.nss" bindings, #[]))
    (hroutines : Compiled.addRoutines { table, bindings } (Compiled.membersOf source.script)
      table.members.toList {} #[] = (.ok builder, #[]))
    (hwrite : builder.write = .ok bytes) :
    CompiledProject.compile files .utf8 = .ok {
      modules := (∅ : Std.TreeMap String Compiled).insert "main.nss"
        ⟨table.path, builder.routines.toList, bytes⟩ } := by
  rw [Compiled.membersOf] at hroutines
  simp [CompiledProject.compile, hread, hincludes, htables, hbindings, toList_singleFile,
    CompiledProject.addModules, Compiled.ofScript, hroutines, hwrite, Except.map,
    CompiledProject.inFile]

end SingleFile

def sample : Options where
  files := (∅ : Files).insert "main.nss" "function f($a){}chapter main{f(true);}"

namespace Sample

def node (id first last : Nat) : Node :=
  { id, span := { first := ⟨1, first⟩, last := ⟨1, last⟩ } }

def call : Node := node 6 30 37

def arguments : List Expression :=
  [.literal (node 5 32 36) (.flag true)]

def source : Source where
  script := {
    path := "main.nss"
    includes := []
    members := [
      .function (node 0 1 17) "f" [⟨node 1 12 14, "$a"⟩] (.mk (node 2 15 17) []),
      .chapter (node 3 17 39) "main" (.mk (node 4 29 39)
        [.expression (node 7 30 38) (.call call "f" arguments)])] }
  includes := []

def sources : Sources :=
  (∅ : Sources).insert "main.nss" source

def routine (name : String) (kind : RoutineKind) (index : UInt16) : RoutineSymbol :=
  { module := "main.nss", name, kind, index, parameterCount := 0 }

def callee : RoutineSymbol :=
  { routine "f" .function 0 with parameterCount := 1 }

def scope : Scope where
  parameters := {
    entries := #[("$a", { name := "$a", index := 0 })]
    places := (∅ : Std.HashMap String Nat).insert "$a" 0 }

def table : SymbolTable where
  path := "main.nss"
  includes := []
  members := {
    entries := #[
      ("f", { node := 0, kind := .function, symbol := .routine callee }),
      ("main", { node := 3, kind := .chapter, symbol := .routine (routine "main" .chapter 1) })]
    places := ((∅ : Std.HashMap String Nat).insert "f" 0).insert "main" 1 }
  scopes := ((∅ : Std.TreeMap Nat Scope).insert 0 scope).insert 3 {}
  symbols := ((∅ : Std.TreeMap Nat Symbol).insert 0 (.routine callee)).insert 3
    (.routine (routine "main" .chapter 1))

def bindings : Bindings where
  path := "main.nss"
  visible := ["main.nss"]
  references := (∅ : Std.TreeMap Nat Symbol).insert call.id (.routine callee)

def builder : Builder where
  routines := #[
    { kind := .function, name := "f", parameters := ["$a"], dialogues := []
      code := Instruction.encodeAll [.load .null, .ret] },
    { kind := .chapter, name := "main", parameters := [], dialogues := []
      code := Instruction.encodeAll [.load (.flag true), .call 0, .pop, .load .null, .ret] }]

lemma read_files : Sources.read sample.files = .ok (sources, #[]) := by
  have hparse : Parse.parseScript "main.nss" "function f($a){}chapter main{f(true);}" =
      ⟨source.script, []⟩ := by cbv
  exact read_singleFile hparse rfl

lemma tables_sources :
    SymbolTables.ofSources sources = ((∅ : SymbolTables).insert "main.nss" table, #[]) := by
  have htable : SymbolTable.ofScript "main.nss" source.includes source.script =
      ⟨table, #[]⟩ := by
    -- the keys of a hash map can be found only by rewriting, not by evaluation
    simp [SymbolTable.ofScript, source, SymbolTable.addMember, Dictionary.contains,
      Dictionary.size, Member.nameAt, Member.parameters, Member.kind, SymbolTable.addParameters,
      Scope.addParameter, SymbolTable.symbolOf, Member.dialogues, Block.dialogues,
      Statement.dialoguesAll, Statement.dialogues, SymbolTable.addDialogues, Dictionary.insert,
      Member.node, node, table, routine, callee, scope]
  simp [sources, ofSources_singleFile, htable, CompiledProject.inFile]

lemma bindAll_sources :
    CompiledProject.bindAll sources ((∅ : SymbolTables).insert "main.nss" table) =
      ((∅ : Std.TreeMap String Bindings).insert "main.nss" bindings, #[]) := by
  have hvisible : sources.visibleFrom "main.nss" = ["main.nss"] := by cbv
  have hid : Signature.idOf? "f" = none := by cbv
  have hbindings : Bindings.ofScript ((∅ : SymbolTables).insert "main.nss" table) ["main.nss"]
      source.script = ⟨bindings, #[]⟩ := by
    simp [Bindings.ofScript, source, Bindings.addMember, Member.uses, Block.uses,
      Statement.usesAll, Statement.uses, Expression.uses, Expression.usesAll, arguments,
      Bindings.addUse, Surroundings.resolve, hid, Surroundings.findVisible, SymbolTable.find?,
      Dictionary.get?, Std.HashMap.getElem_insert, table, bindings, node, call]
  rw [sources, bindAll_singleFile _ hvisible, hbindings]
  simp [CompiledProject.inFile]

lemma addRoutines_table :
    Compiled.addRoutines { table, bindings } (Compiled.membersOf source.script)
      table.members.toList {} #[] = (.ok builder, #[]) := by
  cbv

lemma compile_files :
    ∃ project, CompiledProject.compile sample.files sample.encoding = .ok project := by
  obtain ⟨bytes, hwrite⟩ : ∃ bytes, builder.write = .ok bytes := ⟨_, by cbv⟩
  exact ⟨_, compile_singleFile read_files (by cbv) tables_sources bindAll_sources
    addRoutines_table hwrite⟩

lemma small_files : CompiledProject.Small sample.files := by
  intro path b h
  simp only [CompiledProject.assemble?, read_files, tables_sources, bindAll_sources] at h
  by_cases hpath : path = "main.nss"
  · subst hpath
    simp [sources, Compiled.assemble, addRoutines_table, Except.toOption] at h
    subst h
    decide
  · simp [sources, Ne.symm hpath] at h

end Sample

theorem errors_permitted_sample :
    ∃ project machine, CompiledProject.compile sample.files sample.encoding = .ok project ∧
      loadAll (.new sample.seed sample.budget) project.modules.toList = .ok machine ∧
      ∀ m, machine.Reaches m → ∀ e ∈ m.errors, e.error.code ∈ MachineError.permitted := by
  obtain ⟨project, hproject⟩ := Sample.compile_files
  obtain ⟨⟨machine, hload, hm⟩, -⟩ := errors_permitted sample hproject Sample.small_files
  exact ⟨project, machine, hproject, hload, hm⟩

end Launch

end Stagecraft
