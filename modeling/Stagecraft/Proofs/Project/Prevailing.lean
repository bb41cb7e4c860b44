import Mathlib
import Stagecraft.Proofs.Safety.Launched

namespace Stagecraft

/-- No file with the same normal path comes behind it. -/
def Files.Prevails (files : Files) (path : String) : Prop :=
  ∀ other ∈ files, Path.normalize other = Path.normalize path → other ≤ path

namespace Sources

variable {files : Files} {sources : Sources} {ds : Array FileDiagnostic} {name path text : String}

def sourceOf (isKnown : String → Bool) (name text : String) : Source :=
  let script := (Parse.parseScript name text).value
  { script, includes := script.includes.map fun i => Path.resolve isKnown name i.path }

lemma readFile_ok {isKnown : String → Bool} {raw : String}
    {found found' : Sources × Array FileDiagnostic}
    (h : readFile isKnown raw text found = .ok found') :
    found'.1 =
      found.1.insert (Path.normalize raw) (sourceOf isKnown (Path.normalize raw) text) := by
  simp only [readFile] at h
  split at h
  · cases h
  · split at h
    · cases h
    · cases h
      rfl

lemma foldlM_readFile {isKnown : String → Bool} {pairs : List (String × String)}
    {found found' : Sources × Array FileDiagnostic}
    (h : pairs.foldlM (fun found pair => readFile isKnown pair.1 pair.2 found) found = .ok found') :
    found'.1 = pairs.foldl (fun m pair => m.insert (Path.normalize pair.1)
      (sourceOf isKnown (Path.normalize pair.1) pair.2)) found.1 := by
  induction pairs generalizing found with
  | nil =>
    cases h
    rfl
  | cons pair rest ih =>
    rw [List.foldlM_cons, Except.bind_eq_ok_iff] at h
    obtain ⟨found₁, hread, h⟩ := h
    rw [List.foldl_cons, ← readFile_ok hread]
    exact ih h

lemma getElem?_read (h : read files = .ok (sources, ds)) (name : String) : sources[name]? =
    (files.toList.reverse.find? (Path.normalize ·.1 == name)).map fun pair =>
      sourceOf (files.keys.map Path.normalize).contains (Path.normalize pair.1) pair.2 := by
  have hfold : sources = _ := foldlM_readFile h
  rw [hfold]
  exact (getElem?_foldl_insert (fun pair : String × String => Path.normalize pair.1) _ _ ∅
    name).trans (by simp)

lemma mem_read_iff (h : read files = .ok (sources, ds)) :
    name ∈ sources ↔ ∃ path ∈ files, Path.normalize path = name := by
  rw [Std.TreeMap.mem_iff_isSome_getElem?, getElem?_read h, Option.isSome_map,
    List.find?_isSome]
  constructor
  · rintro ⟨pair, hpair, hname⟩
    have hfile := Std.TreeMap.mem_toList_iff_getElem?_eq_some.mp (List.mem_reverse.mp hpair)
    exact ⟨pair.1, Std.TreeMap.mem_iff_isSome_getElem?.mpr (by rw [hfile]; rfl), eq_of_beq hname⟩
  · rintro ⟨path, hpath, rfl⟩
    obtain ⟨text, htext⟩ := Option.isSome_iff_exists.mp
      (Std.TreeMap.mem_iff_isSome_getElem?.mp hpath)
    exact ⟨(path, text),
      List.mem_reverse.mpr (Std.TreeMap.mem_toList_iff_getElem?_eq_some.mpr htext),
      beq_self_eq_true _⟩

lemma find?_of_prevails (hfile : files[path]? = some text) (h : Files.Prevails files path) :
    files.toList.reverse.find? (Path.normalize ·.1 == Path.normalize path) =
      some (path, text) := by
  have hmem : (path, text) ∈ files.toList.reverse :=
    List.mem_reverse.mpr (Std.TreeMap.mem_toList_iff_getElem?_eq_some.mpr hfile)
  obtain ⟨later, earlier, hsplit⟩ := List.append_of_mem hmem
  rw [List.find?_eq_some_iff_append]
  refine ⟨beq_self_eq_true _, later, earlier, hsplit, fun pair hpair => ?_⟩
  -- the files are in the order of their paths, so those that come later are greater
  have hsorted : files.toList.reverse.Pairwise fun a b => compare b.1 a.1 = .lt :=
    List.pairwise_reverse.mpr Std.TreeMap.ordered_keys_toList
  rw [hsplit] at hsorted
  have hlt : path < pair.1 := compare_lt_iff_lt.mp
    ((List.pairwise_append.mp hsorted).2.2 pair hpair (path, text) List.mem_cons_self)
  have hpair' : files[pair.1]? = some pair.2 := by
    refine Std.TreeMap.mem_toList_iff_getElem?_eq_some.mp (List.mem_reverse.mp ?_)
    rw [hsplit]
    exact List.mem_append_left _ hpair
  have hother : pair.1 ∈ files := Std.TreeMap.mem_iff_isSome_getElem?.mpr (by rw [hpair']; rfl)
  rw [Bool.not_eq_true', beq_eq_false_iff_ne]
  exact fun hname => absurd (h pair.1 hother hname) (not_le_of_gt hlt)

end Sources

namespace CompiledProject

section Modules

variable {files : Files} {encoding : Encoding} {project : CompiledProject}

def CompiledFrom (files : Files) (sources : Sources) (name text : String) (compiled : Compiled) :
    Prop :=
  let source := Sources.sourceOf (files.keys.map Path.normalize).contains name text
  ∃ diagnostics, Compiled.ofScript source.script
    (SymbolTable.ofScript name source.includes source.script).table
    (Bindings.ofScript (SymbolTables.ofSources sources).1 (sources.visibleFrom name)
      source.script).bindings = (.ok compiled, diagnostics)

lemma mem_modules_iff {sources : Sources} {ds : Array FileDiagnostic}
    (hread : Sources.read files = .ok (sources, ds))
    {R : String → Source → Compiled → Prop} (h : Collects R sources.toList ∅ project.modules)
    (name : String) : name ∈ project.modules ↔ ∃ path ∈ files, Path.normalize path = name := by
  rw [← Sources.mem_read_iff hread, Std.TreeMap.mem_iff_isSome_getElem?,
    Std.TreeMap.mem_iff_isSome_getElem?, Option.isSome_iff_exists, Option.isSome_iff_exists]
  constructor
  · rintro ⟨compiled, hcompiled⟩
    obtain ⟨source, hsource, -⟩ := h.of_toList hcompiled
    exact ⟨source, hsource⟩
  · rintro ⟨source, hsource⟩
    exact h.exists_of_toList hsource

lemma size_modules_iff
    (h : ∀ name, name ∈ project.modules ↔ ∃ path ∈ files, Path.normalize path = name) :
    project.modules.size = files.size ↔ ∀ path ∈ files, ∀ other ∈ files,
      Path.normalize path = Path.normalize other → path = other := by
  have himage : project.modules.keys.toFinset = files.keys.toFinset.image Path.normalize := by
    ext name
    simp [h]
  rw [← Std.TreeMap.length_keys, ← Std.TreeMap.length_keys,
    ← List.toFinset_card_of_nodup Std.TreeMap.nodup_keys,
    ← List.toFinset_card_of_nodup Std.TreeMap.nodup_keys, himage, Finset.card_image_iff]
  constructor
  · intro hinj path hpath other hother heq
    exact hinj (by simpa using hpath) (by simpa using hother) heq
  · intro hall path hpath other hother heq
    exact hall path (by simpa using hpath) other (by simpa using hother) heq

/-- The modules of a project are named by the normal paths of its files. There are as many modules
as files exactly if no two files have the same normal path; and the last file of every normal path,
so in that case every file, is the one whose text its module is compiled from. -/
theorem modules_of_files (h : compile files encoding = .ok project) :
    (∀ name, name ∈ project.modules ↔ ∃ path ∈ files, Path.normalize path = name) ∧
    (project.modules.size = files.size ↔ ∀ path ∈ files, ∀ other ∈ files,
      Path.normalize path = Path.normalize other → path = other) ∧
    ∃ sources ds, Sources.read files = .ok (sources, ds) ∧
      ∀ path text, files[path]? = some text → Files.Prevails files path →
        ∃ compiled, project.modules[Path.normalize path]? = some compiled ∧
          compiled.name = Path.normalize path ∧
          CompiledFrom files sources (Path.normalize path) text compiled := by
  obtain ⟨sources, ds, hread, hcollects⟩ := compile_ok h
  have hnames := mem_modules_iff hread hcollects
  refine ⟨hnames, size_modules_iff hnames, sources, ds, hread, fun path text hfile hlast => ?_⟩
  have hsource : sources[Path.normalize path]? = some (Sources.sourceOf
      (files.keys.map Path.normalize).contains (Path.normalize path) text) := by
    rw [Sources.getElem?_read hread, Sources.find?_of_prevails hfile hlast, Option.map_some]
  obtain ⟨compiled, hcompiled⟩ := hcollects.exists_of_toList hsource
  obtain ⟨source, hsource', table, bound, ds', htable, hbound, hmodule⟩ :=
    hcollects.of_toList hcompiled
  cases Option.some.inj (hsource'.symm.trans hsource)
  -- its table and its bindings are made from the same source
  obtain ⟨source, hsource', rfl⟩ := (collects_ofSources sources).of_toList htable
  cases Option.some.inj (hsource'.symm.trans hsource)
  obtain ⟨source, hsource', rfl⟩ := (collects_bindAll sources _).of_toList hbound
  cases Option.some.inj (hsource'.symm.trans hsource)
  obtain ⟨-, -, -, hname, -⟩ := Compiled.ofScript_ok hmodule
  exact ⟨compiled, hcompiled, hname.trans (SymbolTable.describes_ofScript _ _ _).home, ds', hmodule⟩

end Modules

namespace Collision

def files : Files :=
  ((∅ : Files).insert "./main.nss" "chapter first { }").insert "main.nss" "chapter second { }"

open Launch.Sample (node)

def source (chapter : String) (opened last : Nat) : Source where
  script := {
    path := "main.nss"
    includes := []
    members := [.chapter (node 0 1 last) chapter (.mk (node 1 opened last) [])] }
  includes := []

def sources : Sources :=
  (∅ : Sources).insert "main.nss" (source "second" 16 19)

lemma normalize_dotted : Path.normalize "./main.nss" = "main.nss" := by cbv

lemma normalize_plain : Path.normalize "main.nss" = "main.nss" := by cbv

lemma read_files : Sources.read files = .ok (sources, #[]) := by
  have hscript : Sources.isScript "main.nss" = true := by cbv
  have hfirst : Parse.parseScript "main.nss" "chapter first { }" =
      ⟨(source "first" 15 18).script, []⟩ := by cbv
  have hsecond : Parse.parseScript "main.nss" "chapter second { }" =
      ⟨(source "second" 16 19).script, []⟩ := by cbv
  have hfiles : files.toList =
    [("./main.nss", "chapter first { }"), ("main.nss", "chapter second { }")] := rfl
  have hinsert (a b : Source) : ((∅ : Sources).insert "main.nss" a).insert "main.nss" b =
    (∅ : Sources).insert "main.nss" b := rfl
  simp [Sources.read, hfiles, Sources.readFile, normalize_dotted, normalize_plain, hscript, hfirst,
    hsecond, hinsert, source, sources]

def symbol : RoutineSymbol :=
  { module := "main.nss", name := "second", kind := .chapter, index := 0, parameterCount := 0 }

def table : SymbolTable where
  path := "main.nss"
  includes := []
  members := {
    entries := #[("second", { node := 0, kind := .chapter, symbol := .routine symbol })]
    places := (∅ : Std.HashMap String Nat).insert "second" 0 }
  scopes := (∅ : Std.TreeMap Nat Scope).insert 0 {}
  symbols := (∅ : Std.TreeMap Nat Symbol).insert 0 (.routine symbol)

def bindings : Bindings where
  path := "main.nss"
  visible := ["main.nss"]
  references := ∅

def builder : Builder where
  routines := #[
    { kind := .chapter, name := "second", parameters := [], dialogues := []
      code := Instruction.encodeAll [.load .null, .ret] }]

lemma tables_sources :
    SymbolTables.ofSources sources = ((∅ : SymbolTables).insert "main.nss" table, #[]) := by
  have hincludes : (source "second" 16 19).includes = [] := rfl
  have htable : SymbolTable.ofScript "main.nss" [] (source "second" 16 19).script =
      ⟨table, #[]⟩ := by
    simp [SymbolTable.ofScript, source, SymbolTable.addMember, Dictionary.contains,
      Dictionary.size, Member.nameAt, Member.parameters, Member.kind, SymbolTable.addParameters,
      SymbolTable.symbolOf, Member.dialogues, Block.dialogues, Statement.dialoguesAll,
      SymbolTable.addDialogues, Dictionary.insert, Member.node, node, table, symbol]
  simp [sources, Launch.ofSources_singleFile, hincludes, htable, inFile]

lemma bindAll_sources :
    bindAll sources ((∅ : SymbolTables).insert "main.nss" table) =
      ((∅ : Std.TreeMap String Bindings).insert "main.nss" bindings, #[]) := by
  have hvisible : sources.visibleFrom "main.nss" = ["main.nss"] := by cbv
  have hbindings : Bindings.ofScript ((∅ : SymbolTables).insert "main.nss" table) ["main.nss"]
      (source "second" 16 19).script = ⟨bindings, #[]⟩ := by
    simp [Bindings.ofScript, source, Bindings.addMember, Member.uses, Block.uses,
      Statement.usesAll, bindings]
  rw [sources, Launch.bindAll_singleFile _ hvisible, hbindings]
  simp [inFile]

lemma compile_files : ∃ project, compile files .utf8 = .ok project := by
  have hroutines : Compiled.addRoutines { table, bindings }
      (Compiled.membersOf (source "second" 16 19).script) table.members.toList {} #[] =
      (.ok builder, #[]) := by cbv
  obtain ⟨bytes, hwrite⟩ : ∃ bytes, builder.write = .ok bytes := ⟨_, by cbv⟩
  exact ⟨_, Launch.compile_singleFile read_files (by cbv) tables_sources bindAll_sources hroutines
    hwrite⟩

lemma mem_files (path : String) : path ∈ files ↔ path = "./main.nss" ∨ path = "main.nss" := by
  simp [files, Std.TreeMap.mem_insert, or_comm, @eq_comm _ path]

end Collision

open Collision in
theorem modules_of_files_collision :
    ∃ project, compile files .utf8 = .ok project ∧
      (∀ name, name ∈ project.modules ↔ name = "main.nss") ∧
      ∃ compiled, project.modules["main.nss"]? = some compiled ∧
        CompiledFrom files sources "main.nss" "chapter second { }" compiled := by
  obtain ⟨project, hproject⟩ := compile_files
  obtain ⟨hnames, -, read, ds, hread, hmodules⟩ := modules_of_files hproject
  cases hread.symm.trans read_files
  refine ⟨project, hproject, fun name => ?_, ?_⟩
  · simp [hnames, mem_files, normalize_dotted, normalize_plain, eq_comm]
  · have hlast : Files.Prevails files "main.nss" := by
      intro other hother _
      rcases (mem_files other).mp hother with rfl | rfl <;> decide
    obtain ⟨compiled, hcompiled, -, hfrom⟩ :=
      hmodules "main.nss" "chapter second { }" (by simp [files]) hlast
    rw [normalize_plain] at hcompiled hfrom
    exact ⟨compiled, hcompiled, hfrom⟩

open Collision in
/-- A project can have fewer modules than files. -/
theorem not_module_per_file :
    ¬ ∀ (files : Files) (encoding : Encoding) (project : CompiledProject),
      compile files encoding = .ok project → project.modules.size = files.size := by
  intro h
  obtain ⟨project, hproject⟩ := compile_files
  obtain ⟨sources, ds, hread, hcollects⟩ := compile_ok hproject
  have hdistinct := (size_modules_iff (mem_modules_iff hread hcollects)).mp
    (h files .utf8 project hproject)
  have hpath := hdistinct "./main.nss" ((mem_files _).mpr (.inl rfl)) "main.nss"
    ((mem_files _).mpr (.inr rfl)) (normalize_dotted.trans normalize_plain.symm)
  exact absurd hpath (by decide)

end CompiledProject

end Stagecraft
