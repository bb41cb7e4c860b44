import Stagecraft.Proofs.Code.Begins
import Stagecraft.Proofs.Project.Replaced

namespace Stagecraft

/-- The dialogue blocks of a routine have the given names, and its code begins just these, each
where the routine says. -/
structure Definition.Indexes (d : Definition) (names : List String) : Prop where
  names : d.dialogues.map (·.name) = names
  fits : d.dialogues.length < 65536
  begins : ∃ found, Instruction.decodeAll d.code = .ok found ∧
    found.filterMap Instruction.begun? =
      d.dialogues.mapIdx fun k mark => (UInt16.ofNat k, mark.offset.toNat)

lemma Member.AllRise.blocks {high : Nat} {members : List Member} (h : Member.AllRise high members)
    {m : Member} (hm : m ∈ members) : (m.blocks.map (·.node.id)).Pairwise (· < ·) := by
  have hplaces := (List.pairwise_flatMap.mp h.places.pairwise).1 m hm
  cases m with
  | dialogue value => exact hplaces
  | _ => exact (List.pairwise_cons.mp hplaces).2

namespace SymbolTable

lemma Lists.symbol {t : SymbolTable} {name : String} {member : Member} (h : t.Lists name member)
    (hlen : member.blocks.length < 65536) {k : Nat} {block : Dialogue}
    (hk : member.blocks[k]? = some block) :
    ∃ symbol, t.dialogueOf? block.node.id = some symbol ∧ symbol.index.toNat = k ∧
      (member.blockNames name)[k]? = some symbol.name := by
  have hlabels := (h.blocks (Nat.le_of_lt hlen)).trans (map_some_numbered _)
  have hlabel := congrArg (·[k]?) hlabels
  simp only [List.getElem?_map, hk, Option.map_some, List.getElem?_mapIdx] at hlabel
  obtain ⟨name', hname', hsome⟩ := Option.map_eq_some_iff.mp hlabel.symm
  obtain ⟨symbol, hsymbol, hpair⟩ := Option.map_eq_some_iff.mp hsome.symm
  obtain ⟨hindex, rfl⟩ := Prod.mk.inj hpair
  have hlt : k < member.blocks.length := (List.getElem?_eq_some_iff.mp hk).1
  refine ⟨symbol, hsymbol, ?_, hname'⟩
  rw [hindex, UInt16.toNat_ofNat_of_lt' (Nat.lt_trans hlt hlen)]

end SymbolTable

namespace Compiled

variable {c : Emit.Context} {b b' : Builder} {name : String} {kind : RoutineKind}
  {member : Member} {d : Definition} {issue? : Option Diagnostic} {code : Code}

lemma mapIdx_marks {marks : List (UInt16 × DialogueMark)} {names : List String}
    (h : marks.map (fun mark => (mark.1, mark.2.name)) = numbered names) :
    marks.map (fun mark => (mark.1, mark.2.offset.toNat)) =
      (marks.map (·.2)).mapIdx fun k mark => (UInt16.ofNat k, mark.offset.toNat) := by
  refine List.ext_getElem? fun k => ?_
  have hk := congrArg (·[k]?) h
  simp only [numbered, List.getElem?_map, List.getElem?_mapIdx] at hk ⊢
  cases hmark : marks[k]? with
  | none => rfl
  | some mark =>
    rw [hmark, Option.map_some, eq_comm, Option.map_eq_some_iff] at hk
    obtain ⟨name, -, hpair⟩ := hk
    simp [(Prod.mk.inj hpair).1]

lemma indexes_routineOf (hs : b.Sound) (ht : c.table.Lists name member)
    (h : routineOf c name kind member b = (.ok (d, issue?), b'))
    (hcode : (Emit.member c member { builder := b }).1 = .ok code)
    (hlen : d.dialogues.length < 65536) :
    d.code = code.encode ∧ d.Indexes (member.blockNames name) := by
  rcases hmember : Emit.member c member { builder := b } with ⟨r, draft⟩
  rw [hmember] at hcode
  cases hcode
  have hnames := names_routineOf ht h hlen
  obtain ⟨builder, marks⟩ := draft
  simp only [routineOf, hmember] at h
  cases h
  have hsize : marks.size ≤ 65536 := by simpa [sortMarks] using Nat.le_of_lt hlen
  have hnumbered := numbered_marks ht hmember hsize
  have hsorted := sortMarks_eq hnumbered (by
    rw [← hnames, List.length_map]
    exact Nat.le_of_lt hlen)
  have hmarks : Draft.places _ = [] ++ code.begins 0 := Emit.member_marks hs hmember
  obtain ⟨found, hfound, hbegins⟩ := code.encode_located
  refine ⟨rfl, hnames, hlen, found, hfound, hbegins.trans ?_⟩
  rw [List.nil_append] at hmarks
  rw [← hmarks, hsorted]
  exact mapIdx_marks hnumbered

end Compiled

namespace CompiledProject

/-- The dialogue blocks of every member of a file that is compiled, in the order of the text, have
the numbers from zero on, and the names that they were given or that were made for them. If the code
of the member can be written, the code begins the dialogue blocks in the order of their numbers,
each once, and its routine has, in the same order, their names and the offsets in the code at which
they begin. -/
theorem dialogues_indexed {files : Files} {sources : Sources} {path : String} {source : Source}
    {compiled : Compiled} {ds : Array FileDiagnostic} {table : SymbolTable} {bound : Bindings}
    {ds' : Array Diagnostic} (hread : Sources.read files = .ok (sources, ds))
    (hsource : sources[path]? = some source)
    (htable : (SymbolTables.ofSources sources).1[path]? = some table)
    (h : Compiled.ofScript source.script table bound = (.ok compiled, ds')) :
    ∀ (i : Nat) name entry, table.members.entries[i]? = some (name, entry) →
      ∃ member ∈ source.script.members, ∃ d before,
        entry.node = member.node.id ∧ name = member.nameAt i ∧ compiled.routines[i]? = some d ∧
        (Compiled.addRoutines ⟨table, bound⟩ (Compiled.membersOf source.script)
          (table.members.toList.take i) {} #[]).1 = .ok before ∧
        (member.blocks.map (·.node.id)).Pairwise (· < ·) ∧
        (∀ k block, member.blocks[k]? = some block →
          ∃ symbol, table.dialogueOf? block.node.id = some symbol ∧ symbol.index.toNat = k ∧
            (member.blockNames name)[k]? = some symbol.name) ∧
        ∀ code, (Emit.member ⟨table, bound⟩ member { builder := before }).1 = .ok code →
          d.code = code.encode ∧ d.Indexes (member.blockNames name) := by
  obtain ⟨high, hrise⟩ := (Sources.sound_read hread hsource).rise
  obtain ⟨issues, -, -, -, heach⟩ := makes_ofScript hread hsource htable h
  intro i name entry he
  obtain ⟨member, before, d, issue?, hmakes, hd, -⟩ := heach i name entry he
  obtain ⟨after, hroutine⟩ := hmakes.routine
  exact ⟨member, hmakes.mem, d, before, hmakes.labels.node, hmakes.labels.named, hd,
    hmakes.earlier, hrise.blocks hmakes.mem,
    fun k block hk => hmakes.lists.symbol hmakes.blocks_lt hk, fun code hcode =>
      Compiled.indexes_routineOf hmakes.sound hmakes.lists hroutine hcode hmakes.fits⟩

def doubled : Files :=
  (∅ : Files).insert "main.nss" "scene s{<PRE a>[d]</PRE><PRE b>[d]</PRE>}"

namespace Doubled

open Launch.Sample (node)

def scene : Member :=
  .scene (node 0 1 42) "s" (.mk (node 1 8 42)
    [.dialogue (node 3 9 25) (.mk (node 2 9 25) "a" (some "d") []),
      .dialogue (node 5 25 41) (.mk (node 4 25 41) "b" (some "d") [])])

def source : Source where
  script := { path := "main.nss", includes := [], members := [scene] }
  includes := []

def sources : Sources :=
  (∅ : Sources).insert "main.nss" source

def first : DialogueSymbol :=
  { name := "d", box := "a", index := 0, routine? := none }

def second : DialogueSymbol :=
  { name := "d", box := "b", index := 1, routine? := none }

def scope : Scope where
  dialogues := {
    entries := #[("d", first), ("d#1", second)]
    places := ((∅ : Std.HashMap String Nat).insert "d" 0).insert "d#1" 1 }

def declaration : Declaration :=
  { node := 0, kind := .scene, symbol := .routine (Launch.Sample.routine "s" .scene 0) }

def table : SymbolTable where
  path := "main.nss"
  includes := []
  members := {
    entries := #[("s", declaration)]
    places := (∅ : Std.HashMap String Nat).insert "s" 0 }
  scopes := (∅ : Std.TreeMap Nat Scope).insert 0 scope
  symbols := (((∅ : Std.TreeMap Nat Symbol).insert 2 (.dialogue first)).insert 4
    (.dialogue second)).insert 0 declaration.symbol

lemma parse_doubled : Parse.parseScript "main.nss" "scene s{<PRE a>[d]</PRE><PRE b>[d]</PRE>}" =
    ⟨source.script, []⟩ := by
  cbv

lemma read_files : Sources.read doubled = .ok (sources, #[]) := by
  exact Launch.read_singleFile parse_doubled rfl

lemma tables_sources :
    (SymbolTables.ofSources sources).1 = (∅ : SymbolTables).insert "main.nss" table := by
  have hkey : toString "d" ++ toString "#" ++ Nat.repr 1 = "d#1" := by decide
  have htable : (SymbolTable.ofScript "main.nss" source.includes source.script).table =
      table := by
    simp [SymbolTable.ofScript, source, SymbolTable.addMember, Dictionary.contains,
      Dictionary.size, Member.nameAt, Member.parameters, Member.kind, SymbolTable.addParameters,
      SymbolTable.symbolOf, Member.dialogues, Block.dialogues, Statement.dialoguesAll,
      Statement.dialogues, SymbolTable.addDialogues, Scope.addDialogue, Dialogue.inner,
      Dialogue.name?, Dialogue.box, Dialogue.node, DialoguePart.dialoguesAll, Dictionary.insert,
      Member.node, scene, node, table, declaration, Launch.Sample.routine, scope, first, second,
      hkey]
  rw [sources, Launch.ofSources_singleFile, ← htable]

def context : Emit.Context := ⟨table, { path := "main.nss", visible := ["main.nss"] }⟩

def code : Code :=
  #[.run (.beginDialogue 0), .run (.beginDialogue 1), .run (.load .null), .run .ret]

def routine : Definition :=
  { kind := .scene, name := "s", parameters := []
    dialogues := [{ name := "d", offset := 0 }, { name := "d", offset := 3 }], code := code.encode }

lemma emit_scene : (Emit.member context scene {}).1 = .ok code := by
  cbv

lemma routineOf_scene :
    Compiled.routineOf context "s" .scene scene {} = (.ok (routine, none), {}) := by
  cbv

lemma ofScript_source : ∃ compiled, Compiled.ofScript source.script table context.bindings =
    (.ok compiled, #[]) ∧ compiled.routines = [routine] := by
  have hentries : table.members.toList = [("s", declaration)] := rfl
  have hmember : (Compiled.membersOf source.script)[declaration.node]? = some scene := by cbv
  obtain ⟨bytes, hwrite⟩ : ∃ bytes, ({ routines := #[routine] } : Builder).write = .ok bytes :=
    ⟨_, by cbv⟩
  have hroutines : Compiled.addRoutines context (Compiled.membersOf source.script)
      table.members.toList {} #[] = (.ok { routines := #[routine] }, #[]) := by
    have hkind : declaration.kind = .scene := rfl
    rw [hentries]
    simp only [Compiled.addRoutines, hmember, hkind, routineOf_scene]
    rfl
  rw [Compiled.membersOf, context] at hroutines
  refine ⟨⟨"main.nss", [routine], bytes⟩, ?_, rfl⟩
  rw [Compiled.ofScript, context, hroutines]
  simp [hwrite, Except.map, table]

end Doubled

theorem dialogues_indexed_doubled : ∃ compiled d,
    Compiled.ofScript Doubled.source.script Doubled.table Doubled.context.bindings =
      (.ok compiled, #[]) ∧
      compiled.routines = [d] ∧ d.code = Doubled.code.encode ∧ d.Indexes ["d", "d"] ∧
      ∃ found, Instruction.decodeAll d.code = .ok found ∧
        found.filterMap Instruction.begun? = [(0, 0), (1, 3)] := by
  obtain ⟨compiled, hscript, hroutines⟩ := Doubled.ofScript_source
  have hsource : Doubled.sources["main.nss"]? = some Doubled.source := by simp [Doubled.sources]
  obtain ⟨member, hm, d, before, -, -, hd, hbefore, -, -, hcode⟩ :=
    dialogues_indexed Doubled.read_files hsource (by simp [Doubled.tables_sources]) hscript 0 "s" _
      rfl
  cases List.mem_singleton.mp hm
  cases hbefore
  obtain ⟨hencode, hindexes⟩ := hcode _ Doubled.emit_scene
  rw [hroutines] at hd
  cases hd
  obtain ⟨found, hfound, hbegins⟩ := hindexes.begins
  exact ⟨compiled, _, hscript, hroutines, hencode, hindexes, found, hfound, hbegins⟩

end CompiledProject

end Stagecraft
