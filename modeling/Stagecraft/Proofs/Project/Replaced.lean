import Stagecraft.Proofs.Code.Resolved
import Stagecraft.Proofs.Instruction.Stream
import Stagecraft.Proofs.Project.Linking

/-!
A member whose code cannot be written is replaced by a routine that stops at once, in the place that
its own routine would have.
-/

namespace Stagecraft

/-- What came of the code of a member: its routine has the code and nothing is reported, or the
routine stops at once and the reason is reported. -/
def Definition.Settles (d : Definition) (issue? : Option Diagnostic) :
    Except Failure Code → Prop
  | .ok code => issue? = none ∧ d.code = code.encode ∧
      ∃ found, Instruction.decodeAll d.code = .ok found ∧ ∀ x ∈ found, ∀ token, x.2 ≠ .trap token
  | .error (.trap diagnostic) => issue? = some diagnostic ∧ diagnostic.isError ∧
      ∃ token, d.code = Instruction.encodeAll [.trap token, .ret]
  | .error (.fatal _) => False

lemma Definition.Settles.stops {d : Definition} {diagnostic : Diagnostic}
    {r : Except Failure Code} (h : d.Settles (some diagnostic) r) :
    diagnostic.isError ∧ ∃ token, d.code = Instruction.encodeAll [.trap token, .ret] := by
  cases r with
  | ok code => cases h.1
  | error e =>
    cases e with
    | trap reason =>
      obtain ⟨hreason, herror, hcode⟩ := h
      cases hreason
      exact ⟨herror, hcode⟩
    | fatal _ => cases h

structure Definition.Presents (d : Definition) (name : String) (member : Member) : Prop where
  named : d.name = name
  kind : d.kind = member.kind
  parameters : d.parameters = member.parameterNames
  dialogues : d.dialogues.map (·.name) = member.blockNames name

namespace Compiled

variable {c : Emit.Context} {b b' : Builder} {name : String} {kind : RoutineKind}
  {member : Member} {d : Definition} {issue? : Option Diagnostic}

lemma sortMarks_eq {marks : List (UInt16 × DialogueMark)} {names : List String}
    (h : marks.map (fun mark => (mark.1, mark.2.name)) = numbered names)
    (hlen : names.length ≤ 65536) : sortMarks marks = marks.map (·.2) := by
  have hlength : marks.length = names.length := by
    simpa [numbered] using congrArg List.length h
  have hsorted : marks.Pairwise fun a b => decide (a.1 ≤ b.1) = true := by
    have hindex (i : Nat) (hi : i < marks.length) : marks[i].1.toNat = i := by
      have hmark := congrArg (·[i]?) h
      simp only [numbered, List.getElem?_map, List.getElem?_mapIdx, List.getElem?_eq_getElem hi,
        List.getElem?_eq_getElem (hlength ▸ hi), Option.map_some, Option.some.injEq,
        Prod.mk.injEq] at hmark
      rw [hmark.1, UInt16.toNat_ofNat_of_lt' (show i < 65536 by omega)]
    refine List.pairwise_iff_getElem.mpr fun i j hi hj hij => ?_
    rw [decide_eq_true_iff, UInt16.le_iff_toNat_le, hindex i hi, hindex j hj]
    exact Nat.le_of_lt hij
  rw [sortMarks, List.mergeSort_of_pairwise hsorted]

lemma names_sortMarks {marks : List (UInt16 × DialogueMark)} {names : List String}
    (h : marks.map (fun mark => (mark.1, mark.2.name)) = numbered names)
    (hlen : names.length ≤ 65536) : (sortMarks marks).map (·.name) = names := by
  have hnames : (numbered names).map (·.2) = names :=
    List.ext_getElem? fun i => by simp [numbered, Function.comp_def]
  rw [sortMarks_eq h hlen, ← hnames, ← h, List.map_map, List.map_map]
  rfl

lemma dialogues_trapRoutine {diagnostic : Diagnostic} {scope : Scope}
    (hscope : c.table.scopeOf? member.node.id = some scope)
    (h : trapRoutine c.table name kind member diagnostic b = (.ok d, b')) :
    d.dialogues = trapMarks scope := by
  rw [trapRoutine, StateExcept.bind_apply] at h
  split at h
  · cases h
    simp [hscope]
  · cases h

lemma numbered_marks {code : Code} {draft : Draft} (ht : c.table.Lists name member)
    (h : Emit.member c member { builder := b } = (.ok code, draft))
    (hlen : draft.marks.size ≤ 65536) :
    draft.marks.toList.map (fun mark => (mark.1, mark.2.name)) =
      numbered (member.blockNames name) := by
  have hmarked := (Emit.keeps_member member).marked _ _ _ (by simp [Emit.Marked]) h
  have hlength : draft.marks.size = member.blocks.length := by
    simpa using congrArg List.length hmarked
  rw [Emit.Marked, List.toList_toArray, ht.blocks (hlength ▸ hlen), ← Function.comp_def some,
    ← List.map_map] at hmarked
  exact List.map_injective_iff.mpr (Option.some_injective _) hmarked

lemma names_routineOf (ht : c.table.Lists name member)
    (h : routineOf c name kind member b = (.ok (d, issue?), b'))
    (hlen : d.dialogues.length < 65536) :
    d.dialogues.map (·.name) = member.blockNames name := by
  simp only [routineOf] at h
  split at h
  · next code builder marks hmember =>
    cases h
    have hsize : marks.size ≤ 65536 := by simpa [sortMarks] using Nat.le_of_lt hlen
    have hnumbered := numbered_marks ht hmember hsize
    refine names_sortMarks hnumbered ?_
    simpa [numbered] using (congrArg List.length hnumbered).symm.le.trans (by simpa using hsize)
  · next diagnostic builder marks hmember =>
    split at h
    · next hroutine =>
      cases h
      -- a scope with more blocks than numbers would have made the routine too long to be written
      obtain ⟨scope, hscope, hmany, hholds⟩ := ht.scope
      rw [dialogues_trapRoutine hscope hroutine] at hlen ⊢
      have hsize : scope.dialogues.size < 65536 := by
        simpa [trapMarks, sortMarks, Dictionary.toList, Dictionary.size] using hlen
      have hblocks : member.blocks.length ≤ 65536 := by
        by_contra hmore
        have := hmany (by omega)
        omega
      refine names_sortMarks ?_ (member.length_blockNames name ▸ hblocks)
      rw [List.map_map, ← (hholds hblocks).listed]
      rfl
    · cases h
  · cases h

lemma decodes_memberCode {code : Code} (h : Emit.MemberCode c b member code) :
    ∃ found, Instruction.decodeAll code.encode = .ok found ∧
      ∀ x ∈ found, ∀ token, x.2 ≠ .trap token := by
  refine ⟨_, Instruction.decodeAll_encodeAll _, fun x hx token heq => h.ne_trap token ?_⟩
  have hin := List.mem_map_of_mem (f := (·.2)) hx
  rwa [Instruction.map_snd_located, heq] at hin

lemma settles_routineOf (hs : b.Sound)
    (h : routineOf c name kind member b = (.ok (d, issue?), b')) :
    d.Settles issue? (Emit.member c member { builder := b }).1 := by
  have hkeeps := Emit.keeps_member (c := c) member
  simp only [routineOf] at h
  split at h
  · next code builder marks hmember =>
    cases h
    obtain ⟨-, hcode⟩ := Emit.member_ok hs hmember
    rw [hmember]
    exact ⟨rfl, rfl, decodes_memberCode (hcode _ (.refl _))⟩
  · next diagnostic builder marks hmember =>
    split at h
    · next hroutine =>
      cases h
      rw [hmember]
      refine ⟨rfl, hkeeps.isError _ _ _ hmember, ?_⟩
      rw [trapRoutine, StateExcept.bind_apply] at hroutine
      split at hroutine
      · next token _ _ =>
        cases hroutine
        exact ⟨token, rfl⟩
      · cases hroutine
    · cases h
  · cases h

lemma issue_of_unresolved {use : Use} (hs : b.Sound)
    (h : d.Settles issue? (Emit.member c member { builder := b }).1) (huse : use ∈ member.uses)
    (hnone : c.bindings.references[use.node.id]? = none) : issue?.isSome := by
  rcases hmember : Emit.member c member { builder := b } with ⟨r, draft⟩
  rw [hmember] at h
  cases r with
  | ok code =>
    obtain ⟨-, hcode⟩ := Emit.member_ok hs hmember
    obtain ⟨symbol, hsymbol⟩ := (hcode _ (.refl _)).resolved use huse
    cases hnone.symm.trans hsymbol
  | error e =>
    cases e with
    | trap diagnostic =>
      rw [h.1]
      rfl
    | fatal _ => cases h

lemma addRoutines_of_ofScript {script : Script} {table : SymbolTable} {bindings : Bindings}
    {compiled : Compiled} {ds : Array Diagnostic}
    (h : ofScript script table bindings = (.ok compiled, ds)) :
    ∃ b, addRoutines ⟨table, bindings⟩ (membersOf script) table.members.toList {} #[] =
      (.ok b, ds) ∧ b.write = .ok compiled.bytes ∧ compiled.routines = b.routines.toList := by
  obtain ⟨b, hassemble, hwrite, -, hroutines⟩ := ofScript_ok h
  refine ⟨b, ?_, hwrite, hroutines⟩
  rcases hadd : addRoutines { table, bindings } (membersOf script) table.members.toList {} #[]
    with ⟨r, ds'⟩
  rw [assemble, hadd] at hassemble
  cases hassemble
  rw [membersOf] at hadd
  simp only [ofScript, hadd] at h
  exact congrArg _ (Prod.mk.inj h).2

end Compiled

namespace CompiledProject

structure Makes (source : Source) (c : Emit.Context) (i : Nat) (name : String) (entry : Declaration)
    (member : Member) (before : Builder) (d : Definition) (issue? : Option Diagnostic) : Prop where
  mem : member ∈ source.script.members
  labels : entry.Labels i name member
  lists : c.table.Lists name member
  sound : before.Sound
  earlier : (Compiled.addRoutines c (Compiled.membersOf source.script)
    (c.table.members.toList.take i) {} #[]).1 = .ok before
  routine : ∃ after, Compiled.routineOf c name entry.kind member before = (.ok (d, issue?), after)
  fits : d.dialogues.length < 65536

section Makes

variable {source : Source} {c : Emit.Context} {i : Nat} {name : String} {entry : Declaration}
  {member : Member} {before : Builder} {d : Definition} {issue? : Option Diagnostic}

lemma Makes.names (h : Makes source c i name entry member before d issue?) :
    d.dialogues.map (·.name) = member.blockNames name := by
  obtain ⟨after, hroutine⟩ := h.routine
  exact Compiled.names_routineOf h.lists hroutine h.fits

lemma Makes.blocks_lt (h : Makes source c i name entry member before d issue?) :
    member.blocks.length < 65536 := by
  rw [← member.length_blockNames name, ← h.names, List.length_map]
  exact h.fits

end Makes

section Source

variable {files : Files} {sources : Sources} {path : String} {source : Source}
  {ds : Array FileDiagnostic} (hread : Sources.read files = .ok (sources, ds))
  (hsource : sources[path]? = some source)

include hread hsource

lemma table_ofSources {table : SymbolTable}
    (htable : (SymbolTables.ofSources sources).1[path]? = some table) :
    table.Describes path source.script.members ∧ table.ListsAll source.script.members ∧
      table.Labels source.script.members := by
  obtain ⟨high, hrise⟩ := (Sources.sound_read hread hsource).rise
  obtain ⟨source', hsource', rfl⟩ := (collects_ofSources sources).of_toList htable
  cases Option.some.inj (hsource'.symm.trans hsource)
  exact ⟨SymbolTable.describes_ofScript path source.includes source.script,
    SymbolTable.listsAll_ofScript path source.includes hrise,
    SymbolTable.labels_ofScript path source.includes source.script⟩

lemma makes_ofScript {compiled : Compiled} {table : SymbolTable} {bound : Bindings}
    {ds' : Array Diagnostic}
    (htable : (SymbolTables.ofSources sources).1[path]? = some table)
    (h : Compiled.ofScript source.script table bound = (.ok compiled, ds')) :
    ∃ issues : List (Option Diagnostic), ds'.toList = issues.reduceOption ∧
      issues.length = table.members.size ∧ compiled.routines.length = table.members.size ∧
      ∀ (i : Nat) name entry, table.members.entries[i]? = some (name, entry) →
        ∃ member before d issue?,
          Makes source ⟨table, bound⟩ i name entry member before d issue? ∧
          compiled.routines[i]? = some d ∧ issues[i]? = some issue? := by
  have hsound := Sources.sound_read hread hsource
  obtain ⟨hdescribes, hlists, hlabels⟩ := table_ofSources hread hsource htable
  obtain ⟨b, hadd, hwrite, hroutines⟩ := Compiled.addRoutines_of_ofScript h
  have hmembers := Compiled.exists_member hsound hdescribes
  obtain ⟨-, hsize, issues, hds, hlength, heach⟩ :=
    Compiled.addRoutines_each hmembers Builder.sound_empty hadd
  have hcount : table.members.toList.length = table.members.size := Array.length_toList
  refine ⟨issues, by simpa using hds, hlength.trans hcount, ?_, fun i name entry he => ?_⟩
  · rw [hroutines, Array.length_toList, hsize, hcount]
    simp
  obtain ⟨member, hm, hnode, hlist⟩ := hlists i name entry he
  obtain ⟨member', hm', hlabel⟩ := hlabels i name entry he
  cases Member.eq_of_node hsound.apart hm hm' (hnode.symm.trans hlabel.node)
  obtain ⟨member', before, after, d, issue?, hmember', hbefore, htake, hroutine, -, hd, hissue⟩ :=
    heach i (name, entry) (by simpa [Dictionary.toList] using he)
  cases Option.some.inj (hmember'.symm.trans
    (hnode ▸ Compiled.getElem?_membersOf hsound.apart hm))
  have hd : b.routines[i]? = some d := by simpa using hd
  have hfits := (Builder.write_ok hwrite).1.routines d (Array.mem_toList_iff.mpr
    (Array.mem_of_getElem? hd))
  refine ⟨member, before, d, issue?,
    ⟨hm, hlabel, hlist, hbefore, htake, ⟨after, hroutine⟩, hfits.dialogues⟩, ?_, hissue⟩
  rw [hroutines, Array.getElem?_toList]
  exact hd

lemma records_bindAll {tables : SymbolTables} {bound : Bindings}
    (hbound : (bindAll sources tables).1[path]? = some bound) {member : Member}
    (hm : member ∈ source.script.members) {use : Use} (huse : use ∈ member.uses) :
    let s : Surroundings := ⟨tables, path, sources.visibleFrom path⟩
    bound.Records s (s.scopeOf member) use := by
  have hsound := Sources.sound_read hread hsource
  obtain ⟨high, hrise⟩ := hsound.rise
  obtain ⟨source', hsource', rfl⟩ := (collects_bindAll sources tables).of_toList hbound
  cases Option.some.inj (hsource'.symm.trans hsource)
  have hrecords := Bindings.records_ofScript tables (sources.visibleFrom path) hrise hm huse
  rwa [hsound.path] at hrecords

end Source

/-- Whenever the module of a file can be written, it has one routine for every entry of the table of
the file, in the same order, and what others see of a routine does not depend on whether the code of
any member could be written. A member whose code cannot be written, and every member with an
unresolved name is one, gets a routine that stops at once, and one error is reported for it; for the
others, nothing is reported. -/
theorem members_settled {files : Files} {sources : Sources} {path : String} {source : Source}
    {compiled : Compiled} {ds : Array FileDiagnostic} {table : SymbolTable} {bound : Bindings}
    {ds' : Array Diagnostic} (hread : Sources.read files = .ok (sources, ds))
    (hsource : sources[path]? = some source)
    (htable : (SymbolTables.ofSources sources).1[path]? = some table)
    (hbound : (bindAll sources (SymbolTables.ofSources sources).1).1[path]? = some bound)
    (h : Compiled.ofScript source.script table bound = (.ok compiled, ds')) :
    let s : Surroundings := ⟨(SymbolTables.ofSources sources).1, path, sources.visibleFrom path⟩
    ∃ issues : List (Option Diagnostic), ds'.toList = issues.reduceOption ∧
      issues.length = table.members.size ∧ compiled.routines.length = table.members.size ∧
      ∀ (i : Nat) name entry, table.members.entries[i]? = some (name, entry) →
        ∃ member ∈ source.script.members, ∃ d issue? before,
          entry.node = member.node.id ∧ name = member.nameAt i ∧ entry.kind = member.kind ∧
          compiled.routines[i]? = some d ∧ issues[i]? = some issue? ∧ d.Presents name member ∧
          member.blocks.map table.label? = (numbered (member.blockNames name)).map some ∧
          (Compiled.addRoutines ⟨table, bound⟩ (Compiled.membersOf source.script)
            (table.members.toList.take i) {} #[]).1 = .ok before ∧
          d.Settles issue? (Emit.member ⟨table, bound⟩ member { builder := before }).1 ∧
          (∀ use ∈ member.uses, use.node.id ∈ bound.unresolved ↔
            ∃ issue, s.resolve (s.scopeOf member) use = .error issue) ∧
          ((∃ use ∈ member.uses, use.node.id ∈ bound.unresolved) → issue?.isSome) := by
  intro s
  obtain ⟨issues, hds, hlength, hcount, heach⟩ := makes_ofScript hread hsource htable h
  refine ⟨issues, hds, hlength, hcount, fun i name entry he => ?_⟩
  obtain ⟨member, before, d, issue?, hmakes, hd, hissue⟩ := heach i name entry he
  obtain ⟨after, hroutine⟩ := hmakes.routine
  have hlabelled := Compiled.label_routineOf hroutine
  have hsettles := Compiled.settles_routineOf hmakes.sound hroutine
  refine ⟨member, hmakes.mem, d, issue?, before, hmakes.labels.node, hmakes.labels.named,
    hmakes.labels.kind, hd, hissue,
    ⟨congrArg Prod.fst hlabelled, (congrArg Prod.snd hlabelled).trans hmakes.labels.kind,
      (Compiled.routineOf_ok hmakes.sound hroutine).2.parameters, hmakes.names⟩,
    hmakes.lists.blocks (Nat.le_of_lt hmakes.blocks_lt), hmakes.earlier, hsettles,
    fun use huse => (records_bindAll hread hsource hbound hmakes.mem huse).mem_unresolved, ?_⟩
  rintro ⟨use, huse, hunresolved⟩
  exact Compiled.issue_of_unresolved hmakes.sound hsettles huse
    ((records_bindAll hread hsource hbound hmakes.mem huse).references_none hunresolved)

def dangling : Files :=
  (∅ : Files).insert "main.nss" "scene s{<PRE a>[d]</PRE>g();}"

namespace Dangling

open Launch.Sample (node)

def scene : Member :=
  .scene (node 0 1 30) "s" (.mk (node 1 8 30)
    [.dialogue (node 3 9 25) (.mk (node 2 9 25) "a" (some "d") []),
      .expression (node 5 25 29) (.call (node 4 25 28) "g" [])])

def source : Source where
  script := { path := "main.nss", includes := [], members := [scene] }
  includes := []

def sources : Sources :=
  (∅ : Sources).insert "main.nss" source

def symbol : DialogueSymbol :=
  { name := "d", box := "a", index := 0, routine? := none }

def scope : Scope where
  dialogues := {
    entries := #[("d", symbol)]
    places := (∅ : Std.HashMap String Nat).insert "d" 0 }

def declaration : Declaration :=
  { node := 0, kind := .scene, symbol := .routine (Launch.Sample.routine "s" .scene 0) }

def table : SymbolTable where
  path := "main.nss"
  includes := []
  members := {
    entries := #[("s", declaration)]
    places := (∅ : Std.HashMap String Nat).insert "s" 0 }
  scopes := (∅ : Std.TreeMap Nat Scope).insert 0 scope
  symbols := ((∅ : Std.TreeMap Nat Symbol).insert 2 (.dialogue symbol)).insert 0 declaration.symbol

def bindings : Bindings where
  path := "main.nss"
  visible := ["main.nss"]
  unresolved := (∅ : Std.TreeMap Nat String).insert 4 "g"

lemma parse_dangling : Parse.parseScript "main.nss" "scene s{<PRE a>[d]</PRE>g();}" =
    ⟨source.script, []⟩ := by
  cbv

lemma read_files : Sources.read dangling = .ok (sources, #[]) := by
  exact Launch.read_singleFile parse_dangling rfl

lemma tables_sources :
    SymbolTables.ofSources sources = ((∅ : SymbolTables).insert "main.nss" table, #[]) := by
  have htable : SymbolTable.ofScript "main.nss" source.includes source.script =
      ⟨table, #[]⟩ := by
    simp [SymbolTable.ofScript, source, SymbolTable.addMember, Dictionary.contains,
      Dictionary.size, Member.nameAt, Member.parameters, Member.kind, SymbolTable.addParameters,
      SymbolTable.symbolOf, Member.dialogues, Block.dialogues, Statement.dialoguesAll,
      Statement.dialogues, SymbolTable.addDialogues, Scope.addDialogue, Dialogue.inner,
      Dialogue.name?, Dialogue.box, Dialogue.node, DialoguePart.dialoguesAll, Dictionary.insert,
      Member.node, scene, node, table, declaration, Launch.Sample.routine, scope, symbol]
  simp [sources, Launch.ofSources_singleFile, htable, inFile]

lemma bindAll_sources :
    (bindAll sources ((∅ : SymbolTables).insert "main.nss" table)).1 =
      (∅ : Std.TreeMap String Bindings).insert "main.nss" bindings := by
  have hvisible : sources.visibleFrom "main.nss" = ["main.nss"] := by cbv
  have hid : Signature.idOf? "g" = none := by cbv
  have hbindings : (Bindings.ofScript ((∅ : SymbolTables).insert "main.nss" table) ["main.nss"]
      source.script).bindings = bindings := by
    simp [Bindings.ofScript, source, scene, Bindings.addMember, Member.uses, Block.uses,
      Statement.usesAll, Statement.uses, Dialogue.uses, DialoguePart.usesAll, Expression.uses,
      Expression.usesAll, Bindings.addUse, Bindings.retract, Surroundings.resolve, hid,
      Surroundings.findVisible, SymbolTable.find?, Dictionary.get?, table, bindings, node]
  rw [sources, Launch.bindAll_singleFile _ hvisible, ← hbindings]

def diagnostic : Diagnostic :=
  { issue := .unresolvedSymbol "g", span := (node 4 25 28).span }

def text : String :=
  "Unresolved symbol \"g\". (main.nss:1:25)"

def routine : Definition :=
  { kind := .scene, name := "s", parameters := [], dialogues := [{ name := "d", offset := 0 }]
    code := Instruction.encodeAll [.trap 0, .ret] }

def builder : Builder where
  routines := #[routine]
  heap := { texts := #[text], index := (∅ : Std.HashMap String UInt16).insert text 0 }

lemma routineOf_scene :
    Compiled.routineOf { table, bindings } "s" .scene scene {} =
      (.ok (routine, some diagnostic), { builder with routines := #[] }) := by
  have hmember : ∃ marks, Emit.member { table, bindings } scene {} =
      (.error (.trap diagnostic), { marks }) := ⟨_, by cbv⟩
  have htext : s!"{diagnostic.issue.message} ({table.path}:{diagnostic.span.render})" = text := by
    decide
  have hintern : Builder.intern text {} = (.ok 0, { builder with routines := #[] }) := by
    simp [Builder.intern, TextHeap.intern, builder]
  have htrap : Compiled.trapRoutine table "s" .scene scene diagnostic {} =
      (.ok routine, { builder with routines := #[] }) := by
    have hscope : table.scopeOf? scene.node.id = some scope := rfl
    have hmarks : Compiled.trapMarks scope = [{ name := "d", offset := 0 }] := by cbv
    rw [Compiled.trapRoutine, htext, hscope, Option.map_some, hmarks, StateExcept.bind_apply,
      hintern]
    rfl
  obtain ⟨marks, hmember⟩ := hmember
  rw [Compiled.routineOf, hmember]
  simp only [htrap]

lemma addRoutines_table :
    Compiled.addRoutines { table, bindings } (Compiled.membersOf source.script)
      table.members.toList {} #[] = (.ok builder, #[diagnostic]) := by
  have hentries : table.members.toList = [("s", declaration)] := rfl
  have hmember : (Compiled.membersOf source.script)[declaration.node]? = some scene := by cbv
  have hkind : declaration.kind = .scene := rfl
  rw [hentries]
  simp only [Compiled.addRoutines, hmember, hkind, routineOf_scene]
  rfl

end Dangling

theorem members_settled_dangling : ∃ compiled ds d token diagnostic,
    Compiled.ofScript Dangling.source.script Dangling.table Dangling.bindings = (.ok compiled, ds) ∧
      compiled.routines = [d] ∧ d.name = "s" ∧ d.dialogues.map (·.name) = ["d"] ∧
      d.code = Instruction.encodeAll [.trap token, .ret] ∧ ds.toList = [diagnostic] ∧
      diagnostic.isError := by
  obtain ⟨bytes, hwrite⟩ : ∃ bytes, Dangling.builder.write = .ok bytes := ⟨_, by cbv⟩
  have hscript : Compiled.ofScript Dangling.source.script Dangling.table Dangling.bindings =
      (.ok ⟨"main.nss", Dangling.builder.routines.toList, bytes⟩, #[Dangling.diagnostic]) := by
    have hroutines := Dangling.addRoutines_table
    rw [Compiled.membersOf] at hroutines
    rw [Compiled.ofScript, hroutines]
    simp [hwrite, Except.map, Dangling.table]
  have hsource : Dangling.sources["main.nss"]? = some Dangling.source := by
    simp [Dangling.sources]
  obtain ⟨issues, hds, hlength, hcount, hall⟩ := members_settled Dangling.read_files hsource
    (by simp [Dangling.tables_sources])
    (by simp [Dangling.tables_sources, Dangling.bindAll_sources]) hscript
  obtain ⟨member, hm, d, issue?, before, -, -, -, hd, hissue, hpresents, -, -, hsettles, -,
    hunresolved⟩ := hall 0 "s" _ rfl
  cases List.mem_singleton.mp hm
  have huses : Dangling.scene.uses =
      #[{ node := Launch.Sample.node 4 25 28, name := "g", role := .call }] := rfl
  obtain ⟨diagnostic, rfl⟩ := Option.isSome_iff_exists.mp (hunresolved
    ⟨_, huses ▸ Array.mem_singleton.mpr rfl, by simp [Dangling.bindings, Launch.Sample.node]⟩)
  obtain ⟨herror, token, hcode⟩ := hsettles.stops
  have hissues : issues = [some diagnostic] := by
    obtain ⟨issue?, rfl⟩ := List.length_eq_one_iff.mp hlength
    cases hissue
    rfl
  refine ⟨_, _, d, token, diagnostic, hscript, ?_, hpresents.named, hpresents.dialogues, hcode, ?_,
    herror⟩
  · cases hd
    rfl
  · rw [hds, hissues]
    rfl

end CompiledProject

end Stagecraft
