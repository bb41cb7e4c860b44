import Mathlib
import Stagecraft.Project.Compile
import Stagecraft.Proofs.Basic
import Stagecraft.Proofs.Script.Fresh

namespace Stagecraft

structure Collects (R : String → α → β → Prop) (pairs : List (String × α))
    (m m' : Std.TreeMap String β) : Prop where
  origin : ∀ (key : String) b, m'[key]? = some b →
    m[key]? = some b ∨ ∃ a, (key, a) ∈ pairs ∧ R key a b
  keeps : ∀ (key : String), key ∈ m → key ∈ m'
  added : ∀ pair ∈ pairs, pair.1 ∈ m'

namespace Collects

variable {R : String → α → β → Prop} {pairs : List (String × α)} {m m' : Std.TreeMap String β}

lemma nil : Collects R [] m m :=
  ⟨fun _ _ h => .inl h, fun _ h => h, by simp⟩

lemma cons {key : String} {a : α} {b : β} (hr : R key a b)
    (h : Collects R pairs (m.insert key b) m') : Collects R ((key, a) :: pairs) m m' := by
  refine ⟨fun key' b' hb => ?_, fun key' hk => ?_, ?_⟩
  · rcases h.origin key' b' hb with hold | ⟨a', ha, hr'⟩
    · rw [Std.TreeMap.getElem?_insert] at hold
      split at hold
      · next heq =>
        cases Std.LawfulEqCmp.eq_of_compare heq
        cases hold
        exact .inr ⟨a, List.mem_cons_self, hr⟩
      · exact .inl hold
    · exact .inr ⟨a', List.mem_cons_of_mem _ ha, hr'⟩
  · exact h.keeps key' (Std.TreeMap.mem_insert.mpr (.inr hk))
  · rw [List.forall_mem_cons]
    exact ⟨h.keeps key Std.TreeMap.mem_insert_self, h.added⟩

lemma foldl {γ : Type} {f : γ → String × α → γ} (get : γ → Std.TreeMap String β)
    (hf : ∀ g key a, ∃ b, get (f g (key, a)) = (get g).insert key b ∧ R key a b) (g : γ) :
    Collects R pairs (get g) (get (pairs.foldl f g)) := by
  induction pairs generalizing g with
  | nil => exact nil
  | cons pair rest ih =>
    obtain ⟨key, a⟩ := pair
    obtain ⟨b, hb, hr⟩ := hf g key a
    exact cons hr (hb ▸ ih (f g (key, a)))

lemma of_toList {source : Std.TreeMap String α} (h : Collects R source.toList ∅ m')
    {key : String} {b : β} (hb : m'[key]? = some b) : ∃ a, source[key]? = some a ∧ R key a b := by
  rcases h.origin key b hb with hold | ⟨a, ha, hr⟩
  · simp at hold
  · exact ⟨a, Std.TreeMap.mem_toList_iff_getElem?_eq_some.mp ha, hr⟩

lemma exists_of_toList {source : Std.TreeMap String α} (h : Collects R source.toList m m')
    {key : String} {a : α} (ha : source[key]? = some a) : ∃ b, m'[key]? = some b := by
  have hmem := h.added (key, a) (Std.TreeMap.mem_toList_iff_getElem?_eq_some.mpr ha)
  rwa [Std.TreeMap.mem_iff_isSome_getElem?, Option.isSome_iff_exists] at hmem

end Collects

structure Source.Sound (path : String) (source : Source) : Prop where
  path : source.script.path = path
  rise : ∃ high, Member.AllRise high source.script.members

lemma Source.Sound.apart {path : String} {source : Source} (h : source.Sound path) :
    source.script.members.Pairwise Member.Apart := by
  obtain ⟨high, hrise⟩ := h.rise
  exact hrise.apart

lemma Sources.sound_readFile {isKnown : String → Bool} {raw text : String}
    {found found' : Sources × Array FileDiagnostic}
    (hf : ∀ (path : String) source, found.1[path]? = some source → source.Sound path)
    (h : readFile isKnown raw text found = .ok found') :
    ∀ (path : String) source, found'.1[path]? = some source → source.Sound path := by
  simp only [readFile] at h
  split at h
  · cases h
  · split at h
    · cases h
    · cases h
      intro path source hs
      rw [Std.TreeMap.getElem?_insert] at hs
      split at hs
      · next heq =>
        cases Std.LawfulEqCmp.eq_of_compare heq
        cases hs
        exact ⟨Parse.path_parseScript _ text, Parse.allRise_parseScript _ text⟩
      · exact hf path source hs

lemma Sources.sound_read {files : Files} {sources : Sources} {ds : Array FileDiagnostic}
    (h : read files = .ok (sources, ds)) {path : String} {source : Source}
    (hs : sources[path]? = some source) : source.Sound path := by
  have hfold (isKnown : String → Bool) (pairs : List (String × String))
      (found : Sources × Array FileDiagnostic)
      (hf : ∀ (path : String) source, found.1[path]? = some source → source.Sound path)
      (h : pairs.foldlM (fun found pair => readFile isKnown pair.1 pair.2 found) found =
        .ok (sources, ds)) : source.Sound path := by
    induction pairs generalizing found with
    | nil =>
      cases h
      exact hf path source hs
    | cons pair rest ih =>
      rw [List.foldlM_cons, Except.bind_eq_ok_iff] at h
      obtain ⟨found', hread, h⟩ := h
      exact ih found' (sound_readFile hf hread) h
  exact hfold _ _ _ (by simp) h

namespace Dictionary

lemma get?_mem {d : Dictionary α} {key : String} {a : α} (h : d.get? key = some a) :
    ∃ (i : Nat) (name : String), d.entries[i]? = some (name, a) := by
  simp only [get?, Option.bind_eq_bind, Option.bind_eq_some_iff] at h
  obtain ⟨i, -, ⟨name, b⟩, hb, h⟩ := h
  cases h
  exact ⟨i, name, hb⟩

lemma entries_insert {d : Dictionary α} {key : String} {a : α} (h : d.contains key = false) :
    (d.insert key a).entries = d.entries.push (key, a) := by
  obtain ⟨entries, places⟩ := d
  have hnone : places[key]? = none := Std.HashMap.getElem?_eq_none_of_contains_eq_false h
  simp [insert, hnone]

lemma mem_insert {d : Dictionary α} {key : String} {a : α} {x : String × α}
    (h : x ∈ (d.insert key a).entries) : x ∈ d.entries ∨ x = (key, a) := by
  obtain ⟨entries, places⟩ := d
  simp only [insert] at h
  split at h
  · exact Array.mem_or_eq_of_mem_setIfInBounds h
  · exact Array.mem_push.mp h

lemma size_insert_le (d : Dictionary α) (key : String) (a : α) :
    (d.insert key a).size ≤ d.size + 1 := by
  obtain ⟨entries, places⟩ := d
  simp only [insert]
  split
  · simp [size]
  · simp [size]

end Dictionary

def Scope.Fits (n : Nat) (scope : Scope) : Prop :=
  ∀ x ∈ scope.parameters.entries, x.2.index.toNat < n

lemma Scope.Fits.addParameters {n : Nat} {scope : Scope} {diagnostics : Array Diagnostic}
    {parameters : List FormalParameter} (h : scope.Fits n)
    (hn : scope.parameters.size + parameters.length ≤ n) :
    (SymbolTable.addParameters scope diagnostics parameters).1.Fits n := by
  induction parameters generalizing scope diagnostics with
  | nil => exact h
  | cons p rest ih =>
    rw [List.length_cons] at hn
    refine ih (fun x hx => ?_) ?_
    · rcases Dictionary.mem_insert hx with hold | rfl
      · exact h x hold
      · have hle : (UInt16.ofNat scope.parameters.size).toNat ≤ scope.parameters.size := by
          rw [UInt16.toNat_ofNat']
          exact Nat.mod_le _ _
        exact Nat.lt_of_le_of_lt hle (by omega)
    · have := Dictionary.size_insert_le scope.parameters p.name
        { name := p.name, index := UInt16.ofNat scope.parameters.size }
      change (scope.parameters.insert _ _).size + _ ≤ n
      omega

lemma SymbolTable.parameters_addDialogues (scope : Scope) (symbols : Std.TreeMap Nat Symbol)
    (diagnostics : Array Diagnostic) (ds : List Dialogue) :
    (addDialogues scope symbols diagnostics ds).1.parameters = scope.parameters := by
  induction ds generalizing scope symbols diagnostics with
  | nil => rfl
  | cons d rest ih => rw [addDialogues, ih]; rfl

structure Declaration.Declares (path : String) (i : Nat) (member : Member) (entry : Declaration) :
    Prop where
  node : entry.node = member.node.id
  routine : ∃ routine, entry.symbol.routine? = some routine ∧ routine.module = path ∧
    routine.index = UInt16.ofNat i ∧ routine.parameterCount = member.parameters.length

structure SymbolTable.Describes (path : String) (members : List Member) (t : SymbolTable) :
    Prop where
  home : t.path = path
  entries : ∀ (i : Nat) name entry, t.members.entries[i]? = some (name, entry) →
    ∃ member ∈ members, entry.Declares path i member
  scopes : ∀ (id : Nat) scope, t.scopes[id]? = some scope →
    ∃ member ∈ members, member.node.id = id ∧ scope.Fits member.parameters.length

namespace SymbolTable

variable {path : String} {members : List Member}

lemma Describes.mono {members' : List Member} {t : SymbolTable} (h : t.Describes path members)
    (hm : ∀ m ∈ members, m ∈ members') : t.Describes path members' := by
  refine ⟨h.home, fun i name entry he => ?_, fun id scope hs => ?_⟩
  · obtain ⟨member, hmember, hd⟩ := h.entries i name entry he
    exact ⟨member, hm member hmember, hd⟩
  · obtain ⟨member, hmember, hd⟩ := h.scopes id scope hs
    exact ⟨member, hm member hmember, hd⟩

lemma routine?_symbolOf (routine : RoutineSymbol) (scope : Scope) (member : Member) :
    (symbolOf routine scope member).1.routine? = some routine := by
  cases member <;> rfl

lemma parameters_symbolOf (routine : RoutineSymbol) (scope : Scope) (member : Member) :
    (symbolOf routine scope member).2.parameters = scope.parameters := by
  cases member <;> rfl

lemma Describes.addMember {p : Progress} (h : p.table.Describes path members) (member : Member) :
    (addMember p member).table.Describes path (members ++ [member]) := by
  have hold : p.table.Describes path (members ++ [member]) :=
    h.mono fun m hm => List.mem_append_left _ hm
  have hmember : member ∈ members ++ [member] := by simp
  simp only [SymbolTable.addMember]
  split
  · exact hold
  · next hnew =>
    refine ⟨hold.home, fun i name entry he => ?_, fun id scope hs => ?_⟩
    · rw [Dictionary.entries_insert (by simpa using hnew), Array.getElem?_push] at he
      split at he
      · next hi =>
        cases he
        exact ⟨member, hmember, rfl, _, routine?_symbolOf _ _ _, h.home, hi ▸ rfl, rfl⟩
      · exact hold.entries i name entry he
    · rw [Std.TreeMap.getElem?_insert] at hs
      split at hs
      · next heq =>
        cases Std.LawfulEqCmp.eq_of_compare heq
        cases hs
        refine ⟨member, hmember, rfl, ?_⟩
        rw [Scope.Fits, parameters_addDialogues, parameters_symbolOf]
        exact Scope.Fits.addParameters (by simp [Scope.Fits]) (by simp [Dictionary.size])
      · exact hold.scopes id scope hs

lemma ofScript_induction {P : List Member → SymbolTable → Prop} (path : String)
    (includes : List String) (script : Script) (hnil : P [] { path, includes })
    (hadd : ∀ (p : Progress) done member rest, script.members = done ++ member :: rest →
      P done p.table → P (done ++ [member]) (addMember p member).table) :
    P script.members (ofScript path includes script).table := by
  have hfold (rest done : List Member) (hall : script.members = done ++ rest) (p : Progress)
      (hp : P done p.table) : P script.members (rest.foldl addMember p).table := by
    induction rest generalizing done p with
    | nil =>
      rw [hall, List.append_nil]
      exact hp
    | cons member rest ih =>
      exact ih (done ++ [member]) (by rw [hall, List.append_cons]) _
        (hadd p done member rest hall hp)
  exact hfold script.members [] rfl _ hnil

lemma describes_ofScript (path : String) (includes : List String) (script : Script) :
    (ofScript path includes script).table.Describes path script.members :=
  ofScript_induction (P := fun done t => t.Describes path done) path includes script
    ⟨rfl, by simp, by simp⟩ fun _ _ member _ _ h => h.addMember member

def Offers (t : SymbolTable) (symbol : Symbol) : Prop :=
  ∃ (i : Nat) (name : String) (entry : Declaration),
    t.members.entries[i]? = some (name, entry) ∧ entry.symbol = symbol

lemma offers_find? {t : SymbolTable} {kind : RoutineKind} {name : String} {symbol : Symbol}
    (h : t.find? kind name = some symbol) : t.Offers symbol := by
  simp only [find?, Option.bind_eq_some_iff] at h
  obtain ⟨entry, hget, h⟩ := h
  split at h
  · obtain ⟨i, name', he⟩ := Dictionary.get?_mem hget
    exact ⟨i, name', entry, he, Option.some.inj h⟩
  · cases h

lemma offers_firstChapter? {t : SymbolTable} {entry : Declaration}
    (h : t.firstChapter? = some entry) : t.Offers entry.symbol := by
  simp only [firstChapter?, Option.map_eq_some_iff] at h
  obtain ⟨⟨name, entry'⟩, hfind, rfl⟩ := h
  obtain ⟨i, hi⟩ := List.getElem?_of_mem (List.mem_of_find?_eq_some hfind)
  exact ⟨i, name, entry', by simpa [Dictionary.toList] using hi, rfl⟩

end SymbolTable

def SymbolTables.Offers (tables : SymbolTables) (symbol : Symbol) : Prop :=
  ∃ (path : String) (t : SymbolTable), tables[path]? = some t ∧ t.Offers symbol

namespace Surroundings

variable {s : Surroundings} {scope : Scope} {symbol : Symbol}

def Finds (s : Surroundings) (scope : Scope) : Symbol → Prop
  | .parameter p => ∃ x ∈ scope.parameters.entries, x.2 = p
  | .routine routine => s.tables.Offers (.routine routine)
  | .dialogue dialogue => s.tables.Offers (.dialogue dialogue)
  | _ => True

lemma Finds.of_offers {path : String} {t : SymbolTable} {members : List Member}
    (ht : s.tables[path]? = some t) (hd : t.Describes path members) (h : t.Offers symbol) :
    s.Finds scope symbol := by
  cases symbol with
  | parameter p =>
    obtain ⟨i, name, entry, he, hsymbol⟩ := h
    obtain ⟨member, -, hdeclares⟩ := hd.entries i name entry he
    obtain ⟨routine, hroutine, -⟩ := hdeclares.routine
    rw [hsymbol] at hroutine
    cases hroutine
  | routine _ | dialogue _ => exact ⟨path, t, ht, h⟩
  | builtin _ | global | constant _ => trivial

lemma finds_resolveName {name : String} (h : resolveName scope name = some symbol) :
    s.Finds scope symbol := by
  unfold resolveName at h
  split at h
  · next p hp =>
    cases h
    obtain ⟨i, name', he⟩ := Dictionary.get?_mem hp
    exact ⟨_, Array.mem_of_getElem? he, rfl⟩
  · split at h
    · cases h
      trivial
    · obtain ⟨value, -, rfl⟩ := Option.map_eq_some_iff.mp h
      trivial

variable (hd : ∀ (path : String) t, s.tables[path]? = some t → ∃ members, t.Describes path members)

include hd

lemma finds_find? {path name : String} {kind : RoutineKind}
    (h : (s.tables[path]?).bind (·.find? kind name) = some symbol) : s.Finds scope symbol := by
  obtain ⟨t, ht, hf⟩ := Option.bind_eq_some_iff.mp h
  obtain ⟨members, hmembers⟩ := hd path t ht
  exact .of_offers ht hmembers (SymbolTable.offers_find? hf)

lemma finds_findVisible {name : String} {kind : RoutineKind}
    (h : s.findVisible kind name = some symbol) : s.Finds scope symbol := by
  obtain ⟨path, -, hf⟩ := List.exists_of_findSome?_eq_some h
  exact finds_find? hd hf

lemma finds_resolveScene {target : String} (h : s.resolveScene target = some symbol) :
    s.Finds scope symbol := by
  unfold resolveScene at h
  split at h
  · exact finds_findVisible hd h
  · simp only at h
    split at h
    · exact finds_find? hd h
    · exact finds_find? hd h

lemma finds_resolve {use : Use} (h : s.resolve scope use = .ok symbol) : s.Finds scope symbol := by
  have orElse {symbol? : Option Symbol} {issue : Issue}
      (h : symbol?.elim (.error issue) .ok = (.ok symbol : Except Issue Symbol)) :
      symbol? = some symbol := by
    cases symbol? with
    | none => cases h
    | some _ => exact congrArg some (Except.ok.inj h)
  simp only [resolve] at h
  split at h
  · exact finds_resolveName (orElse h)
  · split at h
    · cases h
    · exact finds_resolveName (orElse h)
  · split at h
    · cases h
      trivial
    · exact finds_findVisible hd (orElse h)
  · obtain ⟨entry, hentry, rfl⟩ := Option.map_eq_some_iff.mp (orElse h)
    obtain ⟨t, ht, hfirst⟩ := Option.bind_eq_some_iff.mp hentry
    obtain ⟨members, hmembers⟩ := hd _ t ht
    exact .of_offers ht hmembers (SymbolTable.offers_firstChapter? hfirst)
  · exact finds_resolveScene hd (orElse h)

end Surroundings

namespace Bindings

lemma getElem?_retract (references : Std.TreeMap Nat Symbol) (id : Nat) (issue : Issue)
    (other : Nat) : (retract references id issue)[other]? = references[other]? ∨
      other = id ∧ (retract references id issue)[other]? = none := by
  unfold retract
  split
  · rcases eq_or_ne other id with rfl | hne
    · exact .inr ⟨rfl, by simp⟩
    · have hcompare : compare id other ≠ .eq := fun heq =>
        hne (Std.LawfulEqCmp.eq_of_compare heq).symm
      exact .inl (by simp [Std.TreeMap.getElem?_erase, hcompare])
  · exact .inl rfl

def From (s : Surroundings) (members : List Member) (b : Bindings) : Prop :=
  ∀ (id : Nat) symbol, b.references[id]? = some symbol → ∃ member ∈ members,
    ∃ use ∈ member.uses, use.node.id = id ∧
      s.resolve (((s.tables[s.path]?).bind (·.scopeOf? member.node.id)).getD {}) use = .ok symbol

lemma From.addMember {s : Surroundings} {members : List Member} {p : Progress}
    (h : p.bindings.From s members) {member : Member} (hm : member ∈ members) :
    (addMember s p member).bindings.From s members := by
  rw [Bindings.addMember, ← Array.foldl_toList]
  have huses : ∀ use ∈ member.uses.toList, use ∈ member.uses := by simp
  generalize member.uses.toList = uses at huses
  induction uses generalizing p with
  | nil => exact h
  | cons use rest ih =>
    rw [List.forall_mem_cons] at huses
    refine ih ?_ huses.2
    intro id symbol hs
    unfold addUse at hs
    split at hs
    · next symbol' hr =>
      rw [Std.TreeMap.getElem?_insert] at hs
      split at hs
      · next heq =>
        cases Std.LawfulEqCmp.eq_of_compare heq
        cases hs
        exact ⟨member, hm, use, huses.1, rfl, hr⟩
      · exact h id symbol hs
    · next issue _ =>
      rcases getElem?_retract p.bindings.references use.node.id issue id with hsame | ⟨-, hnone⟩
      · exact h id symbol (hsame ▸ hs)
      · cases hnone.symm.trans hs

lemma from_ofScript (tables : SymbolTables) (visible : List String) (script : Script) :
    (ofScript tables visible script).bindings.From ⟨tables, script.path, visible⟩
      script.members := by
  refine List.foldlRecOn (motive := fun p : Progress =>
    p.bindings.From ⟨tables, script.path, visible⟩ script.members) _ _ ?_
      fun p hp member hm => hp.addMember hm
  intro id symbol hs
  simp at hs

end Bindings

instance : Std.Symm Member.Apart where
  symm _ _ h := ⟨h.1.symm, fun use huse use' huse' => (h.2 use' huse' use huse).symm⟩

section Apart

variable {members : List Member} {m m' : Member} (ha : members.Pairwise Member.Apart)
  (hm : m ∈ members) (hm' : m' ∈ members)

include ha hm hm'

lemma Member.eq_of_node (h : m.node.id = m'.node.id) : m = m' := by
  by_contra hne
  exact (ha.forall hm hm' hne).1 h

lemma Member.eq_of_use {use use' : Use} (huse : use ∈ m.uses) (huse' : use' ∈ m'.uses)
    (h : use.node.id = use'.node.id) : m = m' := by
  by_contra hne
  exact (ha.forall hm hm' hne).2 use huse use' huse' h.symm

end Apart

lemma Bindings.From.parameter_lt {tables : SymbolTables} {path : String} {visible : List String}
    {members : List Member} {b : Bindings} {t : SymbolTable}
    (h : b.From ⟨tables, path, visible⟩ members)
    (hd : ∀ (path : String) t, tables[path]? = some t → ∃ members, t.Describes path members)
    (ha : members.Pairwise Member.Apart) (ht : tables[path]? = some t)
    (htable : t.Describes path members) {member : Member} (hm : member ∈ members) {use : Use}
    (huse : use ∈ member.uses) {p : ParameterSymbol}
    (hp : b.references[use.node.id]? = some (.parameter p)) :
    p.index.toNat < member.parameters.length := by
  obtain ⟨member', hm', use', huse', hid, hresolve⟩ := h _ _ hp
  cases Member.eq_of_use ha hm' hm huse' huse hid
  obtain ⟨x, hx, rfl⟩ := Surroundings.finds_resolve hd hresolve
  simp only [ht, Option.bind_some, SymbolTable.scopeOf?] at hx
  cases hs : t.scopes[member.node.id]? with
  | none => simp [hs] at hx
  | some scope =>
    rw [hs, Option.getD_some] at hx
    obtain ⟨member', hm', hnode, hfits⟩ := htable.scopes _ scope hs
    cases Member.eq_of_node ha hm' hm hnode
    exact hfits x hx

lemma Bindings.From.offers {tables : SymbolTables} {path : String} {visible : List String}
    {members : List Member} {b : Bindings} (h : b.From ⟨tables, path, visible⟩ members)
    (hd : ∀ (path : String) t, tables[path]? = some t → ∃ members, t.Describes path members)
    {id : Nat} {symbol : Symbol} {routine : RoutineSymbol}
    (hs : b.references[id]? = some symbol) (hr : symbol.routine? = some routine) :
    tables.Offers symbol := by
  obtain ⟨member, -, use, -, -, hresolve⟩ := h _ _ hs
  have hfinds := Surroundings.finds_resolve hd hresolve
  cases symbol with
  | routine _ | dialogue _ => exact hfinds
  | parameter _ | builtin _ | global | constant _ => cases hr

end Stagecraft
