import Stagecraft.Proofs.Project.Tables

namespace Stagecraft

def Dialogue.nameAt (position : Nat) (d : Dialogue) : String :=
  d.name?.getD s!"dialogue{position}"

def Member.blockNames (name : String) : Member → List String
  | .dialogue value => name :: (value.inner #[]).toList.mapIdx fun i d => d.nameAt (i + 1)
  | member => member.dialogues.toList.mapIdx Dialogue.nameAt

def Member.ownNames (name : String) : Member → List String
  | .dialogue _ => [name]
  | _ => []

namespace Member

lemma length_blockNames (name : String) (m : Member) :
    (m.blockNames name).length = m.blocks.length := by
  cases m <;> simp [blockNames, blocks]

lemma blockNames_eq (name : String) (m : Member) :
    m.blockNames name = m.ownNames name ++ m.dialogues.toList.mapIdx fun i d =>
      d.nameAt ((m.ownNames name).length + i) := by
  cases m with
  | dialogue value => simp [blockNames, ownNames, dialogues, Nat.add_comm]
  | _ => simp [blockNames, ownNames]

lemma mem_places {m : Member} {d : Dialogue} (h : d ∈ m.blocks) : d.node.id ∈ m.places := by
  cases m with
  | dialogue value =>
    rcases List.mem_cons.mp h with rfl | h
    · exact List.mem_cons_self
    · exact List.mem_cons_of_mem _ (List.mem_map_of_mem h)
  | _ => exact List.mem_cons_of_mem _ (List.mem_map_of_mem h)

end Member

namespace Dictionary

variable {d : Dictionary α} {key : String} {a : α}

def Sound (d : Dictionary α) : Prop :=
  ∀ key, d.contains key → key ∈ d.toList.map (·.1)

lemma sound_empty : ({} : Dictionary α).Sound := by
  simp [Sound, contains]

lemma toList_insert (h : d.contains key = false) :
    (d.insert key a).toList = d.toList ++ [(key, a)] := by
  simp [toList, entries_insert h]

lemma Sound.insert (hd : d.Sound) (h : d.contains key = false) : (d.insert key a).Sound := by
  intro key' hk
  rw [toList_insert h, List.map_append]
  have hplaces : (d.insert key a).contains key' = true → key' = key ∨ d.contains key' = true := by
    obtain ⟨entries, places⟩ := d
    have hnone : places[key]? = none := Std.HashMap.getElem?_eq_none_of_contains_eq_false h
    simp only [Dictionary.insert, hnone, contains, Std.HashMap.contains_insert, Bool.or_eq_true,
      beq_iff_eq]
    exact Or.imp_left Eq.symm
  rcases hplaces hk with rfl | hold
  · simp
  · exact List.mem_append_left _ (hd key' hold)

lemma size_le_insert (d : Dictionary α) (key : String) (a : α) :
    d.size ≤ (d.insert key a).size := by
  obtain ⟨entries, places⟩ := d
  simp only [Dictionary.insert]
  split
  · simp [size]
  · simp [size]

end Dictionary

def Plain (name : String) : Prop :=
  '#' ∉ name.toList

section Names

variable {name other : String} {i j : Nat}

lemma not_mem_number (n : Nat) : '#' ∉ (toString n).toList := by
  intro h
  simp only [Nat.toString_eq_repr, Nat.repr, String.toList_ofList] at h
  exact absurd (Nat.isDigit_of_mem_toDigits (by decide) (by decide) h) (by decide)

lemma Dialogue.IsPlain.nameAt {d : Dialogue} (h : d.IsPlain) (position : Nat) :
    Plain (d.nameAt position) := by
  cases hname : d.name? with
  | some name =>
    rw [Dialogue.nameAt, hname, Option.getD_some]
    intro hmem
    exact absurd ((h name hname).2 _ hmem) (by decide)
  | none =>
    rw [Dialogue.nameAt, hname, Option.getD_none, Plain]
    simp only [String.toList_append, List.mem_append, not_or]
    exact ⟨by decide, not_mem_number position⟩

lemma toList_numbered (name : String) (i : Nat) :
    (s!"{name}#{i}").toList = name.toList ++ '#' :: (toString i).toList := by
  simp only [String.toList_append, List.append_assoc]
  rfl

lemma numbered_ne_plain (h : Plain other) : s!"{name}#{i}" ≠ other := by
  rintro rfl
  refine h ?_
  rw [toList_numbered]
  simp

lemma numbered_inj (h : Plain name) (heq : s!"{name}#{i}" = s!"{other}#{j}") : i = j := by
  have hlists := congrArg String.toList heq
  rw [toList_numbered, toList_numbered,
    List.append_cons_inj_of_notMem h (not_mem_number i)] at hlists
  exact Nat.repr_inj.mp (String.toList_inj.mp hlists.2.2)

end Names

def DialogueSymbol.label (symbol : DialogueSymbol) : UInt16 × String :=
  (symbol.index, symbol.name)

def numbered (names : List String) : List (UInt16 × String) :=
  names.mapIdx fun i name => (UInt16.ofNat i, name)

lemma map_some_numbered (names : List String) :
    (numbered names).map some = names.mapIdx fun i name => some (UInt16.ofNat i, name) :=
  List.ext_getElem? fun k => by simp [numbered, Function.comp_def]

structure Scope.Holds (scope : Scope) (names : List String) : Prop where
  sound : scope.dialogues.Sound
  listed : scope.dialogues.toList.map (·.2.label) = numbered names
  keys : ∀ x ∈ scope.dialogues.toList, x.1 = x.2.name ∨ x.1 = s!"{x.2.name}#{x.2.index.toNat}"
  plain : ∀ name ∈ names, Plain name

namespace Scope

variable {scope : Scope} {names : List String}

lemma holds_nil (h : scope.dialogues = {}) : scope.Holds [] :=
  ⟨h ▸ Dictionary.sound_empty, by rw [h]; rfl, by simp [h, Dictionary.toList], by simp⟩

lemma Holds.size (h : scope.Holds names) : scope.dialogues.size = names.length := by
  simpa [numbered, Dictionary.toList, Dictionary.size] using congrArg List.length h.listed

lemma Holds.insert {key : String} {symbol : DialogueSymbol} (h : scope.Holds names)
    (hnew : scope.dialogues.contains key = false) (hp : Plain symbol.name)
    (hindex : symbol.index = UInt16.ofNat names.length)
    (hkey : key = symbol.name ∨ key = s!"{symbol.name}#{symbol.index.toNat}") :
    ({ scope with dialogues := scope.dialogues.insert key symbol }).Holds
      (names ++ [symbol.name]) := by
  refine ⟨h.sound.insert hnew, ?_, ?_, ?_⟩
  · rw [Dictionary.toList_insert hnew, List.map_append, h.listed, numbered, numbered,
      List.mapIdx_concat, ← hindex]
    rfl
  · rw [Dictionary.toList_insert hnew, List.forall_mem_append]
    exact ⟨h.keys, by simpa using hkey⟩
  · rw [List.forall_mem_append]
    exact ⟨h.plain, by simpa using hp⟩

lemma Holds.free {name : String} (h : scope.Holds names) (hp : Plain name)
    (hlen : names.length < 65536) :
    scope.dialogues.contains s!"{name}#{names.length}" = false := by
  rw [Bool.eq_false_iff]
  intro hk
  obtain ⟨⟨key, symbol⟩, hmem, hsame⟩ := List.mem_map.mp (h.sound _ hk)
  obtain ⟨i, hi⟩ := List.getElem?_of_mem hmem
  have hlabel : (numbered names)[i]? = some symbol.label := by
    rw [← h.listed, List.getElem?_map, hi]
    rfl
  rw [numbered, List.getElem?_mapIdx, Option.map_eq_some_iff] at hlabel
  obtain ⟨name', hname', hlabel⟩ := hlabel
  obtain ⟨hindex, rfl⟩ := Prod.mk.inj hlabel
  have hlt : i < names.length := (List.getElem?_eq_some_iff.mp hname').1
  change key = _ at hsame
  rcases h.keys _ hmem with hkey | hkey
  · exact numbered_ne_plain (h.plain _ (List.mem_of_getElem? hname')) (hsame.symm.trans hkey)
  · have hsum := numbered_inj hp (hsame.symm.trans hkey)
    change names.length = symbol.index.toNat at hsum
    rw [← hindex, UInt16.toNat_ofNat_of_lt' (Nat.lt_trans hlt hlen)] at hsum
    omega

lemma Holds.addDialogue {d : Dialogue} (h : scope.Holds names) (hp : d.IsPlain)
    (hlen : names.length < 65536) :
    (scope.addDialogue d).1.Holds (names ++ [d.nameAt names.length]) ∧
      (scope.addDialogue d).2.1.label = (UInt16.ofNat names.length, d.nameAt names.length) := by
  have hindex : (UInt16.ofNat names.length).toNat = names.length :=
    UInt16.toNat_ofNat_of_lt' hlen
  simp only [Scope.addDialogue, h.size, hindex]
  refine ⟨h.insert ?_ (hp.nameAt _) rfl ?_, rfl⟩
  -- a name that is taken is numbered, and the number is new
  · split
    · exact h.free (hp.nameAt _) hlen
    · next hfree => simpa using hfree
  · simp only [hindex]
    split
    · exact .inr rfl
    · exact .inl rfl

end Scope

namespace SymbolTable

variable {scope : Scope} {names : List String} {symbols : Std.TreeMap Nat Symbol}
  {diagnostics : Array Diagnostic} {ds : List Dialogue}

lemma holds_addDialogues (h : scope.Holds names) (hp : ∀ d ∈ ds, d.IsPlain)
    (hlen : names.length + ds.length ≤ 65536) :
    (addDialogues scope symbols diagnostics ds).1.Holds
      (names ++ ds.mapIdx fun i d => d.nameAt (names.length + i)) := by
  induction ds generalizing scope names symbols diagnostics with
  | nil =>
    rw [List.mapIdx_nil, List.append_nil]
    exact h
  | cons d rest ih =>
    rw [List.forall_mem_cons] at hp
    rw [List.length_cons] at hlen
    have hshift : names ++ (d :: rest).mapIdx (fun i d => d.nameAt (names.length + i)) =
        (names ++ [d.nameAt names.length]) ++ rest.mapIdx fun i d' =>
          d'.nameAt ((names ++ [d.nameAt names.length]).length + i) := by
      simp [List.mapIdx_cons, Nat.add_assoc, Nat.add_comm 1]
    rw [hshift]
    exact ih (h.addDialogue hp.1 (by omega)).1 hp.2 (by simp; omega)

lemma size_le_addDialogues (scope : Scope) (symbols : Std.TreeMap Nat Symbol)
    (diagnostics : Array Diagnostic) (ds : List Dialogue) :
    scope.dialogues.size ≤ (addDialogues scope symbols diagnostics ds).1.dialogues.size := by
  induction ds generalizing scope symbols diagnostics with
  | nil => exact Nat.le_refl _
  | cons d rest ih =>
    have hstep : scope.dialogues.size ≤ (scope.addDialogue d).1.dialogues.size :=
      Dictionary.size_le_insert _ _ _
    exact Nat.le_trans hstep (ih _ _ _)

lemma lt_size_addDialogues (h : scope.Holds names) (hp : ∀ d ∈ ds, d.IsPlain)
    (hnames : names.length ≤ 65536) (hlen : 65536 ≤ names.length + ds.length) :
    65536 ≤ (addDialogues scope symbols diagnostics ds).1.dialogues.size := by
  induction ds generalizing scope names symbols diagnostics with
  | nil =>
    rw [List.length_nil] at hlen
    change 65536 ≤ scope.dialogues.size
    rw [h.size]
    exact hlen
  | cons d rest ih =>
    rw [List.forall_mem_cons] at hp
    rw [List.length_cons] at hlen
    rcases Nat.lt_or_ge names.length 65536 with hlt | hge
    · exact ih (h.addDialogue hp.1 hlt).1 hp.2 (by simp; omega) (by simp; omega)
    · exact Nat.le_trans (h.size ▸ hge) (size_le_addDialogues _ _ _ _)

lemma symbols_addDialogues_of_notMem {id : Nat} (hid : id ∉ ds.map (·.node.id)) :
    (addDialogues scope symbols diagnostics ds).2.1[id]? = symbols[id]? := by
  induction ds generalizing scope symbols diagnostics with
  | nil => rfl
  | cons d rest ih =>
    rw [List.map_cons, List.mem_cons, not_or] at hid
    rw [addDialogues, ih hid.2, Std.TreeMap.getElem?_insert,
      if_neg fun heq => hid.1 (Std.LawfulEqCmp.eq_of_compare heq).symm]

lemma symbols_addDialogues (symbols : Std.TreeMap Nat Symbol) (diagnostics : Array Diagnostic)
    (h : scope.Holds names) (hp : ∀ d ∈ ds, d.IsPlain) (hlen : names.length + ds.length ≤ 65536)
    (hids : (ds.map (·.node.id)).Nodup) (k : Nat) (d : Dialogue) (hk : ds[k]? = some d) :
    ∃ symbol, (addDialogues scope symbols diagnostics ds).2.1[d.node.id]? =
        some (.dialogue symbol) ∧
      symbol.label = (UInt16.ofNat (names.length + k), d.nameAt (names.length + k)) := by
  induction ds generalizing scope names symbols diagnostics k with
  | nil => simp at hk
  | cons d' rest ih =>
    rw [List.forall_mem_cons] at hp
    rw [List.length_cons] at hlen
    rw [List.map_cons, List.nodup_cons] at hids
    obtain ⟨hholds, hlabel⟩ := h.addDialogue hp.1 (by omega)
    cases k with
    | zero =>
      cases hk
      refine ⟨(scope.addDialogue d).2.1, ?_, hlabel⟩
      rw [addDialogues, symbols_addDialogues_of_notMem hids.1,
        Std.TreeMap.getElem?_insert_self]
    | succ k =>
      obtain ⟨symbol, hsymbol, hlabel⟩ := ih _ _ hholds hp.2 (by simp; omega) hids.2 k hk
      refine ⟨symbol, hsymbol, ?_⟩
      rw [hlabel, List.length_append, List.length_singleton, Nat.add_assoc, Nat.add_comm 1]

def label? (t : SymbolTable) (d : Dialogue) : Option (UInt16 × String) :=
  (t.dialogueOf? d.node.id).map DialogueSymbol.label

structure Lists (t : SymbolTable) (name : String) (member : Member) : Prop where
  scope : ∃ scope, t.scopeOf? member.node.id = some scope ∧
    (65536 ≤ member.blocks.length → 65536 ≤ scope.dialogues.size) ∧
    (member.blocks.length ≤ 65536 → scope.Holds (member.blockNames name))
  blocks : member.blocks.length ≤ 65536 →
    member.blocks.map t.label? = (numbered (member.blockNames name)).map some

lemma label?_eq_of_symbols {t t' : SymbolTable} {d : Dialogue}
    (h : t'.symbols[d.node.id]? = t.symbols[d.node.id]?) : t'.label? d = t.label? d := by
  rw [label?, label?, dialogueOf?, dialogueOf?, h]

lemma Lists.mono {t t' : SymbolTable} {name : String} {m : Member} (h : t.Lists name m)
    (hscopes : ∀ id ∈ m.places, t'.scopes[id]? = t.scopes[id]?)
    (hsymbols : ∀ id ∈ m.places, t'.symbols[id]? = t.symbols[id]?) : t'.Lists name m := by
  refine ⟨?_, fun hlen => ?_⟩
  · rw [scopeOf?, hscopes _ List.mem_cons_self]
    exact h.scope
  · rw [← h.blocks hlen, List.map_congr_left]
    exact fun d hd => label?_eq_of_symbols (hsymbols _ (Member.mem_places hd))

lemma dialogues_addParameters (scope : Scope) (diagnostics : Array Diagnostic)
    (parameters : List FormalParameter) :
    (addParameters scope diagnostics parameters).1.dialogues = scope.dialogues := by
  induction parameters generalizing scope diagnostics with
  | nil => rfl
  | cons p rest ih => rw [addParameters, ih]; rfl

lemma holds_symbolOf {routine : RoutineSymbol} {m : Member} {position : Nat}
    (hs : scope.dialogues = {}) (hp : ∀ d ∈ m.blocks, d.IsPlain)
    (hname : routine.name = m.nameAt position) :
    (symbolOf routine scope m).2.Holds (m.ownNames routine.name) := by
  cases m with
  | dialogue value =>
    have hplain : Plain routine.name := by
      rw [hname]
      exact (hp value List.mem_cons_self).nameAt position
    refine (Scope.holds_nil hs).insert ?_ hplain rfl (.inl rfl)
    simp [hs, Dictionary.contains]
  | _ => exact Scope.holds_nil hs

lemma lists_new {t : SymbolTable} {routine : RoutineSymbol} {m : Member} {name : String}
    {position : Nat} (hp : ∀ d ∈ m.blocks, d.IsPlain) (hids : m.places.Nodup)
    (hname : name = m.nameAt position) (hroutine : routine.name = name) (hs : scope.dialogues = {})
    (hscope : t.scopeOf? m.node.id = some (addDialogues (symbolOf routine scope m).2 symbols
      diagnostics m.dialogues.toList).1)
    (hsymbols : t.symbols = (addDialogues (symbolOf routine scope m).2 symbols
      diagnostics m.dialogues.toList).2.1.insert m.node.id (symbolOf routine scope m).1) :
    t.Lists name m := by
  subst hroutine
  have hholds := holds_symbolOf hs hp hname
  have hinner : ∀ d ∈ m.dialogues.toList, d.IsPlain := by
    intro d hd
    refine hp d ?_
    cases m with
    | dialogue value => exact List.mem_cons_of_mem _ hd
    | _ => exact hd
  have hblocks : m.blocks.length = (m.ownNames routine.name).length +
      m.dialogues.toList.length := by
    rw [← m.length_blockNames routine.name, m.blockNames_eq, List.length_append,
      List.length_mapIdx]
  have hown : (m.ownNames routine.name).length ≤ 65536 := by
    cases m <;> simp [Member.ownNames]
  rw [Member.places, List.nodup_cons] at hids
  refine ⟨⟨_, hscope, fun hlen => ?_, fun hlen => ?_⟩, fun hlen => ?_⟩
  · exact lt_size_addDialogues hholds hinner hown (hblocks ▸ hlen)
  · rw [m.blockNames_eq]
    exact holds_addDialogues hholds hinner (hblocks ▸ hlen)
  · have hlabels : m.dialogues.toList.map t.label? = m.dialogues.toList.mapIdx fun k d =>
        let position := (m.ownNames routine.name).length + k
        some (UInt16.ofNat position, d.nameAt position) := by
      refine List.ext_getElem? fun k => ?_
      rw [List.getElem?_map, List.getElem?_mapIdx]
      cases hk : m.dialogues.toList[k]? with
      | none => rfl
      | some d =>
        obtain ⟨symbol, hsymbol, hlabel⟩ :=
          symbols_addDialogues symbols diagnostics hholds hinner (hblocks ▸ hlen) hids.2 k d hk
        -- the symbol of the member itself is put in last, but under another node
        have hne : m.node.id ≠ d.node.id := fun heq =>
          hids.1 (heq ▸ List.mem_map_of_mem (List.mem_of_getElem? hk))
        simp only [Option.map_some, label?, dialogueOf?, hsymbols, Std.TreeMap.getElem?_insert,
          if_neg fun h => hne (Std.LawfulEqCmp.eq_of_compare h), hsymbol, hlabel]
    cases m with
    | dialogue value =>
      have hown : t.label? value = some (0, routine.name) := by
        rw [label?, dialogueOf?, hsymbols, Member.node, Std.TreeMap.getElem?_insert_self]
        rfl
      have htail : (value.inner #[]).toList.map t.label? =
          (value.inner #[]).toList.mapIdx fun k d =>
            some (UInt16.ofNat (1 + k), d.nameAt (1 + k)) :=
        hlabels
      simp [Member.blocks, Member.blockNames, map_some_numbered, hown, htail, List.mapIdx_cons,
        Function.comp_def, Nat.add_comm]
    | _ =>
      simpa [Member.blocks, Member.blockNames, Member.ownNames, map_some_numbered,
        Function.comp_def] using hlabels

def ListsAll (t : SymbolTable) (members : List Member) : Prop :=
  ∀ (i : Nat) name entry, t.members.entries[i]? = some (name, entry) →
    ∃ m ∈ members, entry.node = m.node.id ∧ t.Lists name m

lemma ListsAll.addMember {p : Progress} {done : List Member} {m : Member}
    (h : p.table.ListsAll done) (hp : ∀ d ∈ m.blocks, d.IsPlain) (hids : m.places.Nodup)
    (hdone : ∀ m' ∈ done, m'.places.Disjoint m.places) :
    (addMember p m).table.ListsAll (done ++ [m]) := by
  have hold {t : SymbolTable} (ht : t.ListsAll done) : t.ListsAll (done ++ [m]) :=
    fun i name entry he => by
      obtain ⟨m', hm', hlists⟩ := ht i name entry he
      exact ⟨m', List.mem_append_left _ hm', hlists⟩
  simp only [SymbolTable.addMember]
  split
  · exact hold h
  · next hnew =>
    intro i name entry he
    rw [Dictionary.entries_insert (by simpa using hnew), Array.getElem?_push] at he
    split at he
    · cases he
      exact ⟨m, by simp, rfl, lists_new hp hids rfl rfl (dialogues_addParameters _ _ _)
        Std.TreeMap.getElem?_insert_self rfl⟩
    · obtain ⟨m', hm', hnode, hlists⟩ := h i name entry he
      refine ⟨m', List.mem_append_left _ hm', hnode,
        hlists.mono (fun id hid => ?_) fun id hid => ?_⟩
      · have hne : m.node.id ≠ id := fun heq => hdone m' hm' hid (heq ▸ List.mem_cons_self)
        rw [Std.TreeMap.getElem?_insert, if_neg fun h => hne (Std.LawfulEqCmp.eq_of_compare h)]
      · have hnot : id ∉ m.places := hdone m' hm' hid
        rw [Member.places, List.mem_cons, not_or] at hnot
        rw [Std.TreeMap.getElem?_insert,
          if_neg fun h => hnot.1 (Std.LawfulEqCmp.eq_of_compare h).symm,
          symbols_addDialogues_of_notMem hnot.2]

lemma listsAll_ofScript (path : String) (includes : List String) {script : Script} {high : Nat}
    (h : Member.AllRise high script.members) :
    (ofScript path includes script).table.ListsAll script.members := by
  obtain ⟨hids, hapart⟩ := List.pairwise_flatMap.mp h.places.pairwise
  refine ofScript_induction (P := fun done t => t.ListsAll done) path includes script
    (fun i name entry he => by simp at he) fun p done m rest hall hp => ?_
  have hm : m ∈ script.members := by simp [hall]
  refine hp.addMember (h.plain m hm) ((hids m hm).imp Nat.ne_of_lt) fun m' hm' id hid hid' => ?_
  rw [hall, List.pairwise_append] at hapart
  exact Nat.lt_irrefl id (hapart.2.2 m' hm' m List.mem_cons_self id hid id hid')

end SymbolTable

namespace Surroundings

def scopeOf (s : Surroundings) (m : Member) : Scope :=
  ((s.tables[s.path]?).bind (·.scopeOf? m.node.id)).getD {}

end Surroundings

namespace Bindings

def Records (b : Bindings) (s : Surroundings) (scope : Scope) (use : Use) : Prop :=
  match s.resolve scope use with
  | .ok symbol =>
    b.references[use.node.id]? = some symbol ∧ b.unresolved[use.node.id]? = none
  | .error _ =>
    b.references[use.node.id]? = none ∧ b.unresolved[use.node.id]? = some use.name

def Blank (b : Bindings) (id : Nat) : Prop :=
  b.references[id]? = none ∧ b.unresolved[id]? = none

def Same (b b' : Bindings) (id : Nat) : Prop :=
  b'.references[id]? = b.references[id]? ∧ b'.unresolved[id]? = b.unresolved[id]?

variable {s : Surroundings} {scope : Scope} {use : Use} {p : Progress}

lemma records_addUse (scope : Scope) (h : p.bindings.Blank use.node.id) :
    (addUse s scope p use).bindings.Records s scope use := by
  unfold Records addUse
  split
  · next hr => simpa [hr] using h.2
  · next issue hr =>
    have hnone : (retract p.bindings.references use.node.id issue)[use.node.id]? = none :=
      (getElem?_retract _ _ _ _).elim (·.trans h.1) (·.2)
    simpa [hr] using hnone

lemma same_addUse (scope : Scope) {id : Nat} (h : id ≠ use.node.id) :
    p.bindings.Same (addUse s scope p use).bindings id := by
  have hne : compare use.node.id id ≠ .eq := fun heq => h (Std.LawfulEqCmp.eq_of_compare heq).symm
  unfold Same addUse
  split
  · simp [Std.TreeMap.getElem?_insert, hne]
  · next issue _ =>
    have hsame : (retract p.bindings.references use.node.id issue)[id]? =
        p.bindings.references[id]? :=
      (getElem?_retract _ _ _ _).resolve_right fun hid => h hid.1
    simp [Std.TreeMap.getElem?_insert, hne, hsame]

lemma same_foldl {id : Nat} (uses : List (Scope × Use)) (h : id ∉ uses.map (·.2.node.id))
    (p : Progress) :
    p.bindings.Same (uses.foldl (fun p x => addUse s x.1 p x.2) p).bindings id := by
  induction uses generalizing p with
  | nil => exact ⟨rfl, rfl⟩
  | cons x rest ih =>
    rw [List.map_cons, List.mem_cons, not_or] at h
    obtain ⟨hr, hu⟩ := same_addUse (s := s) (p := p) x.1 h.1
    obtain ⟨hr', hu'⟩ := ih h.2 (addUse s x.1 p x.2)
    exact ⟨hr'.trans hr, hu'.trans hu⟩

lemma records_foldl (uses : List (Scope × Use)) (hids : (uses.map (·.2.node.id)).Nodup)
    (p : Progress) (hp : ∀ x ∈ uses, p.bindings.Blank x.2.node.id) :
    ∀ x ∈ uses, (uses.foldl (fun p x => addUse s x.1 p x.2) p).bindings.Records s x.1 x.2 := by
  induction uses generalizing p with
  | nil => simp
  | cons x rest ih =>
    rw [List.map_cons, List.nodup_cons] at hids
    rw [List.forall_mem_cons] at hp ⊢
    refine ⟨?_, ih hids.2 _ fun y hy => ?_⟩
    -- what the first use was recorded with, no later use has the node to change
    · obtain ⟨hr, hu⟩ := same_foldl (s := s) rest hids.1 (addUse s x.1 p x.2)
      have hrecords := records_addUse (s := s) x.1 hp.1
      unfold Records at hrecords ⊢
      rwa [List.foldl_cons, hr, hu]
    · have hne : y.2.node.id ≠ x.2.node.id := fun heq =>
        hids.1 (heq ▸ List.mem_map_of_mem hy)
      obtain ⟨hr, hu⟩ := same_addUse (s := s) (p := p) x.1 hne
      exact ⟨hr.trans (hp.2 y hy).1, hu.trans (hp.2 y hy).2⟩

def usesOf (s : Surroundings) (members : List Member) : List (Scope × Use) :=
  members.flatMap fun m => m.uses.toList.map fun use => (s.scopeOf m, use)

lemma ofScript_eq (tables : SymbolTables) (visible : List String) (script : Script) :
    let s : Surroundings := { tables, path := script.path, visible }
    ofScript tables visible script = (usesOf s script.members).foldl
      (fun p x => addUse s x.1 p x.2) { bindings := { path := script.path, visible } } := by
  simp only [ofScript, usesOf, List.foldl_flatMap, List.foldl_map]
  congr 1
  funext p m
  rw [addMember, ← Array.foldl_toList]
  rfl

lemma records_ofScript (tables : SymbolTables) (visible : List String) {script : Script}
    {high : Nat} (h : Member.AllRise high script.members) {m : Member} (hm : m ∈ script.members)
    {use : Use} (huse : use ∈ m.uses) :
    let s : Surroundings := { tables, path := script.path, visible }
    (ofScript tables visible script).bindings.Records s (s.scopeOf m) use := by
  intro s
  have hids : ((usesOf s script.members).map (·.2.node.id)).Nodup := by
    have hflat : (usesOf s script.members).map (·.2.node.id) =
        script.members.flatMap Member.useNodes := by
      simp only [usesOf, List.map_flatMap, List.map_map]
      rfl
    rw [hflat]
    exact h.names.pairwise.imp Nat.ne_of_lt
  rw [ofScript_eq]
  refine records_foldl _ hids _ (fun _ _ => ⟨by simp, by simp⟩) (s.scopeOf m, use) ?_
  exact List.mem_flatMap.mpr ⟨m, hm, List.mem_map_of_mem (Array.mem_toList_iff.mpr huse)⟩

lemma Records.mem_unresolved {b : Bindings} (h : b.Records s scope use) :
    use.node.id ∈ b.unresolved ↔ ∃ issue, s.resolve scope use = .error issue := by
  rw [Std.TreeMap.mem_iff_isSome_getElem?]
  unfold Records at h
  split at h
  · next hr => simp [h.2, hr]
  · next hr => simp [h.2, hr]

lemma Records.references_none {b : Bindings} (h : b.Records s scope use)
    (hu : use.node.id ∈ b.unresolved) : b.references[use.node.id]? = none := by
  obtain ⟨issue, hissue⟩ := h.mem_unresolved.mp hu
  rw [Records, hissue] at h
  exact h.1

end Bindings

end Stagecraft
