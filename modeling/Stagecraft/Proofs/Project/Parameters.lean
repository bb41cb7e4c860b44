import Stagecraft.Proofs.Project.Scopes

/-!
A parameter has the number of the different names in front of its last declaration. A name behind a
repeated one stands for the argument of another.
-/

namespace Stagecraft

namespace Dictionary

variable {d : Dictionary α} {key : String} {a : α}

def Exact (d : Dictionary α) : Prop :=
  ∀ (key : String) (i : Nat), d.places[key]? = some i ↔ ∃ a, d.entries[i]? = some (key, a)

lemma exact_empty : ({} : Dictionary α).Exact := by
  simp [Exact]

lemma Exact.contains_iff (h : d.Exact) : d.contains key = true ↔ ∃ a, d.get? key = some a := by
  rw [contains, Std.HashMap.contains_eq_isSome_getElem?, Option.isSome_iff_exists]
  constructor
  · rintro ⟨i, hi⟩
    obtain ⟨a, ha⟩ := (h key i).mp hi
    exact ⟨a, by simp [get?, hi, ha]⟩
  · rintro ⟨a, ha⟩
    simp only [get?, Option.bind_eq_bind, Option.bind_eq_some_iff] at ha
    obtain ⟨i, hi, -⟩ := ha
    exact ⟨i, hi⟩

lemma Exact.place_ne (h : d.Exact) {key' : String} {i j : Nat} (hi : d.places[key]? = some i)
    (hj : d.places[key']? = some j) (hne : key' ≠ key) : i ≠ j := by
  rintro rfl
  obtain ⟨b, hb⟩ := (h key i).mp hi
  obtain ⟨b', hb'⟩ := (h key' i).mp hj
  exact hne (Prod.mk.inj (Option.some.inj (hb'.symm.trans hb))).1

lemma Exact.place_lt (h : d.Exact) {i : Nat} (hi : d.places[key]? = some i) :
    i < d.entries.size := by
  obtain ⟨b, hb⟩ := (h key i).mp hi
  exact (Array.getElem?_eq_some_iff.mp hb).1

lemma get?_insert (h : d.Exact) (key' : String) :
    (d.insert key a).get? key' = if key' = key then some a else d.get? key' := by
  obtain ⟨entries, places⟩ := d
  simp only [insert]
  split
  · next i hi =>
    have hlt : i < entries.size := h.place_lt hi
    by_cases hk : key' = key
    · subst hk
      simp [get?, hi, hlt]
    · cases hj : places[key']? with
      | none => simp [get?, hj, hk]
      | some j =>
        have hij : i ≠ j := h.place_ne hi hj hk
        simp [get?, hj, hk, hij]
  · next hnone =>
    by_cases hk : key' = key
    · subst hk
      simp [get?]
    · cases hj : places[key']? with
      | none => simp [get?, Std.HashMap.getElem?_insert, hj, Ne.symm hk, hk]
      | some j =>
        have hlt : j < entries.size := h.place_lt hj
        simp [get?, Std.HashMap.getElem?_insert, hj, Ne.symm hk, hk, Array.getElem?_push,
          Nat.ne_of_lt hlt]

lemma Exact.insert (h : d.Exact) (key : String) (a : α) : (d.insert key a).Exact := by
  intro key' j
  obtain ⟨entries, places⟩ := d
  have hold := h key' j
  simp only [Dictionary.insert]
  split
  · next i hi =>
    obtain ⟨b, hb⟩ := (h key i).mp hi
    have hlt : i < entries.size := h.place_lt hi
    by_cases hij : i = j
    · subst hij
      simp only [Array.getElem?_setIfInBounds_self_of_lt hlt, Option.some.injEq, Prod.mk.injEq]
      rw [hold, show entries[i]? = _ from hb]
      simp
    · rw [Array.getElem?_setIfInBounds_ne hij]
      exact hold
  · next hnone =>
    rw [Std.HashMap.getElem?_insert, Array.getElem?_push]
    by_cases hk : key = key'
    · subst hk
      have hnot (b : α) : entries[j]? ≠ some (key, b) := fun hb => by
        simpa [hnone] using hold.mpr ⟨b, hb⟩
      by_cases hj : j = entries.size
      · simp [hj]
      · simp [hj, hnot, Ne.symm hj]
    · by_cases hj : j = entries.size
      · subst hj
        simp [hk, hold]
      · simpa [hk, hj] using hold

lemma size_insert (d : Dictionary α) (key : String) (a : α) :
    (d.insert key a).size = if d.contains key then d.size else d.size + 1 := by
  obtain ⟨entries, places⟩ := d
  rw [contains, Std.HashMap.contains_eq_isSome_getElem?]
  simp only [Dictionary.insert]
  split
  · next i hi => simp [size, hi]
  · next hnone => simp [size, hnone]

end Dictionary

section Numbers

/-- The names in front of the last `name`, the last of them first. -/
def inFrontOf (name : String) (names : List String) : List String :=
  (names.reverse.dropWhile (· != name)).tail

def rank (name : String) (names : List String) : Nat :=
  (inFrontOf name names).toFinset.card

variable {name other : String} {names front back : List String}

lemma rank_concat (name other : String) (names : List String) :
    rank name (names ++ [other]) =
      if name = other then names.toFinset.card else rank name names := by
  unfold rank inFrontOf
  rw [List.reverse_append, List.reverse_singleton, List.singleton_append, List.dropWhile_cons]
  by_cases h : name = other
  · simp [h]
  · simp [h, Ne.symm h]

lemma rank_append_cons (h : name ∉ back) :
    rank name (front ++ name :: back) = front.toFinset.card := by
  rw [rank, inFrontOf, List.reverse_append, List.reverse_cons, List.append_assoc,
    List.dropWhile_append_of_pos]
  · simp
  · intro x hx
    rw [bne_iff_ne]
    rintro rfl
    exact h (List.mem_reverse.mp hx)

lemma rank_lt (h : name ∈ names) : rank name names < names.length := by
  have hcard : rank name names ≤ (inFrontOf name names).length := List.toFinset_card_le _
  have hne : names.reverse.dropWhile (· != name) ≠ [] := by
    rw [Ne, List.dropWhile_eq_nil_iff]
    intro hall
    simpa using hall name (List.mem_reverse.mpr h)
  have hdrop := (List.dropWhile_suffix (· != name) (l := names.reverse)).length_le
  have hpos := List.length_pos_of_ne_nil hne
  rw [List.length_reverse] at hdrop
  rw [inFrontOf, List.length_tail] at hcard
  omega

lemma card_toFinset_eq_iff (names : List String) :
    names.toFinset.card = names.length ↔ names.Nodup := by
  rw [List.card_toFinset, (List.dedup_sublist names).length_eq, List.dedup_eq_self]

lemma getElem?_append_cons_iff (hfront : name ∉ front) (hback : name ∉ back) (i : Nat) :
    (front ++ name :: back)[i]? = some name ↔ i = front.length := by
  grind

end Numbers

structure Scope.Binds (scope : Scope) (names : List String) : Prop where
  exact : scope.parameters.Exact
  size : scope.parameters.size = names.toFinset.card
  bound : ∀ n symbol, scope.parameters.get? n = some symbol ↔
    n ∈ names ∧ symbol = { name := n, index := UInt16.ofNat (rank n names) }

def Scope.Addresses (scope : Scope) (names : List String) (n : String) : Prop :=
  ∀ symbol, scope.parameters.get? n = some symbol → names[symbol.index.toNat]? = some n

namespace Scope

variable {scope : Scope} {names front back : List String} {n : String}

lemma binds_nil (h : scope.parameters = {}) : scope.Binds [] := by
  refine ⟨h ▸ Dictionary.exact_empty, by rw [h]; rfl, fun n symbol => ?_⟩
  simp [h, Dictionary.get?]

lemma Binds.contains_iff (h : scope.Binds names) (n : String) :
    scope.parameters.contains n = true ↔ n ∈ names := by
  rw [h.exact.contains_iff]
  simp [h.bound]

lemma Binds.addParameter (h : scope.Binds names) (p : FormalParameter) :
    (scope.addParameter p).1.Binds (names ++ [p.name]) := by
  refine ⟨h.exact.insert _ _, ?_, fun n symbol => ?_⟩
  · change (scope.parameters.insert _ _).size = _
    simp only [Dictionary.size_insert, h.contains_iff, h.size, List.toFinset_append,
      List.toFinset_cons, List.toFinset_nil, insert_empty_eq, Finset.union_singleton,
      Finset.card_insert_eq_ite, List.mem_toFinset]
  · change (scope.parameters.insert _ _).get? n = _ ↔ _
    rw [Dictionary.get?_insert h.exact, rank_concat, h.size]
    by_cases hn : n = p.name
    · subst hn
      simp [eq_comm]
    · simp [hn, h.bound]

lemma Binds.addParameters (h : scope.Binds names) (diagnostics : Array Diagnostic)
    (parameters : List FormalParameter) :
    (SymbolTable.addParameters scope diagnostics parameters).1.Binds
      (names ++ parameters.map (·.name)) := by
  induction parameters generalizing scope names diagnostics with
  | nil => simpa [SymbolTable.addParameters] using h
  | cons p rest ih =>
    rw [List.map_cons, List.append_cons]
    exact ih (h.addParameter p) _

lemma toNat_rank (n : String) (names : List String) :
    (UInt16.ofNat (rank n names)).toNat = rank n names % 65536 :=
  UInt16.toNat_ofNat'

lemma Binds.index_lt (h : scope.Binds names) {symbol : ParameterSymbol}
    (hn : scope.parameters.get? n = some symbol) : symbol.index.toNat < names.length := by
  obtain ⟨hmem, rfl⟩ := (h.bound n symbol).mp hn
  rw [toNat_rank]
  exact Nat.lt_of_le_of_lt (Nat.mod_le _ _) (rank_lt hmem)

lemma Binds.addresses_iff (h : scope.Binds (front ++ n :: back)) (hfront : n ∉ front)
    (hback : n ∉ back) :
    scope.Addresses (front ++ n :: back) n ↔ front.length < 65536 ∧ front.Nodup := by
  have hmem : n ∈ front ++ n :: back := by simp
  have hle : front.toFinset.card ≤ front.length := List.toFinset_card_le front
  simp only [Addresses, h.bound, hmem, true_and, forall_eq, toNat_rank]
  rw [rank_append_cons hback, getElem?_append_cons_iff hfront hback, ← card_toFinset_eq_iff]
  omega

lemma Binds.addresses_of_nodup (h : scope.Binds names) (hnames : names.Nodup)
    (hlength : names.length ≤ 65536) (n : String) : scope.Addresses names n := by
  intro symbol hsymbol
  obtain ⟨front, back, rfl⟩ := List.append_of_mem ((h.bound n symbol).mp hsymbol).1
  obtain ⟨hfront, hback, hapart⟩ := List.nodup_append.mp hnames
  have hnotFront : n ∉ front := fun hn => hapart n hn n List.mem_cons_self rfl
  rw [List.length_append, List.length_cons] at hlength
  exact (h.addresses_iff hnotFront (List.nodup_cons.mp hback).1).mpr ⟨by omega, hfront⟩ symbol
    hsymbol

lemma Binds.congr {scope' : Scope} (h : scope.Binds names)
    (hsame : scope'.parameters = scope.parameters) : scope'.Binds names :=
  ⟨hsame ▸ h.exact, hsame ▸ h.size, hsame ▸ h.bound⟩

end Scope

lemma Member.map_name_parameters (m : Member) : m.parameters.map (·.name) = m.parameterNames := by
  cases m <;> rfl

namespace SymbolTable

structure BindsAll (t : SymbolTable) (members : List Member) : Prop where
  scopes : ∀ (id : Nat) scope, t.scopes[id]? = some scope →
    ∃ m ∈ members, m.node.id = id ∧ scope.Binds m.parameterNames
  entries : ∀ (i : Nat) name entry, t.members.entries[i]? = some (name, entry) →
    ∃ scope, t.scopeOf? entry.node = some scope

variable {members : List Member}

lemma BindsAll.addMember {p : Progress} (h : p.table.BindsAll members) (member : Member) :
    (addMember p member).table.BindsAll (members ++ [member]) := by
  have hold : p.table.BindsAll (members ++ [member]) := by
    refine ⟨fun id scope hs => ?_, h.entries⟩
    obtain ⟨m, hm, hnode, hbinds⟩ := h.scopes id scope hs
    exact ⟨m, List.mem_append_left _ hm, hnode, hbinds⟩
  simp only [SymbolTable.addMember]
  split
  · exact hold
  · next hnew =>
    refine ⟨fun id scope hs => ?_, fun i name entry he => ?_⟩
    · rw [Std.TreeMap.getElem?_insert] at hs
      split at hs
      · next heq =>
        cases Std.LawfulEqCmp.eq_of_compare heq
        cases hs
        have hnone : Scope.Binds {} [] := Scope.binds_nil rfl
        have hbinds := hnone.addParameters p.diagnostics member.parameters
        rw [List.nil_append, member.map_name_parameters] at hbinds
        refine ⟨member, by simp, rfl, hbinds.congr ?_⟩
        rw [parameters_addDialogues, parameters_symbolOf]
      · exact hold.scopes id scope hs
    · rw [Dictionary.entries_insert (by simpa using hnew), Array.getElem?_push] at he
      simp only [scopeOf?, Std.TreeMap.getElem?_insert]
      split
      · exact ⟨_, rfl⟩
      · next hne =>
        split at he
        · cases he
          exact absurd Std.ReflCmp.compare_self hne
        · exact hold.entries i name entry he

lemma bindsAll_ofScript (path : String) (includes : List String) (script : Script) :
    (ofScript path includes script).table.BindsAll script.members :=
  ofScript_induction (P := fun done t => t.BindsAll done) path includes script
    ⟨by simp, by simp⟩ fun _ _ member _ _ h => h.addMember member

/-- Every member of a table has a scope in which its parameters, and no other names, are bound, each
to the number of different names in front of its last declaration. That is always the number of a
parameter. It is that of the parameter itself, for one that is declared once, if and only if no name
in front of it is repeated and its place fits into sixteen bits; so all of at most 65536 parameters
without repetition are what their names stand for. -/
theorem parameters_ofScript (path : String) (includes : List String) (script : Script) {i : Nat}
    {name : String} {entry : Declaration}
    (h : (ofScript path includes script).table.members.entries[i]? = some (name, entry)) :
    ∃ m ∈ script.members, m.node.id = entry.node ∧
      ∃ scope, (ofScript path includes script).table.scopeOf? entry.node = some scope ∧
        (∀ n symbol, scope.parameters.get? n = some symbol ↔ n ∈ m.parameterNames ∧
          symbol = { name := n, index := UInt16.ofNat (rank n m.parameterNames) }) ∧
        (∀ n symbol, scope.parameters.get? n = some symbol →
          symbol.index.toNat < m.parameterNames.length) ∧
        (∀ front n back, m.parameterNames = front ++ n :: back → n ∉ front → n ∉ back →
          (scope.Addresses m.parameterNames n ↔ front.length < 65536 ∧ front.Nodup)) ∧
        (m.parameterNames.Nodup → m.parameterNames.length ≤ 65536 →
          ∀ n, scope.Addresses m.parameterNames n) := by
  have hall := bindsAll_ofScript path includes script
  obtain ⟨scope, hscope⟩ := hall.entries i name entry h
  obtain ⟨m, hm, hnode, hbinds⟩ := hall.scopes _ scope hscope
  refine ⟨m, hm, hnode, scope, hscope, hbinds.bound, fun n symbol => hbinds.index_lt,
    fun front n back hnames hfront hback => ?_, hbinds.addresses_of_nodup⟩
  rw [hnames] at hbinds ⊢
  exact hbinds.addresses_iff hfront hback

def doubled : Script where
  path := "main.nss"
  includes := []
  members := [.function default "F"
    [{ node := default, name := "$a" }, { node := default, name := "$a" },
      { node := default, name := "$b" }] default]

lemma entries_doubled : ∃ entry, entry.node = 0 ∧
    (ofScript "main.nss" [] doubled).table.members.entries[0]? = some ("F", entry) := by
  have hid : (default : Node).id = 0 := rfl
  simp [ofScript, doubled, addMember, Dictionary.contains, Dictionary.insert, Member.nameAt,
    Member.node, hid]

theorem parameters_ofScript_doubled :
    ∃ scope, (ofScript "main.nss" [] doubled).table.scopeOf? 0 = some scope ∧
      scope.parameters.get? "$a" = some { name := "$a", index := 1 } := by
  obtain ⟨entry, hnode, hentry⟩ := entries_doubled
  obtain ⟨m, hm, -, scope, hscope, hbound, -⟩ := parameters_ofScript "main.nss" [] doubled hentry
  obtain rfl := List.mem_singleton.mp hm
  exact ⟨scope, hnode ▸ hscope, (hbound _ _).mpr ⟨by decide, rfl⟩⟩

/-- The third parameter of the function stands for the second argument. -/
theorem not_addresses_doubled :
    ¬∀ m ∈ doubled.members, ∀ scope,
      (ofScript "main.nss" [] doubled).table.scopeOf? m.node.id = some scope →
        ∀ n, scope.Addresses m.parameterNames n := by
  intro haddresses
  have hall := bindsAll_ofScript "main.nss" [] doubled
  obtain ⟨entry, hnode, hentry⟩ := entries_doubled
  obtain ⟨scope, hscope⟩ := hall.entries _ _ _ hentry
  obtain ⟨m, hm, hid, hbinds⟩ := hall.scopes _ scope hscope
  have hsecond := haddresses m hm scope (hid ▸ hscope) "$b"
  obtain rfl := List.mem_singleton.mp hm
  have hindex := hsecond _ ((hbinds.bound "$b" _).mpr ⟨by decide, rfl⟩)
  exact absurd hindex (by decide +kernel)

end SymbolTable

end Stagecraft
