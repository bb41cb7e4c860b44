import Stagecraft.Proofs.Project.Scopes

namespace Stagecraft.Bindings

structure Progress.Accounts (p : Progress) (names : List Nat) : Prop where
  mem : ∀ id, id ∈ names ↔ id ∈ p.bindings.references ∨ id ∈ p.bindings.unresolved
  apart : ∀ id, id ∈ p.bindings.references → id ∉ p.bindings.unresolved
  reported : p.diagnostics.size = p.bindings.unresolved.size

variable {s : Surroundings} {p : Progress} {names : List Nat}

lemma accounts_empty (path : String) (visible : List String) :
    Progress.Accounts { bindings := { path, visible } } [] :=
  ⟨by simp, by simp, rfl⟩

lemma mem_insert {table : Std.TreeMap Nat α} {a : α} {key id : Nat} :
    id ∈ table.insert key a ↔ id = key ∨ id ∈ table := by
  rw [Std.TreeMap.mem_insert, Nat.compare_eq_eq, eq_comm]

lemma mem_retract {references : Std.TreeMap Nat Symbol} {id other : Nat} (h : id ∉ references)
    (issue : Issue) : other ∈ retract references id issue ↔ other ∈ references := by
  have hnone : references[id]? = none := Std.TreeMap.getElem?_eq_none h
  have hsame : (retract references id issue)[other]? = references[other]? := by
    rcases getElem?_retract references id issue other with hsame | ⟨rfl, hretract⟩
    · exact hsame
    · rw [hretract, hnone]
  rw [Std.TreeMap.mem_iff_isSome_getElem?, Std.TreeMap.mem_iff_isSome_getElem?, hsame]

lemma Progress.Accounts.addUse (h : p.Accounts names) (scope : Scope) {use : Use}
    (hnew : use.node.id ∉ names) :
    (addUse s scope p use).Accounts (names ++ [use.node.id]) := by
  obtain ⟨hreferences, hunresolved⟩ := not_or.mp (mt (h.mem use.node.id).mpr hnew)
  unfold Bindings.addUse
  split
  · refine ⟨fun id => ?_, fun id hid => ?_, h.reported⟩
    · rw [List.mem_append, List.mem_singleton, h.mem, mem_insert]
      tauto
    · rcases mem_insert.mp hid with rfl | hid
      · exact hunresolved
      · exact h.apart id hid
  · next issue _ =>
    have hretract (id : Nat) := @mem_retract _ _ id hreferences issue
    refine ⟨fun id => ?_, fun id hid hmem => ?_, ?_⟩
    · rw [List.mem_append, List.mem_singleton, h.mem, hretract, mem_insert]
      tauto
    · rw [hretract] at hid
      rcases mem_insert.mp hmem with rfl | hmem
      · exact hreferences hid
      · exact h.apart id hid hmem
    · rw [Array.size_push, h.reported, Std.TreeMap.size_insert,
        if_neg (by simpa using hunresolved)]

lemma Progress.Accounts.foldl (uses : List (Scope × Use)) (h : p.Accounts names)
    (hids : (names ++ uses.map (·.2.node.id)).Nodup) :
    (uses.foldl (fun p x => Bindings.addUse s x.1 p x.2) p).Accounts
      (names ++ uses.map (·.2.node.id)) := by
  induction uses generalizing p names with
  | nil => simpa using h
  | cons x rest ih =>
    rw [List.map_cons, List.append_cons] at hids ⊢
    have hnew : x.2.node.id ∉ names := fun hmem =>
      (List.nodup_append.mp hids.of_append_left).2.2 _ hmem _ (by simp) rfl
    exact ih (h.addUse x.1 hnew) hids

lemma ids_usesOf (s : Surroundings) (script : Script) :
    (usesOf s script.members).map (·.2.node.id) =
      (script.subtrees.filter Subtree.usesName).map (·.node.id) := by
  have hnodes := congrArg (List.map Node.id) (Subtree.nodes_filter script.subtrees)
  simp only [List.map_map, Function.comp_def] at hnodes
  rw [hnodes, Script.subtrees, List.filterMap_flatMap, usesOf]
  simp [List.map_flatMap, Function.comp_def, Member.toList_uses]

/-- Whatever tokens a file is read from, and whatever tables it is bound with, its bindings account
for its names: for the variables that it reads and assigns to, the functions that it calls, and the
chapters and scenes that it calls. -/
theorem accounts_ofScript (tables : SymbolTables) (visible : List String) (tokens : List Token)
    (diagnostics : List Diagnostic) (path : String) :
    let p := Parser.ofTokens tokens diagnostics
    let script := (Parse.script p.budget path p).1
    (ofScript tables visible script).Accounts
      ((script.subtrees.filter Subtree.usesName).map (·.node.id)) := by
  intro p script
  obtain ⟨-, high, hlies⟩ :=
    @Parse.lies_script (fun _ => True) tokens diagnostics path fun _ _ _ => trivial
  have hids : ((script.subtrees.filter Subtree.usesName).map (·.node.id)).Nodup :=
    (hlies.numbers.pairwise.imp Nat.ne_of_lt).sublist (List.filter_sublist.map _)
  rw [ofScript_eq]
  rw [← ids_usesOf { tables, path := script.path, visible }] at hids ⊢
  exact (accounts_empty script.path visible).foldl _ hids

end Stagecraft.Bindings
