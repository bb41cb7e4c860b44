import Mathlib
import Stagecraft.Project.Includes

/-!
The search for a cycle follows includes depth first, for many files with one list of those that it
is done with. On that list each file stands before all files that it includes, so that no cycle goes
through it.
-/

namespace Stagecraft.Sources

open Relation

variable {sources : Sources} {path target : String} {trail pending settled files : List String}

def Includes (sources : Sources) (path target : String) : Prop :=
  ∃ source, sources[path]? = some source ∧ target ∈ source.includes

lemma mem_includesOf : target ∈ sources.includesOf path ↔ sources.Includes path target := by
  unfold includesOf Includes
  cases sources[path]? <;> simp

lemma Includes.mem (h : sources.Includes path target) : path ∈ sources := by
  obtain ⟨source, hs, -⟩ := h
  rw [Std.TreeMap.mem_iff_isSome_getElem?, hs, Option.isSome_some]

def IsClosed (sources : Sources) : Prop :=
  ∀ path target, sources.Includes path target → target ∈ sources

lemma missingInclude?_eq_none_iff : sources.missingInclude? = none ↔ sources.IsClosed := by
  unfold missingInclude?
  rw [List.findSome?_eq_none_iff]
  constructor
  · rintro h path target ⟨source, hs, ht⟩
    have hfind := Option.map_eq_none_iff.mp
      (h (path, source) (Std.TreeMap.mem_toList_iff_getElem?_eq_some.mpr hs))
    simpa using List.find?_eq_none.mp hfind target ht
  · rintro h ⟨path, source⟩ hmem
    rw [Option.map_eq_none_iff, List.find?_eq_none]
    intro target ht
    have hin := h path target ⟨source, Std.TreeMap.mem_toList_iff_getElem?_eq_some.mp hmem, ht⟩
    simpa using hin

lemma missing_of_missingInclude? (h : sources.missingInclude? = some (target, path)) :
    sources.Includes path target ∧ target ∉ sources := by
  obtain ⟨⟨path', source⟩, hmem, hfind⟩ := List.exists_of_findSome?_eq_some h
  obtain ⟨target', htarget, heq⟩ := Option.map_eq_some_iff.mp hfind
  cases heq
  refine ⟨⟨source, Std.TreeMap.mem_toList_iff_getElem?_eq_some.mp hmem,
    List.mem_of_find?_eq_some htarget⟩, ?_⟩
  have hcontains := List.find?_some htarget
  rwa [Bool.not_eq_true', ← Bool.not_eq_true] at hcontains

/-- The rules of the search. It stands at the last file of a trail, written with the last one first,
has files `pending` to follow from there, and is done with the files `settled`. It ends with the
files that it is done with then, or with a chain of files that closes a cycle. -/
inductive Searches (sources : Sources) :
    List String → List String → List String → Except (List String) (List String) → Prop
  | nothing {trail settled : List String} : Searches sources trail [] settled (.ok settled)
  | closes {trail : List String} {path : String} {rest settled : List String} : path ∈ trail →
      Searches sources trail (path :: rest) settled (.error (path :: trail).reverse)
  | known {trail : List String} {path : String} {rest settled : List String}
      {result : Except (List String) (List String)} : path ∉ trail → path ∈ settled →
      Searches sources trail rest settled result →
      Searches sources trail (path :: rest) settled result
  | fails {trail : List String} {path : String} {rest settled chain : List String} :
      path ∉ trail → path ∉ settled →
      Searches sources (path :: trail) (sources.includesOf path) settled (.error chain) →
      Searches sources trail (path :: rest) settled (.error chain)
  | follows {trail : List String} {path : String} {rest settled settled' : List String}
      {result : Except (List String) (List String)} : path ∉ trail → path ∉ settled →
      Searches sources (path :: trail) (sources.includesOf path) settled (.ok settled') →
      Searches sources trail rest (path :: settled') result →
      Searches sources trail (path :: rest) settled result

lemma Searches.unique {result result' : Except (List String) (List String)}
    (h : sources.Searches trail pending settled result)
    (h' : sources.Searches trail pending settled result') : result = result' := by
  induction h generalizing result' with
  | nothing =>
    cases h'
    rfl
  | closes hin =>
    cases h' with
    | closes => rfl
    | known hnot | fails hnot | follows hnot => exact absurd hin hnot
  | known hnot hin _ ih =>
    cases h' with
    | closes hin' => exact absurd hin' hnot
    | known _ _ hrest => exact ih hrest
    | fails _ hnew | follows _ hnew => exact absurd hin hnew
  | fails hnot hnew _ ih =>
    cases h' with
    | closes hin => exact absurd hin hnot
    | known _ hin => exact absurd hin hnew
    | fails _ _ hinner => exact ih hinner
    | follows _ _ hinner => cases ih hinner
  | follows hnot hnew _ _ ih ih' =>
    cases h' with
    | closes hin => exact absurd hin hnot
    | known _ hin => exact absurd hin hnew
    | fails _ _ hinner => cases ih hinner
    | follows _ _ hinner hrest =>
      cases ih hinner
      exact ih' hrest

lemma searches_exploreAll
    (hfiles : ∀ path ∈ files, ∀ target, sources.Includes path target → target ∈ files)
    (depth : Nat) (htrail : trail.Nodup) (hin : trail ⊆ files) (hpending : pending ⊆ files)
    (hdepth : files.length ≤ depth + trail.length) :
    sources.Searches trail pending settled (sources.exploreAll depth trail pending settled) := by
  induction depth generalizing trail pending settled with
  | zero =>
    induction pending with
    | nil =>
      rw [exploreAll]
      exact .nothing
    | cons path rest ih =>
      obtain ⟨hpath, hrest⟩ := List.cons_subset.mp hpending
      by_cases htr : path ∈ trail
      · simpa [exploreAll, explore, htr] using Searches.closes htr
      by_cases hset : path ∈ settled
      · simpa [exploreAll, explore, htr, hset] using Searches.known htr hset (ih hrest)
      -- the trail has all the files there are, so this one cannot be new
      have hlength := (List.subperm_of_subset (List.nodup_cons.mpr ⟨htr, htrail⟩)
        (List.cons_subset.mpr ⟨hpath, hin⟩)).length_le
      rw [List.length_cons] at hlength
      omega
  | succ depth ihdepth =>
    induction pending generalizing settled with
    | nil =>
      rw [exploreAll]
      exact .nothing
    | cons path rest ih =>
      obtain ⟨hpath, hrest⟩ := List.cons_subset.mp hpending
      by_cases htr : path ∈ trail
      · simpa [exploreAll, explore, htr] using Searches.closes htr
      by_cases hset : path ∈ settled
      · simpa [exploreAll, explore, htr, hset] using Searches.known htr hset (ih hrest)
      have hinner := @ihdepth (path :: trail) (sources.includesOf path) settled
        (List.nodup_cons.mpr ⟨htr, htrail⟩) (List.cons_subset.mpr ⟨hpath, hin⟩)
        (fun target ht => hfiles path hpath target (mem_includesOf.mp ht))
        (by rw [List.length_cons]; omega)
      cases hresult :
          exploreAll sources depth (path :: trail) (sources.includesOf path) settled with
      | error chain =>
        simpa [exploreAll, explore, htr, hset, hresult, Except.map] using
          Searches.fails htr hset (hresult ▸ hinner)
      | ok settled' =>
        simpa [exploreAll, explore, htr, hset, hresult, Except.map] using
          Searches.follows htr hset (hresult ▸ hinner) (ih hrest)

lemma exists_searches (sources : Sources) :
    ∃! result, sources.Searches [] sources.keys [] result := by
  have hfiles (path : String) (_ : path ∈ sources.keys ++ sources.keys.flatMap sources.includesOf)
      (target : String) (ht : sources.Includes path target) :
      target ∈ sources.keys ++ sources.keys.flatMap sources.includesOf :=
    List.mem_append_right _ (List.mem_flatMap.mpr
      ⟨path, Std.TreeMap.mem_keys.mpr ht.mem, mem_includesOf.mpr ht⟩)
  have hends : sources.Searches [] sources.keys [] _ := searches_exploreAll hfiles _
    List.nodup_nil (List.nil_subset _) (List.subset_append_left _ _) (Nat.le_refl _)
  exact ⟨_, hends, fun _ h => h.unique hends⟩

lemma searches_of_isClosed (h : sources.IsClosed) :
    sources.Searches [] sources.keys [] (sources.exploreAll sources.size [] sources.keys []) :=
  searches_exploreAll (fun _ _ target ht => Std.TreeMap.mem_keys.mpr (h _ target ht)) _
    List.nodup_nil (List.nil_subset _) (List.Subset.refl _) (Nat.le_of_eq Std.TreeMap.length_keys)

def Layered (sources : Sources) : List String → Prop
  | [] => True
  | path :: rest =>
    path ∉ rest ∧ (∀ target, sources.Includes path target → target ∈ rest) ∧ sources.Layered rest

lemma Layered.includes (h : sources.Layered files) (hp : path ∈ files)
    (ht : sources.Includes path target) : target ∈ files := by
  induction files with
  | nil => cases hp
  | cons first rest ih =>
    obtain ⟨-, hincludes, hrest⟩ := h
    rcases List.mem_cons.mp hp with rfl | hp
    · exact List.mem_cons_of_mem _ (hincludes target ht)
    · exact List.mem_cons_of_mem _ (ih hrest hp)

lemma Layered.reaches (h : sources.Layered files) (hp : path ∈ files)
    (ht : ReflTransGen sources.Includes path target) : target ∈ files := by
  induction ht with
  | refl => exact hp
  | tail _ hstep ih => exact h.includes ih hstep

lemma Layered.not_cycle (h : sources.Layered files) (hp : path ∈ files) :
    ¬ TransGen sources.Includes path path := by
  induction files with
  | nil => cases hp
  | cons first rest ih =>
    obtain ⟨hnot, hincludes, hrest⟩ := h
    rcases List.mem_cons.mp hp with rfl | hp
    · intro hcycle
      obtain ⟨target, hstep, hback⟩ := TransGen.head'_iff.mp hcycle
      exact hnot (hrest.reaches (hincludes target hstep) hback)
    · exact ih hrest hp

def IsTrail (sources : Sources) (trail : List String) : Prop :=
  trail.IsChain fun target path => sources.Includes path target

def Finds (sources : Sources) (trail pending settled : List String) :
    Except (List String) (List String) → Prop
  | .ok settled' => settled ⊆ settled' ∧ pending ⊆ settled' ∧
      (∀ path ∈ settled', path ∈ settled ∨ path ∉ trail) ∧ sources.Layered settled'
  | .error chain => ∃ path before, chain = (path :: before).reverse ∧ path ∈ before ∧
      sources.IsTrail (path :: before) ∧ ∃ first ∈ pending, first :: trail <:+ path :: before

lemma Finds.cons {result : Except (List String) (List String)} (hp : path ∈ settled)
    (h : sources.Finds trail pending settled result) :
    sources.Finds trail (path :: pending) settled result := by
  cases result with
  | ok settled' =>
    obtain ⟨hkept, hvisited, hfresh, hlayered⟩ := h
    exact ⟨hkept, List.cons_subset.mpr ⟨hkept hp, hvisited⟩, hfresh, hlayered⟩
  | error chain =>
    obtain ⟨last, before, hchain, hback, htrail, first, hfirst, hsuffix⟩ := h
    exact ⟨last, before, hchain, hback, htrail, first, List.mem_cons_of_mem _ hfirst, hsuffix⟩

lemma Layered.push {settled' : List String} (hnot : path ∉ settled)
    (h : sources.Finds (path :: trail) (sources.includesOf path) settled (.ok settled')) :
    sources.Layered (path :: settled') := by
  obtain ⟨-, hvisited, hfresh, hlayered⟩ := h
  refine ⟨fun hp => ?_, fun target ht => hvisited (mem_includesOf.mpr ht), hlayered⟩
  rcases hfresh path hp with hold | hout
  · exact hnot hold
  · exact hout List.mem_cons_self

lemma Searches.finds {result : Except (List String) (List String)}
    (h : sources.Searches trail pending settled result) (hl : sources.Layered settled)
    (ht : ∀ path ∈ pending, sources.IsTrail (path :: trail)) :
    sources.Finds trail pending settled result := by
  induction h with
  | nothing => exact ⟨List.Subset.refl _, List.nil_subset _, fun _ hp => .inl hp, hl⟩
  | @closes trail path rest settled hin =>
    exact ⟨path, trail, rfl, hin, ht path List.mem_cons_self, path, List.mem_cons_self,
      List.suffix_rfl⟩
  | known _ hset _ ih => exact (ih hl fun path hp => ht path (List.mem_cons_of_mem _ hp)).cons hset
  | @fails trail path rest settled chain hnot hnew _ ih =>
    have hinner (target : String) (hi : target ∈ sources.includesOf path) :
        sources.IsTrail (target :: path :: trail) :=
      (ht path List.mem_cons_self).cons_cons (mem_includesOf.mp hi)
    obtain ⟨last, before, hchain, hback, htrail, first, -, hsuffix⟩ := ih hl hinner
    exact ⟨last, before, hchain, hback, htrail, path, List.mem_cons_self,
      (List.suffix_cons first (path :: trail)).trans hsuffix⟩
  | @follows trail path rest settled settled' result hnot hnew _ _ ih ih' =>
    have hinner (target : String) (hi : target ∈ sources.includesOf path) :
        sources.IsTrail (target :: path :: trail) :=
      (ht path List.mem_cons_self).cons_cons (mem_includesOf.mp hi)
    have hfound := ih hl hinner
    have hrest := ih' (.push hnew hfound) fun path hp => ht path (List.mem_cons_of_mem _ hp)
    obtain ⟨hkept, -, hfresh, -⟩ := hfound
    cases result with
    | ok settled'' =>
      obtain ⟨hkept', hvisited', hfresh', hlayered'⟩ := hrest
      obtain ⟨hpath, hkept'⟩ := List.cons_subset.mp hkept'
      refine ⟨List.Subset.trans hkept hkept', List.cons_subset.mpr ⟨hpath, hvisited'⟩,
        fun p hp => ?_, hlayered'⟩
      rcases hfresh' p hp with hp | hp
      · rcases List.mem_cons.mp hp with rfl | hp
        · exact .inr hnot
        · exact (hfresh p hp).imp_right fun hout hp => hout (List.mem_cons_of_mem _ hp)
      · exact .inr hp
    | error chain =>
      obtain ⟨last, before, hchain, hback, htrail, first, hfirst, hsuffix⟩ := hrest
      exact ⟨last, before, hchain, hback, htrail, first, List.mem_cons_of_mem _ hfirst, hsuffix⟩

/-- A chain of includes from a file of the project on, whose last file has occurred in it before. -/
structure IsLoop (sources : Sources) (chain : List String) : Prop where
  starts : ∃ path ∈ sources, chain.head? = some path
  follows : chain.IsChain sources.Includes
  returns : ∃ path ∈ chain.dropLast, chain.getLast? = some path

lemma IsLoop.cycle {chain : List String} (h : sources.IsLoop chain) :
    ∃ path, TransGen sources.Includes path path := by
  obtain ⟨-, hfollows, path, hpath, hlast⟩ := h
  obtain ⟨before, after, hsplit⟩ := List.append_of_mem hpath
  have hchain : chain = before ++ path :: (after ++ [path]) := by
    rw [← List.dropLast_append_getLast? path hlast, hsplit, List.append_assoc, List.cons_append]
  -- the part of the chain from the first occurrence of its last file on
  have hpart : (path :: (after ++ [path])).IsChain sources.Includes :=
    (hchain ▸ hfollows).right_of_append
  refine ⟨path, ?_⟩
  cases after with
  | nil => exact .single (List.isChain_pair.mp hpart)
  | cons next after =>
    rw [List.cons_append, List.isChain_cons_cons] at hpart
    exact .head' hpart.1 (List.relationReflTransGen_of_exists_isChain_cons _ hpart.2 (by simp))

lemma isLoop_of_finds {chain : List String}
    (h : sources.Finds [] sources.keys [] (.error chain)) : sources.IsLoop chain := by
  obtain ⟨last, before, rfl, hback, htrail, first, hfirst, hsuffix⟩ := h
  refine ⟨⟨first, Std.TreeMap.mem_keys.mp hfirst, ?_⟩, List.isChain_reverse.mpr htrail, last,
    ?_, ?_⟩
  · rw [List.head?_reverse]
    obtain ⟨front, hfront⟩ := hsuffix
    rw [← hfront, List.getLast?_concat]
  · simpa using hback
  · simp

lemma cycle?_spec (h : sources.IsClosed) :
    match sources.cycle? with
    | none => ∀ path, ¬ TransGen sources.Includes path path
    | some chain => sources.IsLoop chain := by
  have hfinds := (searches_of_isClosed h).finds trivial fun path _ => List.isChain_singleton path
  unfold cycle?
  cases hresult : exploreAll sources sources.size [] sources.keys [] with
  | ok settled =>
    rw [hresult] at hfinds
    obtain ⟨-, hvisited, -, hlayered⟩ := hfinds
    intro path hcycle
    obtain ⟨target, hstep, -⟩ := TransGen.head'_iff.mp hcycle
    exact hlayered.not_cycle (hvisited (Std.TreeMap.mem_keys.mpr hstep.mem)) hcycle
  | error chain => exact isLoop_of_finds (hresult ▸ hfinds)

lemma checkIncludes_cases (sources : Sources) :
    (∃ path target, sources.checkIncludes = .error (.includeNotFound target path) ∧
      sources.Includes path target ∧ target ∉ sources) ∨
    (∃ chain, sources.checkIncludes = .error (.includeCycle chain) ∧ sources.IsClosed ∧
      sources.IsLoop chain) ∨
    (sources.checkIncludes = .ok () ∧ sources.IsClosed ∧
      ∀ path, ¬ TransGen sources.Includes path path) := by
  unfold checkIncludes
  cases hmissing : sources.missingInclude? with
  | some missing =>
    exact .inl ⟨missing.2, missing.1, rfl, missing_of_missingInclude? hmissing⟩
  | none =>
    have hclosed := missingInclude?_eq_none_iff.mp hmissing
    have hspec := cycle?_spec hclosed
    cases hcycle : sources.cycle? with
    | some chain =>
      rw [hcycle] at hspec
      exact .inr (.inl ⟨chain, rfl, hclosed, hspec⟩)
    | none =>
      rw [hcycle] at hspec
      exact .inr (.inr ⟨rfl, hclosed, hspec⟩)

lemma checkIncludes_error_iff {e : CompileError} (h : sources.checkIncludes = .error e)
    (code : String) :
    (∃ e, sources.checkIncludes = .error e ∧ e.code = code) ↔ e.code = code := by
  simp [h]

/-- The check of the includes is exact. It reports a missing file if and only if a file includes one
that is not there; else a cycle if and only if there is one, as a chain of includes that comes back
to one of its files; else nothing. The search for a cycle ends on every graph, with one result,
which is the one that the check goes by. -/
theorem checkIncludes_exact (sources : Sources) :
    ((∃ e, sources.checkIncludes = .error e ∧ e.code = "INCLUDE_NOT_FOUND") ↔
      ∃ path target, sources.Includes path target ∧ target ∉ sources) ∧
    ((∃ e, sources.checkIncludes = .error e ∧ e.code = "INCLUDE_CYCLE") ↔
      sources.IsClosed ∧ ∃ path, TransGen sources.Includes path path) ∧
    (sources.checkIncludes = .ok () ↔
      sources.IsClosed ∧ ∀ path, ¬ TransGen sources.Includes path path) ∧
    (∀ e, sources.checkIncludes = .error e →
      (∃ path target, e = .includeNotFound target path ∧ sources.Includes path target ∧
        target ∉ sources) ∨
      ∃ chain, e = .includeCycle chain ∧ sources.IsLoop chain ∧
        e.message = "Include cycle detected: " ++ Text.join " -> " chain) ∧
    (∃! result, sources.Searches [] sources.keys [] result) ∧
    (sources.IsClosed → sources.Searches [] sources.keys []
      (sources.exploreAll sources.size [] sources.keys [])) := by
  rw [← and_assoc, ← and_assoc, ← and_assoc]
  refine ⟨?_, exists_searches sources, searches_of_isClosed⟩
  rcases checkIncludes_cases sources with ⟨path, target, hcheck, hincludes, hnot⟩ |
    ⟨chain, hcheck, hclosed, hloop⟩ | ⟨hcheck, hclosed, hacyclic⟩
  · have hopen : ¬ sources.IsClosed := fun h => hnot (h path target hincludes)
    rw [checkIncludes_error_iff hcheck, checkIncludes_error_iff hcheck, hcheck]
    refine ⟨⟨⟨?_, ?_⟩, ?_⟩, ?_⟩
    · exact iff_of_true rfl ⟨path, target, hincludes, hnot⟩
    · exact iff_of_false (by simp [CompileError.code]) fun h => hopen h.1
    · exact iff_of_false (fun h => nomatch h) fun h => hopen h.1
    · rintro e ⟨rfl⟩
      exact .inl ⟨path, target, rfl, hincludes, hnot⟩
  · rw [checkIncludes_error_iff hcheck, checkIncludes_error_iff hcheck, hcheck]
    refine ⟨⟨⟨?_, ?_⟩, ?_⟩, ?_⟩
    · exact iff_of_false (by simp [CompileError.code]) fun ⟨path, target, hi, hnot⟩ =>
        hnot (hclosed path target hi)
    · exact iff_of_true rfl ⟨hclosed, hloop.cycle⟩
    · refine iff_of_false (fun h => nomatch h) fun ⟨_, hacyclic⟩ => ?_
      obtain ⟨path, hcycle⟩ := hloop.cycle
      exact hacyclic path hcycle
    · rintro e ⟨rfl⟩
      exact .inr ⟨chain, rfl, hloop, rfl⟩
  · rw [hcheck]
    refine ⟨⟨⟨?_, ?_⟩, ?_⟩, fun e h => nomatch h⟩
    · exact iff_of_false (fun ⟨_, h, _⟩ => nomatch h)
        fun ⟨path, target, hi, hnot⟩ => hnot (hclosed path target hi)
    · exact iff_of_false (fun ⟨_, h, _⟩ => nomatch h) fun ⟨_, path, hcycle⟩ => hacyclic path hcycle
    · exact iff_of_true rfl ⟨hclosed, hacyclic⟩

def lasso : Sources :=
  let file (includes : List String) : Source := { script := ⟨"", [], []⟩, includes }
  (((∅ : Sources).insert "a" (file ["b"])).insert "b" (file ["c", "c"])).insert "c" (file ["b"])

theorem checkIncludes_exact_lasso :
    lasso.checkIncludes = .error (.includeCycle ["a", "b", "c", "b"]) ∧
      lasso.IsLoop ["a", "b", "c", "b"] := by
  have hcheck : lasso.checkIncludes = .error (.includeCycle ["a", "b", "c", "b"]) := by cbv
  obtain ⟨-, -, -, hreport, -⟩ := checkIncludes_exact lasso
  rcases hreport _ hcheck with ⟨path, target, he, -⟩ | ⟨chain, he, hloop, -⟩
  · cases he
  · cases he
    exact ⟨hcheck, hloop⟩

end Stagecraft.Sources
