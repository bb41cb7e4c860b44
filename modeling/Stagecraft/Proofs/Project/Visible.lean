import Stagecraft.Project.Bindings
import Stagecraft.Proofs.Project.Includes

/-!
The queue holds files that are some number of includes away from the start, then files that are one
more away, and a file counts as seen when it is taken from the queue.
-/

namespace Stagecraft

open Relation

namespace Sources

variable {sources : Sources} {start path target : String} {n d : Nat}
  {queue near far seen found : List String}

inductive Reaches (sources : Sources) (start : String) : Nat → String → Prop
  | start : Reaches sources start 0 start
  | next {n : Nat} {path target : String} : Reaches sources start n path →
      sources.Includes path target → Reaches sources start (n + 1) target

lemma reflTransGen_iff_reaches :
    ReflTransGen sources.Includes start path ↔ ∃ n, sources.Reaches start n path := by
  constructor
  · intro h
    induction h with
    | refl => exact ⟨0, .start⟩
    | tail _ hstep ih =>
      obtain ⟨n, hn⟩ := ih
      exact ⟨n + 1, hn.next hstep⟩
  · rintro ⟨n, hn⟩
    induction hn with
    | start => exact .refl
    | next _ hstep ih => exact ih.tail hstep

noncomputable def distance (sources : Sources) (start path : String) : Nat :=
  sInf {n | sources.Reaches start n path}

lemma Reaches.distance_le (h : sources.Reaches start n path) : sources.distance start path ≤ n :=
  Nat.sInf_le h

lemma Reaches.shortest (h : sources.Reaches start n path) :
    sources.Reaches start (sources.distance start path) path :=
  Nat.sInf_mem (s := {n | sources.Reaches start n path}) ⟨n, h⟩

/-- The rules of the loop. It takes files from the queue until there are none; one that has not been
seen yet is followed by those that it includes, at the end of the queue. The files that have been
seen are written with the last one first. -/
inductive Visits (sources : Sources) : List String → List String → List String → Prop
  | done {seen : List String} : Visits sources [] seen seen.reverse
  | again {path : String} {queue seen found : List String} : path ∈ seen →
      Visits sources queue seen found → Visits sources (path :: queue) seen found
  | first {path : String} {queue seen found : List String} : path ∉ seen →
      Visits sources (queue ++ sources.includesOf path) (path :: seen) found →
      Visits sources (path :: queue) seen found

lemma Visits.unique {found' : List String} (h : sources.Visits queue seen found)
    (h' : sources.Visits queue seen found') : found = found' := by
  induction h with
  | done =>
    cases h'
    rfl
  | again hin _ ih =>
    cases h' with
    | again _ h' => exact ih h'
    | first hnot => exact absurd hin hnot
  | first hnot _ ih =>
    cases h' with
    | again hin => exact absurd hin hnot
    | first _ h' => exact ih h'

section Ending

def unread (sources : Sources) (seen : List String) : Nat :=
  ∑ path ∈ sources.keys.toFinset \ seen.toFinset, (sources.includesOf path).length

lemma unread_cons (h : path ∉ seen) :
    sources.unread (path :: seen) + (sources.includesOf path).length = sources.unread seen := by
  have herase : sources.keys.toFinset \ (path :: seen).toFinset =
      (sources.keys.toFinset \ seen.toFinset).erase path := by
    ext other
    simp only [List.toFinset_cons, Finset.mem_sdiff, Finset.mem_insert, Finset.mem_erase]
    tauto
  rw [unread, herase]
  by_cases hp : path ∈ sources
  · exact Finset.sum_erase_add _ _ (by simpa [h] using hp)
  · have hnone : sources.includesOf path = [] :=
      List.eq_nil_iff_forall_not_mem.mpr fun _ ht => hp (mem_includesOf.mp ht).mem
    rw [hnone, Finset.erase_eq_of_notMem (by simpa using fun h => absurd h hp)]
    rfl

lemma edgeCount_eq : sources.edgeCount = sources.unread [] := by
  have hsum (pairs : List (String × Source)) (count : Nat) :
      pairs.foldl (fun count pair => count + pair.2.includes.length) count =
        count + (pairs.map (·.2.includes.length)).sum := by
    induction pairs generalizing count with
    | nil => rfl
    | cons pair rest ih => simp [ih, Nat.add_assoc]
  have hmap : sources.toList.map (·.2.includes.length) =
      sources.keys.map fun path => (sources.includesOf path).length := by
    rw [← Std.TreeMap.map_fst_toList_eq_keys, List.map_map]
    refine List.map_congr_left fun pair hpair => ?_
    simp [includesOf, Std.TreeMap.mem_toList_iff_getElem?_eq_some.mp hpair]
  rw [edgeCount, Std.TreeMap.foldl_eq_foldl_toList, hsum, Nat.zero_add, hmap, unread,
    List.toFinset_nil, Finset.sdiff_empty, List.sum_toFinset _ Std.TreeMap.nodup_keys]

lemma visits_visitAll (fuel : Nat) (h : queue.length + sources.unread seen ≤ fuel) :
    sources.Visits queue seen (sources.visitAll fuel queue seen) := by
  induction fuel generalizing queue seen with
  | zero =>
    obtain rfl : queue = [] := List.eq_nil_of_length_eq_zero (by omega)
    exact .done
  | succ fuel ih =>
    cases queue with
    | nil => exact .done
    | cons path queue =>
      rw [List.length_cons] at h
      by_cases hin : path ∈ seen
      · simpa [visitAll, hin] using Visits.again hin (ih (by omega))
      · have hunread := @unread_cons sources path seen hin
        have hrest := @ih (queue ++ sources.includesOf path) (path :: seen)
          (by rw [List.length_append]; omega)
        simpa [visitAll, hin] using Visits.first hin hrest

lemma visits_visibleFrom (sources : Sources) (start : String) :
    sources.Visits [start] [] (sources.visibleFrom start) := by
  refine visits_visitAll _ ?_
  rw [edgeCount_eq, List.length_singleton]
  omega

end Ending

/-- The loop has come to files that are `d` includes away from the start. The queue has some of them
in front, `near`, and behind them files that are one more away, `far`. All that are less far away
have been seen, and so has what has been seen in the order of distance. -/
structure Frontier (sources : Sources) (start : String) (d : Nat) (near far seen : List String) :
    Prop where
  reachesNear : ∀ path ∈ near, sources.Reaches start d path
  reachesFar : ∀ path ∈ far, sources.Reaches start (d + 1) path
  reachesSeen : ∀ path ∈ seen, ∃ n ≤ d, sources.Reaches start n path
  inner : ∀ n < d, ∀ path, sources.Reaches start n path → path ∈ seen
  level : ∀ path, sources.Reaches start d path → path ∈ seen ∨ path ∈ near
  followed : ∀ path ∈ seen, ∀ target, sources.Includes path target →
    target ∈ seen ∨ target ∈ near ∨ target ∈ far
  nodup : seen.Nodup
  sorted : seen.Pairwise fun path before =>
    sources.distance start before ≤ sources.distance start path

namespace Frontier

lemma init (sources : Sources) (start : String) : sources.Frontier start 0 [start] [] [] where
  reachesNear path hp := List.mem_singleton.mp hp ▸ .start
  reachesFar path hp := nomatch hp
  reachesSeen path hp := nomatch hp
  inner n hn := nomatch hn
  level path h := by
    cases h
    exact .inr List.mem_cons_self
  followed path hp := nomatch hp
  nodup := .nil
  sorted := .nil

lemma advance (h : sources.Frontier start d [] far seen) :
    sources.Frontier start (d + 1) far [] seen where
  reachesNear := h.reachesFar
  reachesFar path hp := nomatch hp
  reachesSeen path hp := by
    obtain ⟨n, hn, hreaches⟩ := h.reachesSeen path hp
    exact ⟨n, Nat.le_succ_of_le hn, hreaches⟩
  inner n hn path hreaches := by
    rcases Nat.lt_succ_iff_lt_or_eq.mp hn with hn | rfl
    · exact h.inner n hn path hreaches
    · exact (h.level path hreaches).resolve_right List.not_mem_nil
  level path hreaches := by
    cases hreaches with
    | @next _ before _ hbefore hstep =>
      have hseen := (h.level before hbefore).resolve_right List.not_mem_nil
      exact (h.followed before hseen path hstep).imp_right
        fun hqueue => hqueue.resolve_left List.not_mem_nil
  followed path hp target ht :=
    (h.followed path hp target ht).imp_right fun hqueue =>
      .inl (hqueue.resolve_left List.not_mem_nil)
  nodup := h.nodup
  sorted := h.sorted

lemma again (h : sources.Frontier start d (path :: near) far seen) (hin : path ∈ seen) :
    sources.Frontier start d near far seen where
  reachesNear other hp := h.reachesNear other (List.mem_cons_of_mem _ hp)
  reachesFar := h.reachesFar
  reachesSeen := h.reachesSeen
  inner := h.inner
  level other hreaches := by
    rcases h.level other hreaches with hseen | hnear
    · exact .inl hseen
    · rcases List.mem_cons.mp hnear with rfl | hnear
      · exact .inl hin
      · exact .inr hnear
  followed other hp target ht := by
    rcases h.followed other hp target ht with hseen | hnear | hfar
    · exact .inl hseen
    · rcases List.mem_cons.mp hnear with rfl | hnear
      · exact .inl hin
      · exact .inr (.inl hnear)
    · exact .inr (.inr hfar)
  nodup := h.nodup
  sorted := h.sorted

lemma distance_eq (h : sources.Frontier start d (path :: near) far seen) (hnot : path ∉ seen) :
    sources.distance start path = d := by
  have hreaches := h.reachesNear path List.mem_cons_self
  refine Nat.le_antisymm hreaches.distance_le (Nat.le_of_not_lt fun hlt => hnot ?_)
  exact h.inner _ hlt path hreaches.shortest

lemma first (h : sources.Frontier start d (path :: near) far seen) (hnot : path ∉ seen) :
    sources.Frontier start d near (far ++ sources.includesOf path) (path :: seen) where
  reachesNear other hp := h.reachesNear other (List.mem_cons_of_mem _ hp)
  reachesFar other hp := by
    rcases List.mem_append.mp hp with hp | hp
    · exact h.reachesFar other hp
    · exact (h.reachesNear path List.mem_cons_self).next (mem_includesOf.mp hp)
  reachesSeen := by
    rw [List.forall_mem_cons]
    exact ⟨⟨d, Nat.le_refl d, h.reachesNear path List.mem_cons_self⟩, h.reachesSeen⟩
  inner n hn other hreaches := List.mem_cons_of_mem _ (h.inner n hn other hreaches)
  level other hreaches := by
    have hlevel := h.level other hreaches
    simp only [List.mem_cons] at hlevel ⊢
    tauto
  followed other hp target ht := by
    rcases List.mem_cons.mp hp with rfl | hp
    · exact .inr (.inr (List.mem_append_right _ (mem_includesOf.mpr ht)))
    · have hfollowed := h.followed other hp target ht
      simp only [List.mem_cons, List.mem_append] at hfollowed ⊢
      tauto
  nodup := List.nodup_cons.mpr ⟨hnot, h.nodup⟩
  sorted := by
    refine List.pairwise_cons.mpr ⟨fun before hbefore => ?_, h.sorted⟩
    obtain ⟨n, hn, hreaches⟩ := h.reachesSeen before hbefore
    rw [h.distance_eq hnot]
    exact Nat.le_trans hreaches.distance_le hn

lemma exists_next (h : sources.Frontier start d near far seen)
    (hqueue : path :: queue = near ++ far) :
    ∃ d' near' far', sources.Frontier start d' (path :: near') far' seen ∧
      queue = near' ++ far' := by
  cases near with
  | nil =>
    obtain rfl : far = path :: queue := by simpa using hqueue.symm
    exact ⟨d + 1, queue, [], h.advance, (List.append_nil _).symm⟩
  | cons path' near =>
    obtain ⟨rfl, hrest⟩ := List.cons.inj (hqueue.trans (List.cons_append ..))
    exact ⟨d, near, far, h, hrest⟩

end Frontier

structure NearestFirst (sources : Sources) (start : String) (found : List String) : Prop where
  nodup : found.Nodup
  mem : ∀ path, path ∈ found ↔ ReflTransGen sources.Includes start path
  sorted : found.Pairwise fun path after =>
    sources.distance start path ≤ sources.distance start after

lemma Frontier.nearestFirst (h : sources.Frontier start d [] [] seen) :
    sources.NearestFirst start seen.reverse where
  nodup := List.nodup_reverse.mpr h.nodup
  mem path := by
    rw [List.mem_reverse]
    constructor
    · intro hp
      obtain ⟨n, -, hreaches⟩ := h.reachesSeen path hp
      exact reflTransGen_iff_reaches.mpr ⟨n, hreaches⟩
    · intro hreaches
      induction hreaches with
      | refl =>
        rcases Nat.eq_zero_or_pos d with rfl | hd
        · exact (h.level start .start).resolve_right List.not_mem_nil
        · exact h.inner 0 hd start .start
      | @tail path target _ hstep ih => simpa using h.followed path ih target hstep
  sorted := List.pairwise_reverse.mpr h.sorted

lemma Visits.nearestFirst (h : sources.Visits queue seen found) (hqueue : queue = near ++ far)
    (hf : sources.Frontier start d near far seen) : sources.NearestFirst start found := by
  induction h generalizing d near far with
  | done =>
    obtain ⟨rfl, rfl⟩ := List.append_eq_nil_iff.mp hqueue.symm
    exact hf.nearestFirst
  | again hin _ ih =>
    obtain ⟨d', near', far', hf', rfl⟩ := hf.exists_next hqueue
    exact ih rfl (hf'.again hin)
  | first hnot _ ih =>
    obtain ⟨d', near', far', hf', rfl⟩ := hf.exists_next hqueue
    exact ih (List.append_assoc ..) (hf'.first hnot)

lemma nearestFirst_visibleFrom (sources : Sources) (start : String) :
    sources.NearestFirst start (sources.visibleFrom start) :=
  (visits_visibleFrom sources start).nearestFirst rfl (Frontier.init sources start)

lemma NearestFirst.head? (h : sources.NearestFirst start found) : found.head? = some start := by
  have hstart : start ∈ found := (h.mem start).mpr .refl
  cases found with
  | nil => cases hstart
  | cons path rest =>
    have hle : sources.distance start path ≤ 0 := by
      have hzero : sources.distance start start ≤ 0 := Reaches.start.distance_le
      rcases List.mem_cons.mp hstart with heq | hrest
      · rwa [← heq]
      · exact Nat.le_trans ((List.pairwise_cons.mp h.sorted).1 start hrest) hzero
    obtain ⟨n, hn⟩ := reflTransGen_iff_reaches.mp ((h.mem path).mp List.mem_cons_self)
    have hpath := hn.shortest
    rw [Nat.le_zero.mp hle] at hpath
    cases hpath
    rfl

lemma NearestFirst.findSome? {α : Type} {declared : String → Option α}
    (h : sources.NearestFirst start found) :
    match found.findSome? declared with
    | none => ∀ path, ReflTransGen sources.Includes start path → declared path = none
    | some a => ∃ path, ReflTransGen sources.Includes start path ∧ declared path = some a ∧
        ∀ other, ReflTransGen sources.Includes start other → declared other ≠ none →
          sources.distance start path ≤ sources.distance start other := by
  cases hfind : found.findSome? declared with
  | none => exact fun path hp => List.findSome?_eq_none_iff.mp hfind path ((h.mem path).mpr hp)
  | some a =>
    obtain ⟨before, path, after, rfl, hpath, hbefore⟩ := List.findSome?_eq_some_iff.mp hfind
    have hsorted := (List.pairwise_cons.mp (List.pairwise_append.mp h.sorted).2.1).1
    refine ⟨path, (h.mem path).mp (by simp), hpath, fun other hother hdeclared => ?_⟩
    rcases List.mem_append.mp ((h.mem other).mpr hother) with hin | hin
    · exact absurd (hbefore other hin) hdeclared
    · rcases List.mem_cons.mp hin with rfl | hin
      · exact Nat.le_refl _
      · exact hsorted other hin

end Sources

def SymbolTables.Declares (tables : SymbolTables) (path : String) (kind : RoutineKind)
    (name : String) (symbol : Symbol) : Prop :=
  ∃ t entry, tables[path]? = some t ∧ t.members.get? name = some entry ∧ entry.kind = kind ∧
    entry.symbol = symbol

lemma SymbolTables.declares_iff {tables : SymbolTables} {path : String} {kind : RoutineKind}
    {name : String} {symbol : Symbol} : tables.Declares path kind name symbol ↔
      (tables[path]?).bind (·.find? kind name) = some symbol := by
  simp [Declares, SymbolTable.find?, Option.bind_eq_some_iff]

namespace Sources

lemma NearestFirst.findVisible {sources : Sources} {start : String} {found : List String}
    (h : sources.NearestFirst start found) (tables : SymbolTables) (path : String)
    (kind : RoutineKind) (name : String) :
    match Surroundings.findVisible { tables, path, visible := found } kind name with
    | none => ∀ file symbol, ReflTransGen sources.Includes start file →
        ¬ tables.Declares file kind name symbol
    | some symbol => ∃ file, ReflTransGen sources.Includes start file ∧
        tables.Declares file kind name symbol ∧
        ∀ other symbol', ReflTransGen sources.Includes start other →
          tables.Declares other kind name symbol' →
            sources.distance start file ≤ sources.distance start other := by
  have hfound := @NearestFirst.findSome? sources start _ _
    (fun file => (tables[file]?).bind (·.find? kind name)) h
  simp only [Surroundings.findVisible, SymbolTables.declares_iff]
  split
  · next hnone =>
    rw [hnone] at hfound
    exact fun file symbol hfile => by simp [hfound file hfile]
  · next symbol hsome =>
    rw [hsome] at hfound
    obtain ⟨file, hreach, hsymbol, hleast⟩ := hfound
    exact ⟨file, hreach, hsymbol, fun other symbol' hother hdeclared =>
      hleast other hother (by simp [hdeclared])⟩

/-- The files visible from a file are the file itself and then those that it reaches, once each and
the nearest first, on every graph; the loop that finds them ends. So a name is looked up in a
nearest file of those that declare a member of that name and kind. -/
theorem visibleFrom_nearest (sources : Sources) (start : String) :
    (∀ found, sources.Visits [start] [] found ↔ found = sources.visibleFrom start) ∧
    (sources.visibleFrom start).head? = some start ∧
    (sources.visibleFrom start).Nodup ∧
    (∀ path, path ∈ sources.visibleFrom start ↔ ReflTransGen sources.Includes start path) ∧
    (sources.visibleFrom start).Pairwise (fun path after =>
      sources.distance start path ≤ sources.distance start after) ∧
    ∀ (tables : SymbolTables) (path : String) (kind : RoutineKind) (name : String),
      let s : Surroundings := { tables, path, visible := sources.visibleFrom start }
      match s.findVisible kind name with
      | none => ∀ file symbol, ReflTransGen sources.Includes start file →
          ¬ tables.Declares file kind name symbol
      | some symbol => ∃ file, ReflTransGen sources.Includes start file ∧
          tables.Declares file kind name symbol ∧
          ∀ other symbol', ReflTransGen sources.Includes start other →
            tables.Declares other kind name symbol' →
              sources.distance start file ≤ sources.distance start other := by
  have hnearest := nearestFirst_visibleFrom sources start
  refine ⟨fun found => ⟨fun h => h.unique (visits_visibleFrom sources start), ?_⟩, hnearest.head?,
    hnearest.nodup, hnearest.mem, hnearest.sorted, hnearest.findVisible⟩
  rintro rfl
  exact visits_visibleFrom sources start

end Sources

end Stagecraft
