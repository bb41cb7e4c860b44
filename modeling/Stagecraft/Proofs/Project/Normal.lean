import Stagecraft.Project.Path
import Stagecraft.Proofs.Text

/-!
The folder that the parts of a path lead to is a trail of plain names; joined, it is read back as
the same trail.
-/

namespace Stagecraft

namespace Path

def components (path : String) : List String :=
  if path = "" then [] else (Text.split '/' path.toList).map String.ofList

/-- A path without empty components, without such as stand for a folder by its place, and without
backslashes. -/
def IsNormal (path : String) : Prop :=
  (∀ part ∈ components path, part ≠ "" ∧ part ≠ "." ∧ part ≠ "..") ∧ '\\' ∉ path.toList

structure IsPlain (part : String) : Prop where
  ne_empty : part ≠ ""
  ne_here : part ≠ "."
  ne_above : part ≠ ".."
  slash : '/' ∉ part.toList
  backslash : '\\' ∉ part.toList

def trail (path : String) : List String :=
  (parts path).foldl descend []

lemma normalize_eq (path : String) : normalize path = Text.join "/" (trail path).reverse :=
  rfl

section Parts

lemma parts_slash (p q : String) : parts (p ++ "/" ++ q) = parts p ++ parts q := by
  simp [parts, Text.split_append_sep]

lemma parts_eq_split {path : String} (h : '\\' ∉ path.toList) :
    parts path = (Text.split '/' path.toList).map String.ofList := by
  have hmap : (path.toList.map fun c => if c == '\\' then '/' else c) = path.toList := by
    conv_rhs => rw [← List.map_id path.toList]
    refine List.map_congr_left fun c hc => if_neg ?_
    rw [beq_iff_eq]
    exact fun hback => h (hback ▸ hc)
  rw [parts, hmap]

lemma separators_of_mem_parts {path part : String} (h : part ∈ parts path) :
    '/' ∉ part.toList ∧ '\\' ∉ part.toList := by
  obtain ⟨piece, hpiece, rfl⟩ := List.mem_map.mp h
  obtain ⟨hslash, hmem⟩ := Text.of_mem_split hpiece
  refine ⟨by simpa using hslash, fun hc => ?_⟩
  obtain ⟨c, -, hc⟩ := List.mem_map.mp (hmem _ (by simpa using hc))
  split at hc
  · cases hc
  · next hne => exact hne (by simpa using hc)

end Parts

section Descend

variable {names : List String} {folders : List String} {part : String}

lemma descend_plain (h : IsPlain part) : descend folders part = part :: folders := by
  simp [descend, h.ne_empty, h.ne_here, h.ne_above]

lemma foldl_descend_plain (h : ∀ name ∈ names, IsPlain name) :
    names.foldl descend folders = names.reverse ++ folders := by
  induction names generalizing folders with
  | nil => rfl
  | cons name names ih =>
    obtain ⟨hname, hnames⟩ := List.forall_mem_cons.mp h
    rw [List.foldl_cons, descend_plain hname, ih hnames]
    simp

lemma isPlain_of_mem_descend (hfolders : ∀ name ∈ folders, IsPlain name) (hslash : '/' ∉ part.toList)
    (hbackslash : '\\' ∉ part.toList) : ∀ name ∈ descend folders part, IsPlain name := by
  unfold descend
  split_ifs with hhere habove
  · exact hfolders
  · exact fun name hname => hfolders name (List.mem_of_mem_tail hname)
  · simp only [Bool.or_eq_true, String.isEmpty_iff, beq_iff_eq, not_or] at hhere habove
    exact List.forall_mem_cons.mpr ⟨⟨hhere.1, hhere.2, habove, hslash, hbackslash⟩, hfolders⟩

end Descend

lemma isPlain_of_mem_trail {path name : String} (h : name ∈ trail path) : IsPlain name := by
  refine List.foldlRecOn (motive := fun folders => ∀ name ∈ folders, IsPlain name)
    (parts path) descend (by simp) (fun folders hfolders part hpart => ?_) name h
  obtain ⟨hslash, hbackslash⟩ := separators_of_mem_parts hpart
  exact isPlain_of_mem_descend hfolders hslash hbackslash

section Join

variable {names folders : List String}

lemma parts_plain {part : String} (h : IsPlain part) : parts part = [part] := by
  simp [parts_eq_split h.backslash, Text.split_apart h.slash]

lemma parts_join (h : ∀ name ∈ names, IsPlain name) (hne : names ≠ []) :
    parts (Text.join "/" names) = names := by
  induction names with
  | nil => exact absurd rfl hne
  | cons name names ih =>
    obtain ⟨hname, hnames⟩ := List.forall_mem_cons.mp h
    cases names with
    | nil => rw [Text.join, String.intercalate_singleton, parts_plain hname]
    | cons other names =>
      have hrest := ih hnames (List.cons_ne_nil _ _)
      rw [Text.join] at hrest ⊢
      rw [String.intercalate_cons_cons, parts_slash, parts_plain hname, hrest, List.singleton_append]

lemma backslash_join (h : ∀ name ∈ names, IsPlain name) : '\\' ∉ (Text.join "/" names).toList := by
  intro hc
  rcases Text.mem_join hc with hc | ⟨name, hname, hc⟩
  · exact absurd hc (by decide)
  · exact (h name hname).backslash hc

lemma join_ne_empty (h : ∀ name ∈ names, IsPlain name) (hne : names ≠ []) :
    Text.join "/" names ≠ "" := by
  intro hempty
  have hparts := parts_join h hne
  rw [hempty] at hparts
  have hmem : "" ∈ names := by
    rw [← hparts]
    decide
  exact (h "" hmem).ne_empty rfl

lemma components_join (h : ∀ name ∈ names, IsPlain name) :
    components (Text.join "/" names) = names := by
  by_cases hne : names = []
  · subst hne
    rfl
  · rw [components, if_neg (join_ne_empty h hne), ← parts_eq_split (backslash_join h),
      parts_join h hne]

lemma foldl_parts_join (h : ∀ name ∈ names, IsPlain name) :
    (parts (Text.join "/" names)).foldl descend folders = names.reverse ++ folders := by
  by_cases hne : names = []
  · subst hne
    rfl
  · rw [parts_join h hne, foldl_descend_plain h]

end Join

lemma components_normalize (path : String) : components (normalize path) = (trail path).reverse :=
  components_join fun _ hname => isPlain_of_mem_trail (List.mem_reverse.mp hname)

lemma trail_normalize (path : String) : trail (normalize path) = trail path := by
  rw [trail, normalize_eq,
    foldl_parts_join fun _ hname => isPlain_of_mem_trail (List.mem_reverse.mp hname)]
  simp

lemma trail_slash (p q : String) : trail (p ++ "/" ++ q) = (parts q).foldl descend (trail p) := by
  rw [trail, parts_slash, List.foldl_append, ← trail]

lemma isPlain_of_mem_components {path : String} (h : IsNormal path) :
    ∀ name ∈ components path, IsPlain name := by
  intro name hname
  obtain ⟨hempty, hhere, habove⟩ := h.1 name hname
  unfold components at hname
  split at hname
  · exact absurd hname List.not_mem_nil
  · obtain ⟨piece, hpiece, rfl⟩ := List.mem_map.mp hname
    obtain ⟨hslash, hmem⟩ := Text.of_mem_split hpiece
    exact ⟨hempty, hhere, habove, by simpa using hslash,
      fun hback => h.2 (hmem _ (by simpa using hback))⟩

lemma join_components (path : String) : Text.join "/" (components path) = path := by
  unfold components
  split
  · next hempty => exact hempty.symm
  · exact (Text.join_split '/' path.toList).trans String.ofList_toList

lemma isNormal_normalize (path : String) : IsNormal (normalize path) := by
  have hplain : ∀ name ∈ (trail path).reverse, IsPlain name :=
    fun name hname => isPlain_of_mem_trail (List.mem_reverse.mp hname)
  refine ⟨fun part hpart => ?_, backslash_join hplain⟩
  rw [components_normalize] at hpart
  obtain ⟨hempty, hhere, habove, -, -⟩ := hplain part hpart
  exact ⟨hempty, hhere, habove⟩

lemma normalize_of_isNormal {path : String} (h : IsNormal path) : normalize path = path := by
  have hplain := isPlain_of_mem_components h
  conv_lhs => rw [← join_components path]
  rw [normalize_eq, trail, foldl_parts_join hplain, List.append_nil, List.reverse_reverse,
    join_components]

/-- The normal form of a path is normal: it has no empty components, none that stand for a folder by
its place, and no backslash. Normal paths are their own normal form, so that making a path normal
twice is making it normal once; and a path may be made normal before more is put behind it. -/
theorem normalize_congruence (p q : String) :
    IsNormal (normalize p) ∧ (normalize p = p ↔ IsNormal p) ∧
    normalize (normalize p) = normalize p ∧
    normalize (p ++ "/" ++ q) = normalize (normalize p ++ "/" ++ q) := by
  have hnormal := isNormal_normalize p
  refine ⟨hnormal, ⟨fun h => h ▸ hnormal, normalize_of_isNormal⟩, normalize_of_isNormal hnormal, ?_⟩
  rw [normalize_eq, normalize_eq (normalize p ++ "/" ++ q), trail_slash, trail_slash,
    trail_normalize]

example : normalize "./a/./b/../c\\d.nss" = "a/c/d.nss" := by cbv

end Path

end Stagecraft
