import Stagecraft.Proofs.Markup.Reread

/-!
A text is cut at the leftmost places that match the pattern of a tag and do not overlap; there is
one way to do so, and reading goes from tag to tag.
-/

namespace Stagecraft.Markup

def Tag.chars (t : Tag) : List Char :=
  '<' :: ((if t.isEnd then ['/'] else []) ++ t.inner ++ ['>'])

def StartsTag (cs : List Char) : Prop :=
  ∃ (t : Tag) (after : List Char), IsInside t.inner ∧ cs = t.chars ++ after

/-- A text that is cut at its tags: the tags with the texts in front of them, and what follows the
last one. -/
inductive Tagged : List Char → List (List Char × Tag) → List Char → Prop
  | last {cs : List Char} (untagged : ∀ u, u <:+ cs → ¬ StartsTag u) : Tagged cs [] cs
  | tag {before after last : List Char} {t : Tag} {parts : List (List Char × Tag)}
    (inside : IsInside t.inner)
    (leftmost : ∀ u, u <:+ before → u ≠ [] → ¬ StartsTag (u ++ (t.chars ++ after)))
    (rest : Tagged after parts last) :
    Tagged (before ++ (t.chars ++ after)) ((before, t) :: parts) last

section Cutting

variable {cs before after last last' : List Char} {t : Tag} {parts parts' : List (List Char × Tag)}

lemma tag?_eq_some_iff :
    tag? cs = some (t, after) ↔ IsInside t.inner ∧ cs = t.chars ++ after := by
  constructor
  · intro h
    obtain ⟨hinside, heq⟩ := eq_of_tag? h
    exact ⟨hinside, by simpa [Tag.chars] using heq⟩
  · rintro ⟨hinside, rfl⟩
    obtain ⟨isEnd, inner⟩ := t
    cases isEnd with
    | false => simpa [Tag.chars] using tag?_start hinside after
    | true => simpa [Tag.chars] using tag?_end hinside after

lemma not_startsTag_iff : ¬ StartsTag cs ↔ tag? cs = none := by
  rw [Option.eq_none_iff_forall_ne_some]
  constructor
  · rintro h ⟨t, after⟩ htag
    exact h ⟨t, after, tag?_eq_some_iff.mp htag⟩
  · rintro h ⟨t, after, htag⟩
    exact h (t, after) (tag?_eq_some_iff.mpr htag)

lemma findTag_last (h : ∀ u, u <:+ cs → ¬ StartsTag u) : findTag #[] cs = none := by
  induction cs with
  | nil => rfl
  | cons c cs ih =>
    rw [findTag_cons (not_startsTag_iff.mp (h _ List.suffix_rfl)),
      ih fun u hu => h u (hu.trans (List.suffix_cons c cs))]
    rfl

lemma findTag_leftmost (hinside : IsInside t.inner)
    (h : ∀ u, u <:+ before → u ≠ [] → ¬ StartsTag (u ++ (t.chars ++ after))) :
    findTag #[] (before ++ (t.chars ++ after)) = some (before, t, after) := by
  induction before with
  | nil => exact findTag_tag (tag?_eq_some_iff.mpr ⟨hinside, rfl⟩)
  | cons c before ih =>
    have hnone := not_startsTag_iff.mp (h _ List.suffix_rfl (List.cons_ne_nil c before))
    rw [List.cons_append] at hnone ⊢
    rw [findTag_cons hnone, ih fun u hu => h u (hu.trans (List.suffix_cons c before))]
    rfl

lemma Tagged.cases_findTag (h : Tagged cs parts last) :
    (parts = [] ∧ last = cs ∧ findTag #[] cs = none) ∨
    ∃ before t after rest, parts = (before, t) :: rest ∧
      findTag #[] cs = some (before, t, after) ∧ Tagged after rest last := by
  cases h with
  | last untagged => exact .inl ⟨rfl, rfl, findTag_last untagged⟩
  | tag inside leftmost rest =>
    exact .inr ⟨_, _, _, _, rfl, findTag_leftmost inside leftmost, rest⟩

lemma Tagged.unique (h : Tagged cs parts last) (h' : Tagged cs parts' last') :
    parts' = parts ∧ last' = last := by
  induction h generalizing parts' with
  | last untagged =>
    have hnone := findTag_last untagged
    obtain ⟨rfl, rfl, -⟩ | ⟨_, _, _, _, -, hfind, -⟩ := h'.cases_findTag
    · exact ⟨rfl, rfl⟩
    · rw [hnone] at hfind
      cases hfind
  | tag inside leftmost _ ih =>
    have hsome := findTag_leftmost inside leftmost
    obtain ⟨-, -, hfind⟩ | ⟨_, _, _, _, rfl, hfind, hrest⟩ := h'.cases_findTag
    · rw [hsome] at hfind
      cases hfind
    · rw [hsome] at hfind
      cases hfind
      obtain ⟨rfl, rfl⟩ := ih hrest
      exact ⟨rfl, rfl⟩

lemma Tagged.of_findTag (after : List Char) (hfind : findTag #[] cs = some (before, t, after))
    (h : Tagged after parts last) : Tagged cs ((before, t) :: parts) last := by
  obtain ⟨more, rfl, htag, hbefore⟩ := eq_of_findTag hfind
  obtain ⟨hinside, rfl⟩ := tag?_eq_some_iff.mp htag
  exact .tag hinside (fun u hu hne => not_startsTag_iff.mpr (hbefore hne hu)) h

lemma Tagged.of_findTag_eq_none (hfind : findTag #[] cs = none) : Tagged cs [] cs :=
  .last fun _ hu => not_startsTag_iff.mpr (untagged_of_findTag hfind hu)

lemma exists_tagged (cs : List Char) : ∃ parts last, Tagged cs parts last := by
  induction hn : cs.length using Nat.strong_induction_on generalizing cs with
  | _ n ih =>
    subst hn
    cases hfind : findTag #[] cs with
    | none => exact ⟨[], cs, .of_findTag_eq_none hfind⟩
    | some found =>
      obtain ⟨before, t, after⟩ := found
      have hlength : after.length < cs.length := by
        obtain ⟨more, rfl, htag, -⟩ := eq_of_findTag hfind
        have := length_after_lt htag
        rw [List.length_append]
        omega
      obtain ⟨parts, last, hparts⟩ := ih after.length hlength after rfl
      exact ⟨(before, t) :: parts, last, hparts.of_findTag after hfind⟩

end Cutting

def Reading.addPart (r : Reading) (part : List Char × Tag) : Reading :=
  (r.addText part.1).addTag part.2

lemma Tagged.go_eq {cs last : List Char} {parts : List (List Char × Tag)}
    (h : Tagged cs parts last) (r : Reading) :
    r.go cs = (parts.foldl Reading.addPart r).addText last := by
  induction h generalizing r with
  | last untagged => rw [Reading.go_eq, findTag_last untagged]; rfl
  | tag inside leftmost _ ih =>
    rw [Reading.go_eq, findTag_leftmost inside leftmost]
    exact ih _

lemma Tagged.read_eq {cs last : List Char} {parts : List (List Char × Tag)}
    (h : Tagged cs parts last) :
    read cs = ((Reading.settle ((parts.foldl Reading.addPart {}).addText last).pieces
      (parts.foldl Reading.addPart {}).waiting).reverse,
      (parts.foldl Reading.addPart {}).unmatched.toList) := by
  have hgo : Reading.run cs.length {} cs = (parts.foldl Reading.addPart {}).addText last :=
    h.go_eq {}
  rw [read, hgo]
  obtain ⟨hpieces, hunmatched⟩ := Reading.finish_eq
    (r := (parts.foldl Reading.addPart {}).addText last) (parts.foldl Reading.addPart {}).waiting
  exact Prod.ext (congrArg List.reverse hpieces) (congrArg Array.toList hunmatched)

end Stagecraft.Markup
