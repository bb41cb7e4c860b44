import Mathlib
import Stagecraft.Stage.Recording
import Stagecraft.Proofs.Text

/-!
The search takes each part of a pattern where it occurs first. That leaves as much of the name as
possible for the parts behind it, so nothing that can be found is missed.
-/

namespace Stagecraft.Text.Wildcard

/-- The text comes out of the pattern if each star is replaced by some text. -/
inductive Covers : List Char → List Char → Prop
  | nil : Covers [] []
  | char {c pattern text} (hc : c ≠ '*') (h : Covers pattern text) :
      Covers (c :: pattern) (c :: text)
  | star {pattern text} (any : List Char) (h : Covers pattern text) :
      Covers ('*' :: pattern) (any ++ text)

inductive Trails : List (List Char) → List Char → Prop
  | nil : Trails [] []
  | cons {part parts rest} (any : List Char) (h : Trails parts rest) :
      Trails (part :: parts) (any ++ (part ++ rest))

variable {part pattern text rest : List Char} {parts : List (List Char)}

lemma dropFront?_eq_some_iff : dropFront? part text = some rest ↔ text = part ++ rest := by
  induction part generalizing text with
  | nil => simp [dropFront?]
  | cons p part ih =>
    cases text with
    | nil => simp [dropFront?]
    | cons c text =>
      rw [dropFront?]
      split
      · next heq =>
        obtain rfl := eq_of_beq heq
        simp [ih]
      · next hne =>
        have hpc : ¬c = p := fun h => hne (beq_iff_eq.mpr h.symm)
        simp [hpc]

lemma Trails.append (front : List Char) (h : Trails (part :: parts) text) :
    Trails (part :: parts) (front ++ text) := by
  cases h with
  | cons any h =>
    rw [← List.append_assoc]
    exact .cons (front ++ any) h

lemma exists_of_after? (h : after? part text = some rest) :
    ∃ any, text = any ++ (part ++ rest) := by
  induction text with
  | nil =>
    have htext : [] = part ++ rest := dropFront?_eq_some_iff.mp h
    exact ⟨[], htext⟩
  | cons c text ih =>
    rw [after?, Option.or_eq_some_iff] at h
    rcases h with hhere | ⟨-, hlater⟩
    · have htext : c :: text = part ++ rest := dropFront?_eq_some_iff.mp hhere
      exact ⟨[], htext⟩
    · obtain ⟨any, hany⟩ := ih hlater
      exact ⟨c :: any, by rw [hany, List.cons_append]⟩

lemma after?_append (any part rest : List Char) :
    ∃ front, after? part (any ++ (part ++ rest)) = some (front ++ rest) := by
  induction any with
  | nil =>
    have hhere : dropFront? part (part ++ rest) = some rest := dropFront?_eq_some_iff.mpr rfl
    refine ⟨[], ?_⟩
    rw [List.nil_append]
    cases hcs : part ++ rest with
    | nil => rwa [hcs] at hhere
    | cons c cs =>
      rw [after?, ← hcs, hhere, Option.some_or, List.nil_append]
  | cons c any ih =>
    rw [List.cons_append, after?]
    cases hhere : dropFront? part (c :: (any ++ (part ++ rest))) with
    | none => exact ih
    | some behind =>
      -- two occurrences: what follows the earlier one is the longer end of the text
      have hbehind := dropFront?_eq_some_iff.mp hhere
      have hlength := congrArg List.length hbehind
      simp only [List.length_cons, List.length_append] at hlength
      have hrest : rest <:+ part ++ behind :=
        ⟨c :: (any ++ part), by rw [← hbehind, List.cons_append, List.append_assoc]⟩
      obtain ⟨front, hfront⟩ :=
        List.suffix_of_suffix_length_le hrest (List.suffix_append part behind) (by omega)
      exact ⟨front, by rw [hfront, Option.some_or]⟩

lemma restMatches_iff : restMatches parts text = true ↔ Trails parts text := by
  induction parts generalizing text with
  | nil =>
    rw [restMatches, List.isEmpty_iff]
    constructor
    · rintro rfl
      exact .nil
    · rintro ⟨⟩
      rfl
  | cons part parts ih =>
    cases parts with
    | nil =>
      rw [restMatches, List.isSuffixOf_iff_suffix]
      constructor
      · rintro ⟨any, rfl⟩
        have h : Trails [part] (any ++ (part ++ [])) := .cons any .nil
        rwa [List.append_nil] at h
      · rintro (_ | ⟨any, _ | _⟩)
        exact ⟨any, by simp⟩
    | cons next parts =>
      rw [restMatches]
      case x_2 => exact nofun
      constructor
      · intro h
        split at h
        · next rest hafter =>
          obtain ⟨any, rfl⟩ := exists_of_after? hafter
          exact .cons any (ih.mp h)
        · cases h
      · rintro (_ | ⟨any, h⟩)
        obtain ⟨front, hafter⟩ := after?_append any part _
        rw [hafter]
        exact ih.mpr (h.append front)

lemma covers_iff : Covers pattern text ↔
    ∃ part parts rest, split '*' pattern = part :: parts ∧ text = part ++ rest ∧
      Trails parts rest := by
  induction pattern generalizing text with
  | nil =>
    constructor
    · rintro ⟨⟩
      exact ⟨[], [], [], rfl, rfl, .nil⟩
    · rintro ⟨part, parts, rest, hsplit, rfl, h⟩
      cases hsplit
      cases h
      exact .nil
  | cons c pattern ih =>
    by_cases hc : c = '*'
    · subst hc
      rw [split_sep]
      constructor
      · rintro (_ | ⟨hc, _⟩ | ⟨any, h⟩)
        · exact absurd rfl hc
        · obtain ⟨part, parts, rest, hsplit, rfl, htrails⟩ := ih.mp h
          refine ⟨[], _, _, rfl, rfl, ?_⟩
          rw [hsplit]
          exact .cons any htrails
      · rintro ⟨part, parts, rest, hsplit, rfl, h⟩
        obtain ⟨rfl, rfl⟩ := List.cons_eq_cons.mp hsplit
        obtain ⟨first, others, hparts⟩ := exists_split '*' pattern
        rw [hparts] at h
        cases h with
        | cons any h => exact .star any (ih.mpr ⟨first, others, _, hparts, rfl, h⟩)
    · obtain ⟨first, others, hparts⟩ := exists_split '*' pattern
      rw [split_cons hc hparts]
      constructor
      · rintro (_ | ⟨_, h⟩ | ⟨any, h⟩)
        · obtain ⟨part, parts, rest, hsplit, rfl, h⟩ := ih.mp h
          obtain ⟨rfl, rfl⟩ := List.cons_eq_cons.mp (hparts.symm.trans hsplit)
          exact ⟨_, _, rest, rfl, rfl, h⟩
        · exact absurd rfl hc
      · rintro ⟨part, parts, rest, hsplit, rfl, h⟩
        obtain ⟨rfl, rfl⟩ := List.cons_eq_cons.mp hsplit
        exact .char hc (ih.mpr ⟨first, others, rest, hparts, rfl, h⟩)

lemma hasForm_iff {pattern text : String} :
    hasForm pattern text = true ↔ Covers pattern.toList text.toList := by
  obtain ⟨part, parts, hparts⟩ := exists_split '*' pattern.toList
  rw [covers_iff, hasForm, hparts]
  constructor
  · intro h
    dsimp only at h
    split at h
    · next rest hdrop =>
      exact ⟨part, parts, rest, rfl, dropFront?_eq_some_iff.mp hdrop, restMatches_iff.mp h⟩
    · cases h
  · rintro ⟨part', parts', rest, hsplit, htext, h⟩
    obtain ⟨rfl, rfl⟩ := List.cons_eq_cons.mp hsplit
    dsimp only
    rw [dropFront?_eq_some_iff.mpr htext]
    exact restMatches_iff.mpr h

end Stagecraft.Text.Wildcard

namespace Stagecraft.RecordingStage

open Text.Wildcard

/-- The search for the form of a pattern is exact. So a pattern that is no alias stands for the
entities of its form that are on the stage, each of them once and in the order of their names. -/
theorem resolve_pattern :
    (∀ pattern name : String,
      hasForm pattern name = true ↔ Covers pattern.toList name.toList) ∧
    ∀ (s : RecordingStage) (pattern : String), '*' ∈ pattern.toList → s.aliases[pattern]? = none →
      (s.resolve pattern).Pairwise (· < ·) ∧
      ∀ entity, entity ∈ s.resolve pattern ↔
        entity ∈ s.entities ∧ Covers pattern.toList entity.toList := by
  refine ⟨fun _ _ => hasForm_iff, fun s pattern hstar halias => ?_⟩
  have hresolve : s.resolve pattern = s.entities.toList.filter (hasForm pattern) := by
    rw [resolve, halias]
    simp [hstar]
  rw [hresolve]
  constructor
  · have hsorted : s.entities.toList.Pairwise (· < ·) :=
      Std.TreeSet.ordered_toList.imp compare_lt_iff_lt.mp
    exact hsorted.sublist List.filter_sublist
  · intro entity
    rw [List.mem_filter, Std.TreeSet.mem_toList, hasForm_iff]

def crowd : RecordingStage :=
  ["hero", "aabab", "aab", "abb"].foldl (fun s name => s.register name) {}

theorem resolve_pattern_crowd :
    '*' ∈ "a*ab*b".toList ∧ crowd.aliases["a*ab*b"]? = none ∧
      (crowd.resolve "a*ab*b").Pairwise (· < ·) ∧ "aabab" ∈ crowd.resolve "a*ab*b" ∧
      "aab" ∉ crowd.resolve "a*ab*b" := by
  have hstar : '*' ∈ "a*ab*b".toList := by decide
  have halias : crowd.aliases["a*ab*b"]? = none := by simp [crowd, register]
  obtain ⟨hexact, hresolve⟩ := resolve_pattern
  obtain ⟨hsorted, hmem⟩ := hresolve crowd "a*ab*b" hstar halias
  have hentity : "aabab" ∈ crowd.entities := by simp [crowd, register]
  have hshort : hasForm "a*ab*b" "aab" = false := by cbv
  refine ⟨hstar, halias, hsorted, (hmem _).mpr ⟨hentity, (hexact _ _).mp (by cbv)⟩, fun h => ?_⟩
  rw [(hexact _ _).mpr ((hmem _).mp h).2] at hshort
  cases hshort

end Stagecraft.RecordingStage
