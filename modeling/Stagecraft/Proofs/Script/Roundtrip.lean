import Stagecraft.Proofs.Script.Accepted
import Stagecraft.Proofs.Script.Speech
import Stagecraft.Proofs.Script.Whole

/-!
A file that is read without a report is read again, as it was, from its written form, unless it
holds one of the few things that have no written form.
-/

namespace Stagecraft

open Shape

lemma speech_append_of_not_isSpoken {ss : List Shape} {t : Shape} (ht : t.isSpoken = false) :
    speech (ss ++ [t]) = speech ss := by
  induction ss with
  | nil => simp [speech, ht]
  | cons s ss ih => rw [List.cons_append, Scanner.speech_cons, Scanner.speech_cons, ih]

lemma Lawful.front {ss : List Shape} {t : Shape} (h : Lawful (ss ++ [t]))
    (ht : t.isSpoken = false) : Lawful ss := by
  refine ⟨fun s hs => h.genuine s (by simp [hs]), h.follows.left_of_append, fun u hu => ?_⟩
  rw [← speech_append_of_not_isSpoken ht]
  obtain ⟨front, rfl⟩ := hu
  exact h.shut ⟨front, (List.append_assoc ..).symm⟩

lemma Parser.lawful_ofString (source : String) : (Parser.ofString source).Lawful := by
  refine ⟨?_, (Parser.proper_ofTokens _ _).final⟩
  have hall : Stagecraft.Lawful ((Scanner.tokens source).1.map Token.shape) :=
    Scanner.lawful_shapes source
  simp only [Parser.ofString, Parser.ofTokens_eq _ (Scanner.inner_tokens source)]
  split
  · next h =>
    rw [List.getLast?_eq_none_iff.mp h] at hall
    exact hall
  · next t h =>
    split
    · next hkind =>
      rw [← List.dropLast_append_getLast? t h, List.map_append] at hall
      exact hall.front (Scanner.silent_end (by simpa using hkind))
    · exact hall

namespace Parse

/-- What is read without a report and can be written is read again from its written form, without a
report and as it was. -/
theorem parseScript_restores {path source : String}
    (h : (parseScript path source).diagnostics = [])
    (hw : (parseScript path source).value.Writable) :
    (parseScript path (parseScript path source).value.render).diagnostics = [] ∧
      (parseScript path (parseScript path source).value.render).value.Agrees Eq
        (parseScript path source).value := by
  have hclean : (script (Parser.ofString source).budget path (Parser.ofString source)).2.diagnostics
      = #[] :=
    Array.toList_eq_nil_iff.mp h
  have hsound := ((finds_script (Parser.ofString source).budget path).2 _
    (Parser.lawful_ofString source) hclean trivial trivial).1
  exact parseScript_render (hsound hw)

def leaflet : String :=
  "#include \"a\"\n<PRE>[n]a</PRE>\nfunction f() \x7b return a; \x7d"

def leafletTree : Script where
  path := "main.nss"
  includes := [⟨"a", ⟨⟨1, 1⟩, ⟨1, 13⟩⟩⟩]
  members := [
    .dialogue (.mk ⟨0, ⟨⟨2, 1⟩, ⟨2, 16⟩⟩⟩ "" (some "n") [.markup [.text "a"] ⟨⟨2, 9⟩, ⟨2, 10⟩⟩]),
    .function ⟨1, ⟨⟨3, 1⟩, ⟨3, 27⟩⟩⟩ "f" [] (.mk ⟨2, ⟨⟨3, 14⟩, ⟨3, 27⟩⟩⟩
      [.ret ⟨4, ⟨⟨3, 16⟩, ⟨3, 25⟩⟩⟩ (some (.name ⟨3, ⟨⟨3, 23⟩, ⟨3, 24⟩⟩⟩ "a"))])]

lemma parseScript_leaflet : parseScript "main.nss" leaflet = ⟨leafletTree, []⟩ := by
  cbv

lemma writable_leafletText : Markup.Writable [.text "a"] := by
  have hrender : (Markup.renderAll [.text "a"]).toList = ['a'] := by
    simp [Markup.renderAll, Markup.render]
  refine ⟨?trimmed, ?returns, ?goesOn, ⟨trivial, trivial⟩⟩ <;> rw [hrender]
  case trimmed => simp [Text.IsTrimmed, Text.isBlank]
  case returns => exact .singleton _
  case goesOn => decide +kernel

lemma writable_leafletTree : leafletTree.Writable := by
  have ha : IsUndirected "a" := show "a".toList ≠ _ by decide +kernel
  have hf : IsIdentifier "f" := by decide +kernel
  constructor
  · simp [leafletTree, Include.Writable]
  · simp [leafletTree, Member.Writable, Dialogue.Writable, DialoguePart.AllWritable,
      Block.Writable, Statement.AllWritable, Statement.Writable, Expression.Writable, ha, hf,
      writable_leafletText]

theorem parseScript_restores_leaflet :
    (parseScript "main.nss" leaflet).diagnostics = [] ∧
      (parseScript "main.nss" leaflet).value.Writable ∧
      (parseScript "main.nss" (parseScript "main.nss" leaflet).value.render).diagnostics = [] ∧
      (parseScript "main.nss" (parseScript "main.nss" leaflet).value.render).value.Agrees Eq
        (parseScript "main.nss" leaflet).value := by
  have hclean : (parseScript "main.nss" leaflet).diagnostics = [] := by rw [parseScript_leaflet]
  have hw : (parseScript "main.nss" leaflet).value.Writable := by
    rw [parseScript_leaflet]
    exact writable_leafletTree
  exact ⟨hclean, hw, parseScript_restores hclean hw⟩

def escaped : String :=
  "#include \"a\\b\""

/-- The path of an include directive is read as it stands, but written with escapes. -/
theorem not_agrees_backslash :
    (parseScript "main.nss" escaped).diagnostics = [] ∧
      ¬ (parseScript "main.nss" (parseScript "main.nss" escaped).value.render).value.Agrees Eq
        (parseScript "main.nss" escaped).value := by
  refine ⟨by cbv, fun h => ?_⟩
  have hpaths := h.includes
  have hread : (parseScript "main.nss" escaped).value.includes.map (·.path) = ["a\\b"] := by
    cbv
  have hagain : (parseScript "main.nss"
      (parseScript "main.nss" escaped).value.render).value.includes.map (·.path) = ["a\\\\b"] := by
    cbv
  rw [hread, hagain] at hpaths
  exact absurd hpaths (by decide)

end Parse

end Stagecraft
