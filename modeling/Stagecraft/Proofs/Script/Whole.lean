import Stagecraft.Proofs.Script.Reread

namespace Stagecraft

open Shape

lemma Member.shapes_ne_nil (m : Member) : m.shapes ≠ [] := by
  cases m with
  | dialogue d =>
    cases d
    simp [shapes, Dialogue.shapes]
  | _ => simp [shapes]

namespace Parse

variable {total : Nat} {same : Float → Float → Prop}

section Parameters

variable {rest : List Shape}

lemma yields_parameter {fuel : Nat} {name : String} {done : List String}
    {found : Array FormalParameter} {after : List Shape} {Q : Array FormalParameter → Prop}
    (hfound : found.toList.map (·.name) = done)
    (h : ∀ found' : Array FormalParameter, found'.toList.map (·.name) = done ++ [name] →
      Yields total after (do
        if ← eat .comma then formalParameters fuel found'
        else
          let _ ← expect .closeParen "')'"
          pure found') Q rest) :
    Yields total (Shape.name name :: after) (formalParameters (fuel + 1) found) Q rest := by
  refine yields_peek.bind fun t ht => ?_
  rw [if_pos (by simp [show t.kind = .identifier from congrArg Prod.fst ht])]
  refine yields_advance.bind fun _ _ => yields_freshId.bind fun _ _ => h _ ?_
  simp [hfound, Token.content_of_shape ht]

lemma yields_parameters (fuel : Nat) (done : List String) {names : List String}
    {found : Array FormalParameter} (hnames : names ≠ []) (hfound : found.toList.map (·.name) = done)
    (hf : (Member.parameterShapes names).length ≤ fuel) :
    Yields total (Member.parameterShapes names ++ mark .closeParen :: rest)
      (formalParameters fuel found) (fun r => r.toList.map (·.name) = done ++ names) rest := by
  obtain ⟨name, names, rfl⟩ := List.exists_cons_of_ne_nil hnames
  induction fuel generalizing name names done found with
  | zero => cases names <;> simp [Member.parameterShapes] at hf
  | succ fuel ih =>
    cases names with
    | nil =>
      refine yields_parameter hfound fun found' hfound' =>
        (yields_not_eat (by simp)).bind fun more hmore => ?_
      rw [if_neg (by simp [hmore])]
      exact (yields_expect rfl).bind fun _ _ => yields_pure hfound'
    | cons name' names =>
      refine yields_parameter hfound fun found' hfound' => (yields_eat rfl).bind fun more hmore => ?_
      rw [if_pos hmore, List.append_cons done]
      refine ih _ hfound' name' names (by simp) ?_
      simp only [Member.parameterShapes, List.length_cons] at hf
      omega

lemma yields_parameterList {fuel : Nat} {names : List String}
    (hf : (Member.parameterShapes names).length ≤ fuel) :
    Yields total (mark .openParen :: (Member.parameterShapes names ++ mark .closeParen :: rest))
      (parameterList fuel) (fun r => r.map (·.name) = names) rest := by
  refine (yields_expect rfl).bind fun opened hopened => ?_
  rw [if_pos hopened]
  cases names with
  | nil =>
    refine (yields_eat rfl).bind fun closed hclosed => ?_
    rw [if_pos hclosed]
    exact yields_pure rfl
  | cons name names =>
    refine (yields_not_eat ?_).bind fun closed hclosed => ?_
    · cases names <;> simp [Member.parameterShapes]
    · rw [if_neg (by simp [hclosed])]
      exact (yields_parameters fuel [] (by simp) rfl hf).bind fun _ hfound =>
        yields_pure hfound

end Parameters

section Files

variable {rest : List Shape}

lemma yields_member {fuel : Nat} {m : Member} (h : m.Stable same)
    (hkind : (headKind (m.shapes ++ rest)).isMember = true) (hf : 12 * m.shapes.length ≤ fuel) :
    Yields total (m.shapes ++ rest) (member fuel) (Member.Agrees same · m) rest := by
  cases m with
  | chapter _ name body =>
    simp only [Member.shapes, List.length_cons] at hf
    refine yields_advance.bind fun t ht => yields_freshId.bind fun _ _ =>
      (yields_name (.inl rfl)).bind fun _ hname => ?_
    simp only [show t.kind = .chapter from congrArg Prod.fst ht, hname]
    exact (restores_block fuel h.2 (by omega)).bind fun _ hbody => yields_pure (.chapter name hbody)
  | scene _ name body =>
    simp only [Member.shapes, List.length_cons] at hf
    refine yields_advance.bind fun t ht => yields_freshId.bind fun _ _ =>
      (yields_name (.inl rfl)).bind fun _ hname => ?_
    simp only [show t.kind = .scene from congrArg Prod.fst ht, hname]
    exact (restores_block fuel h.2 (by omega)).bind fun _ hbody => yields_pure (.scene name hbody)
  | function _ name parameters body =>
    simp only [Member.shapes, Member.parameterNames, List.length_cons, List.length_append] at hf
    simp only [Member.shapes, Member.parameterNames, List.cons_append, List.append_assoc]
    refine yields_advance.bind fun t ht => yields_freshId.bind fun _ _ =>
      (yields_name (.inl rfl)).bind fun _ hname => ?_
    simp only [show t.kind = .function from congrArg Prod.fst ht, hname]
    exact (yields_parameterList (by omega)).bind fun _ hparameters =>
      (restores_block fuel h.2.2 (by omega)).bind fun _ hbody =>
        yields_pure (.function name hparameters hbody)
  | dialogue d =>
    cases d
    exact absurd hkind (by simp [Member.shapes, Dialogue.shapes, TokenKind.isMember])

lemma yields_members (fuel : Nat) (includes : Array Include) {ms done : List Member}
    {found : Array Member} (h : ∀ m ∈ ms, m.Stable same)
    (hfound : List.Forall₂ (Member.Agrees same) found.toList done)
    (hf : 12 * (Member.allShapes ms).length + 1 ≤ fuel) :
    Yields total (Member.allShapes ms) (items fuel includes found)
      (fun r => r.1 = includes.toList ∧ List.Forall₂ (Member.Agrees same) r.2 (done ++ ms)) [] := by
  induction ms generalizing fuel found done with
  | nil =>
    obtain ⟨fuel, rfl⟩ : ∃ fuel', fuel = fuel' + 1 := ⟨fuel - 1, by omega⟩
    refine yields_peek_end.bind fun t ht => ?_
    rw [if_pos (by simp [ht]), List.append_nil]
    exact yields_pure ⟨rfl, hfound⟩
  | cons m ms ih =>
    obtain ⟨hm, hms⟩ := List.forall_mem_cons.mp h
    have hpos := List.length_pos_iff.mpr (Member.shapes_ne_nil m)
    simp only [Member.allShapes, List.length_append] at hf ⊢
    obtain ⟨fuel, rfl⟩ : ∃ fuel', fuel = fuel' + 1 := ⟨fuel - 1, by omega⟩
    have hpush {m' : Member} (hm' : m'.Agrees same m) :
        List.Forall₂ (Member.Agrees same) (found.push m').toList (done ++ [m]) := by
      rw [Array.toList_push]
      exact List.rel_append hfound (.cons hm' .nil)
    have hword (hkind : headKind (m.shapes ++ Member.allShapes ms) = .chapter ∨
        headKind (m.shapes ++ Member.allShapes ms) = .scene ∨
        headKind (m.shapes ++ Member.allShapes ms) = .function) :
        Yields total (m.shapes ++ Member.allShapes ms) (items (fuel + 1) includes found)
          (fun r => r.1 = includes.toList ∧
            List.Forall₂ (Member.Agrees same) r.2 (done ++ m :: ms)) [] := by
      have hmember : (headKind (m.shapes ++ Member.allShapes ms)).isMember = true := by
        rcases hkind with hkind | hkind | hkind <;> rw [hkind] <;> rfl
      refine yields_peekToken.bind fun t ht => ?_
      rw [ht]
      rw [if_neg (by rcases hkind with hkind | hkind | hkind <;> simp [hkind]),
        if_neg (by rcases hkind with hkind | hkind | hkind <;> simp [hkind]), if_pos hmember,
        List.append_cons done]
      exact (yields_member hm hmember (by omega)).bind fun _ hm' =>
        ih fuel hms (hpush hm') (by omega)
    cases m with
    | chapter _ name body => exact hword (.inl rfl)
    | scene _ name body => exact hword (.inr (.inl rfl))
    | function _ name parameters body => exact hword (.inr (.inr rfl))
    | dialogue d =>
      have hread : Yields total (d.shapes ++ Member.allShapes ms) (dialogue fuel)
          (Dialogue.Agrees same · d) (Member.allShapes ms) :=
        restores_dialogue fuel hm (by simp only [Member.shapes] at hf; omega)
      obtain ⟨node, box, name, parts⟩ := d
      refine yields_peek.bind fun t ht => ?_
      have hkind : t.kind = .startTag := congrArg Prod.fst ht
      have hstart : t.isDialogueStart = true := by
        rw [← isDialogueStart_boxTag box]
        exact Token.isDialogueStart_congr ht fun _ => ⟨boxTag box, congrArg Prod.snd ht⟩
      simp only [hkind, hstart]
      rw [List.append_cons done]
      exact hread.bind fun _ hd => ih fuel hms (hpush (.dialogue hd)) (by omega)

lemma yields_items (fuel : Nat) (done : List String) {paths : List String}
    {found : Array Include} {ms : List Member} (h : ∀ m ∈ ms, m.Stable same)
    (hfound : found.toList.map (·.path) = done)
    (hf : paths.length + 12 * (Member.allShapes ms).length + 1 ≤ fuel) :
    Yields total (paths.map (fun path => (.includeDirective, .text path)) ++ Member.allShapes ms)
      (items fuel found #[])
      (fun r => r.1.map (·.path) = done ++ paths ∧ List.Forall₂ (Member.Agrees same) r.2 ms) [] := by
  induction paths generalizing fuel found done with
  | nil =>
    intro p hp
    obtain ⟨hleft, hincludes, hmembers⟩ :=
      yields_members fuel found h .nil (by simpa using hf) p hp
    exact ⟨hleft, by rw [hincludes, hfound, List.append_nil], hmembers⟩
  | cons path paths ih =>
    obtain ⟨fuel, rfl⟩ : ∃ fuel', fuel = fuel' + 1 := ⟨fuel - 1, by omega⟩
    refine yields_peek.bind fun t ht => ?_
    have hkind : t.kind = .includeDirective := congrArg Prod.fst ht
    rw [if_neg (by simp [hkind]), if_pos (by simp [hkind]), List.append_cons done]
    refine yields_advance.bind fun _ _ => ih fuel _ ?_ (by simp at hf; omega)
    simp [hfound, Token.content_of_shape ht]

end Files

theorem parseScript_render {s : Script} (h : s.Stable same) :
    (parseScript s.path s.render).diagnostics = [] ∧
      (parseScript s.path s.render).value.Agrees same s := by
  have hleft := Parser.left_ofString (Script.scans h)
  have hlength : (Parser.ofString s.render).rest.length = s.shapes.length := by
    rw [← hleft.shapes, List.length_map]
  have hshapes : s.shapes = (s.includes.map (·.path)).map
      (fun path => (TokenKind.includeDirective, TokenValue.text path)) ++
        Member.allShapes s.members := by
    simp [Script.shapes]
  have hread : Yields s.shapes.length s.shapes
      (script (Parser.ofString s.render).budget s.path) (Script.Agrees same · s) [] := by
    rw [Parser.budget, hlength, hshapes, List.length_append, List.length_map]
    refine (yields_items _ [] h.members rfl (by omega)).bind
      fun found hfound => ?_
    exact yields_pure ⟨rfl, hfound.1, hfound.2⟩
  obtain ⟨hend, hagrees⟩ := hread _ hleft
  exact ⟨congrArg Array.toList hend.diagnostics, hagrees⟩

end Parse

end Stagecraft
