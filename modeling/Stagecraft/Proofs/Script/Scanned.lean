import Stagecraft.Proofs.Script.Shapes

namespace Stagecraft

open Shape

namespace Lexeme

structure Solid (c : Char) (rest : List Char) : Prop where
  blank : Text.isBlank c = false
  comment : c = '/' → rest.head? ≠ some '/' ∧ rest.head? ≠ some '*'

structure Starts (c : Char) (tail : List Char) (shape : Shape) (rest : List Char) : Prop where
  solid : Solid c tail
  code : ∀ previous, ∃ chars,
    Lexeme.code previous c tail = { kind := shape.1, value := shape.2, chars, rest }
  length : rest.length ≤ tail.length
  kind : shape.1 ∉ [.startTag, .endTag, .endOfFile]

end Lexeme

open Lexeme

def IsCode : List Mode → Prop
  | .code :: _ => True
  | .embedded depth :: _ => 1 ≤ depth
  | _ => False

inductive Point where
  | code (modes : List Mode) (free : Bool)
  | dialogue (outer : List Mode) (lineStart : Bool)

namespace Point

def modes : Point → List Mode
  | code modes _ => modes
  | dialogue outer _ => .dialogue :: outer

def lineStart : Point → Bool
  | code _ _ => false
  | dialogue _ lineStart => lineStart

def free : Point → Bool
  | code _ free => free
  | dialogue _ _ => false

def start : Point :=
  code [.code] true

def of (modes : List Mode) (lineStart free : Bool) : Point :=
  match modes with
  | .dialogue :: outer => dialogue outer lineStart
  | _ => code modes free

def after (p : Point) (s : Shape) : Point :=
  let next := Scanner.modesAfter p.modes p.lineStart s.token
  of next.1 next.2 (!endsOperand s.1)

end Point

inductive Scans : Point → List Char → List Shape → Prop
  | nil {free : Bool} : Scans (.code [.code] free) [] []
  | blank {modes : List Mode} {free : Bool} {c : Char} {cs : List Char} {ss : List Shape} :
    IsCode modes → Text.isBlank c = true → Scans (.code modes free) cs ss →
      Scans (.code modes free) (c :: cs) ss
  | token {modes : List Mode} {free : Bool} {c : Char} {tail rest : List Char} {shape : Shape}
    {ss : List Shape} : IsCode modes → Starts c tail shape rest →
      Scans ((Point.code modes free).after shape) rest ss →
      Scans (.code modes free) (c :: tail) (shape :: ss)
  | tag {modes : List Mode} {tail chars rest : List Char} {content : String} {ss : List Shape} :
    IsCode modes → looksLikeTag ('<' :: tail) = true → rest.length ≤ tail.length →
      Lexeme.tag ('<' :: tail) = some { kind := .startTag, value := .text content, chars, rest } →
      Scans ((Point.code modes true).after (.startTag, .text content)) rest ss →
      Scans (.code modes true) ('<' :: tail) ((.startTag, .text content) :: ss)
  | said {outer : List Mode} {lineStart : Bool} {c : Char} {tail : List Char} {l : Lexeme}
    {ss : List Shape} : Lexeme.dialogue lineStart c tail = l → l.kind ≠ .endOfFile →
      l.isSilent = false → l.issue = none → l.rest.length ≤ tail.length →
      (l.kind = .startTag ∨ l.kind = .endTag → ∃ content, l.value = .text content) →
      Scans ((Point.dialogue outer lineStart).after (l.kind, l.value)) l.rest ss →
      Scans (.dialogue outer lineStart) (c :: tail) ((l.kind, l.value) :: ss)

namespace Token

section Congr

variable {t t' : Token} (hshape : t.shape = t'.shape)
  (htag : t.kind = .startTag ∨ t.kind = .endTag → ∃ content, t.value = .text content)
include hshape htag

lemma namesDialogue_congr : t.namesDialogue = t'.namesDialogue := by
  obtain ⟨hkind, hvalue⟩ := Prod.mk.inj hshape
  unfold namesDialogue tagName?
  rw [← hkind]
  by_cases h : t.kind = .startTag ∨ t.kind = .endTag
  · obtain ⟨content, hcontent⟩ := htag h
    rw [show t.content = t'.content by rw [Token.content, Token.content, ← hvalue, hcontent]]
  · rw [not_or] at h
    split <;> simp_all

lemma isDialogueStart_congr : t.isDialogueStart = t'.isDialogueStart := by
  rw [isDialogueStart, isDialogueStart, namesDialogue_congr hshape htag,
    show t.kind = t'.kind from congrArg Prod.fst hshape]

lemma isDialogueEnd_congr : t.isDialogueEnd = t'.isDialogueEnd := by
  rw [isDialogueEnd, isDialogueEnd, namesDialogue_congr hshape htag,
    show t.kind = t'.kind from congrArg Prod.fst hshape]

end Congr

end Token

namespace Scanner

lemma skipTrivia_nil {s : Scanner} (h : s.rest = []) : s.skipTrivia = s := by
  rw [skipTrivia]
  split <;> simp_all

lemma skipTrivia_blank {s : Scanner} {c : Char} {rest : List Char} (h : s.rest = c :: rest)
    (hc : Text.isBlank c = true) : s.skipTrivia = (s.skip [c] rest).skipTrivia := by
  have hslash : c ≠ '/' := by
    rintro rfl
    exact absurd hc (by decide)
  rw [skipTrivia]
  split
  · next line hline => exact absurd (List.cons.inj (h.symm.trans hline)).1 hslash
  · next inside hinside => exact absurd (List.cons.inj (h.symm.trans hinside)).1 hslash
  · next d tail _ _ htail =>
    obtain ⟨rfl, rfl⟩ := List.cons.inj (h.symm.trans htail)
    rw [if_pos hc]
  · next hnil => simp [hnil] at h

lemma skipTrivia_solid {s : Scanner} {c : Char} {rest : List Char} (h : s.rest = c :: rest)
    (hc : Solid c rest) : s.skipTrivia = s := by
  rw [skipTrivia]
  split
  · next line hline =>
    obtain ⟨rfl, rfl⟩ := List.cons.inj (h.symm.trans hline)
    exact absurd rfl (hc.comment rfl).1
  · next inside hinside =>
    obtain ⟨rfl, rfl⟩ := List.cons.inj (h.symm.trans hinside)
    exact absurd rfl (hc.comment rfl).2
  · next d tail _ _ htail =>
    obtain ⟨rfl, rfl⟩ := List.cons.inj (h.symm.trans htail)
    simp [hc.blank]
  · rfl

lemma modes_skipTrivia (s : Scanner) : s.skipTrivia.modes = s.modes := by
  fun_induction skipTrivia s with
  | case1 s line h ih => exact ih
  | case2 s inside h n hn ih => exact ih
  | case3 s inside h hn => rfl
  | case4 s c rest _ _ h hc ih => exact ih
  | case5 s c rest _ _ h hc => rfl
  | case6 s h => rfl

lemma rest_skipTrivia_suffix (s : Scanner) : s.skipTrivia.rest <:+ s.rest := by
  fun_induction skipTrivia s with
  | case1 s line h ih =>
    exact ih.trans (h ▸ (List.dropWhile_suffix _).trans (by simp [List.suffix_cons_iff]))
  | case2 s inside h n hn ih =>
    exact ih.trans (h ▸ (List.drop_suffix _ _).trans (by simp [List.suffix_cons_iff]))
  | case3 s inside h hn => exact List.nil_suffix
  | case4 s c rest _ _ h hc ih => exact ih.trans (h ▸ List.suffix_cons _ _)
  | case5 s c rest _ _ h hc => exact List.suffix_refl _
  | case6 s h => exact List.suffix_refl _

section Code

variable {s : Scanner}

section Next

variable (hm : IsCode s.modes)
include hm

lemma not_dialogue : (s.modes.head? == some .dialogue) = false := by
  unfold IsCode at hm
  split at hm <;> simp_all

lemma next_end (h : s.skipTrivia.rest = []) :
    s.next = s.skipTrivia.accept { kind := .endOfFile, chars := [], rest := [] } := by
  simp [next, not_dialogue hm, h]

lemma next_cons {c : Char} {rest : List Char} (h : s.skipTrivia.rest = c :: rest) :
    s.next = s.skipTrivia.accept (Lexeme.code s.skipTrivia.previous c rest) := by
  simp [next, not_dialogue hm, h]

lemma next_blank {c : Char} {rest : List Char} (h : s.rest = c :: rest)
    (hc : Text.isBlank c = true) : s.next = (s.skip [c] rest).next := by
  have hs : IsCode (s.skip [c] rest).modes := hm
  cases hr : s.skipTrivia.rest with
  | nil =>
    rw [next_end hm hr, next_end hs (skipTrivia_blank h hc ▸ hr), skipTrivia_blank h hc]
  | cons d tail =>
    rw [next_cons hm hr, next_cons hs (skipTrivia_blank h hc ▸ hr), skipTrivia_blank h hc]

end Next

lemma accept_kind (l : Lexeme) : (s.accept l).1.kind = l.kind := by
  by_cases h : l.kind = .endOfFile <;> simp [accept, h, Token.endAt]

lemma accept_shape {l : Lexeme} (h : l.kind ≠ .endOfFile) :
    (s.accept l).1.shape = (l.kind, l.value) := by
  simp [accept, h, Token.shape]

lemma accept_rest (l : Lexeme) : (s.accept l).2.rest = l.rest := by
  cases hissue : l.issue <;> simp [accept, hissue, skip, report]

lemma accept_modes {l : Lexeme} (hm : s.modes = [.code]) (h : l.kind ≠ .startTag) :
    (s.accept l).2.modes = [.code] := by
  have hstart (t : Token) (ht : t.kind = l.kind ∨ t.kind = .endOfFile) :
      (modesAfter [.code] s.lineStart t).1 = [.code] := by
    rcases ht with ht | ht <;> simp [modesAfter, Token.isDialogueStart, ht, h]
  simp only [accept, hm]
  refine hstart _ ?_
  split
  · exact .inr rfl
  · exact .inl rfl

lemma accept_diagnostics {l : Lexeme} (h : l.issue = none) :
    (s.accept l).2.diagnostics = s.diagnostics := by
  simp [accept, h, skip]

end Code

section At

variable {s : Scanner} {p : Point}

structure At (s : Scanner) (p : Point) : Prop where
  modes : s.modes = p.modes
  lineStart : p.modes.head? = some .dialogue → s.lineStart = p.lineStart
  free : p.free = true → s.previous.any endsOperand = false

lemma modesAfter_congr {modes : List Mode} {lineStart : Bool} {t t' : Token}
    (hshape : t.shape = t'.shape)
    (htag : t.kind = .startTag ∨ t.kind = .endTag → ∃ content, t.value = .text content) :
    modesAfter modes lineStart t = modesAfter modes lineStart t' := by
  have hkind : t.kind = t'.kind := congrArg Prod.fst hshape
  have hstart := Token.isDialogueStart_congr hshape htag
  have hend := Token.isDialogueEnd_congr hshape htag
  unfold modesAfter
  rw [hkind, hstart, hend]

lemma of_modesAfter {modes : List Mode} {a b free : Bool} (t : Token)
    (h : modes.head? = some .dialogue → a = b) :
    Point.of (modesAfter modes a t).1 (modesAfter modes a t).2 free =
      Point.of (modesAfter modes b t).1 (modesAfter modes b t).2 free := by
  unfold modesAfter
  split
  · rw [h rfl]
  · split
    · rfl
    · split <;> rfl
    · split <;> rfl
  · next hdialogue _ =>
    split
    · rfl
    · unfold Point.of
      split
      · next outer hmodes => exact (hdialogue outer hmodes).elim
      · rfl

lemma at_of {free : Bool} (h : free = true → s.previous.any endsOperand = false) :
    s.At (.of s.modes s.lineStart free) := by
  unfold Point.of
  split
  · next outer hmodes => exact ⟨hmodes, fun _ => rfl, fun h => absurd h Bool.false_ne_true⟩
  · next hmodes =>
    refine ⟨rfl, fun hhead => ?_, h⟩
    obtain ⟨outer, houter⟩ := List.head?_eq_some_iff.mp hhead
    exact (hmodes outer houter).elim

lemma at_accept {l : Lexeme} (hp : s.At p) (hkind : l.kind ≠ .endOfFile)
    (htag : l.kind = .startTag ∨ l.kind = .endTag → ∃ content, l.value = .text content) :
    (s.accept l).2.At (p.after (l.kind, l.value)) := by
  have hprevious : (s.accept l).2.previous = some l.kind := by
    rw [← accept_kind (s := s) l]
    rfl
  have hmodes : modesAfter s.modes s.lineStart (s.accept l).1 =
      ((s.accept l).2.modes, (s.accept l).2.lineStart) := rfl
  have hafter : p.after (l.kind, l.value) =
      .of (s.accept l).2.modes (s.accept l).2.lineStart (!endsOperand l.kind) := by
    have hshape := accept_shape (s := s) hkind
    have htext (h : (s.accept l).1.kind = .startTag ∨ (s.accept l).1.kind = .endTag) :
        ∃ content, (s.accept l).1.value = .text content := by
      obtain ⟨content, hcontent⟩ := htag (by rwa [accept_kind] at h)
      exact ⟨content, (congrArg Prod.snd hshape).trans hcontent⟩
    have hsame : modesAfter s.modes s.lineStart (s.accept l).1 =
        modesAfter s.modes s.lineStart (Shape.token (l.kind, l.value)) :=
      modesAfter_congr hshape htext
    rw [Point.after, ← hp.modes, of_modesAfter _ fun h => (hp.lineStart (hp.modes ▸ h)).symm,
      ← hsame, hmodes]
  rw [hafter]
  refine at_of fun h => ?_
  simpa [hprevious] using h

end At

section Next

variable {s : Scanner} {p : Point} {c : Char} {tail : List Char}

lemma next_starts {rest : List Char} {shape : Shape} (hm : IsCode s.modes) (h : s.rest = c :: tail)
    (hc : Starts c tail shape rest) : ∃ l : Lexeme, s.next = s.accept l ∧ l.issue = none ∧
      l.rest = rest ∧ (l.kind, l.value) = shape := by
  have hskip := skipTrivia_solid h hc.solid
  obtain ⟨chars, hcode⟩ := hc.code s.previous
  refine ⟨{ kind := shape.1, value := shape.2, chars, rest }, ?_, rfl, rfl, rfl⟩
  rw [next_cons hm (by rw [hskip, h]), hskip, hcode]

lemma next_tag {l : Lexeme} (hm : IsCode s.modes) (h : s.rest = '<' :: tail)
    (hprevious : s.previous.any endsOperand = false) (hlooks : looksLikeTag ('<' :: tail) = true)
    (htag : Lexeme.tag ('<' :: tail) = some l) : s.next = s.accept l := by
  have hskip := skipTrivia_solid h ⟨by decide, by simp⟩
  have hcode : Lexeme.code s.previous '<' tail = l := by
    simp [Lexeme.code, isSigil, hprevious, hlooks, htag, show isNameStart '<' = false by decide]
  rw [next_cons hm (by rw [hskip, h]), hskip, hcode]

lemma next_said {lineStart : Bool} {outer : List Mode} (hm : s.modes = .dialogue :: outer)
    (hl : s.lineStart = lineStart) (h : s.rest = c :: tail)
    (hsilent : (Lexeme.dialogue lineStart c tail).isSilent = false) :
    s.next = s.accept (Lexeme.dialogue lineStart c tail) := by
  have hskip : s.skipSilence = s := by
    rw [skipSilence]
    split
    · rfl
    · next d rest hrest =>
      obtain ⟨rfl, rfl⟩ := List.cons.inj (h.symm.trans hrest)
      simp [hl, hsilent]
  simp [next, hm, hskip, h, hl]

end Next

lemma run_accept {p : Point} {tail : List Char} {ss : List Shape} {l : Lexeme} {fuel : Nat}
    {s : Scanner} {found : Array (Token × Nat)} (hnext : s.next = s.accept l) (hp : s.At p)
    (hkind : l.kind ≠ .endOfFile) (hissue : l.issue = none)
    (htag : l.kind = .startTag ∨ l.kind = .endTag → ∃ content, l.value = .text content)
    (hlength : l.rest.length ≤ tail.length) (hf : tail.length + 1 < fuel)
    (ih : ∀ {fuel : Nat} {s : Scanner} {found : Array (Token × Nat)}, s.rest = l.rest →
      s.At (p.after (l.kind, l.value)) → l.rest.length < fuel →
        (run fuel s found).1.toList.map (·.1.shape) =
            found.toList.map (·.1.shape) ++ (ss ++ [mark .endOfFile]) ∧
          (run fuel s found).2.diagnostics = s.diagnostics) :
    (run fuel s found).1.toList.map (·.1.shape) =
        found.toList.map (·.1.shape) ++ ((l.kind, l.value) :: ss ++ [mark .endOfFile]) ∧
      (run fuel s found).2.diagnostics = s.diagnostics := by
  obtain ⟨fuel, rfl⟩ := Nat.exists_eq_succ_of_ne_zero (by omega : fuel ≠ 0)
  obtain ⟨hshapes, hquiet⟩ := @ih fuel s.next.2 (found.push (s.next.1, s.next.2.diagnostics.size))
    (by rw [hnext, accept_rest]) (hnext ▸ at_accept hp hkind htag) (by omega)
  have hend : s.next.1.kind ≠ .endOfFile := by rwa [hnext, accept_kind]
  simp only [run, beq_iff_eq, hend, if_false]
  rw [hshapes, hquiet, hnext, accept_diagnostics hissue]
  simp [accept_shape hkind]

theorem run_scans {p : Point} {cs : List Char} {ss : List Shape} (h : Scans p cs ss) {fuel : Nat}
    {s : Scanner} {found : Array (Token × Nat)} (hr : s.rest = cs) (hp : s.At p)
    (hf : cs.length < fuel) :
    (run fuel s found).1.toList.map (·.1.shape) =
        found.toList.map (·.1.shape) ++ (ss ++ [mark .endOfFile]) ∧
      (run fuel s found).2.diagnostics = s.diagnostics := by
  induction h generalizing fuel s found with
  | nil =>
    obtain ⟨fuel, rfl⟩ := Nat.exists_eq_succ_of_ne_zero (by omega : fuel ≠ 0)
    have hskip := skipTrivia_nil hr
    have hm : IsCode s.modes := hp.modes ▸ trivial
    rw [run, next_end hm (by rw [hskip, hr]), hskip]
    simp [accept, skip, Token.endAt, Token.shape]
  | @blank modes free c cs ss hm hc _ ih =>
    obtain ⟨fuel, rfl⟩ := Nat.exists_eq_succ_of_ne_zero (by omega : fuel ≠ 0)
    have hrun : run (fuel + 1) s found = run (fuel + 1) (s.skip [c] cs) found := by
      rw [run, run, next_blank (hp.modes ▸ hm) hr hc]
    rw [hrun]
    exact ih rfl ⟨hp.modes, hp.lineStart, hp.free⟩ (by simp at hf; omega)
  | @token modes free c tail rest shape ss hm hc _ ih =>
    obtain ⟨l, hnext, hissue, rfl, rfl⟩ := next_starts (hp.modes ▸ hm) hr hc
    refine run_accept hnext hp (fun hend => hc.kind (by simp [hend])) hissue (fun htag => ?_)
      hc.length hf ih
    exact (hc.kind (by rcases htag with htag | htag <;> simp [htag])).elim
  | @tag modes tail chars rest content ss hm hlooks hlength htag _ ih =>
    exact run_accept (next_tag (hp.modes ▸ hm) hr (hp.free rfl) hlooks htag) hp (by simp) rfl
      (fun _ => ⟨content, rfl⟩) hlength hf ih
  | @said outer lineStart c tail l ss hl hkind hsilent hissue hlength htag _ ih =>
    subst hl
    exact run_accept (next_said hp.modes (hp.lineStart rfl) hr hsilent) hp hkind hissue htag
      hlength hf ih

lemma shapes_eq_run (source : String) : shapes source =
    (run (source.toList.length + 1) (ofString source) #[]).1.toList.map (·.1.shape) := by
  simp [shapes, tokens, tokensCounted, ofString, Function.comp_def]

theorem tokens_scans {source : String} {ss : List Shape} (h : Scans .start source.toList ss) :
    shapes source = ss ++ [mark .endOfFile] ∧ (tokens source).2 = [] := by
  obtain ⟨hshapes, hquiet⟩ :=
    @run_scans _ _ _ h (source.toList.length + 1) (ofString source) #[] rfl
      ⟨rfl, by simp [Point.start, Point.modes], fun _ => rfl⟩ (Nat.lt_succ_self _)
  constructor
  · simpa [shapes_eq_run] using hshapes
  · simpa [tokens, tokensCounted, ofString] using hquiet

lemma run_found (fuel : Nat) (s : Scanner) (found : Array (Token × Nat)) :
    (run fuel s found).1.toList = found.toList ++ (run fuel s #[]).1.toList := by
  induction fuel generalizing s found with
  | zero => simp [run]
  | succ fuel ih =>
    simp only [run]
    split
    · simp
    · rw [ih, ih _ (#[].push _)]
      simp

lemma inner_run (fuel : Nat) (s : Scanner) :
    ∀ t ∈ ((run fuel s #[]).1.toList.map (·.1)).dropLast, t.kind ≠ .endOfFile := by
  induction fuel generalizing s with
  | zero => simp [run]
  | succ fuel ih =>
    simp only [run]
    split
    · simp
    · next hkind =>
      rw [run_found]
      intro t ht
      cases hrest : (run fuel s.next.2 #[]).1.toList.map (·.1) with
      | nil => simp [hrest] at ht
      | cons u rest =>
        simp only [Array.toList_push, List.nil_append, List.map_cons, List.cons_append, hrest,
          List.dropLast_cons_cons, List.mem_cons] at ht
        rcases ht with rfl | ht
        · simpa using hkind
        · exact ih s.next.2 t (hrest ▸ ht)

lemma inner_tokens (source : String) :
    ∀ t ∈ (tokens source).1.dropLast, t.kind ≠ .endOfFile := by
  simpa [tokens, tokensCounted] using inner_run _ (ofString source)

lemma run_succ (fuel : Nat) (s : Scanner) : (run (fuel + 1) s #[]).1.toList.map (·.1.shape) =
    s.next.1.shape ::
      if s.next.1.kind = .endOfFile then []
      else (run fuel s.next.2 #[]).1.toList.map (·.1.shape) := by
  simp only [run, beq_iff_eq]
  split
  · simp
  · rw [run_found]
    simp

end Scanner

lemma ReadsAs.first {source : String} {shape : Shape} (h : ReadsAs source shape)
    (htag : shape.1 ≠ .startTag) (hend : shape.1 ≠ .endOfFile) :
    ∃ previous c tail, (Scanner.ofString source).skipTrivia.rest = c :: tail ∧
      shape = ((Lexeme.code previous c tail).kind, (Lexeme.code previous c tail).value) ∧
      ∃ s : Scanner, s.rest = (Lexeme.code previous c tail).rest ∧ s.modes = [.code] ∧
        s.next.1.kind = .endOfFile := by
  rw [ReadsAs, Scanner.shapes_eq_run, Scanner.run_succ] at h
  obtain ⟨hfirst, hrest⟩ := List.cons.inj h
  have hkind : (Scanner.ofString source).next.1.kind = shape.1 := congrArg Prod.fst hfirst
  rw [hkind, if_neg hend] at hrest
  cases htrivia : (Scanner.ofString source).skipTrivia.rest with
  | nil =>
    rw [Scanner.next_end (s := Scanner.ofString source) trivial htrivia] at hkind
    exact absurd hkind.symm hend
  | cons c tail =>
    have hnext := Scanner.next_cons (s := Scanner.ofString source) trivial htrivia
    rw [hnext, Scanner.accept_kind] at hkind
    refine ⟨(Scanner.ofString source).skipTrivia.previous, c, tail, rfl, ?_,
      (Scanner.ofString source).next.2, ?_, ?_, ?_⟩
    · rw [← hfirst, hnext, Scanner.accept_shape (hkind ▸ hend)]
    · rw [hnext, Scanner.accept_rest]
    · rw [hnext, Scanner.accept_modes (Scanner.modes_skipTrivia _) (hkind ▸ htag)]
    · generalize (Scanner.ofString source).next.2 = s at hrest
      cases hn : source.toList.length with
      | zero => simp [hn, Scanner.run] at hrest
      | succ n =>
        rw [hn, Scanner.run_succ] at hrest
        exact congrArg Prod.fst (List.cons.inj hrest).1

end Stagecraft
