import Stagecraft.Proofs.Script.Continued
import Stagecraft.Proofs.Script.Repeated
import Stagecraft.Proofs.Script.Roundtrip

/-!
Behind the parenthesis that closes a condition an angle bracket is a comparison, so no dialogue can
stand there by itself; in braces it can.
-/

namespace Stagecraft

open Shape

namespace Parse

variable {α β : Type} {source : String} {ss : List Shape} {total : Nat}

lemma quiet_expectEnd {p : Parser} (h : (expectEnd p).2.diagnostics = #[]) :
    p.next.kind = .endOfFile ∧ p.diagnostics = #[] := by
  have hlook : expectEnd p = (if p.next.kind != .endOfFile then
      report .trailingInput p.next.span else pure () : Parse Unit) p := rfl
  rw [hlook] at h
  by_cases hend : p.next.kind = .endOfFile
  · rw [if_neg (by simp [hend])] at h
    exact ⟨hend, h⟩
  · rw [if_pos (by simp [hend])] at h
    exact absurd h Array.push_ne_empty

lemma tokens_of_quiet {p : Parser} (hp : p = .ofString source) (h : p.diagnostics = #[]) :
    (Scanner.tokens source).2 = [] := by
  subst hp
  exact congrArg Array.toList h

lemma spotless_of_quiet {x : Parse α} {p : Parser} (hp : p = .ofString source)
    (hgoes : Goes True (fun _ => 0) x p) (h : (expectEnd (x p).2).2.diagnostics = #[]) :
    (x p).2.Spotless ∧ (x p).2.rest = [] := by
  obtain ⟨hend, hquiet⟩ := quiet_expectEnd h
  have hproper : p.Proper := hp ▸ Parser.proper_ofTokens _ _
  have hwent := hgoes hproper
  have hcuts : p.cuts = 0 := by
    rw [hp]
    rfl
  exact ⟨⟨hquiet, (hwent.whole trivial).trans hcuts⟩,
    (hwent.onward.proper hproper).rest_eq_nil hend⟩

structure Stands (source : String) (ss : List Shape) (x : Nat → Parse α) (R : α → α → Prop) (a : α)
    (behind : TokenKind) : Prop where
  reads : Scanner.Reads (.ofString source) ss #[]
  modes : ss.foldl modesBehind [.code] = [.code]
  yields : ∀ total rest fuel, 16 * (ss.length + 4) ≤ fuel →
    Yields total (ss ++ mark behind :: rest) (x fuel) (R a) (mark behind :: rest)

lemma within_start {p q : Parser} {behind : List Shape} (hp : p = .ofString source)
    (hleft : p.Left ss.length ss) (hq : q.Left total (ss ++ behind)) :
    p.Within ⟨ss, behind, total⟩ [.code] q := by
  have hproper : p.Proper := hp ▸ Parser.proper_ofTokens _ _
  have hlawful : p.Lawful := hp ▸ Parser.lawful_ofString source
  have hshapes : p.left = ss := hleft.shapes
  refine ⟨hproper.final, fun s hs => ⟨hlawful.left.genuine s hs, ?_⟩, ?_,
    ⟨[], hshapes.symm, rfl⟩, hshapes ▸ hq⟩
  · obtain ⟨t, ht, rfl⟩ := List.mem_map.mp hs
    exact hproper.inner t ht
  · rw [hshapes]
    exact hleft.taken

lemma exists_stands {x : Nat → Parse α} {R : α → α → Prop} {behind : TokenKind} {p : Parser}
    (hp : p = .ofString source)
    (hgoes : Goes True (fun _ => 0) (x p.budget) p)
    (hrepeats : ∀ l q fuel, headKind l.behind = behind → p.budget ≤ fuel →
      Repeats l [.code] (x p.budget) (x fuel) R [.code] p q)
    (hspotless : (expectEnd (x p.budget p).2).2.diagnostics = #[]) :
    ∃ ss, Stands source ss x R (x p.budget p).1 behind ∧ p.Left ss.length ss := by
  obtain ⟨hspotless', hnil⟩ := spotless_of_quiet hp hgoes hspotless
  obtain ⟨ss, ds, hreads⟩ := Scanner.exists_reads (.ofString source)
  obtain ⟨hshapes, hdiagnostics⟩ := hreads.tokens
  have hbefore : p.Spotless :=
    (hrepeats ⟨[], [mark behind], 0⟩ p _ rfl (Nat.le_refl _)).tidy.spotless hspotless'
  have hnone := tokens_of_quiet hp hbefore.diagnostics
  obtain rfl : ds = #[] := Array.toList_eq_nil_iff.mp (hdiagnostics.symm.trans hnone)
  have hleft : p.Left ss.length ss := hp ▸ Parser.left_of_tokens hshapes hnone
  have hbudget : p.budget = 16 * (ss.length + 4) := by
    rw [Parser.budget, ← hleft.shapes, List.length_map]
  -- what `x` does by itself it does in front of anything that starts with the kind `behind`
  have hagain {total fuel : Nat} {rest : List Shape} {q : Parser} (hfuel : p.budget ≤ fuel)
      (hq : q.Left total (ss ++ mark behind :: rest)) :
      R (x p.budget p).1 (x fuel q).1 ∧ ss.foldl modesBehind [.code] = [.code] ∧
        (x fuel q).2.Left total (mark behind :: rest) := by
    have hagrees := hrepeats ⟨ss, mark behind :: rest, total⟩ q fuel rfl hfuel
    obtain ⟨hR, hafter⟩ := hagrees.within (within_start hp hleft hq) hspotless'
    have hend : (x p.budget p).2.left = [] := by rw [Parser.left, hnil]; rfl
    obtain ⟨before, htext, hmodes⟩ := hafter.before
    have hlonger := hafter.longer
    rw [hend] at htext hlonger
    rw [List.append_nil] at htext
    rw [← htext] at hmodes
    exact ⟨hR, hmodes, hlonger⟩
  refine ⟨ss, ⟨hreads, ?_, fun total rest fuel hfuel q hq => ?_⟩, hleft⟩
  · -- the modes behind the text are seen by reading it in front of that kind alone
    let q : Parser := { rest := (ss ++ [mark behind]).map token, final := .endAt .unplaced }
    have hq : q.Left (ss ++ [mark behind]).length (ss ++ mark behind :: []) := by
      refine ⟨?_, rfl, Nat.zero_add _, rfl⟩
      exact (List.map_map ..).trans (List.map_id _)
    exact (hagain (Nat.le_refl _) hq).2.1
  · have hsame := hagain (hbudget ▸ hfuel) hq
    exact ⟨hsame.2.2, hsame.1⟩

lemma isCode_start : IsCode [.code] :=
  trivial

lemma parsed_eq {p : Parser} (hp : p = .ofString source) (f : Nat → Parse α) :
    Parsed.ofString source f = ⟨(f p.budget p).1, (f p.budget p).2.diagnostics.toList⟩ := by
  subst hp
  rfl

lemma pure_at (a : α) (p : Parser) : (pure a : Parse α) p = (a, p) :=
  rfl

lemma stands_expression (h : (parseExpression source).diagnostics = []) :
    ∃ ss, Stands source ss expression (Expression.Alike Eq) (parseExpression source).value
      .closeParen := by
  obtain ⟨p, hp⟩ : ∃ p, p = Parser.ofString source := ⟨_, rfl⟩
  have hgoes : Goes True (fun _ => 0) (expression p.budget) p :=
    (goes_expression _ p).mono (fun _ => by unfold Parser.budget; omega) fun _ => Nat.le_refl _
  rw [parseExpression, parsed_eq hp] at h ⊢
  simp only [bind_at, pure_at] at h ⊢
  have hspotless : (expectEnd (expression p.budget p).2).2.diagnostics = #[] :=
    Array.toList_eq_nil_iff.mp h
  have hrepeats (l : Passage) (q : Parser) (fuel : Nat) (hbehind : headKind l.behind = .closeParen)
      (hfuel : p.budget ≤ fuel) : Repeats l [.code] (expression p.budget) (expression fuel)
        (Expression.Alike Eq) [.code] p q :=
    (opens_expression (by simp [hbehind]) isCode_start _ fuel hfuel p q).toRepeats
  obtain ⟨ss, hstands, -⟩ := exists_stands hp hgoes hrepeats hspotless
  exact ⟨ss, hstands⟩

lemma front_of_isDialogueStart {p : Parser} (hp : p = .ofString source)
    (hleft : p.Left ss.length ss) (hstart : p.next.isDialogueStart = true) :
    ∃ content ss', ss = (.startTag, .text content) :: ss' ∧
      (token (.startTag, .text content)).isDialogueStart = true := by
  have hproper : p.Proper := hp ▸ Parser.proper_ofTokens _ _
  have hlawful : p.Lawful := hp ▸ Parser.lawful_ofString source
  have hkind := startTag_of_isDialogueStart hstart
  obtain ⟨rest, hrest⟩ := hproper.rest_of_next (by simp [hkind])
  have hgenuine : Genuine p.next.shape := by
    refine hlawful.left.genuine _ ?_
    rw [Parser.left, hrest]
    exact List.mem_cons_self
  obtain ⟨content, hcontent⟩ := textual_of_genuine hgenuine (.inl hkind)
  have hshape : p.next.shape = (.startTag, .text content) := by rw [Token.shape, hkind, hcontent]
  refine ⟨content, rest.map Token.shape, ?_, ?_⟩
  · rw [← hleft.shapes, hrest, List.map_cons, hshape]
  · rw [← hshape]
    exact (isDialogueStart_shape hgenuine).trans hstart

lemma stands_dialogue (h : (parseDialogue source).diagnostics = []) :
    ∃ ss d, (parseDialogue source).value = some d ∧
      Stands source ss dialogue (Dialogue.Agrees Eq) d .closeBrace ∧
      ∃ content ss', ss = (.startTag, .text content) :: ss' ∧
        (token (.startTag, .text content)).isDialogueStart = true := by
  obtain ⟨p, hp⟩ : ∃ p, p = Parser.ofString source := ⟨_, rfl⟩
  have hgoes : Goes True (fun _ => 0) (dialogue p.budget) p :=
    (goes_dialogue _ 0 p (.inl rfl)).mono (fun _ => by unfold Parser.budget; omega)
      fun _ => Nat.le_refl _
  rw [parseDialogue, parsed_eq hp] at h ⊢
  have hlook : peek p = (p.next, p) := rfl
  simp only [bind_at, hlook] at h ⊢
  by_cases hstart : p.next.isDialogueStart = true
  · simp only [hstart, if_true, bind_at, pure_at] at h ⊢
    have hspotless : (expectEnd (dialogue p.budget p).2).2.diagnostics = #[] :=
      Array.toList_eq_nil_iff.mp h
    have hrepeats (l : Passage) (q : Parser) (fuel : Nat)
        (hbehind : headKind l.behind = .closeBrace) (hfuel : p.budget ≤ fuel) :
        Repeats l [.code] (dialogue p.budget) (dialogue fuel) (Dialogue.Agrees Eq) [.code] p q :=
      (opens_dialogue hbehind isCode_start _ fuel hfuel p q hstart).toRepeats
    obtain ⟨ss, hstands, hleft⟩ := exists_stands hp hgoes hrepeats hspotless
    exact ⟨ss, _, rfl, hstands, front_of_isDialogueStart hp hleft hstart⟩
  · rw [if_neg hstart] at h
    have hreported : (unexpected "a <PRE> dialogue block" p).2.diagnostics ≠ #[] :=
      Array.push_ne_empty
    exact absurd (Array.toList_eq_nil_iff.mp h) hreported

end Parse

inductive Guard where
  | branch
  | loop
  deriving DecidableEq, Repr

namespace Guard

def word : Guard → String
  | branch => "if"
  | loop => "while"

def token : Guard → TokenKind
  | branch => .ifWord
  | loop => .whileWord

def statement : Guard → Node → Expression → Statement → Statement
  | branch => .ifThen
  | loop => .loop

def text (g : Guard) (condition body : String) : String :=
  g.word ++ " (" ++ condition ++ ") " ++ body

end Guard

lemma Lexeme.code_less {c : Char} {rest : List Char} (h : (code none c rest).kind = .startTag) :
    (code (some .closeParen) c rest).kind = .less := by
  have hname : isNameStart '<' = false := by decide
  obtain rfl : c = '<' := by
    rcases isSpoken_coded (coded none c rest) with hspoken | ⟨hc, -⟩
    · rw [h] at hspoken
      cases hspoken
    · exact hc
  have hoperator : (operator '<' rest).kind ≠ .startTag := fun hkind => by
    have hspoken := isSpoken_operator '<' rest
    rw [hkind] at hspoken
    cases hspoken
  have hlooks : looksLikeTag ('<' :: rest) = true := by
    by_contra hlooks
    simp [code, isSigil, hname, hlooks, hoperator] at h
  have hcode : code (some .closeParen) '<' rest = operator '<' rest := by
    simp [code, isSigil, endsOperand, hname]
  have htwo : rest.head?.bind (twoCharOperator '<') = none := by
    cases rest with
    | nil => rfl
    | cons d tail =>
      have hequal : d ≠ '=' := by
        rintro rfl
        simp [looksLikeTag, show Text.isAlphabetic '=' = false by decide] at hlooks
      simp [twoCharOperator, hequal]
  rw [hcode, operator, htwo]
  rfl

namespace Scanner

lemma leads_guard (g : Guard) {c : String} {cs : List Shape} (body : String)
    (hreads : Reads (ofString c) cs #[]) (hcode : cs.foldl modesBehind [.code] = [.code])
    (hfree : CommentFree c) :
    ∃ u, (ofString (g.text c body)).Leads
        (mark g.token :: mark .openParen :: (cs ++ [mark .closeParen])) u ∧
      u.rest = body.toList ∧ u.modes = [.code] ∧ u.previous = some .closeParen := by
  have hkeyword : TokenKind.keyword? g.word = some g.token := by cases g <;> decide
  have hbare : Script.isBare g.word = true := by cases g <;> decide
  have hblank : Text.isBlank ' ' = true := by decide
  have hapart : Apart (' ' :: '(' :: (c.toList ++ ')' :: ' ' :: body.toList)) := by
    rintro _ ⟨⟩
    decide
  obtain ⟨ch, tail, hword, hstarts⟩ := starts_bare hbare (.inl ⟨g.token, hkeyword, rfl⟩) hapart
  have htext : (ofString (g.text c body)).rest = ch :: tail := by
    rw [← hword]
    simp [ofString, Guard.text, String.toList_append]
  obtain ⟨u₁, h₁, hrest₁, hm₁, -⟩ := leads_starts rfl htext hstarts
  have h₂ := leads_blank hm₁ hrest₁ hblank
  obtain ⟨u₃, h₃, hrest₃, hm₃, hprevious₃⟩ :=
    leads_mark (u := u₁.skip [' '] ('(' :: (c.toList ++ ')' :: ' ' :: body.toList))) hm₁ rfl rfl
      fun _ => rfl
  obtain ⟨u₄, h₄, hrest₄, hm₄⟩ := leads_text hreads hcode (closing_paren _) (.inr hfree) hm₃
    hrest₃ (by rw [hprevious₃]; rfl)
  obtain ⟨u₅, h₅, hrest₅, hm₅, hprevious₅⟩ := leads_mark hm₄ hrest₄ rfl fun _ => rfl
  have h₆ := leads_blank hm₅ hrest₅ hblank
  refine ⟨u₅.skip [' '] body.toList, ?_, rfl, hm₅, hprevious₅⟩
  simpa using h₁.trans (h₂.trans (h₃.trans (h₄.trans (h₅.trans h₆))))

lemma next_closeParen {u : Scanner} {d : String} (hrest : u.rest = d.toList)
    (hm : u.modes = [.code]) (hu : u.previous = some .closeParen)
    (hd : (ofString d).next.1.kind = .startTag) : u.next.1.kind = .less := by
  obtain ⟨gap, c, tail, hd', hgap, hsolid, hnext⟩ :=
    next_code (s := ofString d) (by simp [ofString]) (by simp [hd])
  have hnone : (ofString d).previous = none := rfl
  rw [hnext, accept_kind, hnone] at hd
  have hu' : u.next = (u.skip gap (c :: tail)).accept (Lexeme.code (some .closeParen) c tail) := by
    have hskip : u.skipTrivia = u.skip gap (c :: tail) := by
      rw [skipTrivia_trivia hgap (hrest.trans hd')]
      exact skipTrivia_solid rfl hsolid
    rw [next_cons (hm ▸ trivial) (by rw [hskip]; rfl), hskip,
      show (u.skip _ _).previous = _ from hu]
  rw [hu', accept_kind]
  exact Lexeme.code_less hd

lemma reads_braced (g : Guard) {c d : String} {cs ds : List Shape}
    (hc : Reads (ofString c) cs #[]) (hcode : cs.foldl modesBehind [.code] = [.code])
    (hfree : CommentFree c) (hd : Reads (ofString d) ds #[])
    (hdcode : ds.foldl modesBehind [.code] = [.code]) :
    Reads (ofString (g.text c ("\x7b" ++ d ++ "\n\x7d")))
      (mark g.token :: mark .openParen :: (cs ++ mark .closeParen :: mark .openBrace ::
        (ds ++ [mark .closeBrace]))) #[] := by
  obtain ⟨u₁, h₁, hrest₁, hm₁, -⟩ := leads_guard g ("\x7b" ++ d ++ "\n\x7d") hc hcode hfree
  have hbody : u₁.rest = '\x7b' :: (d.toList ++ '\n' :: '\x7d' :: []) := by
    rw [hrest₁]
    simp [String.toList_append]
  obtain ⟨u₂, h₂, hrest₂, hm₂, hprevious₂⟩ := leads_mark hm₁ hbody rfl fun _ => rfl
  obtain ⟨u₃, h₃, hrest₃, hm₃⟩ := leads_text hd hdcode (closing_break _) (.inl rfl) hm₂ hrest₂
    (by rw [hprevious₂]; rfl)
  have h₄ := leads_blank hm₃ hrest₃ (by decide)
  obtain ⟨u₅, h₅, hrest₅, hm₅, -⟩ :=
    leads_mark (u := u₃.skip ['\n'] ['\x7d']) hm₃ rfl rfl fun _ => rfl
  have hleads := h₁.trans (h₂.trans (h₃.trans (h₄.trans h₅)))
  have hend := reads_end hm₅ hrest₅
  rw [hleads.diagnostics] at hend
  have hreads : Reads _ _ #[] := hleads.reads _ _ hend
  simpa using hreads

end Scanner

namespace Parse

section Fails

variable {total : Nat} {before middle : List Shape} {Q : α → Prop} {x : Parse α} {f : α → Parse β}

def Fails (total : Nat) (before : List Shape) (x : Parse α) : Prop :=
  ∀ p : Parser, p.Left total before → ¬ (x p).2.Spotless

lemma Yields.fails (hx : Yields total before x Q middle)
    (hf : ∀ a, Q a → Fails total middle (f a)) : Fails total before (x >>= f) :=
  fun p hp => hf _ (hx p hp).2 _ (hx p hp).1

lemma Fails.bind (hx : Fails total before x) (hf : ∀ a p, Tidy (f a) p) :
    Fails total before (x >>= f) :=
  fun p hp hspotless => hx p hp ((hf _ _).spotless hspotless)

lemma tidy_statement (fuel : Nat) (p : Parser) : Tidy (statement fuel) p :=
  (opens_statement (l := ⟨[], [mark .closeBrace], 0⟩) rfl isCode_start fuel fuel (Nat.le_refl _) p
    p).tidy

lemma fails_statement {fuel : Nat} {s : Shape} {ss : List Shape} (hs : s.1 ∉ statementOpenings) :
    Fails total (s :: ss) (statement fuel) := by
  intro p hp hspotless
  have hopens := opens_statement (l := ⟨[], [mark .closeBrace], 0⟩) rfl isCode_start fuel fuel
    (Nat.le_refl _) p p
  have hnext : p.next.kind = s.1 := (yields_peekKind p hp).2
  exact hs (hnext ▸ (hopens.first hp.final hspotless).1)

end Fails

section Guarded

variable {g : Guard} {fuel total : Nat} {cs rest after : List Shape} {P : Expression → Prop}
  {Q : Statement → Prop}

lemma yields_guardCondition
    (hc : Yields total (cs ++ mark .closeParen :: rest) (expression fuel) P
      (mark .closeParen :: rest)) :
    Yields total (mark .openParen :: (cs ++ mark .closeParen :: rest)) (condition fuel) P rest :=
  (yields_expect rfl).bind fun _ _ => hc.bind fun _ hc => (yields_expect rfl).bind fun _ _ =>
    yields_pure hc

lemma fails_guard {s : Shape} {ss : List Shape} (hs : s.1 ∉ statementOpenings)
    (hc : Yields total (cs ++ mark .closeParen :: s :: ss) (expression fuel) P
      (mark .closeParen :: s :: ss)) :
    Fails total (mark g.token :: mark .openParen :: (cs ++ mark .closeParen :: s :: ss))
      (statement (fuel + 1)) := by
  refine yields_peek_mark.fails fun t hkind => ?_
  cases g with
  | branch =>
    simp only [hkind, Guard.token]
    refine yields_advance.fails fun _ _ => (yields_guardCondition hc).fails fun _ _ =>
      (fails_statement hs).bind fun _ p => tidy_eat.bind ?_
    split
    · exact (tidy_statement _ _).bind tidy_node
    · exact tidy_node
  | loop =>
    simp only [hkind, Guard.token]
    exact yields_advance.fails fun _ _ => (yields_guardCondition hc).fails fun _ _ =>
      (fails_statement hs).bind fun _ p => tidy_node

lemma yields_guard (hc : Yields total (cs ++ mark .closeParen :: rest) (expression fuel) P
      (mark .closeParen :: rest))
    (hs : Yields total rest (statement fuel) Q after) (helse : headKind after ≠ .elseWord) :
    Yields total (mark g.token :: mark .openParen :: (cs ++ mark .closeParen :: rest))
      (statement (fuel + 1)) (fun s => ∃ n c body, s = g.statement n c body ∧ P c ∧ Q body)
      after := by
  refine yields_peek_mark.bind fun t hkind => ?_
  cases g with
  | branch =>
    simp only [hkind, Guard.token]
    refine yields_advance.bind fun _ _ => (yields_guardCondition hc).bind fun c hc =>
      hs.bind fun s hs => (yields_not_eat helse).bind fun more hmore => ?_
    rw [if_neg (by simp [hmore])]
    exact yields_node fun n => ⟨n, c, s, rfl, hc, hs⟩
  | loop =>
    simp only [hkind, Guard.token]
    exact yields_advance.bind fun _ _ => (yields_guardCondition hc).bind fun c hc =>
      hs.bind fun s hs => yields_node fun n => ⟨n, c, s, rfl, hc, hs⟩

lemma yields_dialogueStatement {content : String} {before : List Shape} {D : Dialogue → Prop}
    (hstart : (token (.startTag, .text content)).isDialogueStart = true)
    (hd : Yields total ((.startTag, .text content) :: before) (dialogue fuel) D after) :
    Yields total ((.startTag, .text content) :: before) (statement (fuel + 1))
      (fun s => ∃ n d, s = .dialogue n d ∧ D d) after := by
  refine yields_peek.bind fun t ht => ?_
  have hstart' : t.isDialogueStart = true := by
    rw [← hstart]
    exact Token.isDialogueStart_congr ht fun _ => ⟨content, congrArg Prod.snd ht⟩
  simp only [startTag_of_isDialogueStart hstart', hstart', if_true]
  exact hd.bind fun d hd => yields_node fun n => ⟨n, d, rfl, hd⟩

lemma yields_oneStatement {before : List Shape} {s : Shape} (hopen : endsBlock s.1 = false)
    (hs : Yields total (s :: before ++ mark .closeBrace :: after) (statement (fuel + 1)) Q
      (mark .closeBrace :: after)) :
    Yields total (s :: before ++ mark .closeBrace :: after) (statements (fuel + 2) #[])
      (fun found => ∃ s, found.toList = [s] ∧ Q s) (mark .closeBrace :: after) := by
  have hlast (found : Array Statement) : Yields total (mark .closeBrace :: after)
      (statements (fuel + 1) found) (· = found) (mark .closeBrace :: after) := by
    refine yields_peekKind.bind fun next hnext => ?_
    rw [hnext, headKind_cons, if_pos (by rfl)]
    exact yields_pure rfl
  refine yields_peekKind.bind fun next hnext => ?_
  rw [hnext, List.cons_append, headKind_cons, if_neg (by simp [hopen])]
  refine yields_get.bind fun p hp => hs.bind fun s hs => yields_get.bind fun p' hp' => ?_
  have htaken : p'.taken ≠ p.taken := by
    simp only [List.length_append, List.length_cons] at hp hp'
    omega
  rw [if_neg (by simpa using htaken)]
  intro p hp
  obtain ⟨hleft, hfound⟩ := hlast (#[].push s) p hp
  exact ⟨hleft, s, by rw [hfound]; rfl, hs⟩

lemma yields_block {before : List Shape} {B : List Statement → Prop}
    (hs : Yields total before (statements fuel #[]) (fun found => B found.toList)
      (mark .closeBrace :: after)) :
    Yields total (mark .openBrace :: before) (block (fuel + 1))
      (fun b => ∃ n ss, b = .mk n ss ∧ B ss) after := by
  refine yields_freshId.bind fun _ _ => yields_peek.bind fun t ht =>
    (yields_expect rfl).bind fun opened hopened => ?_
  rw [if_pos hopened]
  exact hs.bind fun found hfound => (yields_expect rfl).bind fun _ _ =>
    yields_lastSpan.bind fun _ _ => yields_pure ⟨_, _, rfl, hfound⟩

lemma yields_braced {content : String} {ss : List Shape} {D : Dialogue → Prop}
    (hstart : (token (.startTag, .text content)).isDialogueStart = true)
    (hd : Yields total ((.startTag, .text content) :: ss ++ mark .closeBrace :: after)
      (dialogue fuel) D (mark .closeBrace :: after)) :
    Yields total (mark .openBrace ::
        ((.startTag, .text content) :: ss ++ mark .closeBrace :: after)) (statement (fuel + 4))
      (fun s => ∃ n n' n'' d, s = .block n (.mk n' [.dialogue n'' d]) ∧ D d) after := by
  have hdialogue := yields_dialogueStatement hstart hd
  have hblock := yields_block (B := fun found => ∃ s, found = [s] ∧ ∃ n d, s = .dialogue n d ∧ D d)
    (yields_oneStatement rfl hdialogue)
  refine yields_peek_mark.bind fun t hkind => ?_
  simp only [hkind]
  refine hblock.bind fun b hb => yields_node fun n => ?_
  obtain ⟨n', _, rfl, _, rfl, n'', d, rfl, hD⟩ := hb
  exact ⟨n, n', n'', d, rfl, hD⟩

end Guarded

lemma exists_fuel {p : Parser} {s : Shape} {cs ss : List Shape}
    (h : p.Left total (s :: mark .openParen :: (cs ++ mark .closeParen :: ss))) :
    ∃ fuel, p.budget = fuel + 1 ∧ 16 * (cs.length + ss.length + 4) + 4 ≤ fuel := by
  have hlength := congrArg List.length h.shapes
  simp only [List.length_map, List.length_cons, List.length_append] at hlength
  refine ⟨16 * (p.rest.length + 4) - 1, rfl, by omega⟩

section Sources

variable {c d : String} {cs ds : List Shape}

lemma reports_bare (g : Guard) {e : Expression} {D : Dialogue} (hfree : Scanner.CommentFree c)
    (hc : Stands c cs expression (Expression.Alike Eq) e .closeParen)
    (hd : Stands d ds dialogue (Dialogue.Agrees Eq) D .closeBrace)
    (hstart : headKind ds = .startTag) : (parseStatement (g.text c d)).diagnostics ≠ [] := by
  intro hquiet
  obtain ⟨p, hp⟩ : ∃ p, p = Parser.ofString (g.text c d) := ⟨_, rfl⟩
  rw [parseStatement, parsed_eq hp] at hquiet
  simp only [bind_at, pure_at] at hquiet
  have hgoes : Goes True (fun _ => 0) (statement p.budget) p :=
    (goes_statement _ p).mono (fun _ => by unfold Parser.budget; omega) fun _ => Nat.le_refl _
  obtain ⟨hspotless, -⟩ := spotless_of_quiet hp hgoes (Array.toList_eq_nil_iff.mp hquiet)
  obtain ⟨u, hleads, hrest, hm, hprevious⟩ := Scanner.leads_guard g d hc.reads hc.modes hfree
  have hless : u.next.1.kind = .less :=
    Scanner.next_closeParen hrest hm hprevious (hd.reads.headKind.symm.trans hstart)
  obtain ⟨us, es, hus⟩ := Scanner.exists_reads u
  obtain ⟨htokens, hes⟩ := (hleads.reads us es hus).tokens
  have hnone := tokens_of_quiet hp ((tidy_statement _ _).spotless hspotless).diagnostics
  have hleft := hp ▸ Parser.left_of_tokens htokens hnone
  have hfirst := hus.headKind.trans hless
  cases us with
  | nil => cases hfirst
  | cons s us =>
    have hs : s.1 ∉ statementOpenings := by
      rw [show s.1 = .less from hfirst]
      decide
    have hsplit : mark g.token :: mark .openParen :: (cs ++ [mark .closeParen]) ++ s :: us =
        mark g.token :: mark .openParen :: (cs ++ mark .closeParen :: s :: us) := by simp
    rw [hsplit] at hleft
    obtain ⟨fuel, hfuel, hle⟩ := exists_fuel hleft
    rw [hfuel] at hspotless
    exact fails_guard hs (hc.yields _ (s :: us) fuel (by omega)) p hleft hspotless

lemma reads_inBraces (g : Guard) {e : Expression} {D : Dialogue} (hfree : Scanner.CommentFree c)
    (hc : Stands c cs expression (Expression.Alike Eq) e .closeParen) {content : String}
    (hd : Stands d ((.startTag, .text content) :: ds) dialogue (Dialogue.Agrees Eq) D .closeBrace)
    (hstart : (token (.startTag, .text content)).isDialogueStart = true) :
    (parseStatement (g.text c ("\x7b" ++ d ++ "\n\x7d"))).diagnostics = [] ∧
      ∃ n c' body, (parseStatement (g.text c ("\x7b" ++ d ++ "\n\x7d"))).value =
          g.statement n c' body ∧ e.Alike Eq c' ∧
        ∃ n n' n'' D', body = .block n (.mk n' [.dialogue n'' D']) ∧ D.Agrees Eq D' := by
  obtain ⟨p, hp⟩ : ∃ p, p = Parser.ofString (g.text c ("\x7b" ++ d ++ "\n\x7d")) := ⟨_, rfl⟩
  obtain ⟨htokens, hquiet⟩ :=
    (Scanner.reads_braced g hc.reads hc.modes hfree hd.reads hd.modes).tokens
  obtain ⟨total, hleft⟩ : ∃ total, p.Left total _ :=
    ⟨_, hp ▸ Parser.left_of_tokens htokens hquiet⟩
  obtain ⟨fuel, hfuel, hle⟩ := exists_fuel hleft
  obtain ⟨fuel, rfl⟩ : ∃ fuel', fuel = fuel' + 4 := ⟨fuel - 4, by omega⟩
  simp only [List.length_cons, List.length_append] at hle
  have hcondition := hc.yields total (mark .openBrace :: ((.startTag, .text content) :: ds ++
    [mark .closeBrace])) (fuel + 4) (by omega)
  have hbody := yields_braced hstart
    (hd.yields total [] fuel (by simp only [List.length_cons]; omega))
  have hread := (yields_guard (g := g) hcondition hbody (by decide)).bind fun s hs =>
    yields_expectEnd.bind fun _ _ => yields_pure (a := s) hs
  obtain ⟨hend, hvalue⟩ := hread p hleft
  rw [parseStatement, parsed_eq hp, hfuel]
  exact ⟨congrArg Array.toList hend.diagnostics, hvalue⟩

end Sources

/-- Behind a condition dialogue cannot stand by itself, although both can be read: the angle bracket
behind the parenthesis is taken for a comparison, whatever the condition and the dialogue are. In
braces the dialogue is read there as it is read by itself. -/
theorem guarded_dialogue (g : Guard) (c d : String) (hfree : Scanner.CommentFree c)
    (hc : (parseExpression c).diagnostics = []) (hd : (parseDialogue d).diagnostics = []) :
    (parseStatement (g.text c d)).diagnostics ≠ [] ∧
      (parseStatement (g.text c ("\x7b" ++ d ++ "\n\x7d"))).diagnostics = [] ∧
      ∃ D, (parseDialogue d).value = some D ∧ ∃ n c' body,
        (parseStatement (g.text c ("\x7b" ++ d ++ "\n\x7d"))).value = g.statement n c' body ∧
          (parseExpression c).value.Alike Eq c' ∧
          ∃ n n' n'' D', body = .block n (.mk n' [.dialogue n'' D']) ∧ D.Agrees Eq D' := by
  obtain ⟨cs, hcondition⟩ := stands_expression hc
  obtain ⟨_, D, hvalue, hdialogue, content, ds, rfl, hstart⟩ := stands_dialogue hd
  obtain ⟨hquiet, hread⟩ := reads_inBraces g hfree hcondition hdialogue hstart
  exact ⟨reports_bare g hfree hcondition hdialogue rfl, hquiet, D, hvalue, hread⟩

def greeting : String :=
  "<PRE box>Hi</PRE>"

theorem guarded_dialogue_greeting :
    Scanner.CommentFree "true" ∧ (parseExpression "true").diagnostics = [] ∧
      (parseDialogue greeting).diagnostics = [] ∧
      (parseStatement "if (true) <PRE box>Hi</PRE>").diagnostics ≠ [] ∧
      (parseStatement "if (true) \x7b<PRE box>Hi</PRE>\n\x7d").diagnostics = [] := by
  have hfree : Scanner.CommentFree "true" := by decide +kernel
  have hc : (parseExpression "true").diagnostics = [] := by decide +kernel
  have hd : (parseDialogue greeting).diagnostics = [] := by decide +kernel
  have hread := guarded_dialogue .branch "true" greeting hfree hc hd
  exact ⟨hfree, hc, hd, hread.1, hread.2.1⟩

/-- A condition and dialogue that can both be read, and what is reported when one stands behind the
other. -/
theorem not_reads_greeting :
    Scanner.CommentFree "true" ∧ (parseExpression "true").diagnostics = [] ∧
      (parseDialogue greeting).diagnostics = [] ∧
      (parseStatement (Guard.text .branch "true" greeting)).diagnostics.map (·.issue) =
        [.unexpectedToken "an expression" "'<'", .unexpectedToken "';'" "'PRE'"] :=
  ⟨by decide +kernel, by decide +kernel, by decide +kernel, by decide +kernel⟩

end Parse

end Stagecraft
