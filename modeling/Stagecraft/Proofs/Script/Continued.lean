import Stagecraft.Proofs.Script.Ongoing

namespace Stagecraft

open Shape

namespace Scanner

inductive Reads : Scanner → List Shape → Array Diagnostic → Prop
  | done {s : Scanner} : s.next.1.kind = .endOfFile → Reads s [] s.next.2.diagnostics
  | take {s : Scanner} {ss : List Shape} {ds : Array Diagnostic} : s.next.1.kind ≠ .endOfFile →
    Reads s.next.2 ss ds → Reads s (s.next.1.shape :: ss) ds

def commentFree : Nat → Scanner → Bool
  | 0, _ => true
  | fuel + 1, s => !s.atComment && (s.next.1.kind == .endOfFile || commentFree fuel s.next.2)

variable {s u : Scanner} {ss ts : List Shape} {ds : Array Diagnostic}

lemma shape_of_end (h : s.next.1.kind = .endOfFile) : s.next.1.shape = mark .endOfFile := by
  rcases s.takes_or_ends with ⟨gap, htakes⟩ | ⟨gap, tail, issue, hends⟩
  · exact absurd h htakes.kind
  · rw [hends.token]
    rfl

lemma diagnostics_next (s : Scanner) : s.diagnostics.toList <+: s.next.2.diagnostics.toList := by
  rcases s.takes_or_ends with ⟨gap, htakes⟩ | ⟨gap, tail, issue, hends⟩
  · exact htakes.diagnostics
  · rw [hends.diagnostics]
    exact List.prefix_append _ _

namespace Reads

lemma congr (h : Reads s ss ds) (hnext : u.next = s.next) : Reads u ss ds := by
  cases h with
  | done hkind =>
    rw [← hnext] at hkind ⊢
    exact .done hkind
  | take hkind h =>
    rw [← hnext] at hkind h ⊢
    exact .take hkind h

lemma unique {ds' : Array Diagnostic} (h : Reads s ss ds) (h' : Reads s ts ds') :
    ss = ts ∧ ds = ds' := by
  induction h generalizing ts with
  | done hkind =>
    cases h' with
    | done => exact ⟨rfl, rfl⟩
    | take hkind' => exact absurd hkind hkind'
  | take hkind _ ih =>
    cases h' with
    | done hkind' => exact absurd hkind' hkind
    | take _ h' =>
      obtain ⟨rfl, rfl⟩ := ih h'
      exact ⟨rfl, rfl⟩

lemma headKind (h : Reads s ss ds) : Stagecraft.headKind ss = s.next.1.kind := by
  cases h with
  | done hkind => exact hkind.symm
  | take => rfl

lemma diagnostics (h : Reads s ss ds) : s.diagnostics.toList <+: ds.toList ∧
    s.next.2.diagnostics.toList <+: ds.toList := by
  induction h with
  | done => exact ⟨diagnostics_next _, List.prefix_rfl⟩
  | take _ _ ih => exact ⟨(diagnostics_next _).trans ih.1, ih.1⟩

lemma quiet (h : Reads s ss #[]) : s.diagnostics = #[] ∧ s.next.2.diagnostics = #[] :=
  ⟨Array.toList_eq_nil_iff.mp (List.prefix_nil.mp h.diagnostics.1),
    Array.toList_eq_nil_iff.mp (List.prefix_nil.mp h.diagnostics.2)⟩

end Reads

lemma shorter (h : s.next.1.kind ≠ .endOfFile) : s.next.2.rest.length < s.rest.length := by
  rcases s.takes_or_ends with ⟨gap, htakes⟩ | ⟨gap, tail, issue, hends⟩
  · exact htakes.shorter
  · exact absurd (by rw [hends.token]; rfl) h

lemma reads_run {fuel : Nat} (h : s.rest.length < fuel) :
    ∃ ss, Reads s ss (run fuel s #[]).2.diagnostics ∧
      (run fuel s #[]).1.toList.map (·.1.shape) = ss ++ [mark .endOfFile] := by
  induction fuel generalizing s with
  | zero => exact absurd h (Nat.not_lt_zero _)
  | succ fuel ih =>
    rw [run_succ]
    by_cases hkind : s.next.1.kind = .endOfFile
    · have hrun : (run (fuel + 1) s #[]).2 = s.next.2 := by simp [run, hkind]
      rw [hrun, if_pos hkind, shape_of_end hkind]
      exact ⟨[], .done hkind, rfl⟩
    · have hshorter := shorter hkind
      obtain ⟨ss, hreads, hshapes⟩ := ih (s := s.next.2) (by omega)
      have hrun : (run (fuel + 1) s #[]).2 = (run fuel s.next.2 #[]).2 := by
        simp only [run, beq_iff_eq, hkind, if_false]
        exact scanner_run_found fuel _ _
      rw [hrun, if_neg hkind, hshapes]
      exact ⟨_, .take hkind hreads, rfl⟩

lemma exists_reads (s : Scanner) : ∃ ss ds, Reads s ss ds :=
  have ⟨ss, h, _⟩ := reads_run (s := s) (Nat.lt_succ_self _)
  ⟨ss, _, h⟩

lemma Reads.tokens {source : String} (h : Reads (ofString source) ss ds) :
    shapes source = ss ++ [mark .endOfFile] ∧ (Scanner.tokens source).2 = ds.toList := by
  obtain ⟨ss', hreads, hshapes⟩ :=
    reads_run (s := ofString source) (Nat.lt_succ_self (ofString source).rest.length)
  obtain ⟨rfl, rfl⟩ := h.unique hreads
  exact ⟨(shapes_eq_run source).trans hshapes, rfl⟩

section Modes

lemma modesAfter_fst {modes : List Mode} {a b : Bool} (t : Token) :
    (modesAfter modes a t).1 = (modesAfter modes b t).1 := by
  unfold modesAfter
  split
  · split <;> rfl
  · split
    · rfl
    · split <;> rfl
    · split <;> rfl
  · split <;> rfl

lemma modes_next (s : Scanner) : s.next.2.modes = modesBehind s.modes s.next.1.shape := by
  obtain ⟨s', l, hnext, hmodes, -⟩ := next_accept s
  have haccept : (s'.accept l).2.modes = (modesAfter s'.modes s'.lineStart (s'.accept l).1).1 := rfl
  have hsame : modesAfter s'.modes s'.lineStart s.next.1 =
      modesAfter s'.modes s'.lineStart s.next.1.shape.token :=
    modesAfter_congr rfl (textual_of_genuine (step_next s).genuine)
  rw [hnext] at hsame ⊢
  rw [haccept, hsame, hmodes, modesBehind]
  exact modesAfter_fst _

lemma unterminated (hm : s.modes.head? = some .dialogue) (hrest : s.rest = []) :
    s.next.2.diagnostics ≠ #[] := by
  rw [next]
  simp [hm, skipSilence_nil hrest, hrest, accept, report, skip]

end Modes

structure Leads (u : Scanner) (ss : List Shape) (u' : Scanner) : Prop where
  diagnostics : u'.diagnostics = u.diagnostics
  reads : ∀ ts ds, Reads u' ts ds → Reads u (ss ++ ts) ds

lemma Leads.trans {u' u'' : Scanner} (h : u.Leads ss u') (h' : u'.Leads ts u'') :
    u.Leads (ss ++ ts) u'' := by
  refine ⟨h'.diagnostics.trans h.diagnostics, fun us ds hus => ?_⟩
  rw [List.append_assoc]
  exact h.reads _ ds (h'.reads us ds hus)

theorem Reads.leads {more : List Char} {fuel : Nat} (h : Reads s ss #[]) (hu : s.Extends more u)
    (hmore : Closing more)
    (hfree : more.head? = some '\n' ∨ s.rest.length < fuel ∧ commentFree fuel s = true) :
    ∃ u', u.Leads ss u' ∧ u'.rest = more ∧ u'.modes = ss.foldl modesBehind s.modes := by
  -- along the tokens of the text itself; that both scanners are at the same place is carried along
  generalize hds : (#[] : Array Diagnostic) = ds at h
  induction h generalizing u fuel with
  | @done s hkind =>
    have hcomment : more.head? = some '\n' ∨ s.atComment = false := by
      refine hfree.imp_right fun ⟨hfuel, hfree⟩ => ?_
      obtain ⟨fuel, rfl⟩ := Nat.exists_eq_succ_of_ne_zero (by omega : fuel ≠ 0)
      rw [commentFree, Bool.and_eq_true] at hfree
      simpa using hfree.1
    have hquiet : s.next.2.diagnostics = s.diagnostics := by
      have hprefix := diagnostics_next s
      rw [← hds, List.prefix_nil] at hprefix
      rw [← hds, Array.toList_eq_nil_iff.mp hprefix]
    refine ⟨u.skip s.rest more, ⟨rfl, fun ts ds hts => ?_⟩, rfl, hu.modes⟩
    exact hts.congr (hu.ends hkind hquiet hcomment)
  | @take s ss ds hkind h ih =>
    subst hds
    have hquiet : s.next.2.diagnostics = s.diagnostics := by
      rw [h.quiet.1, (Reads.take hkind h).quiet.1]
    have haccords : s.Accords more u := by
      refine hu.accords hmore hkind hquiet fun hm htext hnil => ?_
      have hsaid : (modesAfter s.modes false s.next.1.shape.token).1 = s.modes :=
        modesAfter_of_kind (.inr htext)
      have hm' : s.next.2.modes.head? = some .dialogue := by
        rw [modes_next, modesBehind, hsaid, hm]
      exact unterminated hm' hnil h.quiet.2
    have hfree' : more.head? = some '\n' ∨
        s.next.2.rest.length < fuel - 1 ∧ commentFree (fuel - 1) s.next.2 = true := by
      refine hfree.imp_right fun ⟨hfuel, hfree⟩ => ?_
      obtain ⟨fuel, rfl⟩ := Nat.exists_eq_succ_of_ne_zero (by omega : fuel ≠ 0)
      have hshorter := shorter hkind
      rw [commentFree, Bool.and_eq_true, Bool.or_eq_true, beq_iff_eq] at hfree
      exact ⟨by omega, hfree.2.resolve_left hkind⟩
    obtain ⟨u', hleads, hrest, hmodes⟩ := ih haccords.behind hfree' rfl
    refine ⟨u', ⟨hleads.diagnostics.trans haccords.diagnostics, fun ts ds hts => ?_⟩, hrest, ?_⟩
    · have hukind : u.next.1.kind ≠ .endOfFile := by
        rw [show u.next.1.kind = s.next.1.kind from congrArg Prod.fst haccords.shape]
        exact hkind
      rw [List.cons_append, ← haccords.shape]
      exact .take hukind (hleads.reads ts ds hts)
    · rw [hmodes, modes_next, List.foldl_cons]

/-- Whether no comment is passed over in the text. -/
abbrev CommentFree (source : String) : Prop :=
  commentFree (source.toList.length + 1) (ofString source) = true

section Leads

variable {c : Char} {rest tail more : List Char} {shape : Shape}

lemma leads_starts (hm : u.modes = [.code]) (hrest : u.rest = c :: tail)
    (hc : Lexeme.Starts c tail shape rest) : ∃ u', u.Leads [shape] u' ∧ u'.rest = rest ∧
      u'.modes = [.code] ∧ u'.previous = some shape.1 := by
  obtain ⟨l, hnext, hissue, rfl, rfl⟩ := next_starts (hm ▸ trivial) hrest hc
  have hkind : l.kind ≠ .endOfFile := fun h => hc.kind (by simp [h])
  have htag : l.kind ≠ .startTag := fun h => hc.kind (by simp [h])
  refine ⟨(u.accept l).2, ⟨accept_diagnostics hissue, fun ts ds hts => ?_⟩, accept_rest l,
    accept_modes hm htag, ?_⟩
  · rw [← hnext] at hts
    have htake := Reads.take (by rwa [hnext, accept_kind]) hts
    rwa [hnext, accept_shape hkind] at htake
  · rw [← accept_kind (s := u) l]
    rfl

lemma leads_mark {kind : TokenKind} (hm : u.modes = [.code]) (hrest : u.rest = c :: rest)
    (hc : Lexeme.oneCharOperator c = some kind) (hjoins : ∀ next, Lexeme.joins c next = false) :
    ∃ u', u.Leads [mark kind] u' ∧ u'.rest = rest ∧ u'.modes = [.code] ∧
      u'.previous = some kind :=
  leads_starts hm hrest (Lexeme.starts_single hc fun next _ => hjoins next)

lemma leads_blank (hm : u.modes = [.code]) (hrest : u.rest = c :: tail)
    (hc : Text.isBlank c = true) : u.Leads [] (u.skip [c] tail) :=
  ⟨rfl, fun _ _ hts => hts.congr (next_blank (hm ▸ trivial) hrest hc)⟩

lemma reads_end (hm : u.modes = [.code]) (hrest : u.rest = []) : Reads u [] u.diagnostics := by
  have hnext := next_end (s := u) (hm ▸ trivial) (by rw [skipTrivia_nil hrest, hrest])
  rw [skipTrivia_nil hrest] at hnext
  have hdone := Reads.done (s := u) (by rw [hnext, accept_kind])
  rwa [hnext, accept_diagnostics rfl] at hdone

lemma leads_text {source : String} (h : Reads (ofString source) ss #[])
    (hcode : ss.foldl modesBehind [.code] = [.code]) (hmore : Closing more)
    (hfree : more.head? = some '\n' ∨ CommentFree source) (hm : u.modes = [.code])
    (hrest : u.rest = source.toList ++ more) (hu : u.previous.any Lexeme.endsOperand = false) :
    ∃ u', u.Leads ss u' ∧ u'.rest = more ∧ u'.modes = [.code] := by
  have hextends : (ofString source).Extends more u := by
    refine ⟨hrest, ⟨.code [.code] false, ⟨rfl, ?_, ?_⟩, ⟨hm, ?_, ?_⟩⟩, hu⟩
    · simp [Point.modes]
    · simp [Point.free]
    · simp [Point.modes]
    · simp [Point.free]
  obtain ⟨u', hleads, hrest', hmodes⟩ := h.leads hextends hmore
    (hfree.imp_right fun hfree => ⟨Nat.lt_succ_self _, hfree⟩)
  exact ⟨u', hleads, hrest', hmodes.trans hcode⟩

end Leads

end Scanner

end Stagecraft
