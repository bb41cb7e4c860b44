import Stagecraft.Proofs.Script.Covered

/-!
The place of the scanner is always the one that the text read so far tells, so that every span runs
from the place of one offset of the text to the place of another.
-/

namespace Stagecraft

/-- The place behind some text: the line is told by its line feeds, and the column by the characters
behind the last of these. -/
def Position.behind (front : List Char) : Position :=
  { line := front.count '\n' + 1
    column := (front.reverse.takeWhile (· != '\n')).length + 1 }

def Span.covering (front part : List Char) : Span :=
  { first := .behind front, last := .behind (front ++ part) }

def Span.Within (text : List Char) (span : Span) : Prop :=
  ∃ front part back, text = front ++ part ++ back ∧ span = .covering front part

namespace Position

lemma after_behind (front : List Char) (c : Char) :
    (behind front).after c = behind (front ++ [c]) := by
  by_cases hc : c = '\n'
  · subst hc
    simp [after, behind]
  · have hcount : [c].count '\n' = 0 := List.count_eq_zero.mpr (by simpa using Ne.symm hc)
    simp [after, behind, hc, hcount]

lemma afterAll_behind (front part : List Char) :
    (behind front).afterAll part = behind (front ++ part) := by
  induction part generalizing front with
  | nil => rw [List.append_nil]; rfl
  | cons c part ih =>
    change ((behind front).after c).afterAll part = _
    rw [after_behind, ih, List.append_assoc, List.singleton_append]

end Position

namespace Scanner

lemma reported_accept {s : Scanner} {l : Lexeme} (hkind : l.kind ≠ .endOfFile) {d : Diagnostic}
    (hd : d ∈ (s.accept l).2.diagnostics.toList) :
    d ∈ s.diagnostics.toList ∨ d.span = (s.accept l).1.span := by
  cases hissue : l.issue with
  | none => exact .inl (by simpa [accept, hissue, skip] using hd)
  | some issue =>
    have hd : d ∈ s.diagnostics ∨
        d = { issue, span := { first := s.position, last := s.position.afterAll l.chars } } := by
      simpa [accept, hissue, skip, report] using hd
    refine hd.imp (by simp) fun hd => ?_
    simp [hd, accept, hissue, hkind, skip, report]

lemma reported_next {s : Scanner} (hkind : s.next.1.kind ≠ .endOfFile) {d : Diagnostic}
    (hd : d ∈ s.next.2.diagnostics.toList) :
    d ∈ s.diagnostics.toList ∨ d.span = s.next.1.span := by
  obtain ⟨s', l, hnext, -, hquiet⟩ := s.next_accept
  rw [hnext, accept_kind] at hkind
  rw [hnext] at hd ⊢
  rw [← hquiet.resolve_left hkind]
  exact reported_accept hkind hd

/-- The scanner has read `front` of the text, its place is the one behind that, and so far its
reports are about parts of the text. -/
structure Located (text front : List Char) (s : Scanner) : Prop where
  chars : text = front ++ s.rest
  position : s.position = .behind front
  reports : ∀ d ∈ s.diagnostics.toList, d.span.Within text

section Located

variable {text front : List Char} {s : Scanner}

lemma located_start (source : String) : Located source.toList [] (ofString source) :=
  ⟨rfl, rfl, fun _ h => absurd h List.not_mem_nil⟩

lemma Located.takes {gap : List Char} (h : Located text front s)
    (htakes : s.Takes gap s.next.1 s.next.2) :
    Located text (front ++ gap ++ s.next.1.text.toList) s.next.2 ∧
      s.next.1.span = .covering (front ++ gap) s.next.1.text.toList := by
  have hbehind : s.position.afterAll gap = .behind (front ++ gap) := by
    rw [h.position, Position.afterAll_behind]
  have hposition : s.next.2.position = .behind (front ++ gap ++ s.next.1.text.toList) := by
    rw [htakes.position, hbehind, Position.afterAll_behind]
  have hchars : text = front ++ gap ++ s.next.1.text.toList ++ s.next.2.rest := by
    rw [h.chars, htakes.chars]
    simp
  have hspan : s.next.1.span = .covering (front ++ gap) s.next.1.text.toList := by
    rw [htakes.span, hbehind, hposition]
    rfl
  refine ⟨⟨hchars, hposition, fun d hd => ?_⟩, hspan⟩
  rcases reported_next htakes.kind hd with hd | hd
  · exact h.reports d hd
  · exact ⟨front ++ gap, s.next.1.text.toList, s.next.2.rest, hchars, hd.trans hspan⟩

lemma Located.ends {gap tail : List Char} {issue : Option Issue} (h : Located text front s)
    (hends : s.Ends gap tail issue s.next.1 s.next.2) :
    Located text text s.next.2 ∧ s.next.1.text = "" ∧ s.next.1.span = .covering text [] := by
  have hposition : s.next.2.position = .behind text := by
    rw [hends.position, h.position, Position.afterAll_behind, ← h.chars]
  have hchars : text = front ++ gap ++ tail := by
    rw [h.chars, hends.chars, List.append_assoc]
  refine ⟨⟨by rw [hends.rest, List.append_nil], hposition, fun d hd => ?_⟩, ?_, ?_⟩
  · rw [hends.diagnostics, List.mem_append] at hd
    rcases hd with hd | hd
    · exact h.reports d hd
    · obtain ⟨issue, -, rfl⟩ : ∃ issue', issue = some issue' ∧ _ = d := by simpa using hd
      refine ⟨front ++ gap, tail, [], by rw [List.append_nil, hchars], ?_⟩
      rw [hposition, h.position, Position.afterAll_behind, hchars]
      rfl
  · rw [hends.token]
    rfl
  · rw [hends.token, hposition, Span.covering, List.append_nil]
    rfl

lemma Located.next (h : Located text front s) : ∃ before,
    Located text (before ++ s.next.1.text.toList) s.next.2 ∧
      s.next.1.span = .covering before s.next.1.text.toList ∧
      (s.next.1.kind = .endOfFile → s.next.1.span = .covering text []) := by
  rcases s.takes_or_ends with ⟨gap, htakes⟩ | ⟨gap, tail, issue, hends⟩
  · obtain ⟨hnext, hspan⟩ := h.takes htakes
    exact ⟨front ++ gap, hnext, hspan, fun hkind => absurd hkind htakes.kind⟩
  · obtain ⟨hnext, htext, hspan⟩ := h.ends hends
    have hnil : s.next.1.text.toList = [] := by rw [htext]; rfl
    exact ⟨text, by rwa [hnil, List.append_nil], by rw [hnil, hspan], fun _ => hspan⟩

lemma located_afterCalls (source : String) (n : Nat) :
    ∃ front, Located source.toList front ((ofString source).afterCalls n) := by
  induction n with
  | zero => exact ⟨[], located_start source⟩
  | succ n ih =>
    obtain ⟨front, h⟩ := ih
    obtain ⟨before, hnext, -⟩ := h.next
    exact ⟨_, afterCalls_succ _ _ ▸ hnext⟩

end Located

/-- Places are exact. A token is the part of the text in front of what the call that gives it leaves,
and its span is the one of that part; the span of the end of the file is the empty one at the end of
the text. Every report is about a part of the text and has the span of it. -/
theorem spans_exact (source : String) :
    (∀ i t, (tokens source).1[i]? = some t → ∃ front,
      source.toList = front ++ t.text.toList ++ ((ofString source).afterCalls (i + 1)).rest ∧
      t.span = .covering front t.text.toList ∧
      (t.kind = .endOfFile → t.span = .covering source.toList [])) ∧
    ∀ d ∈ (tokens source).2, d.span.Within source.toList := by
  obtain ⟨n, htokens, hreports⟩ := tokens_calls source
  constructor
  · intro i t ht
    obtain ⟨front, h⟩ := located_afterCalls source i
    obtain ⟨before, hnext, hspan, hend⟩ := h.next
    obtain ⟨-, rfl⟩ : i < n ∧ ((ofString source).afterCalls i).next.1 = t := by
      simpa [htokens, List.getElem?_eq_some_iff] using ht
    exact ⟨before, afterCalls_succ _ _ ▸ hnext.chars, hspan, hend⟩
  · rw [hreports]
    obtain ⟨front, h⟩ := located_afterCalls source n
    exact h.reports

theorem spans_exact_twoLines : ∃ t front, (tokens "$r = \"é\n\";").1[2]? = some t ∧
    "$r = \"é\n\";".toList =
      front ++ t.text.toList ++ ((ofString "$r = \"é\n\";").afterCalls 3).rest ∧
    t.span = .covering front t.text.toList ∧
    t.span = { first := { line := 1, column := 6 }, last := { line := 2, column := 2 } } := by
  have hspan : (tokens "$r = \"é\n\";").1[2]?.map (·.span) =
      some { first := { line := 1, column := 6 }, last := { line := 2, column := 2 } } := by cbv
  obtain ⟨t, ht, hplace⟩ := Option.map_eq_some_iff.mp hspan
  obtain ⟨front, hchars, hcovering, -⟩ := (spans_exact "$r = \"é\n\";").1 2 t ht
  exact ⟨t, front, ht, hchars, hcovering, hplace⟩

end Scanner

end Stagecraft
