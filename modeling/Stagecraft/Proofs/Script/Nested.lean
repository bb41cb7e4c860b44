import Stagecraft.Proofs.Script.Covered

/-!
A token opens a mode, closes the innermost one, or counts a brace of embedded code; so the modes
stay nested.
-/

namespace Stagecraft

/-- Modes of a scanner, the innermost first: code at the bottom, and above it dialogue text and
embedded code by turns. -/
inductive Nested : List Mode → Prop
  | code : Nested [.code]
  | dialogue {outer : List Mode} : outer.head? ≠ some .dialogue → Nested outer →
    Nested (.dialogue :: outer)
  | embedded {depth : Nat} {outer : List Mode} : 1 ≤ depth → Nested (.dialogue :: outer) →
    Nested (.embedded depth :: .dialogue :: outer)

inductive Turns : List Mode → TokenKind → List Mode → Prop
  | stay {modes : List Mode} {kind : TokenKind} :
    (∀ depth outer, modes = .embedded depth :: outer → kind ≠ .openBrace ∧ kind ≠ .closeBrace) →
    Turns modes kind modes
  | speak {modes : List Mode} : modes.head? ≠ some .dialogue →
    Turns modes .startTag (.dialogue :: modes)
  | fallSilent {outer : List Mode} : Turns (.dialogue :: outer) .endTag outer
  | enter {outer : List Mode} :
    Turns (.dialogue :: outer) .openBrace (.embedded 1 :: .dialogue :: outer)
  | deepen {depth : Nat} {outer : List Mode} :
    Turns (.embedded depth :: outer) .openBrace (.embedded (depth + 1) :: outer)
  | rise {depth : Nat} {outer : List Mode} : 1 ≤ depth →
    Turns (.embedded (depth + 1) :: outer) .closeBrace (.embedded depth :: outer)
  | leave {depth : Nat} {outer : List Mode} : depth ≤ 1 →
    Turns (.embedded depth :: outer) .closeBrace outer

namespace Scanner

lemma turns_modesAfter (modes : List Mode) (lineStart : Bool) (t : Token) :
    Turns modes t.kind (modesAfter modes lineStart t).1 := by
  have hstart (h : t.isDialogueStart = true) : t.kind = .startTag := by
    simp only [Token.isDialogueStart, Bool.and_eq_true, beq_iff_eq] at h
    exact h.1
  have hend (h : t.isDialogueEnd = true) : t.kind = .endTag := by
    simp only [Token.isDialogueEnd, Bool.and_eq_true, beq_iff_eq] at h
    exact h.1
  unfold modesAfter
  split
  · next outer =>
    split
    · exact .stay (by simp)
    · next hkind => exact hkind ▸ .enter
    · simp only
      split_ifs with hclose
      · exact hend hclose ▸ .fallSilent
      · exact .stay (by simp)
  · next depth outer =>
    split
    · next hkind => exact hkind ▸ .deepen
    · next hkind =>
      rw [hkind]
      split_ifs with hdepth
      · exact .leave hdepth
      · obtain ⟨depth, rfl⟩ := Nat.exists_eq_add_of_le' (by omega : 1 ≤ depth)
        exact .rise (by omega)
    · next hopen hclose =>
      split_ifs with hspeak
      · exact hstart hspeak ▸ .speak (by simp)
      · exact .stay fun _ _ _ => ⟨hopen, hclose⟩
  · next hdialogue hembedded =>
    split_ifs with hspeak
    · refine hstart hspeak ▸ .speak fun hhead => ?_
      obtain ⟨outer, houter⟩ := List.head?_eq_some_iff.mp hhead
      exact hdialogue outer houter
    · exact .stay fun depth outer hmodes => absurd hmodes (hembedded depth outer)

lemma turns_next (s : Scanner) : Turns s.modes s.next.1.kind s.next.2.modes := by
  obtain ⟨s', l, hnext, hmodes, -⟩ := next_accept s
  rw [hnext, ← hmodes]
  exact turns_modesAfter _ _ _

end Scanner

namespace Nested

variable {modes modes' outer : List Mode} {kind : TokenKind}

lemma turns (h : Nested modes) (hturns : Turns modes kind modes') : Nested modes' := by
  cases hturns with
  | stay => exact h
  | speak hhead => exact .dialogue hhead h
  | fallSilent =>
    cases h with
    | dialogue _ houter => exact houter
  | enter => exact .embedded (Nat.le_refl 1) h
  | deepen =>
    cases h with
    | embedded _ houter => exact .embedded (by omega) houter
  | rise hdepth =>
    cases h with
    | embedded _ houter => exact .embedded hdepth houter
  | leave =>
    cases h with
    | embedded _ houter => exact houter

lemma length_mod (h : Nested modes) :
    modes.length % 2 = if modes.head? = some .dialogue then 0 else 1 := by
  induction h with
  | code => rfl
  | dialogue hhead _ ih =>
    rw [if_neg hhead] at ih
    simp
    omega
  | embedded _ _ ih =>
    simp at ih ⊢
    omega

lemma code_at_bottom (h : Nested modes) : modes.getLast? = some .code := by
  induction h with
  | code => rfl
  | dialogue _ _ ih => rw [List.getLast?_cons, ih, Option.getD_some]
  | embedded _ _ ih => rw [List.getLast?_cons, ih, Option.getD_some]

lemma by_turns (h : Nested modes) {i : Nat} {mode : Mode} (hi : modes.reverse[i + 1]? = some mode) :
    if i % 2 = 0 then mode = .dialogue else ∃ depth, mode = .embedded depth ∧ 1 ≤ depth := by
  have hlast {outer : List Mode} {top : Mode} (hi : (top :: outer).reverse[i + 1]? = some mode)
      (hin : outer.reverse[i + 1]? ≠ some mode) : outer.length = i + 1 ∧ mode = top := by
    rw [List.reverse_cons, List.getElem?_append, List.length_reverse] at hi
    split at hi
    · exact absurd hi hin
    · obtain ⟨hlength, hmode⟩ := List.getElem?_eq_some_iff.mp hi
      rw [List.length_singleton] at hlength
      exact ⟨by omega, by simpa using hmode.symm⟩
  induction h with
  | code => cases hi
  | @dialogue outer hhead houter ih =>
    by_cases hin : outer.reverse[i + 1]? = some mode
    · exact ih hin
    · obtain ⟨hlength, hmode⟩ := hlast hi hin
      have hodd := houter.length_mod.trans (if_neg hhead)
      rwa [if_pos (by omega)]
  | @embedded depth outer hdepth houter ih =>
    by_cases hin : (Mode.dialogue :: outer).reverse[i + 1]? = some mode
    · exact ih hin
    · obtain ⟨hlength, hmode⟩ := hlast hi hin
      have heven := houter.length_mod.trans (if_pos rfl)
      rw [if_neg (by omega)]
      exact ⟨depth, hmode, hdepth⟩

end Nested

lemma Turns.section_cases {modes modes' inner' outer : List Mode} {kind : TokenKind} {depth' : Nat}
    (h : Turns modes kind modes') (hmodes : modes' = inner' ++ .embedded depth' :: outer) :
    modes = outer ∧ kind = .openBrace ∧ depth' = 1 ∨
    ∃ inner depth, modes = inner ++ .embedded depth :: outer ∧
      depth' + (if modes.tail = outer ∧ kind = .closeBrace then 1 else 0) =
        depth + if modes.tail = outer ∧ kind = .openBrace then 1 else 0 := by
  have hdeeper (inner : List Mode) (depth : Nat) : inner ++ .embedded depth :: outer ≠ outer := by
    intro h
    have := congrArg List.length h
    simp at this
    omega
  cases h with
  | stay hquiet =>
    refine .inr ⟨inner', depth', hmodes, ?_⟩
    cases inner' with
    | nil => simp [hquiet depth' outer hmodes]
    | cons mode inner => simp [hmodes, hdeeper]
  | speak hhead =>
    cases inner' with
    | nil => cases hmodes
    | cons mode inner =>
      obtain ⟨-, hrest⟩ := List.cons_eq_cons.mp hmodes
      exact .inr ⟨inner, depth', hrest, by simp⟩
  | fallSilent => exact .inr ⟨.dialogue :: inner', depth', by rw [hmodes]; rfl, by simp⟩
  | enter =>
    cases inner' with
    | nil =>
      -- the brace opens this very section
      obtain ⟨hdepth, houter⟩ := List.cons_eq_cons.mp hmodes
      cases hdepth
      exact .inl ⟨houter, rfl, rfl⟩
    | cons mode inner =>
      obtain ⟨-, hrest⟩ := List.cons_eq_cons.mp hmodes
      refine .inr ⟨inner, depth', hrest, ?_⟩
      cases inner with
      | nil => cases hrest
      | cons mode inner => simp [hrest, hdeeper]
  | @deepen depth outer' =>
    cases inner' with
    | nil =>
      obtain ⟨hdepth, rfl⟩ := List.cons_eq_cons.mp hmodes
      cases hdepth
      -- the brace is one that the section counts
      exact .inr ⟨[], depth, rfl, by simp⟩
    | cons mode inner =>
      obtain ⟨-, rfl⟩ := List.cons_eq_cons.mp hmodes
      exact .inr ⟨.embedded depth :: inner, depth', rfl, by simp [hdeeper]⟩
  | @rise depth outer' _ =>
    cases inner' with
    | nil =>
      obtain ⟨hdepth, rfl⟩ := List.cons_eq_cons.mp hmodes
      cases hdepth
      exact .inr ⟨[], depth' + 1, rfl, by simp⟩
    | cons mode inner =>
      obtain ⟨-, rfl⟩ := List.cons_eq_cons.mp hmodes
      exact .inr ⟨.embedded (depth + 1) :: inner, depth', rfl, by simp [hdeeper]⟩
  | @leave depth outer' _ =>
    exact .inr ⟨.embedded depth :: inner', depth', by rw [hmodes]; rfl, by simp [hmodes, hdeeper]⟩

namespace Scanner

/-- How many tokens of a kind the calls from `m` on and before `n` give directly in the section of
embedded code over the modes `outer`. -/
def given (s : Scanner) (outer : List Mode) (kind : TokenKind) (m n : Nat) : Nat :=
  (List.range' m (n - m)).countP fun i =>
    (s.afterCalls i).modes.tail = outer ∧ (s.afterCalls i).next.1.kind = kind

lemma given_self (s : Scanner) (outer : List Mode) (kind : TokenKind) (n : Nat) :
    s.given outer kind n n = 0 := by
  simp [given]

lemma given_succ (s : Scanner) (outer : List Mode) (kind : TokenKind) {m n : Nat} (h : m ≤ n) :
    s.given outer kind m (n + 1) = s.given outer kind m n +
      if (s.afterCalls n).modes.tail = outer ∧ (s.afterCalls n).next.1.kind = kind then 1 else 0 := by
  obtain ⟨k, rfl⟩ := Nat.exists_eq_add_of_le h
  simp only [given, show m + k + 1 - m = k + 1 by omega, Nat.add_sub_cancel_left,
    List.range'_1_concat, List.countP_append, List.countP_singleton, decide_eq_true_eq]

/-- The call `m` enters the section of embedded code over the modes `outer`, and until `n` calls are
done the section is not left. -/
structure Enters (s : Scanner) (outer : List Mode) (m n : Nat) : Prop where
  before : m < n
  outside : (s.afterCalls m).modes = outer
  brace : (s.afterCalls m).next.1.kind = .openBrace
  inside : ∀ i, m < i → i ≤ n → ∃ inner depth,
    (s.afterCalls i).modes = inner ++ .embedded depth :: outer

lemma nested_afterCalls {s : Scanner} (h : Nested s.modes) (n : Nat) :
    Nested (s.afterCalls n).modes := by
  induction n with
  | zero => exact h
  | succ n ih =>
    rw [afterCalls_succ]
    exact ih.turns (turns_next _)

lemma exists_enters {s : Scanner} (h : s.modes = [.code]) (n : Nat) {inner outer : List Mode}
    {depth : Nat} (hmodes : (s.afterCalls n).modes = inner ++ .embedded depth :: outer) :
    ∃ m, s.Enters outer m n ∧ depth + s.given outer .closeBrace (m + 1) n =
      1 + s.given outer .openBrace (m + 1) n := by
  induction n generalizing inner depth with
  | zero =>
    have hcode : [Mode.code] = inner ++ .embedded depth :: outer := h.symm.trans hmodes
    cases inner with
    | nil => cases hcode
    | cons mode inner => simp at hcode
  | succ n ih =>
    have hturns := turns_next (s.afterCalls n)
    rw [← afterCalls_succ] at hturns
    rcases hturns.section_cases hmodes with ⟨houter, hbrace, rfl⟩ | ⟨inner', depth', hbefore, hdepth⟩
    · refine ⟨n, ⟨Nat.lt_succ_self n, houter, hbrace, fun i hi hin => ?_⟩, by simp [given_self]⟩
      obtain rfl : i = n + 1 := by omega
      exact ⟨inner, 1, hmodes⟩
    · obtain ⟨m, henters, hcount⟩ := ih hbefore
      have hm := henters.before
      refine ⟨m, ⟨by omega, henters.outside, henters.brace, fun i hi hin => ?_⟩, ?_⟩
      · by_cases hlast : i = n + 1
        · exact ⟨inner, depth, hlast ▸ hmodes⟩
        · exact henters.inside i hi (by omega)
      · rw [given_succ s outer _ (by omega), given_succ s outer _ (by omega)]
        omega

/-- The modes are always nested. Code is at the bottom and nowhere else, and above it are dialogue
text and embedded code by turns, dialogue text first. Every section of embedded code has a depth of
at least one: one more than the opening braces given directly in it since it was entered, less the
closing ones. -/
theorem modes_nested (source : String) (n : Nat) :
    ((ofString source).afterCalls n).modes.getLast? = some .code ∧
    (∀ i mode, ((ofString source).afterCalls n).modes.reverse[i + 1]? = some mode →
      if i % 2 = 0 then mode = .dialogue else ∃ depth, mode = .embedded depth ∧ 1 ≤ depth) ∧
    ∀ inner (depth : Nat) outer,
      ((ofString source).afterCalls n).modes = inner ++ .embedded depth :: outer →
      ∃ m, (ofString source).Enters outer m n ∧
        (depth : Int) = 1 + (ofString source).given outer .openBrace (m + 1) n -
          (ofString source).given outer .closeBrace (m + 1) n := by
  have h : Nested ((ofString source).afterCalls n).modes := nested_afterCalls .code n
  refine ⟨h.code_at_bottom, fun i mode => h.by_turns, fun inner depth outer hmodes => ?_⟩
  obtain ⟨m, henters, hdepth⟩ := exists_enters (s := ofString source) rfl n hmodes
  exact ⟨m, henters, by omega⟩

def dialogueWithin : String :=
  "<PRE>\x7b\x7b<PRE>\x7b"

theorem modes_nested_within :
    ((ofString dialogueWithin).afterCalls 5).modes =
      [.embedded 1, .dialogue] ++ .embedded 2 :: [.dialogue, .code] ∧
    ∃ m, (ofString dialogueWithin).Enters [.dialogue, .code] m 5 ∧
      (2 : Int) = 1 + (ofString dialogueWithin).given [.dialogue, .code] .openBrace (m + 1) 5 -
        (ofString dialogueWithin).given [.dialogue, .code] .closeBrace (m + 1) 5 := by
  have hmodes : ((ofString dialogueWithin).afterCalls 5).modes =
      [.embedded 1, .dialogue] ++ .embedded 2 :: [.dialogue, .code] := by cbv
  exact ⟨hmodes, (modes_nested dialogueWithin 5).2.2 _ 2 _ hmodes⟩

end Scanner

end Stagecraft
