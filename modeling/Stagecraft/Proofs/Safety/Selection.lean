import Stagecraft.Proofs.Safety.Bodies
import Stagecraft.Proofs.Safety.Linked
import Stagecraft.Stage.Scripted

/-!
Whatever the host answers and whatever the bodies of the cases do, a thread that starts a selection
goes through the phases of the selection in order.
-/

namespace Stagecraft

namespace Phase

def played? : Phase → Option Nat
  | .enters i | .plays i => some i
  | _ => none

/-- How a change leads from one phase to another. The selection's own steps are turns; apart from
them, a body goes on or comes to its end, or the selection is left. -/
inductive Follows [Stage σ] (labels : List String) (thread : String) :
    Phase → Change σ → Option Doing → Phase → Prop
  | turn {p p' : Phase} {doing : Option Doing} {s : Setting} {w w' : World σ} {flow : Flow}
      (h : p.Turns labels doing p') (hseen : Doing.Seen thread w flow w' doing) :
      Follows labels thread p (.step s w flow w') doing p'
  | plays {p p' : Phase} {i : Nat} {s : Setting} {w w' : World σ} {flow : Flow}
      (h : p.played? = some i) (h' : p' ∈ [.plays i, .leaves i, .left i]) :
      Follows labels thread p (.step s w flow w') none p'
  | status (p : Phase) (status : Status) : Follows labels thread p (.status status) none p

variable {σ : Type} [Stage σ] {labels : List String} {thread : String} {p p' : Phase}
  {x : Change σ} {doing : Option Doing}

lemma eq_plays_of_played {i j : Nat} (h : p ∈ [.plays i, .leaves i, .left i])
    (hj : p.played? = some j) : p = .plays i ∧ j = i := by
  rcases List.mem_cons.mp h with rfl | h
  · exact ⟨rfl, (Option.some.inj hj).symm⟩
  · rcases List.mem_cons.mp h with rfl | h
    · cases hj
    · cases List.mem_singleton.mp h
      cases hj

lemma Follows.seen (h : p.Follows labels thread x doing p') (rounds : Nat) :
    ∃ rounds', p'.seen labels rounds' = p.seen labels rounds ++ doing.toList := by
  cases h with
  | turn h => exact h.seen rounds
  | status p => exact ⟨rounds, by simp⟩
  | plays h h' =>
    refine ⟨rounds, ?_⟩
    cases p with
    | enters j | plays j =>
      cases h
      rcases List.mem_cons.mp h' with rfl | h'
      · simp [Phase.seen]
      · rcases List.mem_cons.mp h' with rfl | h'
        · simp [Phase.seen]
        · cases List.mem_singleton.mp h'
          simp [Phase.seen]
    | _ => cases h

lemma seen_of_follows {m : Nat} {phase : Nat → Phase} {change : Nat → Change σ}
    {doing : Nat → Option Doing} (hstart : phase 0 = .opens)
    (h : ∀ k < m, (phase k).Follows labels thread (change k) (doing k) (phase (k + 1))) (k : Nat)
    (hk : k ≤ m) : ∃ rounds, (List.range k).filterMap doing = (phase k).seen labels rounds := by
  induction k with
  | zero => exact ⟨0, by rw [hstart]; rfl⟩
  | succ k ih =>
    obtain ⟨rounds, hseen⟩ := ih (Nat.le_of_succ_le hk)
    obtain ⟨rounds', hseen'⟩ := (h k hk).seen rounds
    refine ⟨rounds', ?_⟩
    rw [List.range_succ, List.filterMap_append, hseen, hseen']
    cases hdoing : doing k <;> simp [hdoing]

end Phase

lemma exists_trail {α β : Type} [Inhabited β] {I X : Nat → α → Prop} {R : Nat → α → β → α → Prop}
    {a₀ : α} {n : Nat} (hstart : I 0 a₀)
    (hstep : ∀ k < n, ∀ a, I k a → X k a ∨ ∃ b a', R k a b a' ∧ I (k + 1) a') :
    ∃ m ≤ n, ∃ (a : Nat → α) (b : Nat → β), a 0 = a₀ ∧ (∀ k ≤ m, I k (a k)) ∧
      (∀ k < m, R k (a k) (b k) (a (k + 1))) ∧ (m = n ∨ X m (a m)) := by
  induction n with
  | zero =>
    refine ⟨0, Nat.le_refl 0, fun _ => a₀, default, rfl, fun k hk => ?_, nofun, .inl rfl⟩
    cases Nat.le_zero.mp hk
    exact hstart
  | succ n ih =>
    obtain ⟨m, hm, a, b, h₀, hI, hR, rfl | hX⟩ := ih fun k hk => hstep k (Nat.lt_succ_of_lt hk)
    · rcases hstep m (Nat.lt_succ_self m) _ (hI m (Nat.le_refl m)) with hX | ⟨b', a', hR', hI'⟩
      · exact ⟨m, Nat.le_succ m, a, b, h₀, hI, hR, .inr hX⟩
      · refine ⟨m + 1, Nat.le_refl _, Function.update a (m + 1) a', Function.update b m b',
          by simpa, fun k hk => ?_, fun k hk => ?_, .inl rfl⟩
        · rcases Nat.le_succ_iff.mp hk with hk | rfl
          · rw [Function.update_of_ne (by omega)]
            exact hI k hk
          · rwa [Function.update_self]
        · rw [Function.update_of_ne (by omega : k ≠ m + 1)]
          rcases Nat.lt_succ_iff_lt_or_eq.mp hk with hk | rfl
          · rw [Function.update_of_ne (by omega : k + 1 ≠ m + 1), Function.update_of_ne (by omega)]
            exact hR k hk
          · rwa [Function.update_self, Function.update_self]
    · exact ⟨m, Nat.le_succ_of_le hm, a, b, h₀, hI, hR, .inr hX⟩

namespace Menu

open Thread (Busy Inside Returns Stands)

variable {σ : Type} [Stage σ] {menu : Menu} {site : Site} {c : Emit.Context} {b : Builder}
  {P : Nat → Prop} {f : Frame} {callers : List Frame} {stack : Array Value} {t t' : Thread}
  {body : Body} {phase phase' : Phase} {x : Change σ}

structure Held (menu : Menu) (site : Site) (f : Frame) (callers : List Frame) (stack : Array Value)
    (phase : Phase) (t : Thread) : Prop where
  at_ : menu.At f callers stack t phase
  busy : ∀ i, phase.played? = some i → ∃ entry, menu.entries[i]? = some entry ∧
    t.Busy f callers stack (menu.InBody site i entry)

structure Trail (menu : Menu) (f : Frame) (callers : List Frame) (stack : Array Value)
    (u : Nat → Thread) (change : Nat → Change σ) (m : Nat) (phase : Nat → Phase)
    (doing : Nat → Option Doing) : Prop where
  start : phase 0 = .opens
  at_ : ∀ k ≤ m, menu.At f callers stack (u k) (phase k)
  follows : ∀ k < m,
    (phase k).Follows menu.labels (u 0).name (change k) (doing k) (phase (k + 1))
  seen : ∀ k ≤ m, ∃ rounds, (List.range k).filterMap doing = (phase k).seen menu.labels rounds

structure Plays (menu : Menu) (site : Site) (c : Emit.Context) (b : Builder) (P : Nat → Prop) : Prop
    where
  laid : menu.Laid site.module site.code
  links : site.Links c b P
  entries : ∀ (i : Nat) entry, menu.entries[i]? = some entry →
    ∃ case, Emit.Enters c b case entry ∧ Names P (case.body.uses #[])

def Over (f : Frame) (callers : List Frame) (stack : Array Value) (t t' : Thread) (phase : Phase) :
    Prop :=
  (∃ i, phase = .left i) ∨ t' = t'.terminate ∨
    ∃ i, phase.played? = some i ∧ Returns f stack.toList callers t t'

lemma At.status (h : menu.At f callers stack t phase) (status : Status) :
    menu.At f callers stack { t with status } phase := by
  cases phase <;> exact h

lemma Held.status (h : menu.Held site f callers stack phase t) (status : Status) :
    menu.Held site f callers stack phase { t with status } := by
  refine ⟨h.at_.status status, fun i hi => ?_⟩
  obtain ⟨entry, hentry, hbusy⟩ := h.busy i hi
  exact ⟨entry, hentry, hbusy.status status⟩

section Plays

variable (hplays : menu.Plays site c b P) (hmodule : site.module = f.module)
  (hbody : f.module.body f.routine = .ok body) (hcode : site.code = body.code)
  (hbase : f.base = stack.size)

include hplays hbase

lemma Held.of_turns {doing : Option Doing} (h : menu.At f callers stack t phase')
    (hturn : phase.Turns menu.labels doing phase') : menu.Held site f callers stack phase' t := by
  refine ⟨h, fun i hi => ?_⟩
  cases hturn with
  | taken =>
    cases hi
    obtain ⟨hlt, ⟨arguments, hframes⟩, hstack⟩ := h
    have hentry := List.getElem?_eq_getElem hlt
    obtain ⟨case, henters, hnames⟩ := hplays.entries i _ hentry
    have hfree := free_ask hplays.laid hentry hplays.links hnames henters
    have hstarts : menu.entries[i].body.Starts (menu.ask i + 6) (menu.ask i + 6) :=
      ⟨#[], menu.entries[i].body, by simp, rfl⟩
    have hinside : Inside f stack.toList callers t :=
      ⟨⟨[], _, hframes, rfl, nofun⟩, hstack ▸ List.prefix_rfl⟩
    have hstands : Stands f callers (menu.ask i + 6) 0 t :=
      ⟨⟨arguments, hframes⟩, by rw [hstack, hbase]; rfl⟩
    exact ⟨_, hentry, hinside, .inl ⟨_, 0, hstands, hfree, hstarts⟩⟩
  | _ => cases hi

include hmodule hbody hcode

lemma Held.makes (h : menu.Held site f callers stack phase t) (hx : x.Makes site.modules t t') :
    Over f callers stack t t' phase ∨
      ∃ doing phase', phase.Follows menu.labels t.name x doing phase' ∧
        menu.Held site f callers stack phase' t' := by
  cases x with
  | status status =>
    cases hx
    exact .inr ⟨none, phase, .status phase status, h.status status⟩
  | ends =>
    cases hx
    exact .inl (.inr (.inl rfl))
  | step s w flow w' =>
    obtain ⟨hkeeps, hstep⟩ := hx
    cases hown : phase.isOwn with
    | true =>
      obtain ⟨flow', t'', w'', doing, phase', hstep', hturn, hseen, hat⟩ :=
        h.at_.works (hcode ▸ hmodule ▸ hplays.laid) hbody (Nat.le_of_eq hbase) hown s w
      cases hstep.symm.trans hstep'
      exact .inr ⟨doing, phase', .turn hturn hseen, .of_turns hplays hbase hat hturn⟩
    | false =>
      cases hplayed : phase.played? with
      | none =>
        cases phase with
        | left i => exact .inl (.inl ⟨i, rfl⟩)
        | enters _ | plays _ => cases hplayed
        | _ => cases hown
      | some i =>
        obtain ⟨entry, hentry, hbusy⟩ := h.busy i hplayed
        obtain ⟨case, henters, hnames⟩ := hplays.entries i entry hentry
        have hgoes (p d : Nat) (hp : menu.InBody site i entry p d) :=
          hcode ▸ hp.allows hplays.laid hentry henters
        obtain hbusy | hend | hreturns :=
          Busy.step (by exact hkeeps) (by exact hmodule) hbody hbase (fun p d hp => (hgoes p d hp).1)
            (fun p d _ hp => (hgoes p d hp).2) hbusy hstep
        · obtain ⟨phase', hmem, hat, hplaying⟩ := phase_of_busy hplays.laid hentry hbase hbusy
          refine .inr ⟨none, phase', .plays hplayed hmem, hat, fun j hj => ?_⟩
          obtain ⟨rfl, rfl⟩ := Phase.eq_plays_of_played hmem hj
          exact ⟨entry, hentry, hplaying rfl⟩
        · exact .inl (.inr (.inl hend))
        · exact .inl (.inr (.inr ⟨i, hplayed, hreturns⟩))

theorem Plays.trail {n : Nat} {u : Nat → Thread} {change : Nat → Change σ}
    (hstart : menu.At f callers stack (u 0) .opens)
    (hrun : ∀ k < n, (change k).Makes site.modules (u k) (u (k + 1))) :
    ∃ m ≤ n, ∃ phase doing, menu.Trail f callers stack u change m phase doing ∧
      (m = n ∨ Over f callers stack (u m) (u (m + 1)) (phase m)) := by
  have hname : ∀ k ≤ n, (u k).name = (u 0).name := by
    intro k hk
    induction k with
    | zero => rfl
    | succ k ih => exact (hrun k hk).name.trans (ih (Nat.le_of_succ_le hk))
  have hstep (k : Nat) (hk : k < n) (phase : Phase)
      (h : menu.Held site f callers stack phase (u k)) :
      Over f callers stack (u k) (u (k + 1)) phase ∨ ∃ doing phase',
        phase.Follows menu.labels (u 0).name (change k) doing phase' ∧
          menu.Held site f callers stack phase' (u (k + 1)) :=
    hname k (Nat.le_of_lt hk) ▸ h.makes hplays hmodule hbody hcode hbase (hrun k hk)
  obtain ⟨m, hm, phase, doing, hphase, hheld, hfollows, hend⟩ :=
    exists_trail (I := fun k phase => menu.Held site f callers stack phase (u k))
      ⟨hstart, nofun⟩ hstep
  exact ⟨m, hm, phase, doing, ⟨hphase, fun k hk => (hheld k hk).at_, hfollows,
    fun k hk => Phase.seen_of_follows hphase hfollows k hk⟩, hend⟩

end Plays

variable {d d' : Draft} {node : Node} {cases : List Choice} {inLoop : Bool} {offset exit : Nat}
  {code : Code} {modules : Std.TreeMap String Module} {parameters : Nat}

/-- The code that is emitted for a selection plays one case. Whatever the host answers, the steps of
the selection itself succeed: it begins once, then asks for the labels in their order and plays the
body of the first case whose label is pressed; after a round in which none is, it yields once and
asks from the first label on. When the body has come to its end or has been broken out of, the
thread is right after the selection. In all these phases the routine has no values on its part of
the stack. -/
theorem plays_one_case (hs : d.builder.Sound)
    (h : Emit.statement c inLoop offset (.select node cases) d = (.ok code, d'))
    (hframes : t.frames = f :: callers) (hbody : f.module.body f.routine = .ok body)
    (hcode : Placed body.code exit f.position code.toList) (hempty : t.stack.size = f.base)
    (htexts : d'.builder.TextsIn f.module)
    (hlinks : Site.Links ⟨modules, f.module, parameters, body.code⟩ c d'.builder P)
    (hnames : Names P ((Statement.select node cases).uses #[])) :
    ∃ menu : Menu, menu.start = f.position ∧ menu.stop = f.position + code.extent ∧
      List.Forall₂ (Emit.Enters c d'.builder) cases menu.entries ∧
      menu.Laid f.module body.code ∧
      (∀ u phase, menu.At f callers t.stack u phase → phase.isOwn →
        ∀ {σ : Type} [Stage σ] (s : Setting) (w : World σ),
          menu.Works f callers t.stack s w phase u) ∧
      ∀ {σ : Type} [Stage σ] (n : Nat) (u : Nat → Thread) (change : Nat → Change σ), u 0 = t →
        (∀ k < n, (change k).Makes modules (u k) (u (k + 1))) →
        ∃ m ≤ n, ∃ phase doing, menu.Trail f callers t.stack u change m phase doing ∧
          (m = n ∨ Over f callers t.stack (u m) (u (m + 1)) (phase m)) := by
  have hstatement := (Emit.statement_ok (.select node cases) hs h).2 _ (.refl _)
  obtain ⟨entries, hentries, hlaid, hstop⟩ := hstatement.laid htexts hcode
  have hplays : Menu.Plays ⟨f.position, entries⟩ ⟨modules, f.module, parameters, body.code⟩ c
      d'.builder P := by
    refine ⟨hlaid, hlinks, fun i entry hentry => ?_⟩
    obtain ⟨hi, rfl⟩ := List.getElem?_eq_some_iff.mp hentry
    have hcase : i < cases.length := hentries.length_eq ▸ hi
    exact ⟨cases[i], hentries.get hcase hi, .of_case hnames (List.getElem_mem hcase)⟩
  refine ⟨⟨f.position, entries⟩, rfl, hstop, hentries, hlaid, fun u phase hat hown _ _ s w => ?_,
    fun n u change hu hrun => ?_⟩
  · exact hat.works hlaid hbody (Nat.le_of_eq hempty.symm) hown s w
  · refine hplays.trail rfl hbody rfl hempty.symm ?_ hrun
    rw [hu]
    exact ⟨⟨f.arguments, hframes⟩, rfl⟩

end Menu

namespace Menu.Breaking

def cases : List Choice :=
  [.mk ⟨1, .unplaced⟩ "a" (.empty ⟨2, .unplaced⟩), .mk ⟨3, .unplaced⟩ "b" (.exit ⟨4, .unplaced⟩)]

def code : Code :=
  #[.run .selectStart, .run (.isPressed 0), .run (.jumpIfFalse 3), .run (.jump 16),
    .run (.isPressed 1), .run (.jumpIfFalse 6), .run (.jump 7), .run (.jump 4),
    .run .selectEnd, .run (.jump (-25))]

def context : Emit.Context where
  table := { path := "main.nss", includes := [] }
  bindings := { path := "main.nss", visible := [], references := ∅ }

def midway : Draft where
  builder :=
    { heap := { texts := #["a"], index := (∅ : Std.HashMap String UInt16).insert "a" 0 } }

def draft : Draft where
  builder :=
    { heap := {
        texts := #["a", "b"]
        index := ((∅ : Std.HashMap String UInt16).insert "a" 0).insert "b" 1 } }

def module : Module :=
  .ofBuilder "main.nss"
    { draft.builder with
      routines := #[{ kind := .chapter, name := "main", parameters := [], dialogues := []
                      code := code.encode }] }

def modules : Std.TreeMap String Module :=
  (∅ : Std.TreeMap String Module).insert "main.nss" module

def frame (position : Nat) : Frame :=
  { module, routine := 0, position, arguments := #[] }

def thread (position : Nat) (stack : Array Value) : Thread :=
  { id := 1, name := "main", home := module, frames := [frame position], stack }

def positions : List Nat :=
  [0, 1, 4, 10, 13, 22, 23, 1, 4, 10, 13, 16, 26]

def stack : Nat → Array Value
  | 2 | 4 | 8 => #[.flag false]
  | 10 => #[.flag true]
  | _ => #[]

/-- The selection begins and asks for both labels in vain, so it yields. It asks again, the second
label is pressed, the body is entered, and it breaks out. -/
def run (k : Nat) : Thread :=
  thread (positions.getD k 0) (stack k)

def events : List StageEvent :=
  [.cue (.beginSelect "main"), .poll "main" "a" false, .poll "main" "b" false,
    .poll "main" "a" false, .poll "main" "b" true]

def told : Nat → Nat
  | 0 => 0
  | 1 => 1
  | 2 | 3 => 2
  | 4 | 5 | 6 | 7 => 3
  | 8 | 9 => 4
  | _ => 5

def world (k : Nat) (pressed : List String) : World ScriptedStage where
  stage := { pressed, log := (events.take (told k)).toArray }
  random := ⟨1⟩

def pressed (k : Nat) : List String :=
  if k < 6 then [] else ["b"]

def change (k : Nat) : Change ScriptedStage :=
  .step ⟨modules, .standard, 0⟩ (world k (pressed k)) (if k = 5 then .yield else .next)
    (world (k + 1) (pressed k))

lemma intern_of_heap {s : String} {token : UInt16} {d : Draft} {heap : TextHeap}
    (h : TextHeap.intern s d.builder.heap = (.ok token, heap)) :
    Emit.intern s d = (.ok token, { d with builder := { d.builder with heap } }) := by
  have hbuild : Builder.intern s d.builder = (.ok token, { d.builder with heap }) := by
    rw [Builder.intern, h]
  rw [Emit.intern, Emit.build, hbuild]

lemma emits : Emit.statement context false 0 (.select ⟨0, .unplaced⟩ cases) {} =
    (.ok code, draft) := by
  have hfirst : Emit.intern "a" {} = (.ok 0, midway) := by
    refine intern_of_heap ?_
    have hindex : (∅ : Std.HashMap String UInt16)["a"]? = none := Std.HashMap.getElem?_empty
    rw [TextHeap.intern, hindex]
    rfl
  have hsecond : Emit.intern "b" midway = (.ok 1, draft) := by
    refine intern_of_heap ?_
    have hindex : ((∅ : Std.HashMap String UInt16).insert "a" 0)["b"]? = none := by
      simp
    rw [TextHeap.intern, midway, hindex]
    rfl
  have ha : Emit.choice context 1 (.mk ⟨1, .unplaced⟩ "a" (.empty ⟨2, .unplaced⟩)) {} =
      (.ok #[.run (.isPressed 0), .run (.jumpIfFalse 3), .leave], midway) :=
    Emit.bind_ok.mpr ⟨_, _, hfirst, rfl⟩
  have hb : Emit.choice context 10 (.mk ⟨3, .unplaced⟩ "b" (.exit ⟨4, .unplaced⟩)) midway =
      (.ok #[.run (.isPressed 1), .run (.jumpIfFalse 6), .leave, .leave], draft) :=
    Emit.bind_ok.mpr ⟨_, _, hsecond, rfl⟩
  refine Emit.bind_ok.mpr ⟨_, _, Emit.bind_ok.mpr ⟨_, _, ha, Emit.bind_ok.mpr ⟨_, _, hb, rfl⟩⟩, ?_⟩
  cbv

lemma links : Site.Links ⟨modules, module, 0, code.encode⟩ context draft.builder fun _ => True where
  texts _ text h := ⟨text, Module.text_ofBuilder h⟩
  imports _ _ h := Module.import?_ofBuilder h
  home := Std.TreeMap.getElem?_insert_self
  parameters _ _ _ h := by simp [context] at h
  routines _ _ _ h := by simp [context] at h

lemma makes (k : Nat) (hk : k < 12) : (change k).Makes modules (run k) (run (k + 1)) := by
  refine ⟨fun _ _ h => h, ?_⟩
  interval_cases k <;> cbv

lemma not_over {menu : Menu} {phase : Phase} {k : Nat} (hk : k < 12) (hstop : menu.stop = 26)
    (hat : menu.At (frame 0) [] #[] (run k) phase) :
    ¬Over (frame 0) [] #[] (run k) (run (k + 1)) phase := by
  rintro (⟨i, rfl⟩ | hend | ⟨i, -, hreturns⟩)
  · obtain ⟨-, ⟨arguments, hframes⟩, -⟩ := hat
    have hposition : positions.getD k 0 = 26 := by
      rw [← hstop]
      exact congrArg (fun frames => (frames.head?.map Frame.position).getD 0) hframes
    interval_cases k <;> cases hposition
  · exact absurd (congrArg Thread.frames hend) (List.cons_ne_nil _ _)
  · exact absurd hreturns.frames (List.cons_ne_nil _ _)

end Menu.Breaking

namespace Menu

theorem plays_one_case_breaking :
    ∃ menu : Menu, menu.stop = 26 ∧
      List.Forall₂ (Emit.Enters Breaking.context Breaking.draft.builder) Breaking.cases
        menu.entries ∧
      ∃ phase doing, menu.Trail (Breaking.frame 0) [] #[] Breaking.run Breaking.change 12 phase
        doing := by
  have hclosed : Breaking.code.Closed := by
    simp [Breaking.code]
  have hplaced : Placed Breaking.code.encode 26 0 Breaking.code.toList :=
    .of_encode hclosed (Bytes.holds_self _)
  obtain ⟨menu, -, hstop, hentries, -, -, hruns⟩ :=
    plays_one_case (t := Breaking.run 0) Builder.sound_empty Breaking.emits rfl
      (Module.body_ofBuilder rfl) hplaced rfl
      (fun _ _ h => Module.text_ofBuilder h) Breaking.links (by simp [Breaking.cases, Names])
  have hstop : menu.stop = 26 := hstop
  obtain ⟨m, hm, phase, doing, htrail, rfl | hover⟩ := hruns 12 Breaking.run Breaking.change rfl
    Breaking.makes
  · exact ⟨menu, hstop, hentries, phase, doing, htrail⟩
  · rcases Nat.lt_or_eq_of_le hm with hm | rfl
    · exact absurd hover (Breaking.not_over hm hstop (htrail.at_ m (Nat.le_refl m)))
    · exact ⟨menu, hstop, hentries, phase, doing, htrail⟩

end Menu

end Stagecraft
