import Stagecraft.Proofs.Safety.Bodies

/-!
Whatever happens while the code of the arguments of a call runs, the routine comes to its end with
as many values more as there are arguments, if it comes there at all.
-/

namespace Stagecraft

open Bytes (Holds)

namespace Emit

variable {c : Context} {b : Builder}

lemma Loads.ne_ret {node : Node} {name : String} {i : Instruction} (h : Loads c b node name i) :
    i ≠ .ret := by
  rintro rfl
  unfold Loads at h
  split at h
  · cases h
  · obtain ⟨token, -, ⟨⟩⟩ := h
  · cases h
  · cases h
  · cases h

lemma Stores.ne_ret {target : Target} {i : Instruction} (h : Stores c b target i) : i ≠ .ret := by
  rintro rfl
  unfold Stores at h
  split at h
  · cases h
  · obtain ⟨token, -, ⟨⟩⟩ := h
  · cases h

lemma Calls.ne_ret {node : Node} {count : Nat} {i : Instruction} (h : Calls c b node count i) :
    i ≠ .ret := by
  obtain ⟨id, signature, -, -, -, -, rfl⟩ | ⟨symbol, routine, -, -, -, ⟨-, rfl⟩ | ⟨k, -, -, rfl⟩⟩ := h
  · nofun
  · nofun
  · nofun

lemma Combines.not_ret {op : BinaryOperator} {left right code : Code}
    (h : Combines op left right code) (hl : Step.run .ret ∉ left) (hr : Step.run .ret ∉ right) :
    Step.run .ret ∉ code := by
  cases op with
  | and | or =>
    obtain ⟨first, second, leap, ⟨-, rfl⟩, ⟨-, rfl⟩, ⟨-, rfl⟩, rfl⟩ := h
    simp [Code.one, hl, hr]
  | _ =>
    cases h
    simp [Code.one, hl, hr]

mutual

theorem ExpressionCode.not_ret (e : Expression) {code : Code} (h : ExpressionCode c b e code) :
    Step.run .ret ∉ code := by
  cases e with
  | literal node value =>
    obtain ⟨i, -, rfl⟩ := h
    simp [Code.one]
  | name node text =>
    obtain ⟨i, hi, rfl⟩ := h
    simpa [Code.one, eq_comm] using hi.ne_ret
  | unary node op operand =>
    obtain ⟨inner, hi, rfl⟩ := h
    simpa [Code.one] using ExpressionCode.not_ret operand hi
  | binary node op left right =>
    obtain ⟨l, r, hl, hr, hcode⟩ := h
    exact hcode.not_ret (ExpressionCode.not_ret left hl) (ExpressionCode.not_ret right hr)
  | assign node target op value =>
    obtain ⟨keep, new, hkeep, hnew, hcode⟩ := h
    have hnew := ExpressionCode.not_ret value hnew
    cases hop : op.binary? with
    | some arithmetic =>
      simp only [hop] at hcode
      obtain ⟨old, hold, rfl⟩ := hcode
      simp [Code.one, hnew, hold.ne_ret.symm, hkeep.ne_ret.symm]
    | none =>
      simp only [hop] at hcode
      simp [hcode, hnew, hkeep.ne_ret.symm]
  | step node target op =>
    obtain ⟨keep, old, hkeep, hold, rfl⟩ := h
    simp [hold.ne_ret.symm, hkeep.ne_ret.symm]
  | call node callee arguments =>
    obtain ⟨inner, i, hinner, hi, rfl⟩ := h
    simp [Code.one, ExpressionsCode.not_ret arguments hinner, hi.ne_ret.symm]

theorem ExpressionsCode.not_ret (es : List Expression) {code : Code}
    (h : ExpressionsCode c b es code) : Step.run .ret ∉ code := by
  cases es with
  | nil =>
    cases h
    simp
  | cons e rest =>
    obtain ⟨first, more, hfirst, hmore, rfl⟩ := h
    simp [ExpressionCode.not_ret e hfirst, ExpressionsCode.not_ret rest hmore]

end

end Emit

namespace Thread

def Within (f : Frame) (callers : List Frame) (start stop : Nat) (t : Thread) : Prop :=
  ∃ inner position arguments, t.frames = inner ++ { f with position, arguments } :: callers ∧
    start ≤ position ∧ position ≤ stop

/-- Between two positions the routine that was called with the frame `f` gains `count` values on
its part of the stack. Whatever the host answers and whatever the routines that it calls do, a run
from the first position on stays between the two until the second one is reached or the thread ends;
and at the second one there are `count` values more than at the first. -/
def Gains (modules : Std.TreeMap String Module) (f : Frame) (start stop count : Nat) : Prop :=
  ∀ (σ : Type) [Stage σ] (callers : List Frame) (depth n : Nat) (u : Nat → Thread)
    (change : Nat → Change σ), (u 0).Stands f callers start depth →
    (∀ k < n, (change k).Makes modules (u k) (u (k + 1))) →
    ∃ m ≤ n, (∀ k ≤ m, (u k).Within f callers start stop ∧
        ∀ d, (u k).Stands f callers stop d → d = depth + count) ∧
      (m = n ∨ (∃ d, (u m).Stands f callers stop d) ∨ u (m + 1) = (u (m + 1)).terminate)

variable {t t' : Thread} {f : Frame} {callers : List Frame} {stack : Array Value}
  {K : Nat → Nat → Prop} {p d : Nat}

lemma Stands.eq_of_place (h : t.Stands f callers p d) {p' d' : Nat}
    (h' : t.Stands f callers p' d') : p' = p ∧ d' = d := by
  obtain ⟨⟨arguments, hframes⟩, hsize⟩ := h
  obtain ⟨⟨arguments', hframes'⟩, hsize'⟩ := h'
  have hframe := (List.cons.inj (hframes'.symm.trans hframes)).1
  exact ⟨congrArg Frame.position hframe, Nat.add_left_cancel (hsize'.symm.trans hsize)⟩

lemma Waits.length_lt (h : t.Waits f callers p d) : callers.length + 1 < t.frames.length := by
  obtain ⟨callee, below, arguments, -, -, hinside⟩ := h
  exact hinside.length_lt

lemma Busy.of_stands (h : t.Busy f callers stack K) (hstands : t.Stands f callers p d) : K p d := by
  obtain ⟨p', d', hstands', hK⟩ | ⟨p', d', hwaits, -⟩ := h.place
  · obtain ⟨rfl, rfl⟩ := hstands.eq_of_place hstands'
    exact hK
  · obtain ⟨⟨arguments, hframes⟩, -⟩ := hstands
    have hlength := hwaits.length_lt
    simp [hframes] at hlength

lemma Busy.within {start stop : Nat} (h : t.Busy f callers stack K)
    (hK : ∀ p d, K p d → start ≤ p ∧ p ≤ stop) : t.Within f callers start stop := by
  obtain ⟨p, d, ⟨⟨arguments, hframes⟩, -⟩, hplace⟩ | ⟨p, d, hwaits, hplace⟩ := h.place
  · exact ⟨[], p, arguments, hframes, hK p d hplace⟩
  · obtain ⟨callee, below, arguments, -, -, hinside⟩ := hwaits
    obtain ⟨inner, frame, hframes, -, -⟩ := hinside.frames
    exact ⟨inner ++ [frame], p, arguments, by simp [hframes], hK p (d + 1) hplace⟩

end Thread

namespace Site

open Thread (Stands Busy Returns)

def Arguing (s : Site) (code : Code) (start left p d : Nat) : Prop :=
  s.UpTo (start + code.extent) left p d ∧ code.Starts start p

variable {s : Site} {c : Emit.Context} {b : Builder} {P : Nat → Prop} {es : List Expression}
  {code : Code} {exit start left depth p d : Nat}

lemma Arguing.bounds (h : s.Arguing code start left p d) : start ≤ p ∧ p ≤ start + code.extent := by
  obtain ⟨before, after, rfl, rfl⟩ := h.2
  rw [Code.extent_append]
  omega

lemma arguing_start (links : s.Links c b P) (hnames : Names P (Expression.usesAll #[] es))
    (hcode : Emit.ExpressionsCode c b es code) (hplaced : Placed s.code exit start code.toList) :
    s.Arguing code start (depth + es.length) start depth := by
  refine ⟨fun n => ?_, #[], code, by simp, rfl⟩
  have hlinks : Site.Links { s with code := s.code.extract 0 (start + code.extent) } c b P :=
    ⟨links.texts, links.imports, links.home, links.parameters, links.routines⟩
  exact .of_expressions hlinks es hnames hcode (hplaced.cut (Nat.le_refl _)) (.ended ⟨rfl, rfl⟩)

lemma Arguing.allows (hcode : Emit.ExpressionsCode c b es code)
    (hplaced : Placed s.code exit start code.toList) (h : s.Arguing code start left p d)
    (hne : p ≠ start + code.extent) : ∃ i, i ≠ .ret ∧ Holds s.code p i.encode ∧
      Site.Allows { s with code := s.code.extract 0 (start + code.extent) } (p + i.size) d
        (s.Arguing code start left) i := by
  obtain ⟨hupTo, hstarts⟩ := h
  have hbounds := code.boundaries_starts start
  obtain ⟨i, hi, hlands, hnext⟩ :=
    GoesOn.of_starts hplaced hbounds (hcode.lands es hbounds) hstarts hne
  refine ⟨i, ?_, hi, (hupTo.allows hne hi).confine hlands hnext⟩
  rintro rfl
  obtain ⟨before, after, hsplit, rfl⟩ := hstarts
  obtain ⟨steps⟩ := after
  rw [hsplit, Placed.code_append_iff] at hplaced
  cases steps with
  | nil => exact hne (by simp [hsplit])
  | cons step rest =>
    have hmem : step ∈ code := by simp [hsplit]
    cases step with
    | leave => exact hcode.closed es _ hmem rfl
    | run i =>
      cases Instruction.eq_of_holds hi hplaced.2.1
      exact hcode.not_ret es hmem

section Run

variable {f : Frame} {body : Body} (hcode : Emit.ExpressionsCode c b es code)
  (hplaced : Placed s.code exit start code.toList) (hmodule : s.module = f.module)
  (hbody : f.module.body f.routine = .ok body) (hsame : s.code = body.code)

include hcode hplaced hmodule hbody hsame

variable {σ : Type} [Stage σ] {callers : List Frame} {stack : Array Value} {t t' : Thread}
  {x : Change σ}

lemma busy_of_makes (hbase : f.base = stack.size)
    (h : t.Busy f callers stack (s.Arguing code start left))
    (hstop : ∀ d, ¬t.Stands f callers (start + code.extent) d) (hx : x.Makes s.modules t t') :
    t'.Busy f callers stack (s.Arguing code start left) ∨ t' = t'.terminate := by
  cases x with
  | status status =>
    cases hx
    exact .inl (h.status status)
  | ends =>
    cases hx
    exact .inr rfl
  | step setting w flow w' =>
    obtain ⟨hkeeps, hstep⟩ := hx
    have hallows {p d : Nat} (hstands : t.Stands f callers p d) :
        ∃ i, i ≠ .ret ∧ Holds body.code p i.encode ∧
          Site.Allows { s with code := s.code.extract 0 (start + code.extent) } (p + i.size) d
            (s.Arguing code start left) i := by
      rw [← hsame]
      exact (h.of_stands hstands).allows hcode hplaced fun hp => hstop d (hp ▸ hstands)
    obtain hbusy | hend | hreturns := Busy.step (by exact hkeeps) (by exact hmodule) hbody hbase
      (fun p d hp => hp) (fun p d hstands _ => (hallows hstands).imp fun i hi => hi.2) h hstep
    · exact .inl hbusy
    · exact .inr hend
    · -- no instruction of the arguments returns
      obtain ⟨frame, size, hframes, -, hfetch⟩ := hreturns.frame
      obtain ⟨p, d, hstands, -⟩ | ⟨p, d, hwaits, -⟩ := h.place
      · obtain ⟨i, hne, hi, -⟩ := hallows hstands
        obtain ⟨⟨arguments, hframes'⟩, -⟩ := hstands
        cases hframes.symm.trans hframes'
        exact absurd (Thread.eq_of_fetch hbody hi hfetch).symm hne
      · have hlength := hwaits.length_lt
        simp [hframes] at hlength

lemma exists_busy {n : Nat} {u : Nat → Thread} {change : Nat → Change σ}
    (hbase : f.base = stack.size)
    (hstart : (u 0).Busy f callers stack (s.Arguing code start left))
    (hrun : ∀ k < n, (change k).Makes s.modules (u k) (u (k + 1))) :
    ∃ m ≤ n, (∀ k ≤ m, (u k).Busy f callers stack (s.Arguing code start left)) ∧
      (m = n ∨ (∃ d, (u m).Stands f callers (start + code.extent) d) ∨
        u (m + 1) = (u (m + 1)).terminate) := by
  induction n with
  | zero =>
    refine ⟨0, Nat.le_refl 0, fun k hk => ?_, .inl rfl⟩
    cases Nat.le_zero.mp hk
    exact hstart
  | succ n ih =>
    obtain ⟨m, hm, hbusy, rfl | hend⟩ := ih fun k hk => hrun k (Nat.lt_succ_of_lt hk)
    · by_cases hstop : ∃ d, (u m).Stands f callers (start + code.extent) d
      · exact ⟨m, Nat.le_succ m, hbusy, .inr (.inl hstop)⟩
      · obtain hnext | hend := busy_of_makes hcode hplaced hmodule hbody hsame hbase
          (hbusy m (Nat.le_refl m)) (fun d hd => hstop ⟨d, hd⟩) (hrun m (Nat.lt_succ_self m))
        · refine ⟨m + 1, Nat.le_refl _, fun k hk => ?_, .inl rfl⟩
          rcases Nat.le_succ_iff.mp hk with hk | rfl
          · exact hbusy k hk
          · exact hnext
        · exact ⟨m, Nat.le_succ m, hbusy, .inr (.inr hend)⟩
    · exact ⟨m, Nat.le_succ_of_le hm, hbusy, .inr hend⟩

theorem gains_of_arguments (links : s.Links c b P)
    (hnames : Names P (Expression.usesAll #[] es)) :
    Thread.Gains s.modules f start (start + code.extent) es.length := by
  intro σ _ callers depth n u change hstands hrun
  obtain ⟨⟨arguments, hframes⟩, hsize⟩ := hstands
  have hbase : f.base = ((u 0).stack.extract 0 f.base).size := by
    rw [Array.size_extract]
    omega
  have hkept : ((u 0).stack.extract 0 f.base).toList <+: (u 0).stack.toList := by
    rw [Array.toList_extract]
    exact List.take_prefix _ _
  have hstart : (u 0).Busy f callers ((u 0).stack.extract 0 f.base)
      (s.Arguing code start (depth + es.length)) :=
    ⟨⟨⟨[], _, hframes, rfl, nofun⟩, hkept⟩, .inl ⟨start, depth, ⟨⟨arguments, hframes⟩, hsize⟩,
      arguing_start links hnames hcode hplaced⟩⟩
  obtain ⟨m, hm, hbusy, hend⟩ :=
    exists_busy hcode hplaced hmodule hbody hsame hbase hstart hrun
  refine ⟨m, hm, fun k hk => ⟨(hbusy k hk).within fun p d hp => hp.bounds, fun d hd => ?_⟩, hend⟩
  exact ((hbusy k hk).of_stands hd).1.eq_left

end Run

end Site

end Stagecraft
