import Stagecraft.Proofs.Safety.Builtin
import Stagecraft.Proofs.Safety.Code

namespace Stagecraft

open Bytes (Holds)

structure Linked (modules : Std.TreeMap String Module) : Prop where
  routine : ∀ (name : String) m, modules[name]? = some m →
    ∀ r parameters, m.parameters r = .ok parameters →
    ∃ body entry, m.body r = .ok body ∧ m.entry r = .ok entry ∧
      Site.Safe ⟨modules, m, parameters.length, body.code⟩ 0 0
  find : ∀ (name : String) m, modules[name]? = some m → ∀ n r, m.find? n = some r →
    ∃ parameters, m.parameters r = .ok parameters

variable {modules : Std.TreeMap String Module}

def Module.Loaded (modules : Std.TreeMap String Module) (m : Module) : Prop :=
  ∃ name : String, modules[name]? = some m

structure Frame.Fits (modules : Std.TreeMap String Module) (depth : Nat) (f : Frame) : Prop where
  loaded : f.module.Loaded modules
  runs : ∃ parameters body entry, f.module.parameters f.routine = .ok parameters ∧
    f.module.body f.routine = .ok body ∧ f.module.entry f.routine = .ok entry ∧
    f.arguments.size = parameters.length ∧
    Site.Safe ⟨modules, f.module, parameters.length, body.code⟩ f.position depth

def Frame.Wait (modules : Std.TreeMap String Module) : Nat → List Frame → Prop
  | _, [] => True
  | top, f :: rest =>
    f.base ≤ top ∧ f.Fits modules (top - f.base + 1) ∧ Frame.Wait modules f.base rest

def Frame.Stand (modules : Std.TreeMap String Module) (size : Nat) : List Frame → Prop
  | [] => True
  | f :: rest =>
    f.base ≤ size ∧ f.Fits modules (size - f.base) ∧ Frame.Wait modules f.base rest

def Thread.Fits (modules : Std.TreeMap String Module) (t : Thread) : Prop :=
  Frame.Stand modules t.stack.size t.frames

def Spawn.Fits (modules : Std.TreeMap String Module) (s : Spawn) : Prop :=
  s.module.Loaded modules ∧ ∃ parameters, s.module.parameters s.routine = .ok parameters

def World.Fits (modules : Std.TreeMap String Module) (w : World σ) : Prop :=
  ∀ s ∈ w.spawns, s.Fits modules

lemma Thread.fits_terminate (t : Thread) : t.terminate.Fits modules := trivial

lemma Frame.fits_start (hl : Linked modules) {f : Frame} {parameters : List String}
    (hm : f.module.Loaded modules) (hp : f.module.parameters f.routine = .ok parameters)
    (ha : f.arguments.size = parameters.length) (hf : f.position = 0) : f.Fits modules 0 := by
  obtain ⟨name, hname⟩ := hm
  obtain ⟨body, entry, hb, he, hsafe⟩ := hl.routine name _ hname _ _ hp
  exact ⟨⟨name, hname⟩, parameters, body, entry, hp, hb, he, ha, hf ▸ hsafe⟩

lemma Request.fits_run [Stage σ] (hl : Linked modules) {module : Module} {request : Request}
    {now : Nat} {w : World σ} (hm : module.Loaded modules) (hr : request.Sound module)
    (hw : w.Fits modules) : (request.run now w).2.2.Fits modules := by
  cases request with
  | spawn thread =>
    obtain ⟨rfl, name, hfind⟩ := hr
    obtain ⟨path, hpath⟩ := hm
    intro s hs
    rcases Array.mem_push.mp hs with hs | rfl
    · exact hw s hs
    · exact ⟨⟨path, hpath⟩, hl.find path _ hpath name _ hfind⟩
  | _ => exact hw

def Outcome.Fits (modules : Std.TreeMap String Module) (o : Outcome σ) : Prop :=
  Permits (fun r => r.2.Fits modules) o.1 ∧ o.2.Fits modules

lemma Permits.bind {x : Except MachineError α} {f : α → Except MachineError β} {Q : α → Prop}
    {R : β → Prop} (hx : Permits Q x) (hf : ∀ a, Q a → Permits R (f a)) : Permits R (x >>= f) := by
  cases x with
  | ok a => exact hf a hx
  | error e => exact hx

lemma permits_value {x : Except ValueError α} :
    Permits (fun _ => True) (x.mapError MachineError.value) := by
  cases x with
  | ok a => trivial
  | error e => simp [Permits, Except.mapError, MachineError.Permitted, MachineError.permitted,
      MachineError.code]

lemma Outcome.fits_quietly {w : World σ} {r : Except MachineError Thread} (hw : w.Fits modules)
    (hr : Permits (Thread.Fits modules) r) : Outcome.Fits modules (Thread.quietly w r) := by
  cases r with
  | ok t => exact ⟨hr, hw⟩
  | error e => exact ⟨hr, hw⟩

lemma Outcome.fits_tell [Stage σ] {w : World σ} {t : Thread} {cue : Cue} (hw : w.Fits modules)
    (ht : t.Fits modules) : Outcome.Fits modules (Thread.tell w t cue) :=
  ⟨ht, hw⟩

namespace Spot

variable {σ : Type} {s : Setting} {k : Spot} {w : World σ} {position n : Nat}
  {arguments stack : Array Value}

def site (modules : Std.TreeMap String Module) (k : Spot) (parameters : Nat) : Site :=
  ⟨modules, k.frame.module, parameters, k.body.code⟩

lemma exists_textOf {token : UInt16} (h : (k.site modules n).HasText token) :
    ∃ t, Thread.textOf k.frame.module token = .ok t := by
  obtain ⟨t, ht⟩ := h
  have ht : k.frame.module.text token = .ok t := ht
  exact ⟨t, by simp [Thread.textOf, ht]⟩

structure Fits (modules : Std.TreeMap String Module) (n : Nat) (k : Spot) : Prop where
  loaded : k.frame.module.Loaded modules
  parameters : ∃ parameters, k.frame.module.parameters k.frame.routine = .ok parameters ∧
    parameters.length = n
  entry : ∃ entry, k.frame.module.entry k.frame.routine = .ok entry
  callers : Frame.Wait modules k.frame.base k.callers

def Has (k : Spot) (stack : Array Value) (depth : Nat) : Prop :=
  stack.size = k.frame.base + depth

lemma Has.push {depth : Nat} {v : Value} (h : k.Has stack depth) :
    k.Has (stack.push v) (depth + 1) := by
  simp [Has, show stack.size = k.frame.base + depth from h]
  omega

lemma Fits.frame (hk : k.Fits modules n) (ha : arguments.size = n) {depth : Nat}
    (h : (k.site modules n).Safe position depth) :
    Frame.Fits modules depth { k.frame with position, arguments } := by
  obtain ⟨parameters, hp, rfl⟩ := hk.parameters
  obtain ⟨entry, he⟩ := hk.entry
  exact ⟨hk.loaded, parameters, k.body, entry, hp, k.isBody, he, ha, h⟩

lemma Fits.at_ (w : World σ) (hk : k.Fits modules n) (ha : arguments.size = n) {depth : Nat}
    (hd : k.Has stack depth) (h : (k.site modules n).Safe position depth) :
    (k.at_ ⟨position, arguments, stack, w⟩).Fits modules := by
  refine ⟨?_, ?_, hk.callers⟩
  · exact hd ▸ Nat.le_add_right _ _
  · have hsize : stack.size - k.frame.base = depth := by
      rw [hd, Nat.add_sub_cancel_left]
    change Frame.Fits modules (stack.size - k.frame.base) _
    rw [hsize]
    exact hk.frame ha h

lemma Has.pop {depth : Nat} (h : k.Has stack depth) (hd : 1 ≤ depth) (position : Nat)
    (arguments : Array Value) (w : World σ) :
    ∃ v rest, (k.at_ ⟨position, arguments, stack, w⟩).pop =
      .ok (v, k.at_ ⟨position, arguments, rest, w⟩) ∧ k.Has rest (depth - 1) := by
  have hsize : stack.size = k.frame.base + depth := h
  obtain ⟨rest, v, rfl⟩ := @Array.exists_push_of_size_pos _ stack (by omega)
  rw [Array.size_push] at hsize
  refine ⟨v, rest, pop_at v (by omega), ?_⟩
  change rest.size = _
  omega

lemma Has.popMany {depth count : Nat} (h : k.Has stack depth) (hd : count ≤ depth)
    (position : Nat) (arguments : Array Value) (w : World σ) :
    ∃ values rest, (k.at_ ⟨position, arguments, stack, w⟩).popMany count =
      .ok (values, k.at_ ⟨position, arguments, rest, w⟩) ∧ values.length = count ∧
      k.Has rest (depth - count) := by
  have hsize : stack.size = k.frame.base + depth := h
  have hge : ¬stack.size < k.frame.base + count := by omega
  refine ⟨(stack.extract (stack.size - count) stack.size).toList, stack.take (stack.size - count),
    ?_, ?_, ?_⟩
  · simp [Thread.popMany, Spot.at_, Thread.base, hge]
  · simp
    omega
  · simp [Has]
    omega

section Steps

variable {depth : Nat} (hk : k.Fits modules n) (ha : arguments.size = n) (hd : k.Has stack depth)

include hk ha hd

lemma Fits.jump {next : Nat} {offset : Int16}
    (h : (k.site modules n).Leads next offset depth (k.site modules n).Safe) :
    Permits (Thread.Fits modules)
      (Thread.jump next offset k.body.code.size (k.at_ ⟨position, arguments, stack, w⟩)) := by
  obtain ⟨target, ht, hs, hsafe⟩ := h
  have hs : target ≤ k.body.code.size := hs
  rw [jump_at ht hs]
  exact hk.at_ w ha hd hsafe

lemma Fits.jumpIf {wanted : Bool} {next : Nat} {offset : Int16} (hpos : 1 ≤ depth)
    (hnext : (k.site modules n).Safe next (depth - 1))
    (h : (k.site modules n).Leads next offset (depth - 1) (k.site modules n).Safe) :
    Permits (Thread.Fits modules) (Thread.jumpIf wanted next offset k.body.code.size
      (k.at_ ⟨next, arguments, stack, w⟩)) := by
  obtain ⟨v, rest, hpop, hrest⟩ := hd.pop hpos next arguments w
  rw [Thread.jumpIf, hpop, Except.ok_bind]
  refine permits_value.bind fun truth _ => ?_
  split
  · exact hk.jump ha hrest h
  · exact hk.at_ w ha hrest hnext

lemma Fits.call (hl : Linked modules) {m : Module} {routine : UInt16} {next : Nat}
    (hm : m.Loaded modules) (h : Site.Calls m routine next depth (k.site modules n).Safe) :
    Permits (Thread.Fits modules) (Thread.call m routine (k.at_ ⟨next, arguments, stack, w⟩)) := by
  obtain ⟨parameters, hp, hcount, hsafe⟩ := h
  obtain ⟨values, rest, hpop, hvalues, hrest⟩ :=
    hd.popMany hcount next arguments w
  have hsize : rest.size = k.frame.base + (depth - parameters.length) := hrest
  rw [Thread.call]
  split
  · simp [Permits, MachineError.Permitted, MachineError.permitted, MachineError.code]
  · simp only [hp, Except.mapError, Except.ok_bind, hpop]
    -- the routine starts on what is left of the stack; the caller waits for one value above it
    refine ⟨Nat.le_refl _, ?_, ?_, ?_, hk.callers⟩
    · change Frame.Fits modules (rest.size - rest.size) _
      rw [Nat.sub_self]
      exact Frame.fits_start hl hm hp (by simpa using hvalues) rfl
    · change k.frame.base ≤ rest.size
      omega
    · change Frame.Fits modules (rest.size - k.frame.base + 1) _
      rw [hsize, Nat.add_sub_cancel_left]
      exact hk.frame ha hsafe

omit ha in
lemma Fits.leave (a : Moment σ) (hstack : a.stack = stack) :
    (k.at_ a).leave.2.Fits modules := by
  have hsize : stack.size = k.frame.base + depth := hd
  cases hc : k.callers with
  | nil => simp [Thread.leave, Spot.at_, hc, Thread.fits_terminate]
  | cons caller callers =>
    have hcallers := hk.callers
    rw [hc] at hcallers
    obtain ⟨hbase, hcaller, hwait⟩ := hcallers
    have htake : (stack.take k.frame.base).size + 1 = k.frame.base + 1 := by
      simp
      omega
    simp only [Thread.leave, Spot.at_, hc, Thread.base, hstack, Thread.Fits, Frame.Stand,
      Array.size_push, htake]
    refine ⟨by omega, ?_, hwait⟩
    rwa [show k.frame.base + 1 - caller.base = k.frame.base - caller.base + 1 by omega]

end Steps

section Execution

variable {depth : Nat} [Stage σ] (hl : Linked s.modules) (hr : s.registry = .standard)
  (hk : k.Fits s.modules n) (ha : arguments.size = n) (hd : k.Has stack depth)
  (hw : w.Fits s.modules)

include hl hr hk ha hd hw

lemma Fits.dispatch {next : Nat} {id : UInt16} {count : Nat} {signature : Signature}
    (hs : Signature.ofId id = some signature)
    (haccepts : signature.accepts count) (hcount : count ≤ depth)
    (h : (k.site s.modules n).Safe next (depth - count + 1)) :
    Outcome.Fits s.modules ((k.at_ ⟨next, arguments, stack, w⟩).dispatch s k.frame.module id count
      w) := by
  obtain ⟨values, rest, hpop, hvalues, hrest⟩ := hd.popMany hcount next arguments w
  have hunderstand : Permits (Request.Sound k.frame.module)
      (Registry.standard.understand k.frame.module id values) :=
    Registry.understand_standard hs (hvalues ▸ haccepts)
  simp only [Thread.dispatch, hpop, hr]
  split
  · next e he =>
    rw [he] at hunderstand
    exact ⟨hunderstand, hw⟩
  · next request hrequest =>
    rw [hrequest] at hunderstand
    have hworld : (request.run s.now w).2.2.Fits s.modules :=
      Request.fits_run hl hk.loaded hunderstand hw
    have hthread (v : Value) : ((k.at_ ⟨next, arguments, rest, w⟩).push v).Fits s.modules :=
      hk.at_ w ha hrest.push h
    split
    · exact ⟨hthread _, hworld⟩
    · exact ⟨hthread _, hworld⟩

theorem Fits.execute {next : Nat} {i : Instruction}
    (h : (k.site s.modules n).Allows next depth (k.site s.modules n).Safe i) :
    Outcome.Fits s.modules ((k.at_ ⟨next, arguments, stack, w⟩).execute s k.frame.module
      k.frame.routine next k.body.code.size w i) := by
  cases i with
  | load v =>
    obtain ⟨⟨x, hx⟩, h⟩ := h
    have hx : Thread.immediateValue k.frame.module v = .ok x := hx
    refine Outcome.fits_quietly hw ?_
    rw [hx]
    exact hk.at_ w ha hd.push h
  | loadArgument index =>
    obtain ⟨hi, h⟩ := h
    have hi : index.toNat < n := hi
    have hargument : (k.at_ ⟨next, arguments, stack, w⟩).argument index =
        .ok arguments[index.toNat] := by
      simp [Thread.argument, Spot.at_, ha, hi]
    refine Outcome.fits_quietly hw ?_
    rw [hargument]
    exact hk.at_ w ha hd.push h
  | storeArgument index =>
    obtain ⟨hi, hpos, h⟩ := h
    have hi : index.toNat < n := hi
    obtain ⟨v, rest, hpop, hrest⟩ := hd.pop hpos next arguments w
    have hset : (k.at_ ⟨next, arguments, rest, w⟩).setArgument index v =
        .ok (k.at_ ⟨next, arguments.setIfInBounds index.toNat v, rest, w⟩) := by
      simp [Thread.setArgument, Spot.at_, ha, hi]
    refine Outcome.fits_quietly hw ?_
    simp only [hpop, Except.ok_bind, hset]
    exact hk.at_ w (by simpa using ha) hrest h
  | loadGlobal token =>
    obtain ⟨htoken, h⟩ := h
    obtain ⟨t, ht⟩ := exists_textOf htoken
    refine Outcome.fits_quietly hw ?_
    rw [ht, Except.ok_bind]
    exact hk.at_ w ha hd.push h
  | storeGlobal token =>
    obtain ⟨htoken, hpos, h⟩ := h
    obtain ⟨t, ht⟩ := exists_textOf htoken
    obtain ⟨v, rest, hpop, hrest⟩ := hd.pop hpos next arguments w
    simp only [Thread.execute, ht, hpop]
    exact Outcome.fits_tell hw (hk.at_ w ha hrest h)
  | binary op =>
    obtain ⟨hpos, h⟩ := h
    obtain ⟨right, rest, hpop, hrest⟩ := hd.pop (by omega) next arguments w
    obtain ⟨left, rest', hpop', hrest'⟩ := hrest.pop (by omega) next arguments w
    refine Outcome.fits_quietly hw ?_
    simp only [hpop, Except.ok_bind, hpop']
    refine permits_value.bind fun x _ => hk.at_ w ha hrest'.push ?_
    rwa [show depth - 1 - 1 + 1 = depth - 1 by omega]
  | unary op =>
    obtain ⟨hpos, h⟩ := h
    obtain ⟨v, rest, hpop, hrest⟩ := hd.pop hpos next arguments w
    refine Outcome.fits_quietly hw ?_
    rw [hpop, Except.ok_bind]
    refine permits_value.bind fun x _ => hk.at_ w ha hrest.push ?_
    rwa [show depth - 1 + 1 = depth by omega]
  | jump offset => exact Outcome.fits_quietly hw (hk.jump ha hd h)
  | jumpIfTrue offset | jumpIfFalse offset =>
    exact Outcome.fits_quietly hw (hk.jumpIf ha hd h.1 h.2.1 h.2.2)
  | call routine => exact Outcome.fits_quietly hw (hk.call ha hd hl hk.loaded h)
  | callFar i routine =>
    obtain ⟨name, m, hname, hm, h⟩ := h
    have hname : k.frame.module.import? i = .ok name := hname
    have hm : s.modules[name]? = some m := hm
    refine Outcome.fits_quietly hw ?_
    simp only [Thread.callFar, hname, Except.mapError, Except.ok_bind, hm]
    exact hk.call ha hd hl ⟨name, hm⟩ h
  | dispatch id count =>
    obtain ⟨signature, hs, haccepts, hcount, h⟩ := h
    exact hk.dispatch hl hr ha hd hw hs haccepts hcount h
  | present token =>
    obtain ⟨htoken, h⟩ := h
    obtain ⟨t, ht⟩ := exists_textOf htoken
    simp only [Thread.execute, ht]
    exact Outcome.fits_tell hw (hk.at_ w ha hd h)
  | beginDialogue index =>
    obtain ⟨entry, he⟩ := hk.entry
    simp only [Thread.execute, Thread.dialogueName, he, Except.mapError, Except.ok_bind]
    exact Outcome.fits_tell hw (hk.at_ w ha hd h)
  | selectStart => exact Outcome.fits_tell hw (hk.at_ w ha hd h)
  | isPressed token =>
    obtain ⟨htoken, h⟩ := h
    obtain ⟨t, ht⟩ := exists_textOf htoken
    simp only [Thread.execute, ht]
    exact ⟨hk.at_ w ha hd.push h, hw⟩
  | selectEnd => exact ⟨hk.at_ w ha hd h, hw⟩
  | pop =>
    obtain ⟨hpos, h⟩ := h
    obtain ⟨v, rest, hpop, hrest⟩ := hd.pop hpos next arguments w
    refine Outcome.fits_quietly hw ?_
    rw [hpop]
    exact hk.at_ w ha hrest h
  | dup =>
    obtain ⟨hpos, h⟩ := h
    obtain ⟨v, rest, hpop, hrest⟩ := hd.pop hpos next arguments w
    refine Outcome.fits_quietly hw ?_
    rw [hpop]
    refine hk.at_ w ha hrest.push.push ?_
    rwa [show depth - 1 + 1 + 1 = depth + 1 by omega]
  | trap token =>
    obtain ⟨t, ht⟩ := exists_textOf h
    refine Outcome.fits_quietly hw ?_
    rw [ht, Except.ok_bind]
    simp [Permits, throw, throwThe, MonadExceptOf.throw, MachineError.Permitted,
      MachineError.permitted, MachineError.code]
  | ret => exact ⟨hk.leave hd _ rfl, hw⟩

end Execution

end Spot

theorem Thread.Fits.step [Stage σ] {s : Setting} {t : Thread} {w : World σ}
    (hl : Linked s.modules) (hr : s.registry = .standard) (ht : t.Fits s.modules)
    (hw : w.Fits s.modules) : Outcome.Fits s.modules (t.step s w) := by
  obtain ⟨id, name, home, frames, stack, status, dialogue⟩ := t
  cases frames with
  | nil => exact ⟨Thread.fits_terminate _, hw⟩
  | cons f rest =>
    obtain ⟨hbase, ⟨hloaded, parameters, body, entry, hp, hb, he, ha, hsafe⟩, hwait⟩ := ht
    let k : Spot := ⟨⟨id, name, home, f :: rest, stack, status, dialogue⟩, f, rest, body, hb⟩
    have hk : k.Fits s.modules parameters.length :=
      ⟨hloaded, ⟨parameters, hp, rfl⟩, ⟨entry, he⟩, hwait⟩
    have hd : k.Has stack (stack.size - f.base) := by
      change stack.size = f.base + (stack.size - f.base)
      have : f.base ≤ stack.size := hbase
      omega
    obtain ⟨i, hi, hallows⟩ := hsafe.step
    have hi : Holds k.body.code f.position i.encode := hi
    change Outcome.Fits s.modules ((k.at_ ⟨f.position, f.arguments, stack, w⟩).step s w)
    rw [Spot.step_eq hi]
    exact hk.execute hl hr ha hd hw hallows

end Stagecraft
