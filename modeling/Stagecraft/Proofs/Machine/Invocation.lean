import Stagecraft.Machine.Step
import Stagecraft.Proofs.Safety.Builtin
import Stagecraft.Stage.Headless

/-!
A function takes its arguments one after the other, and in between it may give cues to the stage,
draw random numbers, start threads or let the calling thread wait. All of its effects come after the
last thing that can go wrong.
-/

namespace Stagecraft

structure CallContext (σ : Type) where
  world : World σ
  wait : Option Wait := none

abbrev Invoke (σ : Type) := ExceptT MachineError (StateM (Arguments × CallContext σ))

namespace Invoke

variable {σ α : Type}

def take (x : Take α) : Invoke σ α := fun s =>
  ((x s.1).1, (x s.1).2, s.2)

def change (f : World σ → World σ) : Invoke σ Unit := fun s =>
  (.ok (), s.1, { s.2 with world := f s.2.world })

def suspend (reason : Wait) : Invoke σ Unit := fun s =>
  (.ok (), s.1, { s.2 with wait := some reason })

def world : Invoke σ (World σ) := fun s =>
  (.ok s.2.world, s)

variable [Stage σ]

def cue (c : Cue) : Invoke σ Unit :=
  change fun w => { w with stage := Stage.perform c w.stage }

def entities (pattern : String) : Invoke σ (List String) := do
  pure (Stage.entities (← world).stage pattern)

def cues (make : String → Cue) : List String → Invoke σ Unit
  | [] => pure ()
  | entity :: rest => do
    cue (make entity)
    cues make rest

def pause (now : Nat) (wait : Bool) (duration : Nat) : Invoke σ Unit :=
  if wait then suspend (.time (Request.after now duration)) else pure ()

def load (asset : Asset) : Invoke σ Unit := do
  let (token, stage) := Stage.load asset (← world).stage
  change fun w => { w with stage }
  match token with
  | some id => suspend (.token id)
  | none => pure ()

def ask (question : Question) (pattern : String) : Invoke σ Value := do
  let entities ← entities pattern
  pure (.ofNat (question.answer (← world).stage entities.head?))

end Invoke

open Invoke (take change suspend cue cues entities pause load ask)

def Builtin.perform {σ : Type} [Stage σ] (module : Module) (now : Nat) : Builtin → Invoke σ Value
  | wait => do
    let duration ← take Take.millis
    suspend (.time (Request.after now duration))
    pure .null
  | waitKey => do
    let timeout ← match ← take Take.value with
      | .null => pure none
      | .number x | .delta x => pure (some (Take.wholeMillis x))
      | v => take (Take.reject "a number or null" v)
    suspend (.input (timeout.map (Request.after now)))
    pure .null
  | createProcess => do
    let function ← take Take.text
    let name ← take Take.text
    match module.find? function with
    | some routine =>
      change fun w => { w with spawns := w.spawns.push { name, module, routine } }
      pure .null
    | none => throw (.functionNotFound function module.name)
  | request => do
    let action ← take Take.action
    let name ← take Take.text
    cues (.request · action) (← entities name)
    pure .null
  | delete => do
    let name ← take Take.text
    cues .delete (← entities name)
    pure .null
  | createColor => do
    let rgba ← take Take.color
    let height ← take Take.number
    let width ← take Take.number
    let y ← take Take.coordinate
    let x ← take Take.coordinate
    let priority ← take Take.priority
    let name ← take Take.text
    cue (.color name priority x y width height rgba)
    pure .null
  | createTexture => do
    let source ← take Take.text
    let y ← take Take.coordinate
    let x ← take Take.coordinate
    let priority ← take Take.priority
    let name ← take Take.text
    load (.texture name priority x y source)
    pure .null
  | createText => do
    let content ← take Take.asText
    let height ← take Take.extent
    let width ← take Take.extent
    let y ← take Take.coordinate
    let x ← take Take.coordinate
    let priority ← take Take.priority
    let name ← take Take.text
    cue (.text name priority x y width height content)
    pure .null
  | createSound => do
    let file ← take Take.text
    let kind ← take Take.soundKind
    let name ← take Take.text
    load (.sound name kind file)
    pure .null
  | setVolume => do
    let volume ← take Take.number
    let duration ← take Take.millis
    let name ← take Take.text
    cues (.volume · duration volume) (← entities name)
    pure .null
  | setLoop => do
    let on ← take Take.asFlag
    let name ← take Take.text
    cues (.looping · on) (← entities name)
    pure .null
  | setLoopPoint => do
    let stop ← take Take.millis
    let start ← take Take.millis
    let name ← take Take.text
    if stop != 0 && stop < start then throw (.loopPoint start stop)
    cues (.loopPoint · start stop) (← entities name)
    pure .null
  | fade => do
    let wait ← take (Take.flagOr false)
    let easing ← take Take.easing
    let opacity ← take Take.number
    let duration ← take Take.millis
    let name ← take Take.text
    cues (.fade · duration opacity easing) (← entities name)
    pause now wait duration
    pure .null
  | move => do
    let wait ← take (Take.flagOr false)
    let easing ← take Take.easing
    let y ← take Take.coordinate
    let x ← take Take.coordinate
    let duration ← take Take.millis
    let name ← take Take.text
    cues (.move · duration x y easing) (← entities name)
    pause now wait duration
    pure .null
  | zoom => do
    let wait ← take (Take.flagOr false)
    let easing ← take Take.easing
    let y ← take Take.number
    let x ← take Take.number
    let duration ← take Take.millis
    let name ← take Take.text
    cues (.zoom · duration x y easing) (← entities name)
    pause now wait duration
    pure .null
  | drawTransition => do
    let wait ← take (Take.flagOr true)
    let mask ← take Take.text?
    let easing ← take Take.easing
    let feather ← take Take.number
    let stop ← take Take.number
    let start ← take Take.number
    let duration ← take Take.millis
    let name ← take Take.text
    cues (.transition · { duration, start, stop, feather, easing, mask }) (← entities name)
    pause now wait duration
    pure .null
  | setAlias => do
    let nickname ← take Take.text
    let name ← take Take.text
    cue (.nickname name nickname)
    pure .null
  | remainTime => do ask .remaining (← take Take.text)
  | passageTime => do ask .passage (← take Take.text)
  | imageHorizon => do ask .width (← take Take.text)
  | imageVertical => do ask .height (← take Take.text)
  | random => do
    let x ← take Take.asNumber
    let (n, generator) := (← Invoke.world).random.below (bound x)
    change fun w => { w with random := generator }
    pure (.ofNat n.toNat)
  | string => do
    match ← take Take.all with
    | [] => pure (.text (Format.fill "" []))
    | format :: values => pure (.text (Format.fill format.toText values))
  | time => pure (.ofNat now)
  | mouseClicked => do pure (.flag (Stage.input (← Invoke.world).stage).clicked)

def Registry.invoke {σ : Type} [Stage σ] (r : Registry) (module : Module) (now : Nat) (id : UInt16)
    (values : List Value) (context : CallContext σ) : Except MachineError Value × CallContext σ :=
  match (r.entries[id.toNat]?).join, Signature.ofId id with
  | some builtin, some signature =>
    if !signature.accepts values.length then
      (.error (.argumentCount signature.name values.length), context)
    else
      let missing := if signature.isVariadic then 0 else signature.parameters.length - values.length
      let rest := (values ++ List.replicate missing Value.null).reverse
      let (result, _, context) :=
        builtin.perform module now ({ builtin := signature.name, rest }, context)
      (result, context)
  | _, _ => (.error (.unknownBuiltin id), context)

namespace Take

variable {α β : Type} {n : Nat}

def Idle (x : Take α) : Prop :=
  ∀ builtin, ∃ r, ∀ rest, x { builtin, rest } = (r, { builtin, rest })

def Single (x : Take α) : Prop :=
  ∀ builtin v, ∃ r, ∀ rest, x { builtin, rest := v :: rest } = (r, { builtin, rest })

/-- With `n` arguments or more at hand, a reader neither takes nor sees what is behind them. -/
def Within (n : Nat) (x : Take α) : Prop :=
  ∀ builtin front, n ≤ front.length → ∃ r left, ∀ behind,
    x { builtin, rest := front ++ behind } = (r, { builtin, rest := left ++ behind })

lemma idle_pure {a : α} : Idle (pure a : Take α) :=
  fun _ => ⟨_, fun _ => rfl⟩

lemma idle_throw {e : MachineError} : Idle (throw e : Take α) :=
  fun _ => ⟨_, fun _ => rfl⟩

lemma idle_reject {expected : String} {found : Value} : Idle (reject expected found : Take α) :=
  fun builtin => ⟨.error (.argumentType builtin expected found), fun _ => rfl⟩

lemma Single.bind {x : Take α} {f : α → Take β} (hx : Single x) (hf : ∀ a, Idle (f a)) :
    Single (x >>= f) := by
  intro builtin v
  obtain ⟨r, hr⟩ := hx builtin v
  cases r with
  | error e =>
    refine ⟨.error e, fun rest => ?_⟩
    rw [StateExcept.bind_apply, hr]
  | ok a =>
    obtain ⟨r', hr'⟩ := hf a builtin
    refine ⟨r', fun rest => ?_⟩
    rw [StateExcept.bind_apply, hr]
    exact hr' rest

lemma Single.then {x : Take α} {f : α → Take β} (hx : Single x) (hf : ∀ a, Within n (f a)) :
    Within (n + 1) (x >>= f) := by
  intro builtin front hfront
  obtain ⟨v, front, rfl⟩ := List.exists_cons_of_length_pos (by omega : 0 < front.length)
  obtain ⟨r, hr⟩ := hx builtin v
  cases r with
  | error e =>
    refine ⟨.error e, front, fun behind => ?_⟩
    rw [StateExcept.bind_apply, List.cons_append, hr]
  | ok a =>
    obtain ⟨r', left, hr'⟩ := hf a builtin front (by simpa using hfront)
    refine ⟨r', left, fun behind => ?_⟩
    rw [StateExcept.bind_apply, List.cons_append, hr]
    exact hr' behind

lemma Idle.within {x : Take α} (h : Idle x) : Within 0 x := by
  intro builtin front _
  obtain ⟨r, hr⟩ := h builtin
  exact ⟨r, front, fun behind => hr _⟩

lemma single_value : Single value :=
  fun _ _ => ⟨_, fun _ => rfl⟩

lemma single_value? : Single value? :=
  fun _ v => by cases v <;> exact ⟨_, fun _ => rfl⟩

lemma single_number : Single number :=
  single_value.bind fun v => by split <;> first | exact idle_pure | exact idle_reject

lemma single_text : Single text :=
  single_value.bind fun v => by split <;> first | exact idle_pure | exact idle_reject

lemma single_enumerator : Single enumerator :=
  single_value.bind fun v => by split <;> first | exact idle_pure | exact idle_reject

lemma single_text? : Single text? :=
  single_value?.bind fun v => by split <;> first | exact idle_pure | exact idle_reject

lemma single_flagOr {default : Bool} : Single (flagOr default) :=
  single_value?.bind fun v => by split <;> first | exact idle_pure | exact idle_reject

lemma single_enumerator? : Single enumerator? :=
  single_value?.bind fun v => by split <;> first | exact idle_pure | exact idle_reject

lemma single_asNumber : Single asNumber :=
  single_value.bind fun v => by split <;> first | exact idle_pure | exact idle_reject

lemma single_asText : Single asText :=
  single_value.bind fun _ => idle_pure

lemma single_asFlag : Single asFlag :=
  single_value.bind fun v => by split <;> first | exact idle_pure | exact idle_reject

lemma single_millis : Single millis :=
  single_number.bind fun _ => idle_pure

lemma single_priority : Single priority :=
  single_number.bind fun _ => idle_pure

lemma single_coordinate : Single coordinate :=
  single_value.bind fun v => by split <;> first | exact idle_pure | exact idle_reject

lemma single_extent : Single extent :=
  single_value.bind fun v => by split <;> first | exact idle_pure | exact idle_reject

lemma single_color : Single color :=
  single_value.bind fun v => by split <;> first | exact idle_pure | exact idle_reject

lemma single_easing : Single easing := by
  refine single_enumerator?.bind fun c => ?_
  split
  · exact idle_pure
  · split
    · exact idle_pure
    · exact idle_reject

lemma single_action : Single action :=
  single_enumerator.bind fun c => by split <;> first | exact idle_pure | exact idle_reject

lemma single_soundKind : Single soundKind :=
  single_enumerator.bind fun c => by split <;> first | exact idle_pure | exact idle_reject

end Take

variable {σ : Type} [Stage σ]

def CallContext.settle (now : Nat) (context : CallContext σ) :
    Except MachineError Request → Except MachineError Value × CallContext σ
  | .error e => (.error e, context)
  | .ok request =>
    let (value, wait, world) := request.run now context.world
    (.ok value, { world, wait := wait.or context.wait })

structure Performs (now n : Nat) (x : Take Request) (y : Invoke σ Value) : Prop where
  agrees : ∀ s, y s =
    ((s.2.settle now (x s.1).1).1, (x s.1).2, (s.2.settle now (x s.1).1).2)
  within : Take.Within n x

section Performs

variable {α : Type} {now n : Nat} {x : Take α} {f : α → Take Request} {g : α → Invoke σ Value}
  {y : Invoke σ Value}

lemma performs_take (hx : Take.Single x) (hf : ∀ a, Performs now n (f a) (g a)) :
    Performs now (n + 1) (x >>= f) (take x >>= g) := by
  refine ⟨fun s => ?_, hx.then fun a => (hf a).within⟩
  rw [StateExcept.bind_apply, StateExcept.bind_apply, take]
  rcases hr : x s.1 with ⟨r, left⟩
  cases r with
  | error e => rfl
  | ok a => exact (hf a).agrees (left, s.2)

lemma performs_throw {e : MachineError} (h : ∀ s, y s = (.error e, s)) :
    Performs now 0 (throw e) y :=
  ⟨h, Take.idle_throw.within⟩

lemma performs_reject {expected : String} {found : Value}
    (h : ∀ s, y s = (.error (.argumentType s.1.builtin expected found), s)) :
    Performs now 0 (Take.reject expected found) y :=
  ⟨h, Take.idle_reject.within⟩

lemma performs_pure {request : Request}
    (h : ∀ s, y s = ((s.2.settle now (.ok request)).1, s.1, (s.2.settle now (.ok request)).2)) :
    Performs now 0 (pure request) y :=
  ⟨h, Take.idle_pure.within⟩

lemma cues_apply (make : String → Cue) (entities : List String) (s : Arguments × CallContext σ) :
    cues make entities s = (.ok (), s.1, { s.2 with world := { s.2.world with
      stage := entities.foldl (fun stage e => Stage.perform (make e) stage) s.2.world.stage } }) := by
  induction entities generalizing s with
  | nil => rfl
  | cons e rest ih => exact ih _

lemma performs_cues {make : String → Cue} {pattern : String} :
    Performs now 0 (pure (.performAll pattern make none)) (do
      cues make (← entities pattern)
      pure .null : Invoke σ Value) := by
  refine performs_pure fun s => ?_
  change (cues make (Stage.entities s.2.world.stage pattern) >>= fun _ => pure Value.null) s = _
  rw [StateExcept.bind_apply, cues_apply]
  rfl

lemma performs_cues_pause {make : String → Cue} {pattern : String} {wait : Bool} {duration : Nat} :
    Performs now 0 (pure (.performAll pattern make (Builtin.pauseIf wait duration))) (do
      cues make (← entities pattern)
      pause now wait duration
      pure .null : Invoke σ Value) := by
  refine performs_pure fun s => ?_
  change (cues make (Stage.entities s.2.world.stage pattern) >>= fun _ =>
    pause now wait duration >>= fun _ => pure Value.null) s = _
  rw [StateExcept.bind_apply, cues_apply]
  cases wait <;> rfl

lemma load_apply (asset : Asset) (s : Arguments × CallContext σ) : load asset s =
    (.ok (), s.1,
      { world := { s.2.world with stage := (Stage.load asset s.2.world.stage).2 }
        wait := ((Stage.load asset s.2.world.stage).1.map .token).or s.2.wait }) := by
  change (match (Stage.load asset s.2.world.stage).1 with
    | some id => suspend (.token id)
    | none => pure () : Invoke σ Unit) (s.1, { s.2 with
      world := { s.2.world with stage := (Stage.load asset s.2.world.stage).2 } }) = _
  cases (Stage.load asset s.2.world.stage).1 <;> rfl

lemma performs_load {asset : Asset} : Performs now 0 (pure (.load asset)) (do
    load asset
    pure .null : Invoke σ Value) := by
  refine performs_pure fun s => ?_
  rw [StateExcept.bind_apply, load_apply]
  rfl

lemma performs_ask {question : Question} {pattern : String} :
    Performs now 0 (pure (.ask question pattern)) (ask question pattern : Invoke σ Value) :=
  performs_pure fun _ => rfl

end Performs

namespace Builtin

open Take

lemma performs (module : Module) (now : Nat) {b : Builtin} (hb : b ≠ string) :
    Performs now b.arity (b.understand module) (b.perform module now : Invoke σ Value) := by
  cases b with
  | wait => exact performs_take single_millis fun _ => performs_pure fun _ => rfl
  | waitKey =>
    refine performs_take single_value fun v => ?_
    cases v with
    | null | number _ | delta _ => exact performs_pure fun _ => rfl
    | text _ | flag _ | enumerator _ | preset _ => exact performs_reject fun _ => rfl
  | createProcess =>
    refine performs_take single_text fun function => performs_take single_text fun name => ?_
    cases module.find? function with
    | some routine => exact performs_pure fun _ => rfl
    | none => exact performs_throw fun _ => rfl
  | request =>
    exact performs_take single_action fun _ => performs_take single_text fun _ => performs_cues
  | delete => exact performs_take single_text fun _ => performs_cues
  | createColor =>
    exact performs_take single_color fun _ => performs_take single_number fun _ =>
      performs_take single_number fun _ => performs_take single_coordinate fun _ =>
      performs_take single_coordinate fun _ => performs_take single_priority fun _ =>
      performs_take single_text fun _ => performs_pure fun _ => rfl
  | createTexture =>
    exact performs_take single_text fun _ => performs_take single_coordinate fun _ =>
      performs_take single_coordinate fun _ => performs_take single_priority fun _ =>
      performs_take single_text fun _ => performs_load
  | createText =>
    exact performs_take single_asText fun _ => performs_take single_extent fun _ =>
      performs_take single_extent fun _ => performs_take single_coordinate fun _ =>
      performs_take single_coordinate fun _ => performs_take single_priority fun _ =>
      performs_take single_text fun _ => performs_pure fun _ => rfl
  | createSound =>
    exact performs_take single_text fun _ => performs_take single_soundKind fun _ =>
      performs_take single_text fun _ => performs_load
  | setVolume =>
    exact performs_take single_number fun _ => performs_take single_millis fun _ =>
      performs_take single_text fun _ => performs_cues
  | setLoop =>
    exact performs_take single_asFlag fun _ => performs_take single_text fun _ => performs_cues
  | setLoopPoint =>
    refine performs_take single_millis fun stop => performs_take single_millis fun start =>
      performs_take single_text fun name => ?_
    split
    · exact performs_throw fun _ => rfl
    · exact performs_cues
  | fade =>
    exact performs_take single_flagOr fun _ => performs_take single_easing fun _ =>
      performs_take single_number fun _ => performs_take single_millis fun _ =>
      performs_take single_text fun _ => performs_cues_pause
  | move =>
    exact performs_take single_flagOr fun _ => performs_take single_easing fun _ =>
      performs_take single_coordinate fun _ => performs_take single_coordinate fun _ =>
      performs_take single_millis fun _ => performs_take single_text fun _ => performs_cues_pause
  | zoom =>
    exact performs_take single_flagOr fun _ => performs_take single_easing fun _ =>
      performs_take single_number fun _ => performs_take single_number fun _ =>
      performs_take single_millis fun _ => performs_take single_text fun _ => performs_cues_pause
  | drawTransition =>
    exact performs_take single_flagOr fun _ => performs_take single_text? fun _ =>
      performs_take single_easing fun _ => performs_take single_number fun _ =>
      performs_take single_number fun _ => performs_take single_number fun _ =>
      performs_take single_millis fun _ => performs_take single_text fun _ => performs_cues_pause
  | setAlias =>
    exact performs_take single_text fun _ => performs_take single_text fun _ =>
      performs_pure fun _ => rfl
  | remainTime | passageTime | imageHorizon | imageVertical =>
    exact performs_take single_text fun _ => performs_ask
  | random => exact performs_take single_asNumber fun _ => performs_pure fun _ => rfl
  | string => exact absurd rfl hb
  | time | mouseClicked => exact performs_pure fun _ => rfl

lemma agrees_string (module : Module) (now : Nat) (s : Arguments × CallContext σ) :
    string.perform module now s =
      ((s.2.settle now (string.understand module s.1).1).1, (string.understand module s.1).2,
        (s.2.settle now (string.understand module s.1).1).2) := by
  rw [perform, understand, StateExcept.bind_apply, StateExcept.bind_apply, Invoke.take]
  simp only [Take.all]
  cases s.1.rest.reverse <;> rfl

lemma agrees (module : Module) (now : Nat) (b : Builtin) (s : Arguments × CallContext σ) :
    b.perform module now s =
      ((s.2.settle now (b.understand module s.1).1).1, (b.understand module s.1).2,
        (s.2.settle now (b.understand module s.1).1).2) := by
  by_cases hb : b = string
  · rw [hb]
    exact agrees_string module now s
  · exact (performs module now hb).agrees s

end Builtin

lemma Thread.popMany_missing {t : Thread} {count : Nat} {e : MachineError}
    (h : t.popMany count = .error e) : e.code ≠ "VM_ARGUMENT_MISSING" := by
  simp only [popMany] at h
  split at h
  · cases h
    simp [MachineError.code]
  · cases h

lemma Registry.invoke_eq (r : Registry) (module : Module) (now : Nat) (id : UInt16)
    (values : List Value) (context : CallContext σ) :
    r.invoke module now id values context = context.settle now (r.understand module id values) := by
  unfold invoke understand
  cases (r.entries[id.toNat]?).join with
  | none => rfl
  | some b =>
    cases Signature.ofId id with
    | none => rfl
    | some signature =>
      simp only
      by_cases h : signature.accepts values.length = true
      · simp only [h, Bool.not_true, Bool.false_eq_true, if_false, Builtin.agrees]
        rfl
      · simp only [h]
        rfl

theorem Thread.dispatch_eq (s : Setting) (caller : Module) (builtin : UInt16) (count : Nat)
    (t : Thread) (w : World σ) : t.dispatch s caller builtin count w =
      match t.popMany count with
      | .error e => (.error e, w)
      | .ok (values, t) =>
        match s.registry.invoke caller s.now builtin values { world := w } with
        | (.error e, context) => (.error e, context.world)
        | (.ok v, context) =>
          match context.wait with
          | some reason => (.ok (.yield, { t.push v with status := .waiting reason }), context.world)
          | none => (.ok (.next, t.push v), context.world) := by
  unfold dispatch
  cases t.popMany count with
  | error e => rfl
  | ok popped =>
    simp only [Registry.invoke_eq]
    cases s.registry.understand caller builtin popped.1 with
    | error e => rfl
    | ok request =>
      rcases hrun : request.run s.now w with ⟨v, wait, w'⟩
      cases wait with
      | none => simp only [CallContext.settle, hrun, Option.or_none]
      | some reason => simp only [CallContext.settle, hrun, Option.or_none]

def Invoke.Within (n : Nat) (y : Invoke σ Value) : Prop :=
  ∀ builtin front context, front.length = n → ∃ result left context', ∀ behind,
    y ({ builtin, rest := front ++ behind }, context) =
      (result, { builtin, rest := left ++ behind }, context')

lemma Performs.within_invoke {now n : Nat} {x : Take Request} {y : Invoke σ Value}
    (h : Performs now n x y) : y.Within n := by
  intro builtin front context hfront
  obtain ⟨r, left, hx⟩ := h.within builtin front (by omega)
  refine ⟨(context.settle now r).1, left, (context.settle now r).2, fun behind => ?_⟩
  rw [h.agrees, hx]

namespace Registry

lemma understand_missing {module : Module} {id : UInt16} {values : List Value} {e : MachineError}
    (h : standard.understand module id values = .error e) : e.code ≠ "VM_ARGUMENT_MISSING" := by
  cases hs : Signature.ofId id with
  | none =>
    obtain rfl : MachineError.unknownBuiltin id = e := by simpa [understand, hs] using h
    simp [MachineError.code]
  | some signature =>
    by_cases ha : signature.accepts values.length = true
    · have hpermits := @understand_standard module id values signature hs ha
      rw [h] at hpermits
      intro hcode
      simp [Permits, MachineError.Permitted, MachineError.permitted, hcode] at hpermits
    · cases hb : (standard.entries[id.toNat]?).join with
      | none =>
        obtain rfl : MachineError.unknownBuiltin id = e := by simpa [understand, hb] using h
        simp [MachineError.code]
      | some b =>
        obtain rfl : MachineError.argumentCount signature.name values.length = e := by
          simpa [understand, hb, hs, ha] using h
        simp [MachineError.code]

lemma invoke_error {module : Module} {now : Nat} {id : UInt16} {values : List Value}
    {context context' : CallContext σ} {e : MachineError}
    (h : standard.invoke module now id values context = (.error e, context')) :
    context' = context ∧ e.code ≠ "VM_ARGUMENT_MISSING" := by
  rw [invoke_eq] at h
  cases hr : standard.understand module id values with
  | ok request => simp [hr, CallContext.settle] at h
  | error e' =>
    obtain ⟨rfl, rfl⟩ : e' = e ∧ context = context' := by simpa [hr, CallContext.settle] using h
    exact ⟨rfl, understand_missing hr⟩

lemma within_standard (module : Module) (now : Nat) {id : UInt16} {b : Builtin}
    {signature : Signature} (hb : (standard.entries[id.toNat]?).join = some b)
    (hs : Signature.ofId id = some signature) (hv : signature.isVariadic = false) :
    (b.perform module now : Invoke σ Value).Within signature.parameters.length := by
  have hall : Builtin.all[id.toNat]? = some b := by
    simpa [standard, Option.join_eq_some_iff] using hb
  obtain ⟨-, htrue⟩ | ⟨hne, -, harity⟩ := Builtin.arity_eq hall hs
  · rw [hv] at htrue
    cases htrue
  · rw [harity]
    exact (Builtin.performs module now hne).within_invoke

/-- A call of a standard function that fails leaves everything as it was, and it never fails for
want of an argument: no function takes more than the parameters that it declares. -/
theorem fails_unharmed (module : Module) (now : Nat) (id : UInt16) :
    (∀ (values : List Value) (context context' : CallContext σ) (e : MachineError),
      standard.invoke module now id values context = (.error e, context') →
        context' = context ∧ e.code ≠ "VM_ARGUMENT_MISSING") ∧
    (∀ (b : Builtin) (signature : Signature), (standard.entries[id.toNat]?).join = some b →
      Signature.ofId id = some signature → signature.isVariadic = false →
        (b.perform module now : Invoke σ Value).Within signature.parameters.length) ∧
    ∀ (s : Setting) (count : Nat) (t : Thread) (w w' : World σ) (e : MachineError),
      s.registry = standard → t.dispatch s module id count w = (.error e, w') →
        w' = w ∧ e.code ≠ "VM_ARGUMENT_MISSING" := by
  refine ⟨fun _ _ _ _ => invoke_error, fun _ _ => within_standard module now, ?_⟩
  intro s count t w w' e hregistry h
  rw [Thread.dispatch_eq, hregistry] at h
  cases hpop : t.popMany count with
  | error e' =>
    obtain ⟨rfl, rfl⟩ : e' = e ∧ w = w' := by simpa [hpop] using h
    exact ⟨rfl, Thread.popMany_missing hpop⟩
  | ok popped =>
    rcases hcall : standard.invoke module s.now id popped.1 { world := w } with ⟨r, context⟩
    cases r with
    | error e' =>
      obtain ⟨rfl, rfl⟩ : e' = e ∧ context.world = w' := by simpa [hpop, hcall] using h
      obtain ⟨rfl, hcode⟩ := invoke_error hcall
      exact ⟨rfl, hcode⟩
    | ok v =>
      cases hwait : context.wait <;> simp [hpop, hcall, hwait] at h

theorem fails_unharmed_setLoop :
    let context : CallContext HeadlessStage := { world := { stage := {}, random := ⟨1⟩ } }
    let error : MachineError := .argumentType "SetLoop" "a string" .null
    standard.invoke default 0 10 [.null, .flag true] context = (.error error, context) ∧
      error.code ≠ "VM_ARGUMENT_MISSING" := by
  intro context error
  have hcall : standard.invoke default 0 10 [.null, .flag true] context =
      (.error error, context) := by
    have hentry : (standard.entries[(10 : UInt16).toNat]?).join = some .setLoop := by
      simp [standard, Builtin.all]
    rw [invoke, hentry]
    rfl
  exact ⟨hcall, ((fails_unharmed default 0 10).1 _ _ _ _ hcall).2⟩

end Registry

end Stagecraft
