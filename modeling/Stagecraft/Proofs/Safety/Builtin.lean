import Mathlib
import Stagecraft.Machine.Builtin
import Stagecraft.Proofs.Basic

namespace Stagecraft

def MachineError.permitted : List String :=
  ["VM_TYPE_ERROR", "VM_TRAP", "VM_STACK_OVERFLOW", "VM_ARGUMENT_TYPE", "VM_ARGUMENT_RANGE",
    "VM_FUNCTION_NOT_FOUND"]

def MachineError.Permitted (e : MachineError) : Prop :=
  e.code ∈ permitted

instance (e : MachineError) : Decidable e.Permitted :=
  inferInstanceAs (Decidable (_ ∈ _))

def Permits (Q : α → Prop) : Except MachineError α → Prop
  | .ok a => Q a
  | .error e => e.Permitted

namespace Take

def Fits (n : Nat) (Q : α → Prop) (x : Take α) : Prop :=
  ∀ args, n ≤ args.rest.length → match x args with
    | (.ok a, left) => Q a ∧ args.rest.length ≤ left.rest.length + n
    | (.error e, _) => e.Permitted

def Any (_ : α) : Prop :=
  True

variable {n : Nat} {Q : α → Prop} {R : β → Prop}

lemma Fits.result {x : Take α} {args : Arguments} (h : Fits n Q x) (hn : n ≤ args.rest.length) :
    Permits Q (x args).1 := by
  have hargs := h args hn
  rcases hr : x args with ⟨r, left⟩
  rw [hr] at hargs
  cases r with
  | ok a => exact hargs.1
  | error e => exact hargs

lemma fits_pure {a : α} (h : Q a) : Fits 0 Q (pure a) :=
  fun _ _ => ⟨h, Nat.le_refl _⟩

lemma fits_throw {e : MachineError} (h : e.Permitted) : Fits 0 Q (throw e : Take α) :=
  fun _ _ => h

lemma fits_bind {x : Take α} {f : α → Take β} (hx : Fits 1 Q x) (hf : ∀ a, Q a → Fits n R (f a)) :
    Fits (n + 1) R (x >>= f) := by
  intro args hargs
  have hxa := hx args (by omega)
  rw [StateExcept.bind_apply]
  rcases hr : x args with ⟨r, left⟩
  rw [hr] at hxa
  cases r with
  | error e => exact hxa
  | ok a =>
    have hfa := hf a hxa.1 left (by omega)
    simp only
    rcases hr' : f a left with ⟨r', left'⟩
    rw [hr'] at hfa
    cases r' with
    | error e => exact hfa
    | ok b => exact ⟨hfa.1, by omega⟩

lemma fits_reject {expected : String} {found : Value} : Fits 0 Q (reject expected found : Take α) :=
  fun args _ => show MachineError.Permitted (.argumentType args.builtin expected found) by
    simp [MachineError.Permitted, MachineError.permitted, MachineError.code]

lemma fits_value : Fits 1 Any value := by
  rintro ⟨builtin, rest⟩ hargs
  cases rest with
  | nil => simp at hargs
  | cons v rest => exact ⟨trivial, by simp⟩

lemma fits_value? : Fits 1 Any value? := by
  rintro ⟨builtin, rest⟩ hargs
  cases rest with
  | nil => simp at hargs
  | cons v rest => cases v <;> exact ⟨trivial, by simp⟩

lemma fits_number : Fits 1 Any number := by
  refine fits_bind fits_value fun v _ => ?_
  split
  · exact fits_pure trivial
  · exact fits_pure trivial
  · exact fits_reject

lemma fits_text : Fits 1 Any text := by
  refine fits_bind fits_value fun v _ => ?_
  split
  · exact fits_pure trivial
  · exact fits_reject

lemma fits_enumerator : Fits 1 Any enumerator := by
  refine fits_bind fits_value fun v _ => ?_
  split
  · exact fits_pure trivial
  · exact fits_reject

lemma fits_text? : Fits 1 Any text? := by
  refine fits_bind fits_value? fun v _ => ?_
  split
  · exact fits_pure trivial
  · exact fits_pure trivial
  · exact fits_reject

lemma fits_flagOr {default : Bool} : Fits 1 Any (flagOr default) := by
  refine fits_bind fits_value? fun v _ => ?_
  split
  · exact fits_pure trivial
  · exact fits_pure trivial
  · exact fits_reject

lemma fits_enumerator? : Fits 1 Any enumerator? := by
  refine fits_bind fits_value? fun v _ => ?_
  split
  · exact fits_pure trivial
  · exact fits_pure trivial
  · exact fits_reject

lemma fits_asNumber : Fits 1 Any asNumber := by
  refine fits_bind fits_value fun v _ => ?_
  split
  · exact fits_pure trivial
  · exact fits_reject

lemma fits_asText : Fits 1 Any asText :=
  fits_bind fits_value fun _ _ => fits_pure trivial

lemma fits_asFlag : Fits 1 Any asFlag := by
  refine fits_bind fits_value fun v _ => ?_
  split
  · exact fits_pure trivial
  · exact fits_reject

lemma fits_millis : Fits 1 Any millis :=
  fits_bind fits_number fun _ _ => fits_pure trivial

lemma fits_priority : Fits 1 Any priority :=
  fits_bind fits_number fun _ _ => fits_pure trivial

lemma fits_coordinate : Fits 1 Any coordinate := by
  refine fits_bind fits_value fun v _ => ?_
  split
  · exact fits_pure trivial
  · exact fits_pure trivial
  · exact fits_pure trivial
  · exact fits_reject

lemma fits_extent : Fits 1 Any extent := by
  refine fits_bind fits_value fun v _ => ?_
  split
  · exact fits_pure trivial
  · exact fits_pure trivial
  · exact fits_pure trivial
  · exact fits_reject

lemma fits_color : Fits 1 Any color := by
  refine fits_bind fits_value fun v _ => ?_
  split
  · exact fits_pure trivial
  · exact fits_reject

lemma fits_easing : Fits 1 Any easing := by
  refine fits_bind fits_enumerator? fun c _ => ?_
  split
  · exact fits_pure trivial
  · split
    · exact fits_pure trivial
    · exact fits_reject

lemma fits_action : Fits 1 Any action := by
  refine fits_bind fits_enumerator fun c _ => ?_
  split
  · exact fits_pure trivial
  · exact fits_reject

lemma fits_soundKind : Fits 1 Any soundKind := by
  refine fits_bind fits_enumerator fun c _ => ?_
  split
  · exact fits_pure trivial
  · exact fits_pure trivial
  · exact fits_pure trivial
  · exact fits_reject

end Take

def Request.Sound (module : Module) : Request → Prop
  | .spawn thread => thread.module = module ∧ ∃ name, module.find? name = some thread.routine
  | _ => True

namespace Builtin

open Take

def arity : Builtin → Nat
  | string | time | mouseClicked => 0
  | wait | waitKey | delete | remainTime | passageTime | imageHorizon | imageVertical | random => 1
  | createProcess | request | setLoop | setAlias => 2
  | createSound | setVolume | setLoopPoint => 3
  | createTexture | fade => 5
  | move | zoom => 6
  | createColor | createText => 7
  | drawTransition => 8

lemma fits_understand (module : Module) {b : Builtin} (hb : b ≠ string) :
    Fits b.arity (Request.Sound module) (b.understand module) := by
  cases b with
  | wait => exact fits_bind fits_millis fun _ _ => fits_pure trivial
  | waitKey =>
    refine fits_bind fits_value fun v _ => ?_
    split
    · exact fits_pure trivial
    · exact fits_pure trivial
    · exact fits_pure trivial
    · exact fits_reject
  | createProcess =>
    refine fits_bind fits_text fun function _ => fits_bind fits_text fun name _ => ?_
    split
    · next routine hr => exact fits_pure ⟨rfl, function, hr⟩
    · exact fits_throw (by
        simp [MachineError.Permitted, MachineError.permitted, MachineError.code])
  | request =>
    exact fits_bind fits_action fun _ _ => fits_bind fits_text fun _ _ => fits_pure trivial
  | delete => exact fits_bind fits_text fun _ _ => fits_pure trivial
  | createColor =>
    exact fits_bind fits_color fun _ _ => fits_bind fits_number fun _ _ =>
      fits_bind fits_number fun _ _ => fits_bind fits_coordinate fun _ _ =>
      fits_bind fits_coordinate fun _ _ => fits_bind fits_priority fun _ _ =>
      fits_bind fits_text fun _ _ => fits_pure trivial
  | createTexture =>
    exact fits_bind fits_text fun _ _ => fits_bind fits_coordinate fun _ _ =>
      fits_bind fits_coordinate fun _ _ => fits_bind fits_priority fun _ _ =>
      fits_bind fits_text fun _ _ => fits_pure trivial
  | createText =>
    exact fits_bind fits_asText fun _ _ => fits_bind fits_extent fun _ _ =>
      fits_bind fits_extent fun _ _ => fits_bind fits_coordinate fun _ _ =>
      fits_bind fits_coordinate fun _ _ => fits_bind fits_priority fun _ _ =>
      fits_bind fits_text fun _ _ => fits_pure trivial
  | createSound =>
    exact fits_bind fits_text fun _ _ => fits_bind fits_soundKind fun _ _ =>
      fits_bind fits_text fun _ _ => fits_pure trivial
  | setVolume =>
    exact fits_bind fits_number fun _ _ => fits_bind fits_millis fun _ _ =>
      fits_bind fits_text fun _ _ => fits_pure trivial
  | setLoop =>
    exact fits_bind fits_asFlag fun _ _ => fits_bind fits_text fun _ _ => fits_pure trivial
  | setLoopPoint =>
    refine fits_bind fits_millis fun stop _ => fits_bind fits_millis fun start _ =>
      fits_bind fits_text fun name _ => ?_
    split
    · exact fits_throw (by
        simp [MachineError.Permitted, MachineError.permitted, MachineError.code])
    · exact fits_pure trivial
  | fade =>
    exact fits_bind fits_flagOr fun _ _ => fits_bind fits_easing fun _ _ =>
      fits_bind fits_number fun _ _ => fits_bind fits_millis fun _ _ =>
      fits_bind fits_text fun _ _ => fits_pure trivial
  | move =>
    exact fits_bind fits_flagOr fun _ _ => fits_bind fits_easing fun _ _ =>
      fits_bind fits_coordinate fun _ _ => fits_bind fits_coordinate fun _ _ =>
      fits_bind fits_millis fun _ _ => fits_bind fits_text fun _ _ => fits_pure trivial
  | zoom =>
    exact fits_bind fits_flagOr fun _ _ => fits_bind fits_easing fun _ _ =>
      fits_bind fits_number fun _ _ => fits_bind fits_number fun _ _ =>
      fits_bind fits_millis fun _ _ => fits_bind fits_text fun _ _ => fits_pure trivial
  | drawTransition =>
    exact fits_bind fits_flagOr fun _ _ => fits_bind fits_text? fun _ _ =>
      fits_bind fits_easing fun _ _ => fits_bind fits_number fun _ _ =>
      fits_bind fits_number fun _ _ => fits_bind fits_number fun _ _ =>
      fits_bind fits_millis fun _ _ => fits_bind fits_text fun _ _ => fits_pure trivial
  | setAlias =>
    exact fits_bind fits_text fun _ _ => fits_bind fits_text fun _ _ => fits_pure trivial
  | remainTime | passageTime | imageHorizon | imageVertical =>
    exact fits_bind fits_text fun _ _ => fits_pure trivial
  | random => exact fits_bind fits_asNumber fun _ _ => fits_pure trivial
  -- it takes all its arguments, however many
  | string => exact absurd rfl hb
  | time | mouseClicked => exact fits_pure trivial

lemma understand_string (module : Module) (args : Arguments) :
    ∃ v left, string.understand module args = (.ok (.reply v), left) := by
  rw [understand, StateExcept.bind_apply]
  simp only [Take.all]
  cases args.rest.reverse with
  | nil => exact ⟨_, _, rfl⟩
  | cons format values => exact ⟨_, _, rfl⟩

lemma arity_eq {i : Nat} {b : Builtin} {signature : Signature} (hb : all[i]? = some b)
    (hs : Signature.all[i]? = some signature) :
    b = string ∧ signature.isVariadic = true ∨
      b ≠ string ∧ signature.isVariadic = false ∧ signature.parameters.length = b.arity := by
  have htable : ∀ p ∈ all.toList.zip Signature.all.toList,
      p.1 = string ∧ p.2.isVariadic = true ∨
        p.1 ≠ string ∧ p.2.isVariadic = false ∧ p.2.parameters.length = p.1.arity := by
    decide
  refine htable (b, signature) (List.mem_of_getElem? (i := i) ?_)
  rw [List.getElem?_zip_eq_some]
  exact ⟨by simpa using hb, by simpa using hs⟩

end Builtin

lemma Registry.understand_standard {module : Module} {id : UInt16} {values : List Value}
    {signature : Signature} (hs : Signature.ofId id = some signature)
    (ha : signature.accepts values.length) :
    Permits (Request.Sound module) (Registry.standard.understand module id values) := by
  have hsize : id.toNat < Builtin.all.size :=
    (Array.getElem?_eq_some_iff.mp hs).1
  obtain ⟨b, hb⟩ : ∃ b, Builtin.all[id.toNat]? = some b := ⟨_, Array.getElem?_eq_getElem hsize⟩
  have hentry : (Registry.standard.entries[id.toNat]?).join = some b := by
    simp [Registry.standard, hb]
  simp only [Registry.understand, hentry, hs, ha, Bool.not_true, Bool.false_eq_true, if_false]
  obtain ⟨rfl, hv⟩ | ⟨hne, hv, harity⟩ := Builtin.arity_eq hb hs
  · obtain ⟨v, left, hv⟩ := Builtin.understand_string module
      ⟨signature.name, (values ++ List.replicate
        (if signature.isVariadic then 0 else signature.parameters.length - values.length)
        Value.null).reverse⟩
    change Permits _ (Builtin.string.understand module _).1
    rw [hv]
    trivial
  · have hlength : values.length ≤ signature.parameters.length := by
      simpa [Signature.accepts, Signature.greatest, hv] using (Bool.and_eq_true_iff.mp ha).2
    refine (Builtin.fits_understand module hne).result ?_
    simp only [hv, List.length_reverse, List.length_append, List.length_replicate]
    simp only [Bool.false_eq_true, if_false]
    omega

end Stagecraft
