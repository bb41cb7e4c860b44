import Stagecraft.Scenario.Event
import Stagecraft.Value.Json
import Std.Data.TreeMap

namespace Stagecraft

namespace Scenario

inductive Action where
  | choose (label : String)
  | advance
  deriving DecidableEq, Repr, Inhabited

def Action.kind : Action → String
  | choose _ => "choose"
  | advance => "advance"

def Action.ofJson? (j : Json) : Option Action := do
  let (kind, record) ← j.variant?
  match kind with
  | "choose" =>
    match ← record.fields? ["label"] with
    | [label] => pure (.choose (← Json.required Json.text? label))
    | _ => none
  | "advance" => if record.isBare then some .advance else none
  | _ => none

def currentVersion : String := "ns-tool-case.v1"

def wordLimit : Nat := 0xffffffffffffffff

end Scenario

structure Scenario where
  version : String
  module : String := "main.nss"
  start? : Option String := none
  tickLength : Nat := 16
  maxTicks : Nat := 5000
  seed : UInt32 := 1
  actions : List Scenario.Action := []
  events : List Scenario.Event := []
  globals : Std.TreeMap String Value := ∅

namespace Scenario

def globals? : Json → Option (Std.TreeMap String Value)
  | .object entries => entries.foldlM (fun globals (key, value) => do
      pure (globals.insert (← key) (← Value.ofJson? value))) ∅
  | _ => none

def ofJson? (j : Json) : Option Scenario := do
  match ← j.fields? ["schemaVersion", "entryModule", "entry", "tickMs", "maxTicks", "randomSeed",
      "actions", "expectedEvents", "expectedGlobals"] with
  | [version, module, entry, tickLength, maxTicks, seed, actions, events, globals] =>
    pure {
      version := ← Json.required Json.text? version
      module := ← Json.withDefault "main.nss" Json.text? module
      start? := ← Json.withDefault none (Json.optional? Json.text?) entry
      tickLength := ← Json.withDefault 16 (Json.natural? wordLimit) tickLength
      maxTicks := ← Json.withDefault 5000 (Json.natural? wordLimit) maxTicks
      seed := UInt32.ofNat (← Json.withDefault 1 (Json.natural? 0xffffffff) seed)
      actions := ← Json.withDefault [] (Json.list? Action.ofJson?) actions
      events := ← Json.withDefault [] (Json.list? Event.ofJson?) events
      globals := ← Json.withDefault ∅ globals? globals }
  | _ => none

end Scenario

end Stagecraft
