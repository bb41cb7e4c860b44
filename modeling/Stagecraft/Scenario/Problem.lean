import Stagecraft.Machine.Launch
import Stagecraft.Scenario.Basic
import Stagecraft.Text.Quoted

namespace Stagecraft.Scenario

inductive Problem where
  | unreadable (path : String)
  | malformed (path : String)
  | wrongVersion (found : String)
  | noScripts (folder : String)
  | engine (error : LaunchError)
  | missingAction (index : Nat) (kind : String)
  | wrongAction (index : Nat) (kind found : String)
  | unknownChoice (index : Nat) (label : String) (offered : List String)
  | unusedActions (used total : Nat)
  | tooLong (maxTicks : Nat)
  | eventCount (expected : Nat) (observed : List Event)
  | differentEvent (index : Nat) (expected actual : Event)
  | differentGlobal (name : String) (expected actual : Value)

def quotedList (texts : List String) : String :=
  "[" ++ Text.join ", " (texts.map Text.Quoted.encode) ++ "]"

namespace Problem

def message : Problem → String
  | unreadable path => s!"Failed to read file {path}."
  | malformed path => s!"Failed to parse testcase {path}."
  | wrongVersion found =>
    s!"Invalid testcase schema version \"{found}\", expected \"{currentVersion}\"."
  | noScripts folder => s!"No .nss files under {folder}."
  | engine error => s!"Engine error: {error.code}: {error.message}"
  | missingAction index kind => s!"Action missing at event index {index}: expected {kind}."
  | wrongAction index kind found =>
    s!"Action kind mismatch at event index {index}: expected {kind}, got {found}."
  | unknownChoice index label offered =>
    s!"Choice \"{label}\" at event index {index} is not one of {quotedList offered}."
  | unusedActions used total => s!"Unused actions: used {used} of {total}."
  | tooLong maxTicks => s!"Guard exceeded: max_ticks={maxTicks}."
  | eventCount expected observed =>
    let shown := Json.pretty (.list (observed.map Event.toJson))
    s!"Expected event count {expected}, actual {observed.length}. observed={shown}"
  | differentEvent index expected actual =>
    let expected := expected.toJson.compact
    let actual := actual.toJson.compact
    s!"Event mismatch at index {index}. expected={expected} actual={actual}"
  | differentGlobal name expected actual =>
    let expected := expected.toJson.compact
    let actual := actual.toJson.compact
    s!"Global {name} mismatch. expected={expected} actual={actual}"

end Problem

end Stagecraft.Scenario
