import Stagecraft.Json.Decode
import Stagecraft.Value.Basic

namespace Stagecraft.Value

def toJson : Value → Json
  | null => .ofEntries [("kind", .ofText "null")]
  | number x => tagged "numeric" (.ofFloat x)
  | delta x => tagged "deltaNumeric" (.ofFloat x)
  | text s => tagged "string" (.ofText s)
  | flag b => tagged "boolean" (.flag b)
  | enumerator c => tagged "enumValue" (.ofText c.label)
  | preset c => tagged "builtInConstant" (.ofText c.name)
where
  tagged (kind : String) (content : Json) : Json :=
    .ofEntries [("kind", .ofText kind), ("value", content)]

/-- A name, which can also be written as an object with the name as its only key and null behind it.
An `early` name, one that comes before what it is for, can have an empty object there too. -/
def name? (early : Bool) : Json → Option String
  | .text s => s
  | .object [(key, .null)] => key
  | .object [(key, .object [])] => if early then key else none
  | _ => none

def ofKind? (early : Bool) (kind : String) (content : Option Json) : Option Value :=
  match kind, content with
  | "null", none | "null", some .null => some null
  | "numeric", some j => j.float?.map number
  | "deltaNumeric", some j => j.float?.map delta
  | "string", some j => j.text?.map text
  | "boolean", some j => j.flag?.map flag
  | "enumValue", some j => do
    let name ← name? early j
    (Enumerator.table.find? (·.1.label == name)).map (enumerator ·.1)
  | "builtInConstant", some j => do
    let name ← name? early j
    (Preset.table.find? (·.1.name == name)).map (preset ·.1)
  | _, _ => none

def contentFirst (entries : List (Option String × Json)) : Bool :=
  let isKnown (entry : Option String × Json) : Bool :=
    entry.1 == some "kind" || entry.1 == some "value"
  (entries.find? isKnown).any (·.1 == some "value")

def ofJson? : Json → Option Value
  | .list [kind, content] => do ofKind? false (← kind.text?) (some content)
  | .object entries => do
    let kind ← Json.required (name? false) (← Json.single? entries "kind")
    let content ← Json.single? entries "value"
    let early := contentFirst entries
    let isRead := !early || content.all (Json.isProper Json.innerRoom)
    if isRead && entries.all (·.1.isSome) then ofKind? early kind content else none
  | _ => none

end Stagecraft.Value
