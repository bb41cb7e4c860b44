import Stagecraft.Json.Decode

namespace Stagecraft.Scenario

inductive Event where
  | dialogue (thread name : String)
  | text (thread content : String)
  | host (call : String)
  | select (thread : String) (choices : List String)
  | waitKey (thread : String)
  | error (thread code : String)
  | done
  deriving DecidableEq, Repr, Inhabited

namespace Event

def toJson : Event → Json
  | dialogue thread name => .ofEntries
      [("kind", .ofText "dialogue"), ("thread", .ofText thread), ("name", .ofText name)]
  | text thread content => .ofEntries
      [("kind", .ofText "text"), ("thread", .ofText thread), ("text", .ofText content)]
  | host call => .ofEntries [("kind", .ofText "host"), ("call", .ofText call)]
  | select thread choices => .ofEntries
      [("kind", .ofText "select"), ("thread", .ofText thread), ("choices", .ofTexts choices)]
  | waitKey thread => .ofEntries [("kind", .ofText "waitKey"), ("thread", .ofText thread)]
  | error thread code => .ofEntries
      [("kind", .ofText "error"), ("thread", .ofText thread), ("code", .ofText code)]
  | done => .ofEntries [("kind", .ofText "end")]

def ofText? (key : String) (make : String → Event) (record : Json) : Option Event := do
  match ← record.fields? [key] with
  | [a] => pure (make (← Json.required Json.text? a))
  | _ => none

def ofPair? (key₁ key₂ : String) (second? : Json → Option α) (make : String → α → Event)
    (record : Json) : Option Event := do
  match ← record.fields? [key₁, key₂] with
  | [a, b] => pure (make (← Json.required Json.text? a) (← Json.required second? b))
  | _ => none

def ofJson? (j : Json) : Option Event := do
  let (kind, record) ← j.variant?
  match kind with
  | "dialogue" => ofPair? "thread" "name" Json.text? dialogue record
  | "text" => ofPair? "thread" "text" Json.text? text record
  | "host" => ofText? "call" host record
  | "select" => ofPair? "thread" "choices" (Json.list? Json.text?) select record
  | "waitKey" => ofText? "thread" waitKey record
  | "error" => ofPair? "thread" "code" Json.text? error record
  | "end" => if record.isBare then some done else none
  | _ => none

end Event

end Stagecraft.Scenario
