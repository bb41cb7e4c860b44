import Stagecraft.Number.Layout

/-!
Numbers are kept as they are written. A text or key is `none` if it holds half of a surrogate pair
and so is no sequence of characters.
-/

namespace Stagecraft

inductive Json where
  | null
  | flag (b : Bool)
  | number (written : String)
  | text (s : Option String)
  | list (items : List Json)
  | object (entries : List (Option String × Json))
  deriving Repr, Inhabited

namespace Json

def ofText (s : String) : Json :=
  text (some s)

def ofNat (n : Nat) : Json :=
  number (toString n)

def ofFloat (x : Float) : Json :=
  if Number.isFinite x then number (Number.Layout.json.render x) else null

def ofTexts (ss : List String) : Json :=
  list (ss.map ofText)

def ofEntries (entries : List (String × Json)) : Json :=
  object (entries.map fun (key, value) => (some key, value))

def escape (c : Char) : List Char :=
  match c with
  | '"' => ['\\', '"']
  | '\\' => ['\\', '\\']
  | '\x08' => ['\\', 'b']
  | '\x0c' => ['\\', 'f']
  | '\n' => ['\\', 'n']
  | '\r' => ['\\', 'r']
  | '\t' => ['\\', 't']
  | c =>
    if c.toNat < 32 then ['\\', 'u'] ++ (Text.padZero 4 (Text.hex c.toNat)).toList else [c]

def quote (s : String) : String :=
  String.ofList ('"' :: (s.toList.flatMap escape ++ ['"']))

mutual

def compact : Json → String
  | null => "null"
  | flag b => if b then "true" else "false"
  | number written => written
  | text s => quote (s.getD "")
  | list items => "[" ++ Text.join "," (compactItems items) ++ "]"
  | object entries => "\x7b" ++ Text.join "," (compactEntries entries) ++ "\x7d"

def compactItems : List Json → List String
  | [] => []
  | item :: rest => compact item :: compactItems rest

def compactEntries : List (Option String × Json) → List String
  | [] => []
  | (key, value) :: rest => (quote (key.getD "") ++ ":" ++ compact value) :: compactEntries rest

end

def bracketed (opening closing indent : String) (lines : List String) : String :=
  if lines.isEmpty then opening ++ closing
  else
    let inner := indent ++ "  "
    opening ++ "\n" ++ Text.join ",\n" (lines.map (inner ++ ·)) ++ "\n" ++ indent ++ closing

mutual

def prettyFrom (indent : String) : Json → String
  | list items => bracketed "[" "]" indent (prettyItems (indent ++ "  ") items)
  | object entries => bracketed "\x7b" "\x7d" indent (prettyEntries (indent ++ "  ") entries)
  | null => "null"
  | flag b => if b then "true" else "false"
  | number written => written
  | text s => quote (s.getD "")

def prettyItems (indent : String) : List Json → List String
  | [] => []
  | item :: rest => prettyFrom indent item :: prettyItems indent rest

def prettyEntries (indent : String) : List (Option String × Json) → List String
  | [] => []
  | (key, value) :: rest =>
    (quote (key.getD "") ++ ": " ++ prettyFrom indent value) :: prettyEntries indent rest

end

def pretty (j : Json) : String :=
  prettyFrom "" j

end Json

end Stagecraft
