import Stagecraft.Text.Class

namespace Stagecraft.Text.Quoted

def encodeChar (c : Char) : List Char :=
  match c with
  | '\x00' => ['\\', '0']
  | '\t' => ['\\', 't']
  | '\r' => ['\\', 'r']
  | '\n' => ['\\', 'n']
  | '"' => ['\\', '"']
  | '\\' => ['\\', '\\']
  | c =>
    if Text.isShown c then [c]
    else ['\\', 'u', '\x7b'] ++ Text.digitsIn 16 c.toNat false ++ ['\x7d']

def encode (s : String) : String :=
  String.ofList ('"' :: (s.toList.flatMap encodeChar ++ ['"']))

end Stagecraft.Text.Quoted
