import Edm.Text.Hidden

/-!
This module contains the quoted form in which diagnostics show a text.
-/

namespace Edm.Text

/-- A character of a quoted text; those that cannot be shown are written by their code. -/
def quoteChar (c : Char) : List Char :=
  match c with
  | '"' => ['\\', '"']
  | '\\' => ['\\', '\\']
  | '\n' => ['\\', 'n']
  | '\r' => ['\\', 'r']
  | '\t' => ['\\', 't']
  | '\x00' => ['\\', '0']
  | c =>
    if isHidden c then "\\u\x7b".toList ++ Nat.toDigits 16 c.toNat ++ ['\x7d']
    else [c]

def quoted (s : String) : String :=
  .ofList ('"' :: (s.toList.flatMap quoteChar ++ ['"']))

end Edm.Text
