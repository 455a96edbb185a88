/-
Quoted texts in messages.

A text that a message quotes stands between double quotes.  Quotes, backslashes and the usual
controls are escaped with a backslash, other hidden characters by their code point in braces, and
everything else stands for itself.
-/
import RecordRules.Text.Hidden

namespace RecordRules
namespace Text

def hex (n : Nat) : List Char := Nat.toDigits 16 n

def quotedChar (c : Char) : List Char :=
  match c with
  | '"' => ['\\', '"']
  | '\\' => ['\\', '\\']
  | '\n' => ['\\', 'n']
  | '\r' => ['\\', 'r']
  | '\t' => ['\\', 't']
  | '\x00' => ['\\', '0']
  | c => if isHidden c then ['\\', 'u', '\x7b'] ++ hex c.toNat ++ ['\x7d'] else [c]

def quoted (s : String) : String :=
  String.ofList ('"' :: (s.toList.flatMap quotedChar ++ ['"']))

end Text
end RecordRules
