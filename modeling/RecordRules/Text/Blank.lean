/-
White space in texts.

A character is blank if it has the Unicode property White_Space.  Identifiers contain none, and a
text is trimmed of it before it is read as a name, a number or an operator.
-/

namespace RecordRules
namespace Text

/-- The characters with the Unicode property White_Space. -/
def isBlankChar (c : Char) : Bool :=
  let n := c.toNat
  (0x9 ≤ n && n ≤ 0xd) || n == 0x20 || n == 0x85 || n == 0xa0 || n == 0x1680 ||
    (0x2000 ≤ n && n ≤ 0x200a) || n == 0x2028 || n == 0x2029 || n == 0x202f || n == 0x205f ||
    n == 0x3000

def dropBlanks (s : List Char) : List Char := s.dropWhile isBlankChar

def trim (s : List Char) : List Char := (dropBlanks (dropBlanks s).reverse).reverse

def trimmed (s : String) : String := String.ofList (trim s.toList)

def isBlank (s : String) : Bool := s.toList.all isBlankChar

/-- Upper-case ASCII letters become lower case, and nothing else changes. -/
def lowered (s : String) : String := String.ofList (s.toList.map Char.toLower)

end Text
end RecordRules
