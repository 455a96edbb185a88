/-
JSON values as texts.

Reading runs a stack over the words of a text: each word moves the reader from one `Cursor` to the
next, and containers that are still open lie on the stack.  A container within 127 others cannot be
read.  Writing puts the words of a value one after another, without blanks; `layout` spreads them
over lines.
-/
import RecordRules.Json.Token
import RecordRules.Json.Tree

namespace RecordRules
namespace Json

/-! ## Reading -/

/-- A container that is still open: the items read so far, or the members and the key whose value
comes next.  The last one read stands first, and a key that cannot be read is missing. -/
inductive Frame where
  | array (items : List Tree)
  | object (members : List (Option String × Tree)) (key : Option String)

/-- Where the reader stands. -/
inductive Cursor where
  | value (stack : List Frame)
  /-- A value or the end of the array on top of the stack has to follow. -/
  | firstItem (stack : List Frame)
  /-- A key has to follow or, if no member has been read, the end of the object. -/
  | key (members : List (Option String × Tree)) (first : Bool) (stack : List Frame)
  | colon (members : List (Option String × Tree)) (key : Option String) (stack : List Frame)
  | done (t : Tree) (stack : List Frame)

/-- The number of containers that may be open at once around what is read. -/
def maxNesting : Nat := 127

namespace Cursor

def startValue (stack : List Frame) : Token → Option Cursor
  | .null => some (.done .null stack)
  | .bool b => some (.done (.bool b) stack)
  | .number n => some (.done (.number n) stack)
  | .string s => some (.done (.string s) stack)
  | .overflow | .loneSurrogate => some (.done .unreadable stack)
  | .openArray => some (.firstItem (.array [] :: stack))
  | .openObject => some (.key [] true stack)
  | _ => none

/-- Closes a container.  Of the stack below it only the upper part is looked at. -/
def close (container : Tree) (stack : List Frame) : Cursor :=
  done (if (stack.drop (maxNesting - 1)).isEmpty then container else .unreadable) stack

def step : Cursor → Token → Option Cursor
  | value stack, t => startValue stack t
  | firstItem (.array [] :: stack), .closeArray => some (close (.array []) stack)
  | firstItem stack, t => startValue stack t
  | key members _ stack, .string k => some (colon members (some k) stack)
  | key members _ stack, .loneSurrogate => some (colon members none stack)
  | key [] true stack, .closeObject => some (close (.object []) stack)
  | colon members k stack, .colon => some (value (.object members k :: stack))
  | done t (.array items :: stack), .comma => some (value (.array (t :: items) :: stack))
  | done t (.array items :: stack), .closeArray => some (close (.array (t :: items).reverse) stack)
  | done t (.object members k :: stack), .comma => some (key ((k, t) :: members) false stack)
  | done t (.object members k :: stack), .closeObject =>
    some (close (.ofMembers ((k, t) :: members).reverse) stack)
  | _, _ => none

end Cursor

def Tree.ofTokens? (ts : List Token) : Option Tree :=
  match ts.foldlM Cursor.step (Cursor.value []) with
  | some (.done t []) => some t
  | _ => none

/-- The tree of a text, with the members of objects as the text gives them. -/
def Tree.parse? (s : String) : Option Tree := (Token.scan? s.toList).bind Tree.ofTokens?

def parse? (s : String) : Option Json := ((Tree.parse? s).bind Tree.value?).map normal

/-! ## Writing -/

mutual

def tokens : Json → List Token
  | null => [.null]
  | bool b => [.bool b]
  | number n => [.number n]
  | string s => [.string s]
  | array [] => [.openArray, .closeArray]
  | array (v :: rest) => .openArray :: (tokens v ++ itemTokens rest)
  | object [] => [.openObject, .closeObject]
  | object ((k, v) :: rest) => .openObject :: .string k :: .colon :: (tokens v ++ memberTokens rest)

def itemTokens : List Json → List Token
  | [] => [.closeArray]
  | v :: rest => .comma :: (tokens v ++ itemTokens rest)

def memberTokens : List (String × Json) → List Token
  | [] => [.closeObject]
  | (k, v) :: rest => .comma :: .string k :: .colon :: (tokens v ++ memberTokens rest)

end

def text (v : Json) : String := String.ofList (v.tokens.flatMap Token.spell)

/-! ## Writing on several lines -/

def deeper (margin : String) : String := margin ++ "  "

mutual

/-- The text of a value with every item and every member on a line of its own. -/
def layout (margin : String) : Json → String
  | array (v :: rest) =>
    "[\n" ++ deeper margin ++ layout (deeper margin) v ++ layoutItems margin rest
  | object ((k, v) :: rest) =>
    "\x7b\n" ++ deeper margin ++ (string k).text ++ ": " ++ layout (deeper margin) v ++
      layoutMembers margin rest
  | v => v.text

def layoutItems (margin : String) : List Json → String
  | [] => "\n" ++ margin ++ "]"
  | v :: rest => ",\n" ++ deeper margin ++ layout (deeper margin) v ++ layoutItems margin rest

def layoutMembers (margin : String) : List (String × Json) → String
  | [] => "\n" ++ margin ++ "\x7d"
  | (k, v) :: rest =>
    ",\n" ++ deeper margin ++ (string k).text ++ ": " ++ layout (deeper margin) v ++
      layoutMembers margin rest

end

end Json
end RecordRules
