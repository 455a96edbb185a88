/-
The words of a JSON text.

A text is a sequence of marks, literals, strings and numbers with blanks between them.
`Json.Token.scan?` takes a text apart and `Json.Token.spell` writes a word.  Numbers are rounded,
and strings must not hold unescaped controls.  A number beyond the finite floats and a string with
a surrogate that is not in a pair are words too, but they stand for no value.
-/
import RecordRules.Json.Basic
import RecordRules.Binary64.Decimal

namespace RecordRules
namespace Json

/-- A word of a JSON text. -/
inductive Token where
  | openArray
  | closeArray
  | openObject
  | closeObject
  | comma
  | colon
  | null
  | bool (b : Bool)
  | number (n : Number)
  /-- A number beyond the finite floats. -/
  | overflow
  | string (s : String)
  /-- A string with a surrogate that is not in a pair. -/
  | loneSurrogate

namespace Token

/-! ## Numbers -/

/-- The first number that does not fit an unsigned 64-bit word. -/
def significandLimit : Nat := Binary64.twoTo 64

/-- Extends a number by digits as long as it fits 64 bits; what is left over is returned. -/
def gather (m : Nat) : List Char → Nat × List Char
  | [] => (m, [])
  | c :: rest =>
    let next := 10 * m + (c.toNat - '0'.toNat)
    if next < significandLimit then gather next rest else (m, c :: rest)

/-- The power of ten `10 ^ k` as a float, for `k` up to 308. -/
def powerOfTen (k : Nat) : Binary64 := Binary64.ofRatio false (Binary64.tenTo k * Binary64.one) 1

/-- Divides by `10 ^ 308` a number of times, until nothing is left. -/
def shrink : Nat → Binary64 → Binary64
  | 0, x => x
  | n + 1, x => if x.isZero then x else shrink n (x / powerOfTen 308)

/-- The float `m * 10 ^ e` for a significand of 64 bits: the significand is rounded, then the
scaling is.  A result beyond the finite numbers is refused. -/
def scale? (negative : Bool) (m : Nat) (e : Int) : Option Binary64.Finite :=
  let start := Binary64.ofInt m
  let scaled :=
    if m = 0 then start
    else if 308 < e then .infinite false
    else if 0 ≤ e then start * powerOfTen e.toNat
    else
      let steps := (e.natAbs - 1) / 308
      shrink steps start / powerOfTen (e.natAbs - 308 * steps)
  match scaled with
  | .finite x => some (if negative then -x else x)
  | _ => none

/-- The number that the parts of a decimal spell.  With neither fraction nor exponent it is an
integer if it fits, but a negative zero is a float.  Digits beyond the 64-bit significand only
count towards the exponent. -/
def numberOf? (negative : Bool) (whole : List Char) (fraction : Option (List Char))
    (exponent : Option Int) : Option Number :=
  let (m, dropped) := gather 0 whole
  let isInteger := fraction.isNone && exponent.isNone && dropped.isEmpty &&
    !(negative && (m == 0 || Binary64.twoTo 63 < m))
  if isInteger then Number.ofInt? (if negative then -(m : Int) else m)
  else
    let digits := fraction.getD []
    let (m, unread) := gather m digits
    let e := (dropped.length : Int) - ((digits.length : Int) - unread.length) + exponent.getD 0
    (scale? negative m e).map .float

/-- An exponent: `e` or `E`, a sign if there is one, and digits. -/
def scanExponent? (s : List Char) : Option (Option Int × List Char) :=
  match s with
  | c :: rest =>
    if c = 'e' ∨ c = 'E' then
      let (negative, body) := Binary64.takeSign rest
      let (ds, tail) := Binary64.takeDigits body
      if ds.isEmpty then none
      else
        let n : Int := Binary64.digitsValue ds
        some (some (if negative then -n else n), tail)
    else some (none, s)
  | [] => some (none, [])

/-- A fraction: a point and at least one digit. -/
def scanFraction? (s : List Char) : Option (Option (List Char) × List Char) :=
  match s with
  | '.' :: rest =>
    let (ds, tail) := Binary64.takeDigits rest
    if ds.isEmpty then none else some (some ds, tail)
  | _ => some (none, s)

/-- The digits before the point.  A leading zero stands alone. -/
def scanWhole? (s : List Char) : Option (List Char × List Char) :=
  match s with
  | '0' :: rest => some (['0'], rest)
  | _ =>
    let (ds, tail) := Binary64.takeDigits s
    if ds.isEmpty then none else some (ds, tail)

def scanUnsigned? (negative : Bool) (s : List Char) : Option (Token × List Char) := do
  let (whole, s) ← scanWhole? s
  let (fraction, s) ← scanFraction? s
  let (exponent, s) ← scanExponent? s
  match numberOf? negative whole fraction exponent with
  | some n => return (number n, s)
  | none => return (overflow, s)

/-- A number at the start of a text. -/
def scanNumber? : List Char → Option (Token × List Char)
  | '-' :: rest => scanUnsigned? true rest
  | s => scanUnsigned? false s

/-! ## Strings -/

def hexDigit? (c : Char) : Option Nat :=
  if '0' ≤ c ∧ c ≤ '9' then some (c.toNat - '0'.toNat)
  else if 'a' ≤ c ∧ c ≤ 'f' then some (c.toNat - 'a'.toNat + 10)
  else if 'A' ≤ c ∧ c ≤ 'F' then some (c.toNat - 'A'.toNat + 10)
  else none

def hexUnit? (a b c d : Char) : Option Nat := do
  return (((← hexDigit? a) * 16 + (← hexDigit? b)) * 16 + (← hexDigit? c)) * 16 + (← hexDigit? d)

def escaped? (c : Char) : Option Char :=
  match c with
  | '"' => some '"'
  | '\\' => some '\\'
  | '/' => some '/'
  | 'b' => some '\x08'
  | 'f' => some '\x0c'
  | 'n' => some '\n'
  | 'r' => some '\r'
  | 't' => some '\t'
  | _ => none

def isLeading (u : Nat) : Bool := 0xd800 ≤ u && u < 0xdc00

def isTrailing (u : Nat) : Bool := 0xdc00 ≤ u && u < 0xe000

/-- The characters of a string, or none if there is a lone surrogate in it, and what follows the
string. -/
abbrev Scanned := Option (List Char) × List Char

def Scanned.cons (c : Char) (s : Scanned) : Scanned := (s.1.map (c :: ·), s.2)

/-- A leading surrogate at the start of a string, if there is one.  It is not in a pair. -/
def Scanned.after (lead : Option Nat) (s : Scanned) : Scanned :=
  if lead.isSome then (none, s.2) else s

def paired (lead trail : Nat) : Char :=
  Char.ofNat (0x10000 + (lead - 0xd800) * 0x400 + (trail - 0xdc00))

/-- The rest of a string after its opening quote and, perhaps, an escaped leading surrogate.  That
and an escaped trailing one right behind it are one character. -/
def scanString? (lead : Option Nat) : List Char → Option Scanned
  | [] => none
  | '"' :: rest => some (.after lead (some [], rest))
  | '\\' :: 'u' :: a :: b :: c :: d :: rest =>
    match hexUnit? a b c d with
    | none => none
    | some u =>
      if isLeading u then (scanString? (some u) rest).map (.after lead)
      else if isTrailing u then
        match lead with
        | some l => (scanString? none rest).map (.cons (paired l u))
        | none => (scanString? none rest).map fun s => (none, s.2)
      else (scanString? none rest).map fun s => (s.cons (Char.ofNat u)).after lead
  | '\\' :: c :: rest =>
    match escaped? c with
    | none => none
    | some e => (scanString? none rest).map fun s => (s.cons e).after lead
  | c :: rest =>
    if c.toNat < 0x20 then none else (scanString? none rest).map fun s => (s.cons c).after lead

/-! ## Words -/

/-- The word at the start of a text that does not begin with a blank. -/
def scanWord? : List Char → Option (Token × List Char)
  | '[' :: rest => some (openArray, rest)
  | ']' :: rest => some (closeArray, rest)
  | '\x7b' :: rest => some (openObject, rest)
  | '\x7d' :: rest => some (closeObject, rest)
  | ',' :: rest => some (comma, rest)
  | ':' :: rest => some (colon, rest)
  | '"' :: rest => (scanString? none rest).map fun (s, t) =>
    (match s with
      | some s => string (String.ofList s)
      | none => loneSurrogate, t)
  | 'n' :: 'u' :: 'l' :: 'l' :: rest => some (null, rest)
  | 't' :: 'r' :: 'u' :: 'e' :: rest => some (bool true, rest)
  | 'f' :: 'a' :: 'l' :: 's' :: 'e' :: rest => some (bool false, rest)
  | s => scanNumber? s

def isGap (c : Char) : Bool := c == ' ' || c == '\n' || c == '\r' || c == '\t'

/-- All words of a text.  Every word takes at least one character, so as many rounds as there are
characters are enough. -/
def scanAll? : (rounds : Nat) → List Char → Option (List Token)
  | 0, s => if s.all isGap then some [] else none
  | rounds + 1, s =>
    match s.dropWhile isGap with
    | [] => some []
    | c :: rest => do
      let (t, tail) ← scanWord? (c :: rest)
      let others ← scanAll? rounds tail
      return t :: others

def scan? (s : List Char) : Option (List Token) := scanAll? s.length s

/-! ## Writing -/

def hexPair (n : Nat) : List Char := [Nat.digitChar (n / 16), Nat.digitChar (n % 16)]

def spellChar (c : Char) : List Char :=
  match c with
  | '"' => ['\\', '"']
  | '\\' => ['\\', '\\']
  | '\x08' => ['\\', 'b']
  | '\x0c' => ['\\', 'f']
  | '\n' => ['\\', 'n']
  | '\r' => ['\\', 'r']
  | '\t' => ['\\', 't']
  | c => if c.toNat < 0x20 then ['\\', 'u', '0', '0'] ++ hexPair c.toNat else [c]

def spellString (s : String) : List Char := '"' :: (s.toList.flatMap spellChar ++ ['"'])

def spellNumber : Number → List Char
  | .integer n _ => (toString n).toList
  | .float x => x.markedText.toList

/-- A word as it is written.  A word that stands for no value is not written. -/
def spell : Token → List Char
  | openArray => ['[']
  | closeArray => [']']
  | openObject => ['\x7b']
  | closeObject => ['\x7d']
  | comma => [',']
  | colon => [':']
  | null => ['n', 'u', 'l', 'l']
  | bool true => ['t', 'r', 'u', 'e']
  | bool false => ['f', 'a', 'l', 's', 'e']
  | number n => spellNumber n
  | overflow => []
  | string s => spellString s
  | loneSurrogate => []

end Token
end Json
end RecordRules
