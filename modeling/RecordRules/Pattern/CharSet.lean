/-
Sets of characters as intervals of code points.

A set lists its intervals in order, and no two of them overlap or touch, so that every set has one
form.  The form counts: it settles how large a pattern is, and which letters get their other case.
-/

namespace RecordRules

/-- An interval of code points, with both its ends. -/
structure CharRange where
  low : Nat
  high : Nat
deriving DecidableEq

namespace CharRange

def ofChars (low high : Char) : CharRange := ⟨low.toNat, high.toNat⟩

def contains (r : CharRange) (c : Char) : Bool := r.low ≤ c.toNat && c.toNat ≤ r.high

def hull (r s : CharRange) : CharRange := ⟨min r.low s.low, max r.high s.high⟩

/-- The part of an interval that lies between two characters, if there is any, moved so that
`first` becomes `image`. -/
def moved? (r : CharRange) (first last image : Char) : Option CharRange :=
  let low := max r.low first.toNat
  let high := min r.high last.toNat
  if low ≤ high then
    some ⟨low - first.toNat + image.toNat, high - first.toNat + image.toNat⟩
  else none

/-- The ASCII letters of an interval in their other case.  Where there are lower-case letters only
these are looked at. -/
def otherCase? (r : CharRange) : Option CharRange :=
  (r.moved? 'a' 'z' 'A').or (r.moved? 'A' 'Z' 'a')

end CharRange

/-- A set of characters. -/
structure CharSet where
  ranges : List CharRange
deriving DecidableEq, Inhabited

namespace CharSet

def contains (s : CharSet) (c : Char) : Bool := s.ranges.any fun r => r.contains c

/-- Puts an interval at its place and joins it with those that it overlaps or touches. -/
def insertRange (r : CharRange) : List CharRange → List CharRange
  | [] => [r]
  | s :: rest =>
    if r.high + 1 < s.low then r :: s :: rest
    else if s.high + 1 < r.low then s :: insertRange r rest
    else insertRange (r.hull s) rest

def ofRanges (rs : List CharRange) : CharSet := ⟨rs.foldl (fun sorted r => insertRange r sorted) []⟩

def empty : CharSet := ⟨[]⟩

def one (c : Char) : CharSet := ⟨[.ofChars c c]⟩

def between (low high : Char) : CharSet := ⟨[.ofChars low high]⟩

def union (sets : List CharSet) : CharSet := ofRanges (sets.flatMap ranges)

def lastCodePoint : Nat := 0x10ffff

/-- The intervals between those of a set, from a code point on. -/
def gaps (start : Nat) : List CharRange → List CharRange
  | [] => if start ≤ lastCodePoint then [⟨start, lastCodePoint⟩] else []
  | r :: rest =>
    if start < r.low then ⟨start, r.low - 1⟩ :: gaps (r.high + 1) rest else gaps (r.high + 1) rest

def complement (s : CharSet) : CharSet := ⟨gaps 0 s.ranges⟩

/-- Adds ASCII letters of the other case.  An interval with letters of both cases gets the capitals
of its lower-case letters, and its capitals get nothing. -/
def withOtherCase (s : CharSet) : CharSet :=
  ofRanges (s.ranges ++ s.ranges.filterMap CharRange.otherCase?)

/-! ## Sets with a name -/

def digits : CharSet := between '0' '9'

def spaces : CharSet := union [between '\t' '\r', one ' ']

def wordChars : CharSet := union [digits, between 'A' 'Z', one '_', between 'a' 'z']

end CharSet
end RecordRules
