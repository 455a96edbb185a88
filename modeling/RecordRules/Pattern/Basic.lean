/-
Patterns.

A pattern is built from characters, sets of characters and conditions on places by sequence,
choice and repetition.  A group remembers what it matches, which only makes the pattern larger.
-/
import RecordRules.Pattern.CharSet

namespace RecordRules

/-! ## Patterns -/

inductive Look where
  | textStart
  | textEnd
  | lineStart
  | lineEnd
  | anyLineStart
  | anyLineEnd
  | wordBoundary
  | noWordBoundary
  | wordStart
  | wordEnd
  | wordStartHalf
  | wordEndHalf
deriving DecidableEq

/-- A group that is remembered, by its number from 1 on and perhaps a name. -/
structure Capture where
  number : Nat
  name : Option String
deriving DecidableEq

/-- A pattern. -/
inductive Pattern where
  | empty
  | char (c : Char)
  | set (s : CharSet)
  | look (l : Look)
  | repetition (p : Pattern) (least : Nat) (most : Option Nat)
  | group (g : Capture) (p : Pattern)
  | sequence (ps : List Pattern)
  | choice (ps : List Pattern)
deriving Inhabited

namespace Look

/-- The condition holds at a place between two neighbours, where the text ends in place of a
missing one. -/
def holds (before after : Option Char) : Look → Bool
  | textStart => before.isNone
  | textEnd => after.isNone
  | lineStart => before.isNone || before == some '\n'
  | lineEnd => after.isNone || after == some '\n'
  | anyLineStart =>
    before.isNone || before == some '\n' || (before == some '\r' && after != some '\n')
  | anyLineEnd => after.isNone || after == some '\r' || (after == some '\n' && before != some '\r')
  | wordBoundary => inWord before != inWord after
  | noWordBoundary => inWord before == inWord after
  | wordStart => !inWord before && inWord after
  | wordEnd => inWord before && !inWord after
  | wordStartHalf => !inWord before
  | wordEndHalf => !inWord after
where
  inWord (c : Option Char) : Bool := c.any fun c => CharSet.wordChars.contains c

end Look

namespace Pattern

/-! ## Building -/

/-- A sequence; one of a single part is that part. -/
def ofSequence : List Pattern → Pattern
  | [] => empty
  | [p] => p
  | ps => sequence ps

/-- A choice; one of a single branch is that branch. -/
def ofChoice : List Pattern → Pattern
  | [p] => p
  | ps => choice ps

/-- A repetition; none at all matches the empty text and a single one is its part. -/
def ofRepetition (p : Pattern) (least : Nat) (most : Option Nat) : Pattern :=
  if least = 0 ∧ most = some 0 then empty
  else if least = 1 ∧ most = some 1 then p
  else repetition p least most

/-! ## Nesting -/

mutual

/-- No part of the pattern lies more than `n` levels below it. -/
def nestsWithin : Nat → Pattern → Bool
  | 0, repetition _ _ _ | 0, group _ _ => false
  | 0, sequence ps | 0, choice ps => ps.isEmpty
  | n + 1, repetition p _ _ => nestsWithin n p
  | n + 1, group _ p => nestsWithin n p
  | n + 1, sequence ps => allNestWithin n ps
  | n + 1, choice ps => allNestWithin n ps
  | _, _ => true

def allNestWithin (n : Nat) : List Pattern → Bool
  | [] => true
  | p :: rest => nestsWithin n p && allNestWithin n rest

end

end Pattern
end RecordRules
