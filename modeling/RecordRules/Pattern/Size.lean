/-
How large a pattern is.

A pattern is measured by the bytes of the automaton that matches it: a state for every character,
set and condition, states that part and join ways around choices and repetitions, and two for every
group.  A counted repetition holds its part over and over.  Patterns that are too large are refused.
-/
import RecordRules.Pattern.Basic

namespace RecordRules
namespace Pattern

mutual

/-- The pattern may lead from a place to the same place. -/
def mayBeEmpty : Pattern → Bool
  | empty | look _ => true
  | char _ | set _ => false
  | repetition p least _ => least == 0 || mayBeEmpty p
  | group _ p => mayBeEmpty p
  | sequence ps => allMayBeEmpty ps
  | choice ps => anyMayBeEmpty ps

def allMayBeEmpty : List Pattern → Bool
  | [] => true
  | p :: rest => mayBeEmpty p && allMayBeEmpty rest

def anyMayBeEmpty : List Pattern → Bool
  | [] => false
  | p :: rest => mayBeEmpty p || anyMayBeEmpty rest

end

def stateSize : Nat := 32

/-- The size of a state with a number of ways to go on. -/
def forkSize (ways : Nat) : Nat := stateSize + 4 * ways

/-- The size of a state that accepts the characters of a set. -/
def setSize (s : CharSet) : Nat := stateSize + 8 * s.ranges.length

mutual

/-- The size of the states of a pattern.  A repetition without an end goes back to the start of
its part, by way of two more states if the part may be empty.  One with an end may leave before
each of the parts that need not be there. -/
def size : Pattern → Nat
  | empty | char _ | look _ => stateSize
  | set s => setSize s
  | group _ p => 2 * stateSize + size p
  | sequence ps => sizeOfAll ps
  | choice ps => forkSize ps.length + stateSize + sizeOfAll ps
  | repetition p 0 none =>
    if mayBeEmpty p then size p + 2 * forkSize 2 + stateSize else size p + forkSize 2
  | repetition p least none => least * size p + forkSize 2
  | repetition p 0 (some 1) => forkSize 2 + size p + stateSize
  | repetition p least (some most) =>
    if least = most then least * size p
    else
      (if least = 0 then stateSize else least * size p) + stateSize +
        (most - least) * (forkSize 2 + size p)

def sizeOfAll : List Pattern → Nat
  | [] => 0
  | p :: rest => size p + sizeOfAll rest

end

mutual

def groups : Pattern → List Capture
  | empty | char _ | set _ | look _ => []
  | repetition p _ _ => groups p
  | group g p => g :: groups p
  | sequence ps | choice ps => groupsOfAll ps

def groupsOfAll : List Pattern → List Capture
  | [] => []
  | p :: rest => groups p ++ groupsOfAll rest

end

def nameSize (g : Capture) : Nat := (g.name.map fun name => name.utf8ByteSize + 4).getD 0

/-- The size of the table of groups: an entry for each number up to the last, counting the match as
a whole as number 0, and the names. -/
def groupTableSize (gs : List Capture) : Nat :=
  16 * (1 + gs.foldr (fun g n => max g.number n) 0) + gs.foldr (fun g n => nameSize g + n) 0

/-- The size of a pattern as a whole, which is a group, and of the state that ends a match. -/
def totalSize (p : Pattern) : Nat := size p + 3 * stateSize + groupTableSize (groups p)

def maxSize : Nat := 10485760

end Pattern
end RecordRules
