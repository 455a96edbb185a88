/-
Occurrences of patterns.

A pattern is searched for anywhere in a text, so only the question whether it occurs matters and
never which occurrence is found.  Matching computes, for a set of places in the text, the set of
places that a pattern can lead to from there.  A place is the number of characters before it.
-/
import Std.Data.HashSet
import RecordRules.Pattern.Basic

namespace RecordRules
namespace Pattern

/-! ## Sets of places -/

/-- The places that have not been seen, each once, and all that have been seen then. -/
def unseen (seen : Std.HashSet Nat) (places : List Nat) : Std.HashSet Nat × List Nat :=
  places.foldl
    (fun (seen, fresh) i => if seen.contains i then (seen, fresh) else (seen.insert i, i :: fresh))
    (seen, [])

def distinct (places : List Nat) : List Nat := (unseen ∅ places).2

def repeated (step : List Nat → List Nat) : Nat → List Nat → List Nat
  | 0, places => places
  | n + 1, places => if places.isEmpty then [] else repeated step n (step places)

/-- All places that up to `n` more steps lead to.  Only places of the last step can lead to new
ones. -/
def explore (step : List Nat → List Nat) :
    Nat → (seen : Std.HashSet Nat) → (found last : List Nat) → List Nat
  | 0, _, found, _ => found
  | n + 1, seen, found, last =>
    if last.isEmpty then found
    else
      let (seen, fresh) := unseen seen (step last)
      explore step n seen (fresh ++ found) fresh

/-- All places that up to `n` steps lead to. -/
def reached (step : List Nat → List Nat) (n : Nat) (places : List Nat) : List Nat :=
  explore step n (unseen ∅ places).1 places places

/-! ## Matching -/

mutual

/-- The places that the pattern leads to from a set of places in a text. -/
def advance (text : Array Char) : Pattern → List Nat → List Nat
  | empty, places => places
  | char c, places => (places.filter fun i => text[i]? == some c).map (· + 1)
  | set s, places => (places.filter fun i => text[i]?.any s.contains).map (· + 1)
  | look l, places =>
    places.filter fun i => l.holds (if i = 0 then none else text[i - 1]?) text[i]?
  | group _ p, places => advance text p places
  | sequence ps, places => advanceAll text ps places
  | choice ps, places => distinct (advanceAny text ps places)
  | repetition p least none, places =>
    reached (advance text p) (text.size + 1) (repeated (advance text p) least places)
  | repetition p least (some most), places =>
    reached (advance text p) (most - least) (repeated (advance text p) least places)

def advanceAll (text : Array Char) : List Pattern → List Nat → List Nat
  | [], places => places
  | p :: rest, places => advanceAll text rest (advance text p places)

def advanceAny (text : Array Char) : List Pattern → List Nat → List Nat
  | [], _ => []
  | p :: rest, places => advance text p places ++ advanceAny text rest places

end

/-- The pattern occurs in a text. -/
def occursIn (p : Pattern) (s : String) : Bool :=
  let text := s.toList.toArray
  !(advance text p (List.range (text.size + 1))).isEmpty

end Pattern
end RecordRules
