/-
Sets of characters given by their bounds.

A property of characters is a sorted table of the code points at which the set begins or ends, in
turns.  A character is in the set if an odd number of them lies at or before it.
-/

namespace RecordRules
namespace Text

/-- The number of entries of a sorted table, between two positions, that are at most `n`, by
halving `steps` times. -/
def boundsUpTo (table : Array Nat) (n : Nat) : (steps low high : Nat) → Nat
  | 0, low, _ => low
  | steps + 1, low, high =>
    if low < high then
      let mid := (low + high) / 2
      if table.getD mid 0 ≤ n then boundsUpTo table n steps (mid + 1) high
      else boundsUpTo table n steps low mid
    else low

def isWithin (table : Array Nat) (c : Char) : Bool :=
  boundsUpTo table c.toNat table.size 0 table.size % 2 == 1

end Text
end RecordRules
