/-!
Sets of characters, written as the sorted code points at which membership
switches: the first enters the set, the second leaves it, and so on.
-/

namespace Replica

structure Alphabet where
  switches : Array Nat

namespace Alphabet

/-- How many of the sorted `switches` between `low` and `high` are at most `code`,
counted from the first. The search halves the window at each of its `steps`. -/
def rank (switches : Array Nat) (code : Nat) : (steps low high : Nat) → Nat
  | 0, low, _ => low
  | steps + 1, low, high =>
    if low < high then
      let middle := (low + high) / 2
      if switches.getD middle 0 ≤ code then rank switches code steps (middle + 1) high
      else rank switches code steps low middle
    else low

/-- A character belongs to the set when an odd number of switches lies at or before it. -/
def contains (alphabet : Alphabet) (c : Char) : Bool :=
  let size := alphabet.switches.size
  rank alphabet.switches c.toNat size 0 size % 2 = 1

end Alphabet

end Replica
