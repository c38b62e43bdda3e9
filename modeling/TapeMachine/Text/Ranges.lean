/-!
Contract: sets of characters that are given as runs of code points.

Owns: the search in such a table, member by member or by halving.

Halving needs the runs to be disjoint and ascending.
-/

namespace TapeMachine.Text

def inRanges (ranges : List (Nat × Nat)) (code : Nat) : Bool :=
  ranges.any fun range => range.1 ≤ code && code ≤ range.2

/-- Whether a code point lies in a range of the table between two indices; each round halves the
distance, and twenty rounds are enough for a table of a million ranges. -/
def searchRanges (ranges : Array (Nat × Nat)) (code : Nat) : Nat → Nat → Nat → Bool
  | 0, _, _ => false
  | rounds + 1, low, high =>
      if low < high then
        let middle := (low + high) / 2
        match ranges[middle]? with
        | none => false
        | some (first, last) =>
            if code < first then searchRanges ranges code rounds low middle
            else if last < code then searchRanges ranges code rounds (middle + 1) high
            else true
      else false

/-- Whether a code point lies in a range of an ascending table. -/
def inTable (ranges : Array (Nat × Nat)) (code : Nat) : Bool :=
  searchRanges ranges code 20 0 ranges.size

end TapeMachine.Text
