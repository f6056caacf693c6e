/-!
# Ranges of code points

* `CodeRanges` — inclusive ranges in ascending order, with a search by halving.
-/

namespace Awaitless.Text

/-- Inclusive ranges of code points, in ascending order and apart from each other. -/
abbrev CodeRanges := Array (Nat × Nat)

namespace CodeRanges

/-- Looks for a range that holds `code` among the ranges `low ≤ i < high`. -/
def search (ranges : CodeRanges) (code : Nat) : (steps low high : Nat) → Bool
  | 0, _, _ => false
  | steps + 1, low, high =>
    if low < high then
      let middle := (low + high) / 2
      let (first, last) := ranges.getD middle (0, 0)
      if code < first then search ranges code steps low middle
      else if last < code then search ranges code steps (middle + 1) high
      else true
    else false

/-- Whether some range holds the code point. Every step halves what is left to search. -/
def contains (ranges : CodeRanges) (code : Nat) : Bool :=
  search ranges code (Nat.log2 ranges.size + 2) 0 ranges.size

end CodeRanges

end Awaitless.Text
