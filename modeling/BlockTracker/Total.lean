/-!
# Totals

The total of a list of counts.
-/

namespace BlockTracker

/-- The sum of a list of counts.  The instances are those that core has for the natural numbers, so that the sum does
not change its form where more algebra is imported. -/
def total (ns : List Nat) : Nat := @List.sum Nat instAddNat Zero.ofOfNat0 ns

end BlockTracker
