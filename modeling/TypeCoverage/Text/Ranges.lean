/-!
# Ranges of code points

A character class of the Unicode standard is given by the list of its maximal ranges.
-/

set_option autoImplicit false

namespace TypeCoverage

/-- A class of characters outside ASCII as its maximal ranges, in increasing order. -/
abbrev Ranges := List (Nat × Nat)

def Ranges.has (ranges : Ranges) (n : Nat) : Bool :=
  ranges.any fun range => range.1 ≤ n && n ≤ range.2

end TypeCoverage
