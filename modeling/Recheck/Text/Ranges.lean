/-!
# Ranges of characters

A class of characters given by a table of code point ranges, both ends included.
-/
namespace Recheck

/-- A class of characters, as a list of first and last code points. -/
abbrev Ranges := List (Nat × Nat)

def Ranges.contains (r : Ranges) (c : Char) : Bool := r.any fun p => p.1 ≤ c.toNat && c.toNat ≤ p.2

end Recheck
