/-!
# Counts

Reading a number of things: decimal digits after an optional plus sign, below 2^64.
-/
namespace Recheck.Count

def bound : Nat := UInt64.size

/-- The value of decimal digits read after the value `acc`. -/
def digits? : Nat → List Char → Option Nat
  | acc, []      => some acc
  | acc, c :: cs => if c.isDigit then digits? (acc * 10 + (c.toNat - 48)) cs else none

def parse? (cs : List Char) : Option Nat :=
  let body := match cs with
    | '+' :: rest => rest
    | _           => cs
  if body.isEmpty then none else (digits? 0 body).filter (· < bound)

end Recheck.Count
