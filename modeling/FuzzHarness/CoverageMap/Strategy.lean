/-!
Where a placeholder coverage map may be put.
-/

namespace FuzzHarness

/-- An address in the process; 0 is the null address. -/
abbrev Address := Nat

/-- Exactly at an address and never over an existing mapping, at an address if that is possible, or
anywhere. -/
inductive MapStrategy where
  | fixed (base : Address)
  | hint (base : Address)
  | anywhere
  deriving DecidableEq, Repr

namespace MapStrategy

/-- The ways that are tried, in order, until one succeeds. -/
def preferences (base : Address) : List MapStrategy :=
  [.fixed base, .hint base, .anywhere]

def describe : MapStrategy → String
  | .fixed base => "FixedNoReplace(" ++ toString base ++ ")"
  | .hint base => "AddressHint(" ++ toString base ++ ")"
  | .anywhere => "Anywhere"

end MapStrategy

end FuzzHarness
