import FuzzHarness.Bytes

/-!
Paths, cut into the names they visit.
-/

namespace FuzzHarness

/-- A path as it is walked: from the root or from a given directory, through these names. A final
slash asks for a directory. -/
structure Route where
  absolute : Bool
  names : List Bytes
  finalSlash : Bool
  deriving DecidableEq, Repr

namespace Route

def ofPath (path : Bytes) : Route where
  absolute := path.head? = some Bytes.slash
  names := (path.splitOn Bytes.slash).filter fun name => !name.isEmpty
  finalSlash := path.getLast? = some Bytes.slash

def dot : Bytes := [0x2E]

def dotDot : Bytes := [0x2E, 0x2E]

/-- Whether a name leads somewhere without being an entry of a directory. -/
def isDots (name : Bytes) : Bool :=
  name = dot || name = dotDot

def maxPath : Nat := 4095

def maxName : Nat := 255

def maxLinks : Nat := 40

end Route

end FuzzHarness
