import FuzzHarness.CoverageMap.Strategy

/-!
The placeholder coverage map: memory that stands in for the engine's map until that is attached.
-/

namespace FuzzHarness

inductive Ownership where
  | harness
  | engine
  deriving DecidableEq, Repr

/-- Where a placeholder is wanted and how many bytes it takes. -/
structure Layout where
  base : Address
  size : Nat
  base_pos : 0 < base
  size_pos : 0 < size

inductive LayoutError where
  | zeroBase
  | zeroSize
  deriving DecidableEq, Repr

def LayoutError.message : LayoutError → String
  | .zeroBase => "map base must be non-zero"
  | .zeroSize => "map size must be non-zero"

namespace Layout

/-- The layout of a base and a size; the base is looked at first. -/
def of (base size : Nat) : Except LayoutError Layout :=
  if hb : 0 < base then
    if hs : 0 < size then .ok ⟨base, size, hb, hs⟩ else .error .zeroSize
  else .error .zeroBase

/-- Where engines prefer their map. -/
def default : Layout :=
  ⟨0x10000, 256000, by decide, by decide⟩

end Layout

structure CoverageMap where
  layout : Layout
  region : Option Address
  published : Bool
  ownership : Ownership

namespace CoverageMap

def fresh (layout : Layout) : CoverageMap :=
  ⟨layout, none, false, .harness⟩

def pointer (m : CoverageMap) : Address :=
  m.region.getD 0

end CoverageMap

end FuzzHarness
