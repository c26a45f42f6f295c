import FuzzHarness.CoverageMap.Backend

/-!
The memory of a process as its system answers for it, in pages, and the mapper that asks it for
anonymous memory.
-/

namespace FuzzHarness

structure Block where
  first : Nat
  count : Nat
  deriving DecidableEq, Repr

def Block.Contains (b : Block) (page : Nat) : Prop :=
  b.first ≤ page ∧ page < b.first + b.count

instance (b : Block) (page : Nat) : Decidable (b.Contains page) :=
  inferInstanceAs (Decidable (_ ∧ _))

/-- The system's calls about memory; μ is all that its answers depend on. A system that does not
know `mapFixed` takes the address for a hint, the null address is no hint to `mapHint`, and pages
that are not mapped can be unmapped as well. -/
structure Memory (μ : Type) where
  mapFixed : Address → Nat → μ → Except Errno Address × μ
  mapHint : Address → Nat → μ → Except Errno Address × μ
  unmap : Address → Nat → μ → Except Errno Unit × μ

namespace Memory

def pageSize : Nat := 4096

def pages (size : Nat) : Nat :=
  (size + pageSize - 1) / pageSize

variable {μ : Type}

/-- Asks for memory as a strategy says. A fixed address that was not kept is given back and
refused. -/
def mapAs (M : Memory μ) (strategy : MapStrategy) (size : Nat) (m : μ) :
    Except HarnessError Address × μ :=
  let (result, after) := match strategy with
    | .fixed base => M.mapFixed base size m
    | .hint base => M.mapHint base size m
    | .anywhere => M.mapHint 0 size m
  match strategy, result with
  | _, .error e => (.error (.map e), after)
  | .fixed base, .ok region =>
    if region = base then (.ok region, after)
    else match M.unmap region size after with
      | (.ok (), m) => (.error (.mapMisplaced base region), m)
      | (.error e, m) => (.error (.map e), m)
  | _, .ok region => (.ok region, after)

def unmapRegion (M : Memory μ) (region : Address) (size : Nat) (m : μ) :
    Except HarnessError Unit × μ :=
  let (result, m) := M.unmap region size m
  (result.mapError .map, m)

def backend (M : Memory μ) : MapBackend μ where
  map := M.mapAs
  unmap := M.unmapRegion

end Memory

end FuzzHarness
