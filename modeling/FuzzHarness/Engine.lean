import FuzzHarness.Event

/-!
What a harness needs of the fuzzing engine linked beside it, and an engine for running without one.

The engine owns the coverage pointer and the decision whether another iteration runs. Publishing and
retracting seed and clear the pointer for the placeholder; the signal that set-up is complete is
where an engine attaches its own map.
-/

namespace FuzzHarness

/-- The engine's calls. `retract` clears the pointer only of the address it is given, and
`setReportFd` answers with what the linked diagnostics subsystem writes at once, or with nothing if
none is linked. -/
structure Engine (ρ : Type) where
  area : ρ → Option Address
  publish : Address → ρ → ρ
  retract : Address → ρ → ρ
  setSharedMemory : Bool → ρ → ρ
  sharedSwitch : ρ → Int
  storeSwitch : Int → ρ → ρ
  manualInit : ρ → ρ
  loop : Nat → ρ → LoopReply × ρ
  setReportFd : Fd → ρ → Option Bytes × ρ

/-- The iterations that remain are settled by the budget of the first question. -/
structure Standalone where
  area : Option Address
  remaining : Option Nat
  initialized : Bool
  sharedMemory : Bool
  deriving DecidableEq, Repr

namespace Standalone

def fresh : Standalone :=
  ⟨none, none, false, false⟩

def publish (a : Address) (s : Standalone) : Standalone :=
  { s with area := some a }

def retract (a : Address) (s : Standalone) : Standalone :=
  if s.area = some a then { s with area := none } else s

def setSharedMemory (on : Bool) (s : Standalone) : Standalone :=
  { s with sharedMemory := on }

def manualInit (s : Standalone) : Standalone :=
  { s with initialized := true }

/-- Grants as many iterations as the first budget says. -/
def loop (budget : Nat) (s : Standalone) : Bool × Standalone :=
  match s.remaining.getD budget with
  | 0 => (false, { s with remaining := some 0 })
  | n + 1 => (true, { s with remaining := some n })

def engine : Engine Standalone where
  area := Standalone.area
  publish := publish
  retract := retract
  setSharedMemory := setSharedMemory
  sharedSwitch _ := 0
  storeSwitch _ s := s
  manualInit := manualInit
  loop budget s := let (granted, s) := s.loop budget; (.ofBool granted, s)
  setReportFd _ s := (none, s)

end Standalone

end FuzzHarness
