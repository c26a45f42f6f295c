import FuzzHarness.Engine

/-!
Engines that play their part from a script: one for a single process, built on the engine that needs
no fork server, and one that behaves as a fork server does towards the process it has started.
-/

namespace FuzzHarness.Scripted

/-- What an engine does of its own accord. -/
structure EngineScript where
  attach : Option Address
  stopAfter : Option Nat
  report : Option Bytes

/-- An engine without a fork server, and how often it was asked for another iteration. -/
structure Rehearsal where
  inner : Standalone
  asked : Nat

namespace Rehearsal

def fresh : Rehearsal :=
  ⟨Standalone.fresh, 0⟩

def update (r : Rehearsal) (f : Standalone → Standalone) : Rehearsal :=
  { r with inner := f r.inner }

def stops (script : EngineScript) (r : Rehearsal) : Bool :=
  match script.stopAfter with
  | some n => n ≤ r.asked
  | none => false

/-- A question that the script refuses does not count against the budget. -/
def loop (script : EngineScript) (budget : Nat) (r : Rehearsal) : LoopReply × Rehearsal :=
  if r.stops script then (.ofBool false, { r with asked := r.asked + 1 })
  else
    let (granted, inner) := r.inner.loop budget
    (.ofBool granted, ⟨inner, r.asked + 1⟩)

def manualInit (script : EngineScript) (s : Standalone) : Standalone :=
  match script.attach with
  | some area => s.manualInit.publish area
  | none => s.manualInit

def engine (script : EngineScript) : Engine Rehearsal where
  area r := r.inner.area
  publish a r := r.update (Standalone.publish a)
  retract a r := r.update (Standalone.retract a)
  setSharedMemory on r := r.update (Standalone.setSharedMemory on)
  sharedSwitch _ := 0
  storeSwitch _ r := r
  manualInit r := r.update (manualInit script)
  loop := loop script
  setReportFd _ r := (script.report, r)

end Rehearsal

/-- The words that a fork server and the process share: the coverage pointer and the shared-memory
switch; and how often another iteration was asked for. -/
structure ForkServer where
  area : Option Address
  switch : Int
  asked : Nat

namespace ForkServer

def fresh : ForkServer :=
  ⟨none, 0, 0⟩

def defaultStop : Nat := 16

def retract (a : Address) (f : ForkServer) : ForkServer :=
  if f.area = some a then { f with area := none } else f

/-- Grants iterations while both the budget and the script allow; a granted one is answered with
this status. -/
def loop (script : EngineScript) (status : Int) (budget : Nat) (f : ForkServer) :
    LoopReply × ForkServer :=
  let granted : Bool := f.asked < min budget (script.stopAfter.getD defaultStop)
  (⟨granted, if granted then status else 0⟩, { f with asked := f.asked + 1 })

def engine (script : EngineScript) (status : Int) : Engine ForkServer where
  area := ForkServer.area
  publish a f := { f with area := some a }
  retract := retract
  setSharedMemory on f := { f with switch := if on then 1 else 0 }
  sharedSwitch := ForkServer.switch
  storeSwitch word f := { f with switch := word }
  manualInit f := { f with area := script.attach.or f.area }
  loop := loop script status
  setReportFd _ f := (script.report, f)

end ForkServer

end FuzzHarness.Scripted
