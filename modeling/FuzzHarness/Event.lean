import FuzzHarness.CoverageMap.Strategy
import FuzzHarness.Kernel.Descriptor

/-!
The trace of a harness: every call across its boundary, in order. The parties beyond the boundary
are the memory mapper, the fuzzing engine, the input stream and the target.
-/

namespace FuzzHarness

/-- Whether the engine counts an iteration, and the status word that it answers with: the harness
goes on exactly on a non-zero one. -/
structure LoopReply where
  granted : Bool
  status : Int
  deriving DecidableEq, Repr

namespace LoopReply

def proceeds (r : LoopReply) : Bool :=
  r.status ≠ 0

def ofBool (granted : Bool) : LoopReply :=
  ⟨granted, if granted then 1 else 0⟩

theorem proceeds_ofBool (b : Bool) : (ofBool b).proceeds = b := by
  cases b <;> rfl

end LoopReply

/-- A call across the boundary. The signal that set-up is complete comes with what the engine finds
at that moment: the coverage pointer, the exported shared-memory switch and the announcement in the
environment. -/
inductive Event where
  | map (strategy : MapStrategy) (size : Nat) (result : Option Address)
  | unmap (region : Address) (size : Nat) (ok : Bool)
  | publish (area : Address)
  | retract (area : Address)
  | sharedMemory (on : Bool)
  | manualInit (area : Option Address) (sharedSwitch : Int) (announced : Option Bytes)
  | loop (budget : Nat) (reply : LoopReply)
  | reportFd (fd : Fd) (linked : Bool)
  | setup (count : Int) (arguments : List Bytes)
  | invoke (data : Bytes) (area : Option Address)
  | read (capacity : Nat) (result : Except IoError Bytes)

end FuzzHarness
