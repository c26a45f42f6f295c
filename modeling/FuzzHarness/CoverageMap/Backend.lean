import FuzzHarness.HarnessError

/-!
The memory mapper behind a placeholder coverage map. Nothing is assumed about its answers: they may
depend on every call before.
-/

namespace FuzzHarness

structure MapBackend (β : Type) where
  map : MapStrategy → Nat → β → Except HarnessError Address × β
  unmap : Address → Nat → β → Except HarnessError Unit × β

end FuzzHarness
