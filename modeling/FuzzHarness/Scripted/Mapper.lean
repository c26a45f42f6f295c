import FuzzHarness.CoverageMap.Backend

/-!
A memory mapper that answers from a script, for rehearsing a harness where no memory is to be
mapped.
-/

namespace FuzzHarness.Scripted

/-- The answers still to be given to requests for memory, and to those for giving it back. -/
structure Mapper where
  maps : List (Except HarnessError Address)
  unmaps : List (Except HarnessError Unit)

namespace Mapper

/-- The next answer to a request for memory; after the script there is no memory left. -/
def nextMap (m : Mapper) : Except HarnessError Address × Mapper :=
  match m.maps with
  | [] => (.error (.map .noMemory), m)
  | answer :: rest => (answer, { m with maps := rest })

/-- The next answer to giving memory back; after the script that always succeeds. -/
def nextUnmap (m : Mapper) : Except HarnessError Unit × Mapper :=
  match m.unmaps with
  | [] => (.ok (), m)
  | answer :: rest => (answer, { m with unmaps := rest })

def backend : MapBackend Mapper where
  map _ _ m := m.nextMap
  unmap _ _ m := m.nextUnmap

end Mapper

end FuzzHarness.Scripted
