import FuzzHarness.CoverageMap.AddressSpace
import FuzzHarness.Run

/-!
Programs built around a harness: how a process starts one and how it ends.

A linked fuzz target starts with the argument vector of the C runtime and its settings in the
environment; a fatal error is reported on the diagnostic descriptor and aborts the process. The
demonstration program needs no engine and holds a planted bug.
-/

namespace FuzzHarness

inductive Exit where
  | status (code : Nat)
  | aborted
  | tornDown
  deriving DecidableEq, Repr

namespace Settings

def ofEnvironment (env : Environment) : Settings :=
  ofLookup fun name => env.get? (Bytes.ofString name)

end Settings

def fatalLine (e : HarnessError) : String :=
  "aflpp_driver: fatal: " ++ e.message ++ "\n"

namespace Launch

variable {ρ τ : Type}

/-- The state of a process whose harness uses anonymous memory and the process's standard input. -/
abbrev State (ρ τ : Type) := RunState AddressSpace ρ StdinSource τ

def start (world : World) (space : AddressSpace) (stdin : StdinSource) (engine : ρ) (target : τ) :
    State ρ τ where
  session := {
    world
    backend := space
    engine
    map := CoverageMap.fresh Layout.default
    deferral := Deferral.of false }
  reader := stdin
  invoker := Invoker.fresh target

def harness (E : Engine ρ) (T : Target τ) (settings : Settings) :
    Harness AddressSpace ρ StdinSource τ where
  backend := AddressSpace.backend
  engine := E
  reader := StdinSource.reader
  target := T
  settings
  streams := StdStreams.default

/-- Ends a process by what its run came to; a fatal error is reported first. -/
def conclude : Verdict × State ρ τ → Exit × State ρ τ
  | (.returned (.ok _), s) => (.status 0, s)
  | (.returned (.error e), s) => (.aborted, s.setWorld (s.world.diagnose (fatalLine e)))
  | (.aborted, s) => (.aborted, s)
  | (.tornDown, s) => (.tornDown, s)

def run (E : Engine ρ) (T : Target τ) (arguments : List Bytes) (lifespan : Nat) (s : State ρ τ) :
    Exit × State ρ τ :=
  let h := harness E T (Settings.ofEnvironment s.world.kernel.environment)
  conclude (s.run h arguments lifespan)

def linked (E : Engine ρ) (T : Target τ) (vector : ArgVector) (lifespan : Nat) (s : State ρ τ) :
    Exit × State ρ τ :=
  let s := s.setWorld s.world.startLog
  let s := if T.setup.isNone then s.log .noSetupHook else s
  run E T vector.arguments lifespan s

def plantedBug : Bytes := Bytes.ofString "HI!"

/-- The demonstration target: it has no set-up and aborts on inputs that begin with the planted
bug. -/
def demoTarget : Target Unit where
  setup := none
  react data _ :=
    if plantedBug.isPrefixOf data then (⟨[.log .plantedBug], true, 0⟩, ()) else (⟨[], false, 0⟩, ())

def demo (arguments : List Bytes) (lifespan : Nat) (s : State Standalone Unit) :
    Exit × State Standalone Unit :=
  run Standalone.engine demoTarget arguments lifespan (s.setWorld s.world.startLog)

end Launch

end FuzzHarness
