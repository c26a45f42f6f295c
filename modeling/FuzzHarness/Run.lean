import FuzzHarness.Loop
import FuzzHarness.Session

/-!
A whole run of a harness: announce deferral, reserve the placeholder map, redirect the streams, set
the target up, settle the mode, hand the address range over to the engine, and run the inputs.

Only a failed redirection and arguments that name no mode end a run with an error, and both do so
before the engine is signalled and before the target sees an input. Everything else that fails is
passed over.
-/

namespace FuzzHarness

/-- The parties of a run and what the operator asks for. -/
structure Harness (β ρ ι τ : Type) where
  backend : MapBackend β
  engine : Engine ρ
  reader : Reader ι
  target : Target τ
  settings : Settings
  streams : StdStreams

/-- What a run changes. -/
structure RunState (β ρ ι τ : Type) where
  session : Session β ρ
  reader : ι
  invoker : Invoker τ

structure Summary where
  mode : Mode
  executions : Nat
  deferredSignaled : Bool
  deriving DecidableEq, Repr

inductive Verdict where
  | returned (result : Except HarnessError Summary)
  | aborted
  | tornDown

/-- What a run says about itself at its start. -/
def banner (program : String) : String :=
  "======================= INFO =========================\n" ++
  "This binary is built for afl++.\n" ++
  "To run the target function on individual input(s) execute this:\n" ++
  "  " ++ program ++ " INPUT_FILE1 [INPUT_FILE2 ... ]\n" ++
  "To fuzz with afl-fuzz execute this:\n" ++
  "  afl-fuzz [afl-flags] -- " ++ program ++ " [-N]\n" ++
  "afl-fuzz will run N iterations before re-spawning the process (default: " ++
  toString Budget.unbounded.count ++ ")\n" ++
  "======================================================\n"

def readingLine (path data : Bytes) : String :=
  "Reading " ++ toString data.length ++ " bytes from " ++ Text.lossy path ++ "\n"

def executedLine : String := "Execution successful.\n"

/-- What a run says about itself at its end. -/
def closingLine (program : String) : String :=
  program ++ ": successfully executed input(s)\n"

namespace RunState

variable {β ρ ι τ : Type}

def world (s : RunState β ρ ι τ) : World :=
  s.session.world

def setWorld (s : RunState β ρ ι τ) (w : World) : RunState β ρ ι τ :=
  { s with session := { s.session with world := w } }

def print (s : RunState β ρ ι τ) (text : String) : RunState β ρ ι τ :=
  s.setWorld (s.world.print text)

def log (s : RunState β ρ ι τ) (n : Notice) : RunState β ρ ι τ :=
  s.setWorld (s.world.log n)

def area (h : Harness β ρ ι τ) (s : RunState β ρ ι τ) : Option Address :=
  h.engine.area s.session.engine

def startUp (h : Harness β ρ ι τ) (s : RunState β ρ ι τ) :
    Except HarnessError Unit × RunState β ρ ι τ :=
  let s := { s with session := { s.session with deferral := .of h.settings.dontDefer } }
  match s.session.prepare with
  | (.error e, session) => (.error e, { s with session })
  | (.ok (), session) =>
    let (_, session) := session.reserve h.backend h.engine
    (.ok (), { s with session }.log (.placeholderAt session.map.pointer))

def pointReports (h : Harness β ρ ι τ) (fd : Fd) (s : RunState β ρ ι τ) : RunState β ρ ι τ :=
  let (report, engine) := h.engine.setReportFd fd s.session.engine
  let world := s.world.record (.reportFd fd report.isSome)
  let world := match report with
    | some text => world.write fd text .reports
    | none => world.log .noReportHook
  { s with session := { s.session with world, engine } }

/-- Redirects the standard streams and lets diagnostics follow if they were given a descriptor of
their own. -/
def redirect (h : Harness β ρ ι τ) (s : RunState β ρ ι τ) :
    Except HarnessError Unit × RunState β ρ ι τ :=
  match Redirection.apply h.streams h.settings.policy s.world with
  | (.error e, w) => (.error e, s.setWorld w)
  | (.ok diagnostics, w) =>
    if diagnostics.duplicated then
      (.ok (), (s.setWorld (w.setDiagnostic diagnostics.fd)).pointReports h diagnostics.fd)
    else (.ok (), s.setWorld w)

def setUp (h : Harness β ρ ι τ) (arguments : List Bytes) (s : RunState β ρ ι τ) :
    List Bytes × RunState β ρ ι τ :=
  let (result, invoker, world) := s.invoker.setup h.target arguments s.world
  let s := { s with invoker }.setWorld world
  match result.stored with
  | none => (result.arguments, s)
  | some word =>
    (result.arguments,
      { s with session := { s.session with engine := h.engine.storeSwitch word s.session.engine } })

def complete (h : Harness β ρ ι τ) (s : RunState β ρ ι τ) : RunState β ρ ι τ :=
  { s with session := s.session.complete h.backend h.engine }

def disableSharedMemory (h : Harness β ρ ι τ) (s : RunState β ρ ι τ) : RunState β ρ ι τ :=
  let world := s.world.record (.sharedMemory false)
  { s with
    session := { s.session with world, engine := h.engine.setSharedMemory false s.session.engine } }

def invoke (h : Harness β ρ ι τ) (data : Bytes) (s : RunState β ρ ι τ) :
    Survival × RunState β ρ ι τ :=
  let (survival, invoker, world) := s.invoker.invoke h.target (s.area h) data s.world
  (survival, { s with invoker }.setWorld world)

/-- Runs every file that is not skipped once, in order. -/
def runFiles (h : Harness β ρ ι τ) : List Bytes → RunState β ρ ι τ → Survival × RunState β ρ ι τ
  | [], s => (.alive, s)
  | path :: rest, s =>
    match BatchFiles.readInput path s.world with
    | (none, w) => runFiles h rest (s.setWorld w)
    | (some data, w) =>
      match ((s.setWorld w).print (readingLine path data)).invoke h data with
      | (.aborted, s) => (.aborted, s)
      | (.alive, s) => runFiles h rest (s.print executedLine)

def warmUp (h : Harness β ρ ι τ) (s : RunState β ρ ι τ) : Survival × RunState β ρ ι τ :=
  let (_, survival, invoker, world) := s.invoker.warmUp h.target (s.area h) s.world
  (survival, { s with invoker }.setWorld world)

def runLoop (h : Harness β ρ ι τ) (budget : Budget) (lifespan : Nat) (s : RunState β ρ ι τ) :
    LoopEnd × RunState β ρ ι τ :=
  let loop : LoopState ρ ι τ := {
    world := s.world
    engine := s.session.engine
    inputs := .stream ⟨s.reader, streamCapacity⟩
    invoker := s.invoker }
  let (ending, loop) := loop.run h.engine h.reader h.target budget.count lifespan
  let reader := match loop.inputs with
    | .stream input => input.reader
    | .batch _ => s.reader
  (ending,
    { session := { s.session with world := loop.world, engine := loop.engine }
      reader
      invoker := loop.invoker })

/-- The batch mode: shared memory is off, the handshake comes before the first file. -/
def runBatch (h : Harness β ρ ι τ) (paths : List Bytes) (s : RunState β ρ ι τ) :
    LoopEnd × RunState β ρ ι τ :=
  match ((s.disableSharedMemory h).complete h).runFiles h paths with
  | (.aborted, s) => (.aborted, s)
  | (.alive, s) => (.refused, s)

/-- The persistent mode: the handshake, unless instrumentation is disabled, then the warm-up, then
the loop. -/
def runPersistent (h : Harness β ρ ι τ) (budget : Budget) (lifespan : Nat) (s : RunState β ρ ι τ) :
    LoopEnd × RunState β ρ ι τ :=
  let s :=
    if h.settings.disableInstrumentation then s.log .instrumentationDisabled else s.complete h
  match (s.log (.placeholderNow s.session.map.pointer)).warmUp h with
  | (.aborted, s) => (.aborted, s)
  | (.alive, s) => s.runLoop h budget lifespan

def runInputs (h : Harness β ρ ι τ) (mode : Mode) (lifespan : Nat) (s : RunState β ρ ι τ) :
    LoopEnd × RunState β ρ ι τ :=
  match mode with
  | .batch paths => s.runBatch h paths
  | .persistent budget => s.runPersistent h budget lifespan

def runMode (h : Harness β ρ ι τ) (program : String) (mode : Mode) (lifespan : Nat)
    (s : RunState β ρ ι τ) :
    Verdict × RunState β ρ ι τ :=
  match s.runInputs h mode lifespan with
  | (.aborted, s) => (.aborted, s)
  | (.tornDown, s) => (.tornDown, s)
  | (.refused, s) =>
    let s := s.print (closingLine program)
    (.returned (.ok ⟨mode, s.invoker.executions, s.session.deferral.signaled⟩), s)

/-- Everything before the inputs: start-up, the banner, the redirection, the target's set-up and the
mode. -/
def settle (h : Harness β ρ ι τ) (arguments : List Bytes) (s : RunState β ρ ι τ) :
    Except HarnessError Mode × RunState β ρ ι τ :=
  match s.startUp h with
  | (.error e, s) => (.error e, s)
  | (.ok (), s) =>
    match (s.print (banner (Mode.programName arguments))).redirect h with
    | (.error e, s) => (.error e, s)
    | (.ok (), s) =>
      let (arguments, s) := s.setUp h arguments
      let (mode, w) := Mode.resolve arguments s.world
      (mode, s.setWorld w)

/-- A whole run with these arguments, the program's name first. -/
def run (h : Harness β ρ ι τ) (arguments : List Bytes) (lifespan : Nat) (s : RunState β ρ ι τ) :
    Verdict × RunState β ρ ι τ :=
  match s.settle h arguments with
  | (.error e, s) => (.returned (.error e), s)
  | (.ok mode, s) => s.runMode h (Mode.programName arguments) mode lifespan

end RunState

end FuzzHarness
