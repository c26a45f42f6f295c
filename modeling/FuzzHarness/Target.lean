import FuzzHarness.World

/-!
The code under test, and the one place where it is called.

A target is invoked with an input and reacts: it writes to descriptors, it may leave a notice, and
it may abort the process. Before the first input it may have a set-up hook, which sees the arguments
and can change them, either as a list or as the null-terminated vector and count of a C program.
-/

namespace FuzzHarness

/-- An argument vector and the count that comes with it. A missing entry is a null pointer, which
ends the vector. -/
structure ArgVector where
  count : Int
  entries : List (Option Bytes)
  deriving DecidableEq, Repr

namespace ArgVector

def maxCount : Nat := 0x7FFFFFFF

/-- The vector of a list of arguments. An argument with a NUL byte cannot be represented and is left
out. -/
def ofArguments (arguments : List Bytes) : ArgVector :=
  let kept := arguments.filter fun a => !a.hasNul
  ⟨(min kept.length maxCount : Nat), kept.map some ++ [none]⟩

def beforeNull : List (Option Bytes) → List Bytes
  | some a :: rest => a :: beforeNull rest
  | _ => []

/-- The arguments a vector holds: so many as the count says, but none behind a null pointer. -/
def arguments (v : ArgVector) : List Bytes :=
  (beforeNull (v.entries.take v.count.toNat)).map Bytes.beforeNul

end ArgVector

structure HookReply where
  vector : ArgVector
  stored : Option Int
  status : Int

inductive SetupHook (τ : Type) where
  | list (run : List Bytes → τ → List Bytes × τ)
  | vector (run : ArgVector → τ → HookReply × τ)

inductive Effect where
  | write (fd : Fd) (data : Bytes)
  | log (notice : Notice)

structure Reaction where
  effects : List Effect
  aborts : Bool
  status : Int

structure Target (τ : Type) where
  setup : Option (SetupHook τ)
  react : Bytes → τ → Reaction × τ

def warmUpInput : Bytes := Bytes.ofString "#"

/-- What a target is told that asks for a mutated input: there is none. -/
def mutatedSize : Nat := 0

namespace World

def perform (w : World) : Effect → World
  | .write fd data => w.write fd data
  | .log notice => w.log notice

end World

structure Invoker (τ : Type) where
  target : τ
  warmedUp : Bool
  executions : Nat

/-- Whether the process lives on after a call into the target. -/
inductive Survival where
  | alive
  | aborted
  deriving DecidableEq, Repr

namespace Invoker

variable {τ : Type}

def fresh (target : τ) : Invoker τ :=
  ⟨target, false, 0⟩

def call (T : Target τ) (area : Option Address) (data : Bytes) (i : Invoker τ) (w : World) :
    Survival × Invoker τ × World :=
  let (reaction, target) := T.react data i.target
  let w := reaction.effects.foldl World.perform (w.record (.invoke data area))
  (if reaction.aborts then .aborted else .alive, { i with target }, w)

/-- Calls the target with an input and counts the call. -/
def invoke (T : Target τ) (area : Option Address) (data : Bytes) (i : Invoker τ) (w : World) :
    Survival × Invoker τ × World :=
  match i.call T area data w with
  | (.alive, i, w) => (.alive, { i with executions := i.executions + 1 }, w)
  | (.aborted, i, w) => (.aborted, i, w)

/-- Lets the target do its lazy set-up on an input that does not count; only the first time. Also
answers whether the target was called. -/
def warmUp (T : Target τ) (area : Option Address) (i : Invoker τ) (w : World) :
    Bool × Survival × Invoker τ × World :=
  if i.warmedUp then (false, .alive, i, w)
  else (true, { i with warmedUp := true }.call T area warmUpInput w)

/-- What set-up leaves: the arguments, and a word stored in the exported shared-memory switch. -/
structure SetupResult where
  arguments : List Bytes
  stored : Option Int

def setup (T : Target τ) (arguments : List Bytes) (i : Invoker τ) (w : World) :
    SetupResult × Invoker τ × World :=
  match T.setup with
  | none => (⟨arguments, none⟩, i, w)
  | some (.list run) =>
    let w := w.record (.setup arguments.length arguments)
    let (arguments, target) := run arguments i.target
    (⟨arguments, none⟩, { i with target }, w)
  | some (.vector run) =>
    let vector := ArgVector.ofArguments arguments
    let w :=
      (w.log .setupRunning).record (.setup vector.count (ArgVector.beforeNull vector.entries))
    let (reply, target) := run vector i.target
    (⟨reply.vector.arguments, reply.stored⟩, { i with target }, w.log .setupDone)

end Invoker

end FuzzHarness
