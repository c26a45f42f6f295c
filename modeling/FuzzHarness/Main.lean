import FuzzHarness.Boot
import FuzzHarness.Launch

/-!
The demonstration program on a command line. What it finds around it is read into a kernel, the run
is computed there, and what the run wrote is written out.
-/

namespace FuzzHarness.Program

def name : String := "fuzzer"

def consulted : List String :=
  [Settings.dontDeferVariable, Settings.stderrDuplicateVariable, Settings.closeFdMaskVariable,
    Settings.disableInstrumentationVariable, World.filterVariable]

def readEnvironment : IO Environment :=
  consulted.foldlM (fun env variableName => do
    match ← IO.getEnv variableName with
    | some value => pure (env.set (Bytes.ofString variableName) (Bytes.ofString value))
    | none => pure env) []

/-- What a path leads to, as far as a run would read it. Whatever cannot be read counts as a
directory. -/
def readItem? (path : String) : IO (Option FileTree.Item) := do
  match ← (IO.FS.withFile path .read fun file => file.read maxFile.toUSize).toBaseIO with
  | .ok content => pure (some (.file content.toList))
  | .error (.noFileOrDirectory ..) => pure none
  | .error _ => pure (some .directory)

def readFiles (paths : List String) (k : Kernel) : IO Kernel :=
  paths.foldlM (fun k path => do
    match ← readItem? path with
    | some item => pure (k.install (Bytes.ofString path) item)
    | none => pure k) k

partial def readAll (stream : IO.FS.Stream) (done : ByteArray) : IO ByteArray := do
  let more ← stream.read 65536
  if more.isEmpty then pure done else readAll stream (done ++ more)

/-- Standard input, which only a run that loops over it waits for. -/
def readStdin (arguments : List Bytes) : IO StdinSource := do
  match (Mode.read arguments).1 with
  | .ok (.persistent _) => pure (.file (← readAll (← IO.getStdin) ByteArray.empty).toList)
  | _ => pure (.file [])

/-- Writes out what a run wrote: to the standard streams, and to the file that standard error was
appended to. -/
def writeOut (appended : Option String) (before : Kernel) (after : World) : IO Unit := do
  (← IO.getStdout).write ⟨after.printed.toArray⟩
  (← IO.getStderr).write ⟨after.reported.toArray⟩
  match appended with
  | none => pure ()
  | some path =>
    match after.kernel.contentAt? (Bytes.ofString path) with
    | none => pure ()
    | some content =>
      let known := ((before.contentAt? (Bytes.ofString path)).getD []).length
      IO.FS.withFile path .append fun file => file.write ⟨(content.drop known).toArray⟩

def status : Exit → UInt32
  | .status code => code.toUInt32
  | .aborted => 134
  | .tornDown => 137

end FuzzHarness.Program

open FuzzHarness in
def main (words : List String) : IO UInt32 := do
  let appended ← IO.getEnv Settings.stderrDuplicateVariable
  let arguments := (Program.name :: words).map Bytes.ofString
  let world := World.boot (← Program.readEnvironment) none
  let kernel ← Program.readFiles (words ++ appended.toList) world.kernel
  let stdin ← Program.readStdin arguments
  let (exit, s) := Launch.demo arguments Budget.unbounded.count
    (Launch.start { world with kernel } ⟨[]⟩ stdin Standalone.fresh ())
  Program.writeOut appended kernel s.world
  pure (Program.status exit)
