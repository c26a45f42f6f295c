import FuzzHarness.World

/-!
Where inputs come from: a list of files, each read once, or a stream, read once per input.

A file that cannot be read or is empty is skipped. A stream never ends: a read that gives nothing or
fails is an iteration without an input.
-/

namespace FuzzHarness

inductive Pull where
  | input (data : Bytes)
  | file (path : Bytes) (data : Bytes)
  | empty
  | exhausted
  deriving DecidableEq, Repr

def Pull.data? : Pull → Option Bytes
  | .input data | .file _ data => some data
  | .empty | .exhausted => none

def maxFile : Nat := 1024 * 1024

def streamCapacity : Nat := 1024000

structure BatchFiles where
  remaining : List Bytes
  deriving DecidableEq, Repr

namespace BatchFiles

def readInput (path : Bytes) (w : World) : Option Bytes × World :=
  match w.kernel.readPath path maxFile with
  | (.ok [], kernel) => (none, { w with kernel }.log (.emptyInput path))
  | (.ok data, kernel) => (some data, { w with kernel })
  | (.error e, kernel) => (none, { w with kernel }.log (.unreadableInput path e))

/-- The first of some paths that is not skipped, with what it holds, and the paths after it. -/
def firstReadable : List Bytes → World → Option (Bytes × Bytes) × List Bytes × World
  | [], w => (none, [], w)
  | path :: rest, w =>
    match readInput path w with
    | (some data, w) => (some (path, data), rest, w)
    | (none, w) => firstReadable rest w

def nextFile (f : BatchFiles) (w : World) : Option (Bytes × Bytes) × BatchFiles × World :=
  let (found, remaining, w) := firstReadable f.remaining w
  (found, ⟨remaining⟩, w)

def pull (f : BatchFiles) (w : World) : Pull × BatchFiles × World :=
  match f.nextFile w with
  | (some (path, data), f, w) => (.file path data, f, w)
  | (none, f, w) => (.exhausted, f, w)

end BatchFiles

/-- The stream that the engine provides. A read never gives more bytes than it was asked for. -/
structure Reader (ι : Type) where
  read : Nat → ι → Except IoError Bytes × ι
  length_le : ∀ {n s data s'}, read n s = (.ok data, s') → data.length ≤ n

structure StreamInput (ι : Type) where
  reader : ι
  capacity : Nat

namespace StreamInput

variable {ι : Type}

/-- One read of the stream. Only a failure that is no mere interruption is worth a notice. -/
def pull (R : Reader ι) (s : StreamInput ι) (w : World) : Pull × StreamInput ι × World :=
  let (result, reader) := R.read s.capacity s.reader
  let s := { s with reader }
  let w := w.record (.read s.capacity result)
  match result with
  | .ok [] => (.empty, s, w)
  | .ok data => (.input data, s, w)
  | .error e => (.empty, s, if e.isInterruption then w else w.log (.streamReadFailed e))

end StreamInput

inductive Dispatcher (ι : Type) where
  | batch (files : BatchFiles)
  | stream (input : StreamInput ι)

namespace Dispatcher

variable {ι : Type}

def next (R : Reader ι) (d : Dispatcher ι) (w : World) : Pull × Dispatcher ι × World :=
  match d with
  | .batch files =>
    let (pull, files, w) := files.pull w
    (pull, .batch files, w)
  | .stream input =>
    let (pull, input, w) := input.pull R w
    (pull, .stream input, w)

end Dispatcher

/-- What standard input refers to when a process starts. -/
inductive StdinSource where
  | file (rest : Bytes)
  | directory
  deriving DecidableEq, Repr

namespace StdinSource

def read (n : Nat) : StdinSource → Except IoError Bytes × StdinSource
  | .file rest => (.ok (rest.take n), .file (rest.drop n))
  | .directory => (.error (.os .isDirectory), .directory)

def reader : Reader StdinSource where
  read := read
  length_le := by
    intro n s data s' h
    cases s with
    | file rest =>
        simp only [read, Prod.mk.injEq, Except.ok.injEq] at h
        rw [← h.1]
        exact List.length_take_le n rest
    | directory => simp [read] at h

end StdinSource

end FuzzHarness
