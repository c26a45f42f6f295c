import FuzzHarness.Event
import FuzzHarness.Log.Notice

/-!
The state a harness shares with everything else in its process: the operating system, the descriptor
that its diagnostics go to, the filter they pass, the trace so far and the output so far.
-/

namespace FuzzHarness

inductive Writer where
  | harness
  | diagnostics
  | reports
  | target
  deriving DecidableEq, Repr

structure Output where
  writer : Writer
  fd : Fd
  data : Bytes
  deriving DecidableEq, Repr

/-- Events and outputs are held latest first. Without a filter no diagnostics are written. -/
structure World where
  kernel : Kernel
  diagnostic : Fd
  filter : Option Log.Filter
  past : List Event
  sent : List Output

namespace World

def trace (w : World) : List Event :=
  w.past.reverse

def output (w : World) : List Output :=
  w.sent.reverse

def record (w : World) (e : Event) : World :=
  { w with past := e :: w.past }

@[simp] theorem trace_record (w : World) (e : Event) : (w.record e).trace = w.trace ++ [e] := by
  simp [trace, record]

@[simp] theorem kernel_record (w : World) (e : Event) : (w.record e).kernel = w.kernel := rfl

/-- Writes bytes to a descriptor, for the target unless another writer is named; a failing write is
not noticed. -/
def write (w : World) (fd : Fd) (data : Bytes) (writer : Writer := .target) : World :=
  { w with kernel := (w.kernel.write fd data).2, sent := ⟨writer, fd, data⟩ :: w.sent }

@[simp] theorem trace_write (w : World) (fd : Fd) (data : Bytes) (writer : Writer) :
    (w.write fd data writer).trace = w.trace := rfl

@[simp] theorem output_write (w : World) (fd : Fd) (data : Bytes) (writer : Writer) :
    (w.write fd data writer).output = w.output ++ [⟨writer, fd, data⟩] := by
  simp [output, write]

def print (w : World) (s : String) : World :=
  w.write 1 (Bytes.ofString s) .harness

def setDiagnostic (w : World) (fd : Fd) : World :=
  { w with diagnostic := fd }

def diagnose (w : World) (s : String) : World :=
  w.write w.diagnostic (Bytes.ofString s) .diagnostics

def allows (w : World) (n : Notice) : Bool :=
  match w.filter with
  | some f => f.allows n.level n.origin n.text
  | none => false

/-- Writes a notice to the diagnostic descriptor if it passes the filter. -/
def log (w : World) (n : Notice) : World :=
  if w.allows n then w.diagnose n.line else w

@[simp] theorem trace_log (w : World) (n : Notice) : (w.log n).trace = w.trace := by
  unfold log diagnose
  split <;> rfl

@[simp] theorem diagnostic_log (w : World) (n : Notice) : (w.log n).diagnostic = w.diagnostic := by
  unfold log diagnose
  split <;> rfl

def filterVariable : String := "RUST_LOG"

/-- The filter when the variable is not set or holds no text. -/
def defaultFilter : String := "info"

/-- Reads the filter of the diagnostics from the environment, says on standard error what is wrong
with it, and installs it unless there is one. -/
def startLog (w : World) : World :=
  let value := (w.kernel.environment.get? (Bytes.ofString filterVariable)).bind fun bytes =>
    String.fromUTF8? ⟨bytes.toArray⟩
  let (filter, complaints) := Log.Filter.parse (value.getD defaultFilter)
  let complain := fun (w : World) (c : Log.Complaint) =>
    w.write 2 (Bytes.ofString (c.message ++ "\n")) .diagnostics
  { complaints.foldl complain w with filter := some (w.filter.getD filter) }

end World

end FuzzHarness
