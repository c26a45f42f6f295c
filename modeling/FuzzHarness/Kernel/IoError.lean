import FuzzHarness.Kernel.Errno

/-!
Errors of input and output: an error number of the operating system, a bare kind, or a kind with a
text of its own.
-/

namespace FuzzHarness

inductive IoKind where
  | notFound
  | permissionDenied
  | brokenPipe
  | interrupted
  | wouldBlock
  | invalidInput
  | invalidData
  | timedOut
  | unexpectedEof
  | other
  deriving DecidableEq, Repr

def IoKind.description : IoKind → String
  | .notFound => "entity not found"
  | .permissionDenied => "permission denied"
  | .brokenPipe => "broken pipe"
  | .interrupted => "operation interrupted"
  | .wouldBlock => "operation would block"
  | .invalidInput => "invalid input parameter"
  | .invalidData => "invalid data"
  | .timedOut => "timed out"
  | .unexpectedEof => "unexpected end of file"
  | .other => "other error"

inductive IoError where
  | os (errno : Errno)
  | bare (kind : IoKind)
  | custom (kind : IoKind) (text : String)
  deriving DecidableEq, Repr

namespace IoError

def message : IoError → String
  | .os e => e.description ++ " (os error " ++ toString e.number ++ ")"
  | .bare k => k.description
  | .custom _ text => text

/-- Whether the operation was merely cut short by a signal and may be tried again. -/
def isInterruption : IoError → Bool
  | .os e => e = .interrupted
  | .bare k => k = .interrupted
  | .custom k _ => k = .interrupted

/-- A path with a NUL byte never reaches the operating system. -/
def nulInPath : IoError :=
  .custom .invalidInput "file name contained an unexpected NUL byte"

end IoError

end FuzzHarness
