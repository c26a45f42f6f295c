import FuzzHarness.Text.Lossy
import FuzzHarness.Text.Numeral

/-!
What the operator asks for in environment variables, and how the target's standard streams are then
redirected.
-/

namespace FuzzHarness

structure RedirectionPolicy where
  stderrDuplicate : Option Bytes
  discardStdout : Bool
  discardStderr : Bool
  deriving DecidableEq, Repr

structure Settings where
  dontDefer : Bool
  stderrDuplicate : Option Bytes
  closeFdMask : Option String
  disableInstrumentation : Bool
  deriving DecidableEq, Repr

namespace Settings

def dontDeferVariable : String := "AFL_DRIVER_DONT_DEFER"

def stderrDuplicateVariable : String := "AFL_DRIVER_STDERR_DUPLICATE_FILENAME"

def closeFdMaskVariable : String := "AFL_DRIVER_CLOSE_FD_MASK"

def disableInstrumentationVariable : String := "AFL_DISABLE_LLVM_INSTRUMENTATION"

def default : Settings :=
  ⟨false, none, none, false⟩

/-- The settings that a look-up of variables gives. Two of them only have to be set, whatever their
value. -/
def ofLookup (lookup : String → Option Bytes) : Settings where
  dontDefer := (lookup dontDeferVariable).isSome
  stderrDuplicate := lookup stderrDuplicateVariable
  closeFdMask := (lookup closeFdMaskVariable).map Text.lossy
  disableInstrumentation := (lookup disableInstrumentationVariable).isSome

def mask (s : Settings) : Int :=
  match s.closeFdMask with
  | some text => Text.leadingInteger text.toList
  | none => 0

/-- A bit of an integer in two's complement. -/
def maskBit (mask : Int) (i : Nat) : Bool :=
  (mask >>> i) % 2 = 1

def policy (s : Settings) : RedirectionPolicy where
  stderrDuplicate := s.stderrDuplicate
  discardStdout := maskBit s.mask 0
  discardStderr := maskBit s.mask 1

end Settings

end FuzzHarness
