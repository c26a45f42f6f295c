import FuzzHarness.CoverageMap.Strategy
import FuzzHarness.Kernel.IoError
import FuzzHarness.Text.Lossy
import FuzzHarness.Text.Numeral

/-!
What can go wrong with a harness for good: broken plumbing of the standard streams, an environment
that cannot be changed, a refused mapping, an argument that is no budget. An unreadable input is
none of these.
-/

namespace FuzzHarness

inductive HarnessError where
  | stderrDuplicate (path : Bytes) (cause : IoError)
  | nullSink (cause : IoError)
  | descriptor (operation : String) (cause : IoError)
  | environment (action name : String) (cause : IoError)
  | map (errno : Errno)
  | mapMisplaced (expected actual : Address)
  | invalidBudget (argument : String)
  deriving DecidableEq, Repr

namespace HarnessError

def descriptorText (operation : String) (cause : IoError) : String :=
  "OS error: " ++ operation ++ ": " ++ cause.message

def message : HarnessError → String
  | .stderrDuplicate path cause =>
      "failed to duplicate stderr to " ++ Text.lossy path ++ ": " ++ cause.message
  | .nullSink cause => "failed to open the null sink: " ++ cause.message
  | .descriptor operation cause => "descriptor operation failed: " ++ descriptorText operation cause
  | .environment action name cause => "failed to " ++ action ++ " " ++ name ++ ": " ++ cause.message
  | .map errno => "mapping the placeholder coverage map failed: " ++ errno.symbolic
  | .mapMisplaced expected actual =>
    "placeholder map landed at " ++ Text.hex actual ++ " instead of " ++ Text.hex expected
  | .invalidBudget argument =>
      "invalid iteration budget `" ++ argument ++ "`: must be a positive integer"

def source? : HarnessError → Option String
  | .stderrDuplicate _ cause => some cause.message
  | .nullSink cause => some cause.message
  | .descriptor operation cause => some (descriptorText operation cause)
  | .environment _ _ cause => some cause.message
  | .map errno => some errno.symbolic
  | .mapMisplaced _ _ => none
  | .invalidBudget _ => none

end HarnessError

end FuzzHarness
