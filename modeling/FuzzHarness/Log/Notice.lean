import FuzzHarness.HarnessError
import FuzzHarness.Log.Filter

/-!
The diagnostics of a harness: what it has to say, and the line it says it in.
-/

namespace FuzzHarness

inductive Notice where
  | deferredMode (on : Bool)
  | mapReserved (strategy : MapStrategy) (region : Address)
  | mapStrategyFailed (strategy : MapStrategy) (cause : HarnessError)
  | mapUnavailable
  | mapAlreadyReleased
  | unmapFailed (region : Address) (cause : HarnessError)
  | placeholderAt (pointer : Address)
  | placeholderNow (pointer : Address)
  | instrumentationDisabled
  | noReportHook
  | stderrAppends (path : Bytes)
  | emptyInput (path : Bytes)
  | unreadableInput (path : Bytes) (cause : IoError)
  | streamReadFailed (cause : IoError)
  | deprecatedStyle (program : String) (budget : Nat)
  | setupRunning
  | setupDone
  | noSetupHook
  | plantedBug
  deriving DecidableEq, Repr

namespace Notice

def level : Notice → Log.Level
  | .deferredMode _ | .mapReserved _ _ | .mapStrategyFailed _ _ | .noReportHook | .stderrAppends _
      | .emptyInput _
  | .unreadableInput _ _ | .streamReadFailed _ => .debug
  | .placeholderAt _ | .placeholderNow _ | .instrumentationDisabled | .setupRunning | .setupDone
  | .noSetupHook => .info
  | .mapUnavailable | .mapAlreadyReleased | .unmapFailed _ _ | .deprecatedStyle _ _ => .warn
  | .plantedBug => .error

def origin : Notice → String
  | .deferredMode _ => "aflpp_driver::deferred"
  | .mapReserved _ _ | .mapStrategyFailed _ _ | .mapUnavailable | .mapAlreadyReleased
  | .unmapFailed _ _ => "aflpp_driver::coverage_map"
  | .placeholderAt _ | .placeholderNow _ | .instrumentationDisabled | .noReportHook =>
      "aflpp_driver::driver"
  | .stderrAppends _ => "aflpp_driver::redirect"
  | .emptyInput _ | .unreadableInput _ _ | .streamReadFailed _ => "aflpp_driver::input"
  | .deprecatedStyle _ _ => "aflpp_driver::persistent"
  | .setupRunning | .setupDone => "aflpp_driver::targets"
  | .noSetupHook => "aflpp_driver::ffi"
  | .plantedBug => "fuzzer"

def text : Notice → String
  | .deferredMode on => "deferred forkserver mode: " ++ toString on
  | .mapReserved strategy a =>
      "placeholder map reserved with " ++ strategy.describe ++ " at " ++ Text.hex a
  | .mapStrategyFailed strategy cause =>
    "placeholder map strategy " ++ strategy.describe ++ " failed: " ++ cause.message
  | .mapUnavailable => "could not reserve a placeholder coverage map"
  | .mapAlreadyReleased => "coverage map already released to the engine, not reserving again"
  | .unmapFailed a cause =>
      "failed to unmap placeholder map at " ++ Text.hex a ++ ": " ++ cause.message
  | .placeholderAt pointer => "dummy map is at " ++ Text.hex pointer
  | .placeholderNow pointer => "dummy map is now at " ++ Text.hex pointer
  | .instrumentationDisabled => "instrumentation disabled, keeping the placeholder map"
  | .noReportHook => "no sanitizer report hook linked"
  | .stderrAppends path => "stderr now appends to " ++ Text.lossy path
  | .emptyInput path => "skipping empty input " ++ Text.lossy path
  | .unreadableInput path cause =>
      "skipping unreadable input " ++ Text.lossy path ++ ": " ++ cause.message
  | .streamReadFailed cause => "input stream read failed: " ++ cause.message
  | .deprecatedStyle program budget =>
    "using the deprecated call style `" ++ program ++ " " ++ toString budget ++ "`"
  | .setupRunning => "Running LLVMFuzzerInitialize ..."
  | .setupDone => "continue..."
  | .noSetupHook => "no LLVMFuzzerInitialize linked, skipping one-time setup"
  | .plantedBug => "planted bug reached"

/-- A text whose further lines are set in by four blanks. -/
def indent (s : String) : String :=
  String.ofList (s.toList.flatMap fun c => if c = '\n' then ['\n', ' ', ' ', ' ', ' '] else [c])

def line (n : Notice) : String :=
  "[" ++ n.level.label ++ " " ++ n.origin ++ "] " ++ indent n.text ++ "\n"

end Notice

end FuzzHarness
