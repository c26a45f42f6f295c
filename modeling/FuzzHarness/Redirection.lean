import FuzzHarness.Settings
import FuzzHarness.World

/-!
Redirection of the standard streams. The target's output is kept away from the engine, while the
harness keeps a descriptor for its own diagnostics. The steps come in a fixed order and the first
that fails ends the redirection, with everything before it in place.
-/

namespace FuzzHarness

/-- The descriptors that are treated as standard output and standard error. -/
structure StdStreams where
  stdout : Fd
  stderr : Fd
  deriving DecidableEq, Repr

def StdStreams.default : StdStreams :=
  ⟨1, 2⟩

/-- Where diagnostics should go after a redirection. -/
structure DiagnosticStream where
  fd : Fd
  duplicated : Bool
  deriving DecidableEq, Repr

namespace Redirection

def nullSink : Bytes := Bytes.ofString "/dev/null"

def putOnto (fd onto : Fd) (w : World) : Except HarnessError Unit × World :=
  match w.kernel.duplicateOnto fd onto with
  | (.ok (), kernel) => (.ok (), { w with kernel })
  | (.error e, kernel) =>
    (.error (.descriptor ("Error calling dup2(" ++ toString fd ++ ", " ++ toString onto ++ ")")
      (.os e)),
      { w with kernel })

def close (fd : Fd) (w : World) : World :=
  { w with kernel := w.kernel.close fd }

def appendTo (path : Bytes) (stderr : Fd) (w : World) : Except HarnessError Unit × World :=
  match w.kernel.openPath path .append with
  | (.error e, kernel) => (.error (.stderrDuplicate path e), { w with kernel })
  | (.ok file, kernel) =>
    match putOnto file stderr { w with kernel } with
    | (.error e, w) => (.error e, close file w)
    | (.ok (), w) => (.ok (), close file (w.log (.stderrAppends path)))

def discard (fd : Fd) (w : World) : Except HarnessError Unit × World :=
  match w.kernel.openPath nullSink .write with
  | (.error e, kernel) => (.error (.nullSink e), { w with kernel })
  | (.ok sink, kernel) =>
    let (result, w) := putOnto sink fd { w with kernel }
    (result, close sink w)

def keep (stderr : Fd) (w : World) : Except HarnessError Fd × World :=
  match w.kernel.duplicate stderr with
  | (.ok fd, kernel) => (.ok fd, { w with kernel })
  | (.error e, kernel) =>
    (.error (.descriptor ("Error calling dup(" ++ toString stderr ++ ")") (.os e)),
      { w with kernel })

def keepAndDiscard (stderr : Fd) (w : World) : Except HarnessError DiagnosticStream × World :=
  match keep stderr w with
  | (.error e, w) => (.error e, w)
  | (.ok fd, w) =>
    match discard stderr w with
    | (.error e, w) => (.error e, w)
    | (.ok (), w) => (.ok ⟨fd, true⟩, w)

/-- Silences the streams as a policy says: first standard output, then standard error. -/
def silence (streams : StdStreams) (policy : RedirectionPolicy) (w : World) :
    Except HarnessError DiagnosticStream × World :=
  match if policy.discardStdout then discard streams.stdout w else (.ok (), w) with
  | (.error e, w) => (.error e, w)
  | (.ok (), w) =>
    if policy.discardStderr then keepAndDiscard streams.stderr w
    else (.ok ⟨streams.stderr, false⟩, w)

/-- Redirects the streams as a policy says: first the duplicate file, then what is silenced. -/
def apply (streams : StdStreams) (policy : RedirectionPolicy) (w : World) :
    Except HarnessError DiagnosticStream × World :=
  let appended := match policy.stderrDuplicate with
    | some path => appendTo path streams.stderr w
    | none => (.ok (), w)
  match appended with
  | (.error e, w) => (.error e, w)
  | (.ok (), w) => silence streams policy w

end Redirection

end FuzzHarness
