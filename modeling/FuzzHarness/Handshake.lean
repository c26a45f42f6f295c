import FuzzHarness.Redirection

/-!
The announcement of deferred start-up. A variable in the environment tells the engine whether to
wait for the signal that set-up is complete. Two marker strings in the program's image say that it
can do so at all; nothing here reads them.
-/

namespace FuzzHarness

structure Deferral where
  variableName : String
  deferred : Bool
  signaled : Bool
  deriving DecidableEq, Repr

namespace Deferral

def forkServerVariable : String := "__AFL_DEFER_FORKSRV"

def persistentSignature : String := "##SIG_AFL_PERSISTENT##"

def deferredSignature : String := "##SIG_AFL_DEFER_FORKSRV##"

def forVariable (name : String) (dontDefer : Bool) : Deferral :=
  ⟨name, !dontDefer, false⟩

def of (dontDefer : Bool) : Deferral :=
  forVariable forkServerVariable dontDefer

def validName (name : String) : Bool :=
  !name.toList.isEmpty && !name.toList.any fun c => c = '=' || c = '\x00'

def announcement : Bytes := Bytes.ofString "1"

def announce (d : Deferral) (env : Environment) : Environment :=
  if d.deferred then env.set (Bytes.ofString d.variableName) announcement
  else env.unset (Bytes.ofString d.variableName)

/-- Announces deferral in the environment, or withdraws the announcement. -/
def prepare (d : Deferral) (w : World) : Except HarnessError Unit × World :=
  if validName d.variableName then
    let kernel := { w.kernel with environment := d.announce w.kernel.environment }
    (.ok (), { w with kernel }.log (.deferredMode d.deferred))
  else (.error (.environment "encode" d.variableName (.bare .invalidInput)), w)

end Deferral

end FuzzHarness
