import FuzzHarness.Kernel.Environment
import FuzzHarness.Proofs.Text.Plain
import Mathlib.Logic.Function.Basic

/-!
The calls on an environment as a system offers them. It keeps a variable as one string, the name and
the value with an equals sign between them and a NUL behind them, so there are names and values that
it cannot keep, and a call with one of these panics. A name that is given as a text is such a name
exactly if its characters say so.
-/

namespace FuzzHarness

namespace Environment

def equalsSign : UInt8 := 0x3D

/-- A name that an environment can keep. -/
def IsName (name : Bytes) : Prop :=
  name ≠ [] ∧ equalsSign ∉ name ∧ 0 ∉ name

instance : DecidablePred IsName :=
  fun _ => inferInstanceAs (Decidable (_ ∧ _ ∧ _))

/-- Sets a variable; nothing where the call panics. -/
def set? (env : Environment) (name value : Bytes) : Option Environment :=
  if IsName name ∧ 0 ∉ value then some (env.set name value) else none

/-- Removes a variable; nothing where the call panics. -/
def unset? (env : Environment) (name : Bytes) : Option Environment :=
  if IsName name then some (env.unset name) else none

theorem get?_set (env : Environment) (name value : Bytes) :
    (env.set name value).get? = Function.update env.get? name (some value) := by
  funext other
  by_cases same : other = name
  · subst same
    rw [get?_set_self, Function.update_self]
  · rw [get?_set_of_ne env value same, Function.update_of_ne same]

theorem get?_unset (env : Environment) (name : Bytes) :
    (env.unset name).get? = Function.update env.get? name none := by
  funext other
  by_cases same : other = name
  · subst same
    rw [get?_unset_self, Function.update_self]
  · rw [get?_unset_of_ne env same, Function.update_of_ne same]

theorem isName_ofString (name : String) :
    IsName (Bytes.ofString name) ↔ name ≠ "" ∧ '=' ∉ name.toList ∧ '\x00' ∉ name.toList := by
  have empty : Bytes.ofString name = [] ↔ name = "" :=
    ⟨fun none_left => Bytes.ofString_injective none_left, fun same => congrArg Bytes.ofString same⟩
  have equals : equalsSign ∈ Bytes.ofString name ↔ '=' ∈ name.toList :=
    Bytes.mem_ofString (by decide) name
  have nul : 0 ∈ Bytes.ofString name ↔ '\x00' ∈ name.toList := Bytes.mem_ofString (by decide) name
  rw [IsName, ne_eq, empty, equals, nul]

end Environment

end FuzzHarness
