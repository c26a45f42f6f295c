import FuzzHarness.Redirection
import FuzzHarness.Target

/-!
Targets that play their part from a script: what they write on every invocation, which invocation
aborts, and what the set-up hook does to the arguments.
-/

namespace FuzzHarness.Scripted

/-- How a scripted hook changes the argument vector of a C program: the changes are made in the
order of the fields. -/
structure HookScript where
  dropFirst : Bool
  entries : Option (List (Option Bytes))
  count : Option Int
  stored : Option Int
  status : Int

namespace HookScript

def idle : HookScript :=
  ⟨false, none, none, none, 0⟩

def dropArgument (v : ArgVector) : ArgVector :=
  if 1 < v.count then ⟨v.count - 1, v.entries.take 1 ++ v.entries.drop 2⟩ else v

/-- The vector with these entries, counted with the missing ones among them and closed by a null
pointer. -/
def vectorOf (entries : List (Option Bytes)) : ArgVector :=
  ⟨entries.length, entries ++ [none]⟩

def vector (h : HookScript) (v : ArgVector) : ArgVector :=
  let v := if h.dropFirst then dropArgument v else v
  let v := match h.entries with
    | some entries => vectorOf entries
    | none => v
  match h.count with
  | some count => { v with count }
  | none => v

def reply (h : HookScript) (v : ArgVector) : HookReply :=
  ⟨h.vector v, h.stored, h.status⟩

end HookScript

/-- What a target does when it is invoked. -/
structure TargetScript where
  streams : StdStreams
  output : Bytes
  errors : Bytes
  abortAt : Option Nat
  status : Int

namespace TargetScript

def silent : TargetScript :=
  ⟨.default, [], [], none, 0⟩

def react (s : TargetScript) (count : Nat) : Reaction × Nat :=
  (⟨[.write s.streams.stdout s.output, .write s.streams.stderr s.errors],
    s.abortAt = some count, s.status⟩,
    count + 1)

/-- The target with a set-up hook on the argument list, which is replaced if the script has
another. -/
def withList (s : TargetScript) (replacement : Option (List Bytes)) : Target Nat where
  setup := some (.list fun arguments count => (replacement.getD arguments, count))
  react _ := s.react

def withVector (s : TargetScript) (hook : HookScript) : Target Nat where
  setup := some (.vector fun v count => (hook.reply v, count))
  react _ := s.react

def plain (s : TargetScript) : Target Nat where
  setup := none
  react _ := s.react

end TargetScript

end FuzzHarness.Scripted
