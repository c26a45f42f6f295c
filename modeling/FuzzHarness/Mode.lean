import FuzzHarness.World

/-!
What a run is to do: run every file named by the arguments once, or loop over the input stream
within a budget of iterations.
-/

namespace FuzzHarness

/-- How many iterations a process runs before the engine starts it anew. -/
structure Budget where
  count : Nat
  pos : 0 < count
  word : count < 0x100000000
  deriving DecidableEq, Repr

namespace Budget

def ofNat? (n : Nat) : Option Budget :=
  if h : 0 < n ∧ n < 0x100000000 then some ⟨n, h.1, h.2⟩ else none

def unbounded : Budget :=
  ⟨0x7FFFFFFF, by decide, by decide⟩

/-- Reads a budget: a decimal numeral with a positive value that fits a signed 32-bit word. -/
def read? (text : List Char) : Option Budget :=
  match Text.numeral32? text with
  | some (.ofNat n) => ofNat? n
  | _ => none

end Budget

inductive Mode where
  | batch (paths : List Bytes)
  | persistent (budget : Budget)
  deriving DecidableEq, Repr

namespace Mode

def programName (arguments : List Bytes) : String :=
  match arguments with
  | [] => "driver"
  | program :: _ => Text.lossy program

/-- The mode that arguments ask for, and the notice that comes with it.

A single argument after the program's name is a budget if it is a dash and a numeral, and also
without the dash, which is deprecated. With a dash it must be one. All other arguments are files. -/
def read (arguments : List Bytes) : Except HarnessError Mode × Option Notice :=
  match arguments.drop 1 with
  | [] => (.ok (.persistent .unbounded), none)
  | [argument] =>
    match Text.lossyChars argument with
    | '-' :: numeral =>
      match Budget.read? numeral with
      | some budget => (.ok (.persistent budget), none)
      | none => (.error (.invalidBudget (Text.lossy argument)), none)
    | text =>
      match Budget.read? text with
      | some budget =>
          (.ok (.persistent budget), some (.deprecatedStyle (programName arguments) budget.count))
      | none => (.ok (.batch [argument]), none)
  | paths => (.ok (.batch paths), none)

def resolve (arguments : List Bytes) (w : World) : Except HarnessError Mode × World :=
  match read arguments with
  | (result, some notice) => (result, w.log notice)
  | (result, none) => (result, w)

end Mode

end FuzzHarness
