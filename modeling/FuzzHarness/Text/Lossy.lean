import FuzzHarness.Bytes

/-!
Byte strings shown as text. Well-formed UTF-8 is read as it stands; wherever it breaks off, the
longest part that could still have become a character is shown as one U+FFFD.

The reader is a machine with one byte of input per step. `Pending` holds a character that has begun
and is not yet complete: how many bytes it still owes and in which range the next one must lie. The
narrow ranges after E0, ED, F0 and F4 keep out overlong forms, surrogates and code points beyond
U+10FFFF.
-/

namespace FuzzHarness.Text

/-- The character that stands for bytes that are no text. -/
def replacement : Char := '\uFFFD'

structure Pending where
  owed : Nat
  low : UInt8
  high : UInt8
  value : Nat
  deriving DecidableEq, Repr

/-- What the first byte of a character of several bytes announces. -/
def Pending.ofLead (b : UInt8) : Option Pending :=
  if 0xC2 ≤ b ∧ b ≤ 0xDF then some ⟨1, 0x80, 0xBF, b.toNat - 0xC0⟩
  else if b = 0xE0 then some ⟨2, 0xA0, 0xBF, 0⟩
  else if b = 0xED then some ⟨2, 0x80, 0x9F, 0xD⟩
  else if 0xE1 ≤ b ∧ b ≤ 0xEF then some ⟨2, 0x80, 0xBF, b.toNat - 0xE0⟩
  else if b = 0xF0 then some ⟨3, 0x90, 0xBF, 0⟩
  else if 0xF1 ≤ b ∧ b ≤ 0xF3 then some ⟨3, 0x80, 0xBF, b.toNat - 0xF0⟩
  else if b = 0xF4 then some ⟨3, 0x80, 0x8F, 4⟩
  else none

/-- The characters a byte settles between characters, and what it leaves pending. -/
def begin (b : UInt8) : List Char × Option Pending :=
  if b < 0x80 then ([Char.ofNat b.toNat], none)
  else match Pending.ofLead b with
    | some p => ([], some p)
    | none => ([replacement], none)

/-- The characters a byte settles, and what it leaves pending. -/
def step : Option Pending → UInt8 → List Char × Option Pending
  | none, b => begin b
  | some p, b =>
    if p.low ≤ b ∧ b ≤ p.high then
      let value := p.value * 64 + (b.toNat - 0x80)
      if p.owed ≤ 1 then ([Char.ofNat value], none)
      else ([], some ⟨p.owed - 1, 0x80, 0xBF, value⟩)
    else
      let (settled, left) := begin b
      (replacement :: settled, left)

/-- What is shown for a character that the end of the bytes cuts off. -/
def leftover : Option Pending → List Char
  | none => []
  | some _ => [replacement]

/-- The characters of a byte string, latest first, with what is still pending. -/
def scan (s : Bytes) : List Char × Option Pending :=
  s.foldl (fun (done, pending) b =>
    let (settled, left) := step pending b
    (settled.reverse ++ done, left)) ([], none)

def lossyChars (s : Bytes) : List Char :=
  let (done, pending) := scan s
  done.reverse ++ leftover pending

def lossy (s : Bytes) : String :=
  String.ofList (lossyChars s)

end FuzzHarness.Text
