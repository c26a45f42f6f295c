import FuzzHarness.Text.Blank

/-!
Numbers in text: the integer at the head of a text, read with saturation in a 64-bit word; decimal
numerals that must fill their text and fit a 32-bit word; hexadecimal addresses.
-/

namespace FuzzHarness.Text

def maxWord : Int := 0x7FFFFFFFFFFFFFFF

def minWord : Int := -0x8000000000000000

/-- An integer held in a signed 64-bit word, the nearer end standing for what does not fit. -/
def saturate (n : Int) : Int :=
  if n > maxWord then maxWord else if n < minWord then minWord else n

def digitValue (c : Char) : Nat :=
  c.toNat - '0'.toNat

/-- One more digit, each of the two steps saturating. -/
def appendDigit (n : Int) (c : Char) : Int :=
  saturate (saturate (n * 10) + digitValue c)

/-- A leading sign, true for minus, and the rest. -/
def splitSign : List Char → Bool × List Char
  | '-' :: rest => (true, rest)
  | '+' :: rest => (false, rest)
  | rest => (false, rest)

/-- The integer at the head of a text: blanks are skipped, then at most one sign and any number of
digits are read. No digits mean 0; a number too great for a word is the greatest word, before the
sign is applied. -/
def leadingInteger (s : List Char) : Int :=
  let (negative, rest) := splitSign (s.dropWhile isBlank)
  let value := (rest.takeWhile Char.isDigit).foldl appendDigit 0
  if negative then -value else value

def digitsValue (digits : List Char) : Nat :=
  digits.foldl (fun n c => n * 10 + digitValue c) 0

/-- A decimal numeral: an optional sign and at least one digit, and nothing else. -/
def numeral? (s : List Char) : Option Int :=
  let (negative, digits) := splitSign s
  if digits.isEmpty || !digits.all Char.isDigit then none
  else if negative then some (-(digitsValue digits : Int)) else some (digitsValue digits)

/-- A decimal numeral whose value fits a signed 32-bit word. -/
def numeral32? (s : List Char) : Option Int :=
  match numeral? s with
  | some n => if -0x80000000 ≤ n ∧ n < 0x80000000 then some n else none
  | none => none

def hex (n : Nat) : String :=
  "0x" ++ String.ofList (Nat.toDigits 16 n)

end FuzzHarness.Text
