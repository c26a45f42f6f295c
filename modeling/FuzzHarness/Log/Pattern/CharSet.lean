/-!
Sets of characters, held as ranges.

The ranges ascend, and between any two of them a number is missing. The numbers of surrogates count
among them, though they are no characters.
-/

namespace FuzzHarness.Log

structure CharRange where
  first : Char
  last : Char
  deriving DecidableEq

abbrev CharSet := List CharRange

namespace CharRange

def holds (r : CharRange) (c : Char) : Bool :=
  r.first ≤ c && c ≤ r.last

def meet (r s : CharRange) : Option CharRange :=
  let first := if r.first ≤ s.first then s.first else r.first
  let last := if r.last ≤ s.last then r.last else s.last
  if first ≤ last then some ⟨first, last⟩ else none

def around (r s : CharRange) : CharRange :=
  ⟨if r.first ≤ s.first then r.first else s.first, if r.last ≤ s.last then s.last else r.last⟩

/-- The gap between two numbers, both included. The numbers of surrogates are no characters; a gap
of them alone is taken to hold the characters on both sides of it. -/
def gap (first last : Nat) : CharRange :=
  let first := if 0xD800 ≤ first ∧ first < 0xE000 then 0xE000 else first
  let last := if 0xD800 ≤ last ∧ last < 0xE000 then 0xD7FF else last
  if first ≤ last then ⟨Char.ofNat first, Char.ofNat last⟩ else ⟨Char.ofNat last, Char.ofNat first⟩

def without (r s : CharRange) : List CharRange :=
  match r.meet s with
  | none => [r]
  | some _ =>
    let before := if r.first < s.first then [gap r.first.toNat (s.first.toNat - 1)] else []
    let behind := if s.last < r.last then [gap (s.last.toNat + 1) r.last.toNat] else []
    before ++ behind

end CharRange

namespace CharSet

def holds (s : CharSet) (c : Char) : Bool :=
  s.any (·.holds c)

def isAscii (s : CharSet) : Bool :=
  s.all fun r => r.last.toNat < 128

def insert (r : CharRange) : CharSet → CharSet
  | [] => [r]
  | s :: rest =>
    if r.last.toNat + 1 < s.first.toNat then r :: s :: rest
    else if s.last.toNat + 1 < r.first.toNat then s :: insert r rest
    else insert (r.around s) rest

def union (s t : CharSet) : CharSet :=
  t.foldl (fun s r => insert r s) s

def ofRanges (ranges : List (Char × Char)) : CharSet :=
  ranges.foldl (fun s r => insert ⟨r.1, r.2⟩ s) []

def intersection (s t : CharSet) : CharSet :=
  s.flatMap fun r => t.filterMap r.meet

def gapsFrom (number : Nat) : CharSet → CharSet
  | [] => if number ≤ 0x10FFFF then [.gap number 0x10FFFF] else []
  | r :: rest =>
    let before := if number < r.first.toNat then [.gap number (r.first.toNat - 1)] else []
    before ++ gapsFrom (r.last.toNat + 1) rest

def complement (s : CharSet) : CharSet :=
  gapsFrom 0 s

def difference (s t : CharSet) : CharSet :=
  t.foldl (fun s r => s.flatMap (·.without r)) s

/-- Adds the ASCII letters that differ from a member in case alone. -/
def anyCase (s : CharSet) : CharSet :=
  let moved (letters : CharRange) (move : Char → Char) : CharSet :=
    (s.filterMap letters.meet).map fun r => ⟨move r.first, move r.last⟩
  union (union s (moved ⟨'a', 'z'⟩ Char.toUpper)) (moved ⟨'A', 'Z'⟩ Char.toLower)

def named : List (String × List (Char × Char)) :=
  [("alnum", [('0', '9'), ('A', 'Z'), ('a', 'z')]),
    ("alpha", [('A', 'Z'), ('a', 'z')]),
    ("ascii", [('\x00', '\x7F')]),
    ("blank", [('\t', '\t'), (' ', ' ')]),
    ("cntrl", [('\x00', '\x1F'), ('\x7F', '\x7F')]),
    ("digit", [('0', '9')]),
    ("graph", [('!', '~')]),
    ("lower", [('a', 'z')]),
    ("print", [(' ', '~')]),
    ("punct", [('!', '/'), (':', '@'), ('[', '\x60'), ('\x7B', '~')]),
    ("space", [('\t', '\r'), (' ', ' ')]),
    ("upper", [('A', 'Z')]),
    ("word", [('0', '9'), ('A', 'Z'), ('_', '_'), ('a', 'z')]),
    ("xdigit", [('0', '9'), ('A', 'F'), ('a', 'f')])]

def ofName? (name : String) : Option CharSet :=
  (named.lookup name).map ofRanges

end CharSet

/-! ## Encoded characters

The encoded characters of a set are rows of byte ranges: a text is a character of the set if its
bytes lie in the ranges of some row, one by one. -/

structure ByteRange where
  first : UInt8
  last : UInt8
  deriving DecidableEq

namespace CharRange

def row (first last : Nat) : List ByteRange :=
  List.zipWith ByteRange.mk (String.utf8EncodeChar (Char.ofNat first))
    (String.utf8EncodeChar (Char.ofNat last))

/-- The greatest numbers that one, two and three bytes encode. -/
def lengthEnds : List Nat :=
  [0x7F, 0x7FF, 0xFFFF]

/-- Where numbers have to be parted so that the bytes behind some leading ones run through all
values. -/
def cut? (first last : Nat) : Option Nat :=
  [0x40, 0x1000, 0x40000].findSome? fun block =>
    let low := first / block * block
    let high := last / block * block
    if low = high then none
    else if first ≠ low then some (low + block)
    else if last ≠ high + block - 1 then some high
    else none

/-- The rows of the numbers between two. Every part lies within one length of encoding and one run
of leading bytes, so few rounds are needed. -/
def rowsBetween : Nat → Nat → Nat → List (List ByteRange)
  | 0, _, _ => []
  | fuel + 1, first, last =>
    if last < first then []
    else if first < 0xE000 ∧ 0xD7FF < last then
      rowsBetween fuel first 0xD7FF ++ rowsBetween fuel 0xE000 last
    else match lengthEnds.find? fun n => first ≤ n && n < last with
    | some n => rowsBetween fuel first n ++ rowsBetween fuel (n + 1) last
    | none =>
      if last < 128 then [row first last]
      else match cut? first last with
      | some n => rowsBetween fuel first (n - 1) ++ rowsBetween fuel n last
      | none => [row first last]

def rows (r : CharRange) : List (List ByteRange) :=
  rowsBetween 32 r.first.toNat r.last.toNat

end CharRange

def CharSet.rows (s : CharSet) : List (List ByteRange) :=
  s.flatMap CharRange.rows

def encode (cs : List Char) : List UInt8 :=
  cs.flatMap String.utf8EncodeChar

end FuzzHarness.Log
