import FuzzHarness.Log.Pattern.Cursor
import FuzzHarness.Log.Pattern.Phrase

/-!
Escapes in patterns: a backslash and what it means with the characters behind it.
-/

namespace FuzzHarness.Log.Escape

def hexValue? (c : Char) : Option Nat :=
  if c.isDigit then some (c.toNat - '0'.toNat)
  else if 'a' ≤ c ∧ c ≤ 'f' then some (c.toNat - 'a'.toNat + 10)
  else if 'A' ≤ c ∧ c ≤ 'F' then some (c.toNat - 'A'.toNat + 10)
  else none

def hexNumber (digits : List Char) : Nat :=
  digits.foldl (fun n c => min (n * 16 + (hexValue? c).getD 0) 0x110000) 0

def character (start first last : Nat) (digits : List Char) (asByte : Bool) (after : Cursor) :
    Reading Phrase :=
  let n := hexNumber digits
  if n.isValidChar then .ok (.literal ⟨⟨start, after.offset⟩, Char.ofNat n, asByte⟩, after)
  else .error (.of .hexInvalid first last)

def hexDigits : Nat → List Char → Cursor → Reading (List Char)
  | 0, digits, c => .ok (digits.reverse, c)
  | n + 1, digits, c =>
    match c.rest with
    | [] => .error (.of .escapeEnds c.offset c.offset)
    | d :: _ =>
      if (hexValue? d).isSome then hexDigits n (d :: digits) c.advance
      else .error ⟨.hexDigit, c.here, none⟩

def hexBraced (start : Nat) (c : Cursor) : Reading Phrase :=
  let (digits, close) := c.advance.take fun d => (hexValue? d).isSome
  if close.atEnd then .error (.of .escapeEnds c.offset close.offset)
  else if !close.sees '\x7D' then .error ⟨.hexDigit, close.here, none⟩
  else
    let after := close.advance
    if digits.isEmpty then .error (.of .hexEmpty c.offset after.offset)
    else character start (c.offset + 1) close.offset digits false after

def digitCount? : Char → Option Nat
  | 'x' => some 2
  | 'u' => some 4
  | 'U' => some 8
  | _ => none

/-- A number from behind its letter; two digits alone write a byte. -/
def hex (start count : Nat) (c : Cursor) : Reading Phrase :=
  if c.sees '\x7B' then hexBraced start c
  else match hexDigits count [] c with
  | .error f => .error f
  | .ok (digits, after) => character start c.offset after.offset digits (count = 2) after

/-- A property of characters, from behind its letter. -/
def property (start : Nat) (c : Cursor) : Reading Phrase :=
  match c.rest with
  | [] => .error (.of .escapeEnds c.offset c.offset)
  | '\x7B' :: _ =>
    let (name, close) := c.advance.take (· ≠ '\x7D')
    if close.atEnd then .error (.of .escapeEnds close.offset close.offset)
    else .ok (.property ⟨start, close.next.offset⟩ name, close.next)
  | '\\' :: _ => .error ⟨.propertyInvalid, c.here, none⟩
  | d :: _ => .ok (.property ⟨start, c.advance.offset⟩ [d], c.advance)

def wordEdges : List (String × WordEdge) :=
  [("start", .start), ("end", .stop), ("start-half", .startHalf), ("end-half", .stopHalf)]

/-- An edge of a word, from behind its letter. A name in braces says which edge; braces with
anything but a name are no part of it. -/
def wordEdge (start : Nat) (c : Cursor) : Reading Phrase :=
  let edge (w : WordEdge) (after : Cursor) : Reading Phrase :=
    .ok (.mark ⟨start, after.offset⟩ (.word w), after)
  if !c.sees '\x7B' then edge .edge c
  else
    let inside := c.advance
    let (name, close) := inside.take fun d => d.isAlpha || d = '-'
    if inside.atEnd then .error (.of .wordEdgeEnds start inside.offset)
    else if name.isEmpty then edge .edge c
    else if !close.sees '\x7D' then .error (.of .wordEdgeUnclosed c.offset close.offset)
    else match wordEdges.lookup (String.ofList name) with
    | some w => edge w close.next
    | none => .error (.of .wordEdgeUnknown inside.offset close.offset)

def charOfLetter? : Char → Option Char
  | 'a' => some '\x07'
  | 'f' => some '\x0C'
  | 't' => some '\t'
  | 'n' => some '\n'
  | 'r' => some '\r'
  | 'v' => some '\x0B'
  | _ => none

def markOfLetter? : Char → Option Mark
  | 'A' => some .textStart
  | 'z' => some .textEnd
  | 'B' => some (.word .noEdge)
  | '<' => some (.word .start)
  | '>' => some (.word .stop)
  | _ => none

def classOfLetter? : Char → Option (LetterClass × Bool)
  | 'd' => some (.digit, false)
  | 'D' => some (.digit, true)
  | 's' => some (.blank, false)
  | 'S' => some (.blank, true)
  | 'w' => some (.word, false)
  | 'W' => some (.word, true)
  | _ => none

def ofLetter? (span : Span) (d : Char) : Option Phrase :=
  match classOfLetter? d, markOfLetter? d, charOfLetter? d with
  | some (k, negated), _, _ => some (.letter span k negated)
  | none, some m, _ => some (.mark span m)
  | none, none, some e => some (.literal ⟨span, e, false⟩)
  | none, none, none => none

/-- An escape, from its backslash. Every ASCII character that is no letter and no digit stands for
itself. -/
def read (c : Cursor) : Reading Phrase :=
  let start := c.offset
  let letter := c.next
  let after := letter.next
  match letter.rest with
  | [] => .error (.of .escapeEnds start letter.offset)
  | d :: _ =>
    if d.isDigit then .error (.of .backreference start after.offset)
    else if d = 'p' ∨ d = 'P' then property start letter.advance
    else if d = 'b' then wordEdge start after
    else match digitCount? d, ofLetter? ⟨start, after.offset⟩ d with
    | some count, _ => hex start count letter.advance
    | none, some p => .ok (p, after)
    | none, none =>
      if d.toNat < 128 ∧ !d.isAlpha then .ok (.literal ⟨⟨start, after.offset⟩, d, false⟩, after)
      else .error (.of .escapeUnknown start after.offset)

end FuzzHarness.Log.Escape
