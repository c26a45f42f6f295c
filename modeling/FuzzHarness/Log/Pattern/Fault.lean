/-!
What is wrong with the writing of a pattern, and how it is reported: the pattern is shown with marks
below the place in question.
-/

namespace FuzzHarness.Log

inductive FaultKind where
  | backreference
  | caseUnavailable
  | classEscape
  | classLetterUnavailable
  | classRangeLiteral
  | classRangeOrder
  | classUnclosed
  | countInvalid
  | countMissing
  | countOrder
  | countUnclosed
  | escapeEnds
  | escapeUnknown
  | flagAgain
  | flagUnknown
  | flagsEnd
  | groupUnclosed
  | groupUnopened
  | hexDigit
  | hexEmpty
  | hexInvalid
  | lookAround
  | nameAgain
  | nameChar
  | nameEmpty
  | nameUnclosed
  | negationAgain
  | negationDangling
  | noText
  | nothingToRepeat
  | propertyInvalid
  | propertyUnknown
  | propertyValueUnknown
  | tooDeep
  | wideInBytes
  | wordEdgeEnds
  | wordEdgeUnclosed
  | wordEdgeUnknown

def depthLimit : Nat := 250

def FaultKind.text : FaultKind → String
  | .backreference => "backreferences are not supported"
  | .caseUnavailable =>
      "Unicode-aware case insensitivity matching is not available " ++
        "(make sure the unicode-case feature is enabled)"
  | .classEscape => "invalid escape sequence found in character class"
  | .classLetterUnavailable =>
      "Unicode-aware Perl class not found (make sure the unicode-perl feature is enabled)"
  | .classRangeLiteral => "invalid range boundary, must be a literal"
  | .classRangeOrder => "invalid character class range, the start must be <= the end"
  | .classUnclosed => "unclosed character class"
  | .countInvalid => "decimal literal invalid"
  | .countMissing => "repetition quantifier expects a valid decimal"
  | .countOrder => "invalid repetition count range, the start must be <= the end"
  | .countUnclosed => "unclosed counted repetition"
  | .escapeEnds => "incomplete escape sequence, reached end of pattern prematurely"
  | .escapeUnknown => "unrecognized escape sequence"
  | .flagAgain => "duplicate flag"
  | .flagUnknown => "unrecognized flag"
  | .flagsEnd => "expected flag but got end of regex"
  | .groupUnclosed => "unclosed group"
  | .groupUnopened => "unopened group"
  | .hexDigit => "invalid hexadecimal digit"
  | .hexEmpty => "hexadecimal literal empty"
  | .hexInvalid => "hexadecimal literal is not a Unicode scalar value"
  | .lookAround => "look-around, including look-ahead and look-behind, is not supported"
  | .nameAgain => "duplicate capture group name"
  | .nameChar => "invalid capture group character"
  | .nameEmpty => "empty capture group name"
  | .nameUnclosed => "unclosed capture group name"
  | .negationAgain => "flag negation operator repeated"
  | .negationDangling => "dangling flag negation operator"
  | .noText => "pattern can match invalid UTF-8"
  | .nothingToRepeat => "repetition operator missing expression"
  | .propertyInvalid => "invalid Unicode character class"
  | .propertyUnknown => "Unicode property not found"
  | .propertyValueUnknown => "Unicode property value not found"
  | .tooDeep =>
      "exceed the maximum number of nested parentheses/brackets (" ++ toString depthLimit ++ ")"
  | .wideInBytes => "Unicode not allowed here"
  | .wordEdgeEnds =>
      "found either the beginning of a special word boundary or a bounded repetition on a \\b " ++
        "with an opening brace, but no closing brace"
  | .wordEdgeUnclosed =>
      "special word boundary assertion is either unclosed or contains an invalid character"
  | .wordEdgeUnknown =>
      "unrecognized special word boundary assertion, " ++
        "valid choices are: start, end, start-half or end-half"

structure Span where
  start : Nat
  stop : Nat

structure Fault where
  kind : FaultKind
  span : Span
  earlier : Option Span

namespace Fault

def of (kind : FaultKind) (start stop : Nat) : Fault :=
  ⟨kind, ⟨start, stop⟩, none⟩

/-- The lines of a text; a newline at its end begins no line, and a carriage return before a newline
belongs to it. -/
def linesOf (text : List Char) : List (List Char) :=
  let parts := text.splitOn '\n'
  let ended := parts.dropLast.map fun line =>
    if line.getLast? = some '\r' then line.dropLast else line
  let last := parts.getLast?.getD []
  if last.isEmpty then ended else ended ++ [last]

def position (pattern : List Char) (offset : Nat) : Nat × Nat :=
  let before := pattern.take offset
  (before.count '\n', (before.reverse.takeWhile (· ≠ '\n')).length)

structure Stretch where
  first : Nat × Nat
  last : Nat × Nat

def stretch (pattern : List Char) (s : Span) : Stretch :=
  ⟨position pattern s.start, position pattern s.stop⟩

/-- Marks below columns, from a column on; an empty stretch gets one mark. -/
def marks : Nat → List Stretch → List Char
  | _, [] => []
  | column, s :: rest =>
    let width := max 1 (s.last.2 - s.first.2)
    List.replicate (s.first.2 - column) ' ' ++ List.replicate width '^' ++
      marks (max column s.first.2 + width) rest

def padded (width n : Nat) : List Char :=
  let digits := (toString n).toList
  List.replicate (width - digits.length) ' ' ++ digits

def notedLine (numberWidth : Nat) (stretches : List Stretch) (number : Nat) (line : List Char) :
    List Char :=
  let margin :=
    if numberWidth = 0 then List.replicate 4 ' ' else padded numberWidth (number + 1) ++ [':', ' ']
  let here := stretches.filter fun s => s.first.1 = number
  let below :=
    if here.isEmpty then [] else List.replicate margin.length ' ' ++ marks 0 here ++ ['\n']
  margin ++ line ++ ['\n'] ++ below

def notedLines (numberWidth : Nat) (stretches : List Stretch) : Nat → List (List Char) → List Char
  | _, [] => []
  | number, line :: rest =>
    notedLine numberWidth stretches number line ++
      notedLines numberWidth stretches (number + 1) rest

def across (s : Stretch) : String :=
  "on line " ++ toString (s.first.1 + 1) ++ " (column " ++ toString (s.first.2 + 1) ++
    ") through line " ++ toString (s.last.1 + 1) ++ " (column " ++ toString s.last.2 ++ ")\n"

def stretches (f : Fault) (pattern : List Char) : List Stretch :=
  let spans := match f.earlier with
    | some e => if e.start ≤ f.span.start then [e, f.span] else [f.span, e]
    | none => [f.span]
  spans.map (stretch pattern)

/-- The report of a fault in a pattern. A pattern of several lines is shown between rules, with
numbered lines. -/
def message (f : Fault) (pattern : List Char) : String :=
  let (flat, tall) := (f.stretches pattern).partition fun s => s.first.1 = s.last.1
  let count := pattern.count '\n' + 1
  let noted := String.ofList
    (notedLines (if count ≤ 1 then 0 else (toString count).length) flat 0 (linesOf pattern))
  let rule := if pattern.contains '\n' then String.ofList (List.replicate 79 '~') ++ "\n" else ""
  "regex parse error:\n" ++ rule ++ noted ++ rule ++ String.join (tall.map across) ++
    "error: " ++ f.kind.text

end Fault

end FuzzHarness.Log
