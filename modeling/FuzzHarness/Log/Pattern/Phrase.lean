import FuzzHarness.Log.Pattern.CharSet
import FuzzHarness.Log.Pattern.Fault

/-!
The written form of a pattern: what stands in what, each part with its stretch of the writing.
-/

namespace FuzzHarness.Log

/-- A character that stands for itself; as a byte it is given by two hexadecimal digits. -/
structure Literal where
  span : Span
  char : Char
  asByte : Bool

inductive LetterClass where
  | digit
  | blank
  | word

inductive WordEdge where
  | edge
  | noEdge
  | start
  | stop
  | startHalf
  | stopHalf
  deriving DecidableEq

inductive Mark where
  | caret
  | dollar
  | textStart
  | textEnd
  | word (w : WordEdge)

inductive SetOperation where
  | intersection
  | difference
  | symmetricDifference

inductive ClassPhrase where
  | nothing (span : Span)
  | literal (l : Literal)
  | range (span : Span) (first last : Literal)
  | named (span : Span) (set : CharSet) (negated : Bool)
  | letter (span : Span) (k : LetterClass) (negated : Bool)
  | property (span : Span) (name : List Char)
  | bracketed (span : Span) (negated : Bool) (body : ClassPhrase)
  | union (span : Span) (items : List ClassPhrase)
  | operation (span : Span) (op : SetOperation) (left right : ClassPhrase)

structure FlagChange where
  letter : Char
  on : Bool

inductive GroupKind where
  | counted (number : Nat)
  | flagged (changes : List FlagChange)

inductive Phrase where
  | nothing (span : Span)
  | flags (span : Span) (changes : List FlagChange)
  | literal (l : Literal)
  | dot (span : Span)
  | mark (span : Span) (m : Mark)
  | letter (span : Span) (k : LetterClass) (negated : Bool)
  | property (span : Span) (name : List Char)
  | bracketed (k : ClassPhrase)
  | repeated (span : Span) (body : Phrase) (least : Nat) (most : Option Nat) (greedy : Bool)
  | group (span : Span) (kind : GroupKind) (body : Phrase)
  | sequence (span : Span) (parts : List Phrase)
  | choice (span : Span) (branches : List Phrase)

namespace ClassPhrase

def span : ClassPhrase → Span
  | .nothing s | .range s _ _ | .named s _ _ | .letter s _ _ | .property s _
  | .bracketed s _ _ | .union s _ | .operation s _ _ _ => s
  | .literal l => l.span

mutual

def deeper? : ClassPhrase → Nat → Option Span
  | .bracketed s _ _, 0 | .union s _, 0 | .operation s _ _ _, 0 => some s
  | .bracketed _ _ body, room + 1 => body.deeper? room
  | .union _ items, room + 1 => anyDeeper? items room
  | .operation _ _ left right, room + 1 => (left.deeper? room).or (right.deeper? room)
  | _, _ => none

def anyDeeper? : List ClassPhrase → Nat → Option Span
  | [], _ => none
  | item :: items, room =>
    match item.deeper? room with
    | some s => some s
    | none => anyDeeper? items room

end

end ClassPhrase

namespace Phrase

def span : Phrase → Span
  | .nothing s | .flags s _ | .dot s | .mark s _ | .letter s _ _ | .property s _
      | .repeated s _ _ _ _ | .group s _ _
  | .sequence s _ | .choice s _ => s
  | .literal l => l.span
  | .bracketed k => k.span

def ofParts (span : Span) : List Phrase → Phrase
  | [] => .nothing span
  | [p] => p
  | parts => .sequence span parts

mutual

def deeper? : Phrase → Nat → Option Span
  | .bracketed k, room => k.deeper? room
  | .repeated s _ _ _ _, 0 | .group s _ _, 0 | .sequence s _, 0 | .choice s _, 0 => some s
  | .repeated _ body _ _ _, room + 1 => body.deeper? room
  | .group _ _ body, room + 1 => body.deeper? room
  | .sequence _ parts, room + 1 => anyDeeper? parts room
  | .choice _ branches, room + 1 => anyDeeper? branches room
  | _, _ => none

def anyDeeper? : List Phrase → Nat → Option Span
  | [], _ => none
  | p :: ps, room =>
    match p.deeper? room with
    | some s => some s
    | none => anyDeeper? ps room

end

end Phrase

end FuzzHarness.Log
