import FuzzHarness.Log.Pattern.Bracket
import FuzzHarness.Text.Alphabetic

/-!
Reading the written form of a pattern: alternatives inside groups, and repetitions of what stands
before them.
-/

namespace FuzzHarness.Log

/-! ## Groups -/

structure OpenGroup where
  opening : Span
  kind : GroupKind
  loose : Bool
  start : Nat
  branches : List Phrase
  branchStart : Nat
  parts : List Phrase

namespace OpenGroup

def startAt (opening : Span) (kind : GroupKind) (loose : Bool) (offset : Nat) : OpenGroup :=
  ⟨opening, kind, loose, offset, [], offset, []⟩

def add (g : OpenGroup) (p : Phrase) : OpenGroup :=
  { g with parts := p :: g.parts }

def branch (g : OpenGroup) (stop : Nat) : Phrase :=
  .ofParts ⟨g.branchStart, stop⟩ g.parts.reverse

def nextBranch (g : OpenGroup) (bar : Nat) : OpenGroup :=
  { g with branches := g.branch bar :: g.branches, branchStart := bar + 1, parts := [] }

def body (g : OpenGroup) (stop : Nat) : Phrase :=
  match g.branches with
  | [] => g.branch stop
  | branches => .choice ⟨g.start, stop⟩ (g.branch stop :: branches).reverse

end OpenGroup

structure Draft where
  group : OpenGroup
  around : List OpenGroup
  counted : Nat
  names : List (List Char × Span)

namespace Draft

def start : Draft :=
  ⟨.startAt ⟨0, 0⟩ (.flagged []) false 0, [], 0, []⟩

def add (d : Draft) (p : Phrase) : Draft :=
  { d with group := d.group.add p }

def openGroup (d : Draft) (opening : Span) (kind : GroupKind) (c : Cursor) : Draft :=
  { d with group := .startAt opening kind c.loose c.offset, around := d.group :: d.around }

def flagLetters : List Char :=
  ['i', 'm', 's', 'U', 'u', 'R', 'x']

/-- The letters of a flag group with their offsets, up to a colon or a closing parenthesis, behind
those already read, which are held latest first. -/
def flagItems (seen : List (Char × Nat)) (c : Cursor) : Reading (List (Char × Nat)) :=
  match _ : c.rest with
  | [] => .error (.of .flagsEnd c.offset c.offset)
  | d :: _ =>
    if d = ':' ∨ d = ')' then
      match seen with
      | ('-', offset) :: _ => .error (.of .negationDangling offset (offset + 1))
      | _ => .ok (seen.reverse, c)
    else if d ≠ '-' ∧ d ∉ flagLetters then .error ⟨.flagUnknown, c.here, none⟩
    else match seen.lookup d with
      | some offset =>
        let kind := if d = '-' then .negationAgain else .flagAgain
        .error ⟨kind, c.here, some ⟨offset, offset + 1⟩⟩
      | none => flagItems ((d, c.offset) :: seen) c.next
termination_by c.rest.length
decreasing_by exact Cursor.length_rest_next_lt (by simp_all)

/-- Flags before a dash are set, those behind it are cleared. -/
def flagChanges (items : List (Char × Nat)) : List FlagChange :=
  let letters := items.map (·.1)
  (letters.takeWhile (· ≠ '-')).map (⟨·, true⟩) ++
    ((letters.dropWhile (· ≠ '-')).drop 1).map (⟨·, false⟩)

/-- Whether blanks mean nothing under the flags that are set and cleared. -/
def looseAfter (changes : List FlagChange) (loose : Bool) : Bool :=
  match changes.find? (·.letter = 'x') with
  | some change => change.on
  | none => loose

def isNameChar (first : Bool) (c : Char) : Bool :=
  c = '_' || Text.isAlphabetic c || (!first && (Text.isNumeric c || c = '.' || c = '[' || c = ']'))

/-- A named group, from behind the angle bracket that opens its name. -/
def namedGroup (d : Draft) (opening : Span) (c : Cursor) : Reading Draft :=
  let name := c.rest.takeWhile (· ≠ '>')
  let close := c.skip name.length
  let good := match name with
    | [] => 0
    | e :: rest => if isNameChar true e then 1 + (rest.takeWhile (isNameChar false)).length else 0
  let span : Span := ⟨c.offset, close.offset⟩
  if good < name.length then .error ⟨.nameChar, (c.skip good).here, none⟩
  else if close.atEnd then .error (.of .nameUnclosed close.offset close.offset)
  else if name.isEmpty then .error (.of .nameEmpty c.offset c.offset)
  else match d.names.lookup name with
  | some earlier => .error ⟨.nameAgain, span, some earlier⟩
  | none =>
    let d := { d with counted := d.counted + 1, names := (name, span) :: d.names }
    .ok (d.openGroup opening (.counted d.counted) close.next, close.next)

/-- A flag group, from behind its question mark. Without flags and a body it is a repetition of
nothing. -/
def flagGroup (d : Draft) (opening : Span) (c : Cursor) : Reading Draft :=
  if c.atEnd then .error ⟨.groupUnclosed, opening, none⟩
  else match flagItems [] c with
  | .error f => .error f
  | .ok (items, after) =>
    let changes := flagChanges items
    let inside := { after.next with loose := looseAfter changes c.loose }
    if after.sees ':' then
      let opened := d.openGroup opening (.flagged changes) inside
      .ok ({ opened with group := { opened.group with loose := c.loose } }, inside)
    else if items.isEmpty then .error (.of .nothingToRepeat (c.offset - 1) (c.offset - 1))
    else .ok (d.add (.flags ⟨opening.start, after.next.offset⟩ changes), inside)

def readGroup (d : Draft) (c : Cursor) : Reading Draft :=
  let inside := c.advance
  let upTo (n : Nat) : Span := ⟨c.offset, inside.offset + n⟩
  match inside.rest with
  | '?' :: '=' :: _ | '?' :: '!' :: _ => .error ⟨.lookAround, upTo 2, none⟩
  | '?' :: '<' :: '=' :: _ | '?' :: '<' :: '!' :: _ => .error ⟨.lookAround, upTo 3, none⟩
  | '?' :: 'P' :: '<' :: _ => d.namedGroup c.here (inside.skip 3)
  | '?' :: '<' :: _ => d.namedGroup c.here (inside.skip 2)
  | '?' :: _ => d.flagGroup c.here inside.next
  | _ =>
    let d := { d with counted := d.counted + 1 }
    .ok (d.openGroup c.here (.counted d.counted) inside, inside)

def closeGroup (d : Draft) (c : Cursor) : Reading Draft :=
  match d.around with
  | [] => .error ⟨.groupUnopened, c.here, none⟩
  | outer :: around =>
    let after := { c.next with loose := d.group.loose }
    let span : Span := ⟨d.group.opening.start, after.offset⟩
    .ok
      ({ d with group := outer.add (.group span d.group.kind (d.group.body c.offset)), around },
        after)

/-! ## Repetitions -/

def skipBlanks (c : Cursor) : Cursor :=
  (c.skip (c.rest.takeWhile Text.isBlank).length)

/-- A decimal number among blanks that fits a 32-bit word. -/
def decimal (c : Cursor) : Except Fault Nat × Cursor :=
  let start := skipBlanks c
  let (digits, after) := start.take Char.isDigit
  let n := digits.foldl (fun n e => min (n * 10 + (e.toNat - '0'.toNat)) 0x100000000) 0
  let number :=
    if digits.isEmpty then .error (.of .countMissing start.offset after.offset)
    else if n < 0x100000000 then .ok n else .error (.of .countInvalid start.offset after.offset)
  (number, (skipBlanks after).settle)

structure Count where
  least : Nat
  most : Option Nat
  greedy : Bool

/-- A question mark behind a repetition makes it as short as possible. -/
def finishCount (least : Nat) (most : Option Nat) (c : Cursor) : Count × Cursor :=
  if c.sees '?' then (⟨least, most, false⟩, c.next) else (⟨least, most, true⟩, c)

def bounds (c : Cursor) : Except Fault (Count × Cursor) := do
  let unclosed (d : Cursor) : Fault := .of .countUnclosed c.offset d.offset
  let inside := c.advance
  if inside.atEnd then .error (unclosed inside)
  let (least, after) := decimal inside
  if after.atEnd then .error (unclosed after)
  let ((least, most), close) ←
    if after.sees ',' then
      let second := after.advance
      if second.atEnd then .error (unclosed second)
      else if second.sees '\x7D' then pure ((← least, none), second)
      else
        let least ← least
        let (most, close) := decimal second
        pure ((least, some (← most)), close)
    else
      let least ← least
      pure ((least, some least), after)
  if !close.sees '\x7D' then .error (unclosed close)
  let (count, after) := finishCount least most close.advance
  if most.any (· < least) then .error (.of .countOrder c.offset after.offset)
  else pure (count, after)

/-- Repeats the last part; flags cannot be repeated. -/
def repeatLast (d : Draft) (c : Cursor) (count : Except Fault (Count × Cursor)) : Reading Draft :=
  let nothing : Reading Draft := .error (.of .nothingToRepeat c.offset c.offset)
  match d.group.parts with
  | [] => nothing
  | .flags _ _ :: _ => nothing
  | p :: parts =>
    match count with
    | .error f => .error f
    | .ok (n, after) =>
      let q := Phrase.repeated ⟨p.span.start, after.offset⟩ p n.least n.most n.greedy
      .ok ({ d with group := { d.group with parts := q :: parts } }, after)

/-! ## Reading -/

/-- Takes what stands at a cursor that is not at the end; in a class, at most so many items. -/
def step (items : Nat) (d : Draft) (c : Cursor) : Reading Draft :=
  let taken (r : Reading Phrase) : Reading Draft := r.map fun (p, after) => (d.add p, after)
  match c.rest with
  | [] => .ok (d, c)
  | '(' :: _ => d.readGroup c
  | ')' :: _ => d.closeGroup c
  | '|' :: _ => .ok ({ d with group := d.group.nextBranch c.offset }, c.next)
  | '[' :: _ => (ClassPhrase.read items c).map fun (k, after) => (d.add (.bracketed k), after)
  | '?' :: _ => d.repeatLast c (.ok (finishCount 0 (some 1) c.next))
  | '*' :: _ => d.repeatLast c (.ok (finishCount 0 none c.next))
  | '+' :: _ => d.repeatLast c (.ok (finishCount 1 none c.next))
  | '\x7B' :: _ => d.repeatLast c (bounds c)
  | '\\' :: _ => taken (Escape.read c)
  | '.' :: _ => .ok (d.add (.dot c.here), c.next)
  | '^' :: _ => .ok (d.add (.mark c.here .caret), c.next)
  | '$' :: _ => .ok (d.add (.mark c.here .dollar), c.next)
  | e :: _ => .ok (d.add (.literal ⟨c.here, e, false⟩), c.next)

def finish (d : Draft) (c : Cursor) : Except Fault Phrase :=
  if d.around.isEmpty then .ok (d.group.body c.offset)
  else .error ⟨.groupUnclosed, d.group.opening, none⟩

/-- Reads on to the end. Every step takes at least one character, and what is left has no more items
than steps are left. -/
def readRest : Nat → Draft → Cursor → Except Fault Phrase
  | 0, d, c => d.finish c
  | fuel + 1, d, c =>
    let c := c.settle
    if c.atEnd then d.finish c
    else match d.step fuel c with
    | .error f => .error f
    | .ok (d, after) => readRest fuel d after

end Draft

/-- Reads the written form of a pattern. The first thing that is wrong with it decides. -/
def Phrase.read (pattern : List Char) : Except Fault Phrase :=
  Draft.readRest (pattern.length + 1) .start (.start pattern)

end FuzzHarness.Log
