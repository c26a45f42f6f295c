import FuzzHarness.Log.Pattern.Escape

/-!
Classes in brackets: characters, ranges, named sets and further brackets, with operators between
them. The operators have one rank and group from the left.
-/

namespace FuzzHarness.Log

structure Items where
  span : Span
  items : List ClassPhrase

namespace Items

def startAt (offset : Nat) : Items :=
  ⟨⟨offset, offset⟩, []⟩

def add (u : Items) (k : ClassPhrase) : Items :=
  ⟨⟨if u.items.isEmpty then k.span.start else u.span.start, k.span.stop⟩, k :: u.items⟩

def phrase (u : Items) : ClassPhrase :=
  match u.items with
  | [] => .nothing u.span
  | [k] => k
  | items => .union u.span items.reverse

end Items

structure OpenBracket where
  opening : Span
  negated : Bool
  pending : Option (SetOperation × ClassPhrase)
  items : Items

namespace OpenBracket

def add (o : OpenBracket) (k : ClassPhrase) : OpenBracket :=
  { o with items := o.items.add k }

def body (o : OpenBracket) : ClassPhrase :=
  let right := o.items.phrase
  match o.pending with
  | some (op, left) => .operation ⟨left.span.start, right.span.stop⟩ op left right
  | none => right

def operate (o : OpenBracket) (op : SetOperation) (offset : Nat) : OpenBracket :=
  { o with pending := some (op, o.body), items := .startAt offset }

def close (o : OpenBracket) (offset : Nat) : ClassPhrase :=
  .bracketed ⟨o.opening.start, offset⟩ o.negated o.body

def unclosed (o : OpenBracket) : Fault :=
  ⟨.classUnclosed, o.opening, none⟩

/-- The dashes at the beginning of a class, which stand for themselves. -/
def dashes (start : Nat) (u : Items) (c : Cursor) : Reading Items :=
  match _ : c.rest with
  | '-' :: _ =>
    if c.advance.atEnd then .error (.of .classUnclosed start start)
    else dashes start (u.add (.literal ⟨c.here, '-', false⟩)) c.advance
  | _ => .ok (u, c)
termination_by c.rest.length
decreasing_by exact Cursor.length_rest_advance_lt (by simp_all)

/-- The opening of a class: the bracket, its negation, and what stands for itself only there. -/
def start (c : Cursor) : Except Fault (OpenBracket × Cursor) := do
  let unclosed (d : Cursor) : Fault := .of .classUnclosed c.offset d.offset
  let inside := c.advance
  if inside.atEnd then .error (unclosed inside)
  let negated := inside.sees '^'
  let inside := if negated then inside.advance else inside
  if inside.atEnd then .error (unclosed inside)
  let (items, after) ← dashes c.offset (.startAt inside.offset) inside
  if items.items.isEmpty ∧ after.sees ']' then
    let items := items.add (.literal ⟨after.here, ']', false⟩)
    let after := after.advance
    if after.atEnd then .error (unclosed after)
    pure (⟨⟨c.offset, after.offset⟩, negated, none, items⟩, after)
  else pure (⟨⟨c.offset, after.offset⟩, negated, none, items⟩, after)

end OpenBracket

namespace ClassPhrase

def named? (c : Cursor) : Option (ClassPhrase × Cursor) :=
  match c.rest with
  | '[' :: ':' :: rest =>
    let negated := rest.head? = some '^'
    let name := (if negated then rest.drop 1 else rest).takeWhile (· ≠ ':')
    let close := c.skip (name.length + if negated then 3 else 2)
    match close.rest, CharSet.ofName? (String.ofList name) with
    | ':' :: ']' :: _, some s =>
        some (.named ⟨c.offset, (close.skip 2).offset⟩ s negated, close.skip 2)
    | _, _ => none
  | _ => none

def readPrimitive (o : OpenBracket) (c : Cursor) : Reading Phrase :=
  match c.rest with
  | [] => .error o.unclosed
  | '\\' :: _ => Escape.read c
  | d :: _ => .ok (.literal ⟨c.here, d, false⟩, c.next)

def ofPhrase : Phrase → Except Fault ClassPhrase
  | .literal l => .ok (.literal l)
  | .letter s k negated => .ok (.letter s k negated)
  | .property s name => .ok (.property s name)
  | p => .error ⟨.classEscape, p.span, none⟩

def rangeEnd : Phrase → Except Fault Literal
  | .literal l => .ok l
  | p => .error ⟨.classRangeLiteral, p.span, none⟩

/-- One character, one class, or a range, inside an open class. A dash that a bracket or another
dash follows makes no range. -/
def readItem (o : OpenBracket) (c : Cursor) : Except Fault (ClassPhrase × Cursor) := do
  let (p, middle) ← readPrimitive o c
  let middle := middle.settle
  if middle.atEnd then .error o.unclosed
  if !middle.sees '-' ∨ middle.peek = some ']' ∨ middle.peek = some '-' then
    pure (← ofPhrase p, middle)
  else
    let right := middle.advance
    if right.atEnd then .error o.unclosed
    let (q, after) ← readPrimitive o right
    let first ← rangeEnd p
    let last ← rangeEnd q
    let span : Span := ⟨p.span.start, q.span.stop⟩
    if first.char ≤ last.char then pure (.range span first last, after)
    else .error ⟨.classRangeOrder, span, none⟩

def operator? : List Char → Option SetOperation
  | '&' :: '&' :: _ => some .intersection
  | '-' :: '-' :: _ => some .difference
  | '~' :: '~' :: _ => some .symmetricDifference
  | _ => none

/-- The rest of a class inside those that are open around it. Every step takes at least one
character. -/
def readRest : Nat → List OpenBracket → OpenBracket → Cursor → Reading ClassPhrase
  | 0, _, o, _ => .error o.unclosed
  | fuel + 1, around, o, c =>
    let c := c.settle
    match operator? c.rest, c.rest with
    | some op, _ => readRest fuel around (o.operate op (c.skip 2).offset) (c.skip 2)
    | none, [] => .error o.unclosed
    | none, '[' :: _ =>
      match named? c with
      | some (k, after) => readRest fuel around (o.add k) after
      | none =>
        match OpenBracket.start c with
        | .error f => .error f
        | .ok (inner, after) => readRest fuel (o :: around) inner after
    | none, ']' :: _ =>
      match around with
      | [] => .ok (o.close c.next.offset, c.next)
      | outer :: around => readRest fuel around (outer.add (o.close c.next.offset)) c.next
    | none, _ =>
      match readItem o c with
      | .error f => .error f
      | .ok (k, after) => readRest fuel around (o.add k) after

def read (steps : Nat) (c : Cursor) : Reading ClassPhrase :=
  match OpenBracket.start c with
  | .error f => .error f
  | .ok (o, after) => readRest steps [] o after

end ClassPhrase

end FuzzHarness.Log
