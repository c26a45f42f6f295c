import FuzzHarness.Log.Pattern.Beginning
import FuzzHarness.Log.Pattern.Layout

/-!
Plans for laying out patterns.

A pattern is laid out twice, once for searching forwards and once for searching backwards. Groups
take room only forwards.
-/

namespace FuzzHarness.Log

inductive Plan where
  | fixed (room : Room) (atFork : Bool)
  | oneOf (rows : List (List ByteRange)) (backward : Bool)
  | seq (p q : Plan)
  | copies (n : Nat) (p : Plan)

namespace Plan

def states (n : Nat) : Plan :=
  .fixed ⟨n, 0, 0⟩ false

def repeatedly (step : Layout → Option Layout) : Nat → Layout → Option Layout
  | 0, l => some l
  | n + 1, l =>
    match step l with
    | some l => repeatedly step n l
    | none => none

def layOut : Plan → Layout → Option Layout
  | .fixed room atFork, l => l.extend room atFork
  | .oneOf rows backward, l => l.rows rows backward
  | .seq p q, l =>
    match p.layOut l with
    | some l => q.layOut l
    | none => none
  | .copies n p, l => repeatedly p.layOut n l

/-! ## Repetitions -/

/-- So many times in a row; not at all is a joint. -/
def times (p : Plan) (n : Nat) : Plan :=
  if n = 0 then states 1 else .copies n p

/-- At most once: a fork, and a joint behind it. -/
def optional (p : Plan) : Plan :=
  .seq (.fixed ⟨1, 2, 0⟩ false) (.seq p (states 1))

/-- At least so many times. The fork behind the last of them leads back to it; if none has to be
there, the fork stands before it, unless it may be empty: then it is at least once, or not at
all. -/
def atLeast (p : Plan) (mayBeEmpty : Bool) (n : Nat) : Plan :=
  match n with
  | 0 =>
    if mayBeEmpty then .seq p (.fixed ⟨3, 4, 0⟩ false)
    else .seq (.fixed ⟨1, 1, 0⟩ false) (.seq p (.fixed .none true))
  | 1 => .seq p (.fixed ⟨1, 1, 0⟩ true)
  | n + 2 => .seq (.copies (n + 1) p) (.seq p (.fixed ⟨1, 1, 0⟩ true))

/-- Between two bounds: a fork before each that need not be there leads to a joint behind all. -/
def between (p : Plan) (least most : Nat) : Plan :=
  .seq (p.times least)
    (.seq (states 1) (.seq (.copies (most - least) (.seq (.fixed ⟨1, 2, 0⟩ false) p))
    (.fixed .none false)))

/-! ## Texts -/

def byHead (texts : List (List UInt8)) : List (UInt8 × List (List UInt8)) :=
  let heads := (texts.filterMap List.head?).eraseDups
  heads.map fun b =>
    (b, texts.filterMap fun t => if t.head? = some b then some (t.drop 1) else none)

/-- Texts up to each that is empty, and whether any is; of those at the beginning only one
counts. -/
def byEnds (texts : List (List UInt8)) : List (List (List UInt8)) :=
  let texts := match texts with
    | [] :: rest => [] :: rest.dropWhile List.isEmpty
    | texts => texts
  texts.splitOn []

/-- The room for telling texts apart byte by byte, in turns: whatever comes behind a text that has
ended is looked at separately. -/
def textsRoom : Nat → List (List UInt8) → Room
  | 0, _ => .none
  | fuel + 1, texts =>
    if texts.all List.isEmpty then .none
    else
      let turns := (byEnds texts).map byHead
      let taken := turns.filter fun turn => !turn.isEmpty
      let ranges := taken.foldl (fun n turn => if turn.length = 1 then n else n + turn.length) 0
      let own : Room := ⟨taken.length + 1, taken.length + turns.length - 1, ranges⟩
      (taken.flatMap fun turn => turn.map fun (_, rests) => textsRoom fuel rests).foldl Room.add own

def texts (texts : List (List UInt8)) : Plan :=
  .seq (states 1) (.fixed (textsRoom (texts.flatten.length + 1) texts) false)

end Plan

/-- Within ASCII, a joint and a choice are enough for one character. -/
def CharSet.plan (s : CharSet) (backward : Bool) : Plan :=
  if s.isAscii then .fixed ⟨2, 0, s.length⟩ false else .oneOf s.rows backward

namespace Pattern

/-- How a pattern is laid out in one direction; one of several alternatives, which share a fork and
a joint, takes a way out of the fork. The fork and the joint are laid out behind the first two. -/
def plan (backward : Bool) : Pattern → Option Nat → Plan
  | .either p q, some n =>
    .seq (p.plan backward (some n)) (q.plan backward (some (n + 1)))
  | .either p q, none =>
    match allTexts (branches (.either p q)) with
    | some texts => .texts (texts.map fun cs => if backward then (encode cs).reverse else encode cs)
    | none => .seq (p.plan backward (some 0)) (q.plan backward (some 1))
  | .empty, n | .edge _, n => branch n (.states 1)
  | .text cs, n => branch n (.states (encode cs).length)
  | .oneOf set _, n => branch n (set.plan backward)
  | .times p least most _, n =>
    let one := p.plan backward none
    branch n <| match least, most with
    | 0, some 1 => one.optional
    | least, none => one.atLeast (p.leastLength.all (· = 0)) least
    | least, some most => if least = most then one.times least else one.between least most
  | .group _ p, n =>
    branch n (if backward then p.plan backward none
      else .seq (.states 1) (.seq (p.plan backward none) (.states 1)))
  | .seq p q, n =>
    let first := p.plan backward none
    let second := q.plan backward none
    branch n (if backward then .seq second first else .seq first second)
where
  branch (n : Option Nat) (plan : Plan) : Plan :=
    match n with
    | none => plan
    | some n => .seq plan (.fixed ⟨if n = 1 then 2 else 0, 1, 0⟩ false)

/-- How a search comes to a place where a match may begin: only one place if it has to be the end of
the text, otherwise any, behind any bytes. -/
def approach (anchored : Bool) : Plan :=
  if anchored then .states 1 else .fixed ⟨3, 1, 1⟩ true

/-- All that is laid out for one direction: the approach, the pattern, and what tells that it ends.
Forwards the pattern counts as a group. -/
def wholePlan (p : Pattern) (backward : Bool) : Plan :=
  if backward then .seq (approach p.endsText) (.seq (p.plan true none) (.states 1))
  else .seq (approach p.startsText) (.seq (.states 1) (.seq (p.plan false none) (.states 2)))

def fits (p : Pattern) (backward : Bool) : Bool :=
  ((p.wholePlan backward).layOut .start).isSome

end Pattern

end FuzzHarness.Log
