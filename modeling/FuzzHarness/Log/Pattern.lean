import FuzzHarness.Log.Pattern.Phrase

/-!
Patterns that a text is searched for.

A place in a text is the gap between two neighbours, before the first character, or behind the last.
A pattern leads from places to places, namely from each to all that lie at the end of a stretch of
text it describes. Sets of places are lists of truth values, one for each place in order.

Only ASCII letters, ASCII digits and the underscore make words. A pattern may ask for the words of
all scripts, but then no text is searched for it.
-/

namespace FuzzHarness.Log

def isWordChar (c : Char) : Bool :=
  c.isAlphanum || c = '_'

inductive Edge where
  | textStart
  | textEnd
  | lineStart (returns : Bool)
  | lineEnd (returns : Bool)
  | word (w : WordEdge) (wide : Bool)
  deriving DecidableEq

def WordEdge.holds (w : WordEdge) (before after : Option Char) : Bool :=
  let wordBefore := before.any isWordChar
  let wordAfter := after.any isWordChar
  match w with
  | .edge => wordBefore != wordAfter
  | .noEdge => wordBefore == wordAfter
  | .start => !wordBefore && wordAfter
  | .stop => wordBefore && !wordAfter
  | .startHalf => !wordBefore
  | .stopHalf => !wordAfter

/-- Whether a place between two neighbours is such an edge; a neighbour may be missing. No line
starts or ends between a carriage return and the newline behind it. -/
def Edge.holds (e : Edge) (before after : Option Char) : Bool :=
  match e with
  | .textStart => before.isNone
  | .textEnd => after.isNone
  | .lineStart returns =>
      before.all (· = '\n') || (returns && before = some '\r' && after != some '\n')
  | .lineEnd false => after.all (· = '\n')
  | .lineEnd true => after.isNone || after = some '\r' || (after = some '\n' && before != some '\r')
  | .word w _ => w.holds before after

inductive Pattern where
  | empty
  | text (cs : List Char)
  | oneOf (set : CharSet) (asBytes : Bool)
  | edge (e : Edge)
  | times (p : Pattern) (least : Nat) (most : Option Nat) (greedy : Bool)
  | group (number : Nat) (p : Pattern)
  | seq (p q : Pattern)
  | either (p q : Pattern)
  deriving DecidableEq

namespace Pattern

def union (s t : List Bool) : List Bool :=
  List.zipWith (· || ·) s t

def neighbours (text : List Char) : List (Option Char × Option Char) :=
  List.zip (none :: text.map some) (text.map some ++ [none])

def iterate (step : List Bool → List Bool) : Nat → List Bool → List Bool
  | 0, s => s
  | n + 1, s => iterate step n (step s)

def grow (step : List Bool → List Bool) : Nat → List Bool → List Bool
  | 0, s => s
  | n + 1, s =>
    let t := union s (step s)
    if t = s then s else grow step n t

def pass (text : List Char) (accepts : Char → Bool) (s : List Bool) : List Bool :=
  false :: List.zipWith (fun here c => here && accepts c) s text

/-- The places a pattern leads to. A repetition takes no more steps than there are places: a longer
one stays at some place for a step and can do so once more or once less. -/
def reach (text : List Char) : Pattern → List Bool → List Bool
  | .empty, s => s
  | .text cs, s => cs.foldl (fun s c => pass text (· = c) s) s
  | .oneOf set _, s => pass text set.holds s
  | .edge e, s =>
      List.zipWith (fun here (before, after) => here && e.holds before after) s (neighbours text)
  | .times p least most _, s =>
    let enough := text.length + 1
    let more := match most with
      | some n => min (n - least) enough
      | none => enough
    grow (reach text p) more (iterate (reach text p) (min least enough) s)
  | .group _ p, s => reach text p s
  | .seq p q, s => reach text q (reach text p s)
  | .either p q, s => union (reach text p s) (reach text q s)

def occursIn (p : Pattern) (text : List Char) : Bool :=
  (p.reach text (List.replicate (text.length + 1) true)).any id

end Pattern

end FuzzHarness.Log
