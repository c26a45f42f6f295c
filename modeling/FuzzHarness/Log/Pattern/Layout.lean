import FuzzHarness.Log.Pattern.CharSet
import Std.Data.HashMap

/-!
Laying out the states that a search runs through, within a limit.

There are states for the bytes a search may be at, forks where it can go on in several ways, and
joints where ways meet. A state takes 32 bytes, each way out of a fork 4, and each range of bytes
out of a choice of bytes 8. States are numbered in the order in which they are laid out. For one
character of a set, equal states are laid out once, as far as they are remembered; what is
remembered hangs on the numbers of the states, and so on all that is laid out before.
-/

namespace FuzzHarness.Log

/-! ## What is remembered

A key is a list of numbers and is kept with a number. Its place is computed from it alone, and what
is kept later takes the place of what is there, so an earlier key may be forgotten. -/

/-- Mixes numbers one by one, each by an exclusive or and a multiplication in 64 bits. -/
def mix (key : List Nat) : UInt64 :=
  key.foldl (fun h n => (h ^^^ n.toUInt64) * 1099511628211) 14695981039346656037

structure Recall where
  size : Nat
  places : Std.HashMap Nat (List Nat × Nat)

namespace Recall

def ofSize (size : Nat) : Recall :=
  ⟨size, ∅⟩

def place (r : Recall) (key : List Nat) : Nat :=
  (mix key).toNat % r.size

def find? (r : Recall) (key : List Nat) : Option Nat :=
  match r.places[r.place key]? with
  | some (kept, n) => if kept = key then some n else none
  | none => none

def keep (r : Recall) (key : List Nat) (n : Nat) : Recall :=
  { r with places := r.places.insert (r.place key) (key, n) }

end Recall

/-! ## Room -/

structure Room where
  states : Nat
  ways : Nat
  ranges : Nat

namespace Room

def none : Room :=
  ⟨0, 0, 0⟩

def add (r s : Room) : Room :=
  ⟨r.states + s.states, r.ways + s.ways, r.ranges + s.ranges⟩

def bytes (r : Room) : Nat :=
  32 * r.states + 4 * r.ways + 8 * r.ranges

end Room

def roomLimit : Nat := 10485760

structure Layout where
  room : Room
  atFork : Bool

namespace Layout

def start : Layout :=
  ⟨.none, false⟩

def next (l : Layout) : Nat :=
  l.room.states

def extend (l : Layout) (more : Room) (atFork : Bool) : Option Layout :=
  let exit : Room := ⟨0, if l.atFork then 1 else 0, 0⟩
  let room := (l.room.add exit).add more
  if room.bytes ≤ roomLimit then some ⟨room, atFork⟩ else none

/-! ## Sets -/

/-- Rows by their first range, as far as neighbours share it. -/
def byFirst (rows : List (List ByteRange)) : List (ByteRange × List (List ByteRange)) :=
  rows.foldr (fun row groups => match row, groups with
    | [], _ => groups
    | r :: rest, (s, rests) :: more =>
        if r = s then (s, rest :: rests) :: more else (r, [rest]) :: groups
    | r :: rest, [] => [(r, [rest])]) []

/-- A state with these ranges of bytes, each with the state it leads to; its number. -/
def choice (ranges : List (ByteRange × Nat)) (l : Layout) (known : Recall) :
    Option (Nat × Layout × Recall) :=
  let key := ranges.flatMap fun (r, goal) => [r.first.toNat, r.last.toNat, goal]
  match known.find? key with
  | some n => some (n, l, known)
  | none => (l.extend ⟨1, 0, ranges.length⟩ false).map fun m => (l.next, m, known.keep key l.next)

/-- The states for rows of at most so many ranges, which lead to a goal, and the number of the
first. States that lie later in the rows are laid out first. -/
def choices (goal : Nat) : Nat → List (List ByteRange) → Layout → Recall →
    Option (Nat × Layout × Recall)
  | 0, _, l, known => some (goal, l, known)
  | fuel + 1, rows, l, known =>
    if rows.all List.isEmpty then some (goal, l, known)
    else do
      let (ranges, l, known) ← (byFirst rows).foldlM (fun (ranges, l, known) (r, rests) => do
        let (n, l, known) ← choices goal fuel rests l known
        pure ((r, n) :: ranges, l, known)) (([] : List (ByteRange × Nat)), l, known)
      choice ranges.reverse l known

/-- The states of a row that is gone through backwards: its first range leads to a goal. Ranges that
lead to one state are laid out once, as far as they are remembered. -/
def backwardRow : List ByteRange → Nat → Layout → Recall → Option (Layout × Recall)
  | [], _, l, known => (l.extend ⟨0, 1, 0⟩ false).map (·, known)
  | r :: rest, goal, l, known =>
    let key := [goal, r.first.toNat, r.last.toNat]
    match known.find? key with
    | some n => backwardRow rest n l known
    | none =>
      match l.extend ⟨1, 0, 0⟩ false with
      | some m => backwardRow rest l.next m (known.keep key l.next)
      | none => none

def backwardRows : List (List ByteRange) → Nat → Layout → Recall → Option Layout
  | [], _, l, _ => some l
  | row :: rows, goal, l, known =>
    match backwardRow row goal l known with
    | some (l, known) => backwardRows rows goal l known
    | none => none

/-- One character, by the rows of its bytes. Forwards a joint comes first and then the choices that
lead to it, backwards a fork with a way to each row, and then a joint. -/
def rows (rows : List (List ByteRange)) (backward : Bool) (l : Layout) : Option Layout :=
  if backward then
    (l.extend ⟨2, 0, 0⟩ false).bind fun m => backwardRows rows (l.next + 1) m (.ofSize 1000)
  else
    (l.extend ⟨1, 0, 0⟩ false).bind fun m =>
      (choices l.next 5 rows m (.ofSize 10000)).map fun (_, m, _) => m

end Layout

end FuzzHarness.Log
