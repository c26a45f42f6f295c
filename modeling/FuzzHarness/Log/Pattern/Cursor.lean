import FuzzHarness.Log.Pattern.Fault
import FuzzHarness.Text.Blank

/-!
A place in the writing of a pattern that is being read.

In a loose stretch blanks mean nothing, and neither does what follows a number sign up to the end of
its line.
-/

namespace FuzzHarness.Log

structure Cursor where
  rest : List Char
  offset : Nat
  loose : Bool

namespace Cursor

def start (pattern : List Char) : Cursor :=
  ⟨pattern, 0, false⟩

def atEnd (c : Cursor) : Bool :=
  c.rest.isEmpty

def sees (c : Cursor) (d : Char) : Bool :=
  c.rest.head? = some d

def skip (c : Cursor) (n : Nat) : Cursor :=
  { c with rest := c.rest.drop n, offset := c.offset + (c.rest.take n).length }

def next (c : Cursor) : Cursor :=
  match c.rest with
  | [] => c
  | _ :: rest => { c with rest := rest, offset := c.offset + 1 }

/-- Leaves out blanks and comments; the truth value says whether a comment has begun. -/
def dropLoose : Bool → List Char → Nat → List Char × Nat
  | _, [], n => ([], n)
  | true, d :: rest, n => dropLoose (d ≠ '\n') rest (n + 1)
  | false, d :: rest, n =>
    if d = '#' then dropLoose true rest (n + 1)
    else if Text.isBlank d then dropLoose false rest (n + 1)
    else (d :: rest, n)

def settle (c : Cursor) : Cursor :=
  if c.loose then
    let (rest, offset) := dropLoose false c.rest c.offset
    { c with rest := rest, offset := offset }
  else c

def advance (c : Cursor) : Cursor :=
  c.next.settle

theorem length_dropLoose_le (comment : Bool) (rest : List Char) (n : Nat) :
    (dropLoose comment rest n).1.length ≤ rest.length := by
  fun_induction dropLoose comment rest n <;> grind

theorem length_rest_settle_le (c : Cursor) : c.settle.rest.length ≤ c.rest.length := by
  unfold settle
  split
  · exact length_dropLoose_le _ _ _
  · exact Nat.le_refl _

theorem length_rest_next_lt {c : Cursor} (h : c.rest ≠ []) :
    c.next.rest.length < c.rest.length := by
  unfold next
  split <;> simp_all

theorem length_rest_advance_lt {c : Cursor} (h : c.rest ≠ []) :
    c.advance.rest.length < c.rest.length :=
  Nat.lt_of_le_of_lt (length_rest_settle_le _) (length_rest_next_lt h)

/-- The character behind this one that means something, as far as one number sign is no
hindrance. -/
def peek (c : Cursor) : Option Char :=
  let behind := c.rest.drop 1
  if c.loose then
    let plain := behind.dropWhile Text.isBlank
    let plain := if plain.head? = some '#' then (plain.drop 1).dropWhile Text.isBlank else plain
    plain.head?.or behind.head?
  else behind.head?

/-- The characters from here on that have a property, each followed by what means nothing, behind
those already taken, which are held latest first. -/
def takeFrom (p : Char → Bool) (taken : List Char) (c : Cursor) : List Char × Cursor :=
  match _ : c.rest with
  | [] => (taken.reverse, c)
  | d :: _ => if p d then takeFrom p (d :: taken) c.advance else (taken.reverse, c)
termination_by c.rest.length
decreasing_by exact length_rest_advance_lt (by simp_all)

def take (p : Char → Bool) (c : Cursor) : List Char × Cursor :=
  takeFrom p [] c

def here (c : Cursor) : Span :=
  ⟨c.offset, c.offset + 1⟩

end Cursor

abbrev Reading (α : Type) := Except Fault (α × Cursor)

end FuzzHarness.Log
