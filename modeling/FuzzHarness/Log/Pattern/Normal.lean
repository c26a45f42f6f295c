import FuzzHarness.Log.Pattern

/-!
Building patterns in their shortest form: texts in a row are one text, rows and alternatives are
flat, alternatives of single characters are one set, and a beginning that all alternatives share
stands before them.
-/

namespace FuzzHarness.Log.Pattern

def never : Pattern :=
  .oneOf [] true

/-- One character of a set; a set of one character is a text. -/
def ofSet (set : CharSet) (asBytes : Bool) : Pattern :=
  match set with
  | [] => never
  | [r] => if r.first = r.last then .text [r.first] else .oneOf set asBytes
  | _ => .oneOf set asBytes

/-! ## Sizes and places -/

def alwaysEmpty : Pattern → Bool
  | .empty | .edge _ => true
  | .text _ | .oneOf _ _ => false
  | .times p _ most _ => most.isSome && p.alwaysEmpty
  | .group _ p => p.alwaysEmpty
  | .seq p q | .either p q => p.alwaysEmpty && q.alwaysEmpty

def leastLength : Pattern → Option Nat
  | .empty | .edge _ => some 0
  | .text cs => some cs.length
  | .oneOf set _ => if set.isEmpty then none else some 1
  | .times p least _ _ => p.leastLength.map (· * least)
  | .group _ p => p.leastLength
  | .seq p q => p.leastLength.bind fun m => q.leastLength.map (m + ·)
  | .either p q => p.leastLength.bind fun m => q.leastLength.map (min m)

def startsText : Pattern → Bool
  | .edge e => e = .textStart
  | .times p least _ _ => least ≠ 0 && p.startsText
  | .group _ p => p.startsText
  | .seq p q => p.startsText || (p.alwaysEmpty && q.startsText)
  | .either p q => p.startsText && q.startsText
  | _ => false

def endsText : Pattern → Bool
  | .edge e => e = .textEnd
  | .times p least _ _ => least ≠ 0 && p.endsText
  | .group _ p => p.endsText
  | .seq p q => q.endsText || (q.alwaysEmpty && p.endsText)
  | .either p q => p.endsText && q.endsText
  | _ => false

def asksWideWords : Pattern → Bool
  | .edge (.word _ wide) => wide
  | .times p _ _ _ | .group _ p => p.asksWideWords
  | .seq p q | .either p q => p.asksWideWords || q.asksWideWords
  | _ => false

/-! ## Repetitions -/

/-- A repetition. What is always empty need not be repeated more than once. -/
def repeated (p : Pattern) (least : Nat) (most : Option Nat) (greedy : Bool) : Pattern :=
  let (least, most) :=
    if p.alwaysEmpty then (min least 1, some (min (most.getD 1) 1)) else (least, most)
  match least, most with
  | 0, some 0 => .empty
  | 1, some 1 => p
  | _, _ => .times p least most greedy

/-! ## Rows -/

def partsFrom (taken : List Pattern) : Pattern → List Pattern
  | .seq p q => partsFrom (p :: taken) q
  | p => (p :: taken).reverse

def parts (p : Pattern) : List Pattern :=
  partsFrom [] p

/-- Texts in a row become one, and what is empty is left out; the letters of the last text are held
latest first. -/
def joinTexts (letters : List Char) (done : List Pattern) : List Pattern → List Pattern
  | [] => (flush letters done).reverse
  | .text cs :: rest => joinTexts (cs.reverse ++ letters) done rest
  | .empty :: rest => joinTexts letters done rest
  | p :: rest => joinTexts [] (p :: flush letters done) rest
where
  flush (letters : List Char) (done : List Pattern) : List Pattern :=
    if letters.isEmpty then done else .text letters.reverse :: done

def row (ps : List Pattern) : Pattern :=
  match (joinTexts [] [] (ps.flatMap parts)).reverse with
  | [] => .empty
  | last :: before => before.foldl (fun q p => .seq p q) last

/-! ## Alternatives -/

def branchesFrom (taken : List Pattern) : Pattern → List Pattern
  | .either p q => branchesFrom (p :: taken) q
  | p => (p :: taken).reverse

def branches (p : Pattern) : List Pattern :=
  branchesFrom [] p

def singles (ps : List Pattern) : Option CharSet :=
  ps.foldlM (fun set p => match p with
    | .text [c] => some (CharSet.insert ⟨c, c⟩ set)
    | _ => none) []

def sets (ps : List Pattern) : Option CharSet :=
  ps.foldlM (fun set p => match p with
    | .oneOf more _ => some (CharSet.union set more)
    | _ => none) []

def shared : List Pattern → List Pattern → List Pattern
  | p :: ps, q :: qs => if p = q then p :: shared ps qs else []
  | _, _ => []

def commonStart (ps : List Pattern) : List Pattern :=
  match ps.map parts with
  | [] => []
  | first :: rest =>
    if (first :: rest).any fun row => row.length < 2 then [] else rest.foldl shared first

def weight : Pattern → Nat
  | .times p _ _ _ | .group _ p => p.weight + 1
  | .seq p q | .either p q => p.weight + q.weight + 1
  | _ => 1

/-- Alternatives. Each beginning that is taken out leaves less for the next round. -/
def choiceWithin : Nat → List Pattern → Pattern
  | fuel, ps =>
    let flat := ps.flatMap branches
    match flat, singles flat, sets flat with
    | [], _, _ => never
    | [p], _, _ => p
    | _, some set, _ => ofSet set false
    | _, none, some set => ofSet set false
    | _, none, none =>
      match fuel, commonStart flat with
      | fuel + 1, p :: ps =>
        let start := p :: ps
        row (start ++ [choiceWithin fuel (flat.map fun q => row (q.parts.drop start.length))])
      | _, _ =>
        match flat.reverse with
        | [] => never
        | last :: before => before.foldl (fun q p => .either p q) last

def choice (ps : List Pattern) : Pattern :=
  choiceWithin (ps.foldl (fun n p => n + weight p) 0) ps

end FuzzHarness.Log.Pattern
