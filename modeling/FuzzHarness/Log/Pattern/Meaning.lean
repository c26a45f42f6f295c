import FuzzHarness.Log.Pattern.Normal

/-!
What the written form of a pattern means under the flags that hold at each of its parts.

Flags hold from where they are changed to the end of the group, also in the alternatives behind. A
part means characters or, where the flag for all characters is cleared, bytes; no pattern may
describe bytes that are no text. What needs to know the letters, digits or blanks of all scripts
cannot be had.
-/

namespace FuzzHarness.Log

structure Flags where
  anyCase : Bool
  multiLine : Bool
  dotAll : Bool
  swapGreed : Bool
  wide : Bool
  returns : Bool

namespace Flags

def default : Flags :=
  ⟨false, false, false, false, true, false⟩

def change (f : Flags) (c : FlagChange) : Flags :=
  match c.letter with
  | 'i' => { f with anyCase := c.on }
  | 'm' => { f with multiLine := c.on }
  | 's' => { f with dotAll := c.on }
  | 'U' => { f with swapGreed := c.on }
  | 'u' => { f with wide := c.on }
  | 'R' => { f with returns := c.on }
  | _ => f

def changeAll (f : Flags) (changes : List FlagChange) : Flags :=
  changes.foldl change f

end Flags

/-! ## Classes -/

structure Gathered where
  set : CharSet
  folded : Bool

namespace Gathered

def none : Gathered :=
  ⟨[], true⟩

def push (g : Gathered) (first last : Char) : Gathered :=
  ⟨CharSet.insert ⟨first, last⟩ g.set, false⟩

def union (g h : Gathered) : Gathered :=
  if h.set.isEmpty ∨ g.set = h.set then g else ⟨g.set.union h.set, g.folded && h.folded⟩

def intersection (g h : Gathered) : Gathered :=
  if g.set.isEmpty then g
  else if h.set.isEmpty then none
  else ⟨g.set.intersection h.set, g.folded && h.folded⟩

def difference (g h : Gathered) : Gathered :=
  if g.set.isEmpty ∨ h.set.isEmpty then g else ⟨g.set.difference h.set, g.folded && h.folded⟩

def combine (op : SetOperation) (g h : Gathered) : Gathered :=
  match op with
  | .intersection => g.intersection h
  | .difference => g.difference h
  | .symmetricDifference => (g.union h).difference (g.intersection h)

def complement (g : Gathered) : Gathered :=
  ⟨g.set.complement, g.folded || g.set.isEmpty⟩

end Gathered

namespace Flags

def fold (f : Flags) (span : Span) (g : Gathered) : Except Fault Gathered :=
  if !f.anyCase ∨ g.folded ∨ g.set.isEmpty then .ok g
  else if f.wide then .error ⟨.caseUnavailable, span, none⟩
  else .ok ⟨g.set.anyCase, true⟩

def foldAndNegate (f : Flags) (span : Span) (negated : Bool) (g : Gathered) :
    Except Fault Gathered :=
  match f.fold span g with
  | .error e => .error e
  | .ok g =>
    if !negated then .ok g
    else if f.wide then .ok g.complement
    else .error ⟨.noText, span, none⟩

def classChar (f : Flags) (l : Literal) : Except Fault Char :=
  if f.wide ∨ l.char.toNat < 128 then .ok l.char
  else .error ⟨if l.asByte then .noText else .wideInBytes, l.span, none⟩

def letterSet (f : Flags) (span : Span) (k : LetterClass) (negated : Bool) :
    Except Fault Gathered :=
  if f.wide then .error ⟨.classLetterUnavailable, span, none⟩
  else if negated then .error ⟨.noText, span, none⟩
  else
    let name := match k with
      | .digit => "digit"
      | .blank => "space"
      | .word => "word"
    .ok ⟨(CharSet.ofName? name).getD [], false⟩

end Flags

/-- The name of a property without what does not count in it: other than ASCII, case, blanks,
dashes, and a first is. -/
def propertyKey (name : List Char) : List Char :=
  let name := match name with
    | c :: d :: rest => if c.toLower = 'i' ∧ d.toLower = 's' then rest else name
    | _ => name
  (name.filter fun c => c.toNat < 128 && c != ' ' && c != '_' && c != '-').map Char.toLower

/-- No property is known; of some names it is known that they would be values. -/
def Flags.property (f : Flags) (span : Span) (name : List Char) : Fault :=
  let isValue := propertyKey name ∈ [['c', 'f'], ['s', 'c'], ['l', 'c']]
  ⟨if !f.wide then .wideInBytes else if isValue then .propertyValueUnknown else .propertyUnknown,
    span, none⟩

namespace ClassPhrase

mutual

def gather (f : Flags) : ClassPhrase → Gathered → Except Fault Gathered
  | .nothing _, g => .ok g
  | .literal l, g => (f.classChar l).map fun c => g.push c c
  | .range _ first last, g =>
    match f.classChar first, f.classChar last with
    | .error e, _ => .error e
    | _, .error e => .error e
    | .ok first, .ok last => .ok (g.push first last)
  | .named span set negated, g => (f.foldAndNegate span negated ⟨set, false⟩).map g.union
  | .letter span k negated, g => (f.letterSet span k negated).map g.union
  | .property span name, _ => .error (f.property span name)
  | .bracketed span negated body, g =>
    match body.gather f .none with
    | .error e => .error e
    | .ok inner => (f.foldAndNegate span negated inner).map g.union
  | .union _ items, g => gatherAll f items g
  | .operation _ op left right, g =>
    match left.gather f .none with
    | .error e => .error e
    | .ok l =>
      match right.gather f .none with
      | .error e => .error e
      | .ok r =>
        match f.fold right.span r, f.fold left.span l with
        | .error e, _ => .error e
        | _, .error e => .error e
        | .ok r, .ok l => .ok (g.union (.combine op l r))

def gatherAll (f : Flags) : List ClassPhrase → Gathered → Except Fault Gathered
  | [], g => .ok g
  | k :: ks, g =>
    match k.gather f g with
    | .error e => .error e
    | .ok g => gatherAll f ks g

end

end ClassPhrase

/-! ## Parts -/

namespace Flags

def literal (f : Flags) (l : Literal) : Except Fault Pattern :=
  if f.wide then
    if f.anyCase then .error ⟨.caseUnavailable, l.span, none⟩ else .ok (.text [l.char])
  else if l.asByte ∧ 128 ≤ l.char.toNat then .error ⟨.noText, l.span, none⟩
  else if f.anyCase ∧ l.char.isAlpha then .ok (.ofSet (CharSet.anyCase [⟨l.char, l.char⟩]) true)
  else .ok (.text [l.char])

def dot (f : Flags) (span : Span) : Except Fault Pattern :=
  if !f.wide then .error ⟨.noText, span, none⟩
  else
    let ends := if f.dotAll then [] else if f.returns then ['\n', '\r'] else ['\n']
    .ok (.ofSet (CharSet.complement (.ofRanges (ends.map fun c => (c, c)))) false)

def mark (f : Flags) : Mark → Edge
  | .caret => if f.multiLine then .lineStart f.returns else .textStart
  | .dollar => if f.multiLine then .lineEnd f.returns else .textEnd
  | .textStart => .textStart
  | .textEnd => .textEnd
  | .word w => .word w f.wide

end Flags

namespace Phrase

mutual

def meaning : Phrase → Flags → Except Fault (Pattern × Flags)
  | .nothing _, f => .ok (.empty, f)
  | .flags _ changes, f => .ok (.empty, f.changeAll changes)
  | .literal l, f => (f.literal l).map (·, f)
  | .dot span, f => (f.dot span).map (·, f)
  | .mark _ m, f => .ok (.edge (f.mark m), f)
  | .letter span k negated, f => (f.letterSet span k negated).map fun g => (.ofSet g.set true, f)
  | .property span name, f => .error (f.property span name)
  | .bracketed k, f => (k.gather f .none).map fun g => (.ofSet g.set (!f.wide), f)
  | .repeated _ body least most greedy, f =>
    match body.meaning f with
    | .error e => .error e
    | .ok (p, f) => .ok (.repeated p least most (greedy != f.swapGreed), f)
  | .group _ kind body, f =>
    let inside := match kind with
      | .counted _ => f
      | .flagged changes => f.changeAll changes
    match body.meaning inside, kind with
    | .error e, _ => .error e
    | .ok (p, _), .counted number => .ok (.group number p, f)
    | .ok (p, _), .flagged _ => .ok (p, f)
  | .sequence _ parts, f => (meanings parts [] f).map fun (ps, f) => (.row ps, f)
  | .choice _ branches, f => (meanings branches [] f).map fun (ps, f) => (.choice ps, f)

/-- What parts mean one after the other, behind those already known, which are held latest first. -/
def meanings : List Phrase → List Pattern → Flags → Except Fault (List Pattern × Flags)
  | [], done, f => .ok (done.reverse, f)
  | p :: ps, done, f =>
    match p.meaning f with
    | .error e => .error e
    | .ok (q, f) => meanings ps (q :: done) f

end

end Phrase

end FuzzHarness.Log
