import FuzzHarness.Log.Pattern.Normal

/-!
The texts that what a pattern describes begins with.

As far as they are few and short, they are listed in the order in which alternatives stand. A
pattern that describes nothing but a few short texts need not be laid out, since a text can be
searched for them directly.
-/

namespace FuzzHarness.Log

structure Beginning where
  bytes : List UInt8
  whole : Bool

namespace Beginning

def empty : Beginning :=
  ⟨[], true⟩

def opened (b : Beginning) : Beginning :=
  { b with whole := false }

def keep (n : Nat) (b : Beginning) : Beginning :=
  if b.bytes.length ≤ n then b else ⟨b.bytes.take n, false⟩

def join : List Beginning → List Beginning
  | [] => []
  | b :: rest =>
    match join rest with
    | [] => [b]
    | c :: more =>
        if b.bytes = c.bytes then ⟨b.bytes, b.whole && c.whole⟩ :: more else b :: c :: more

def reachable (bs : List Beginning) : List Beginning :=
  (bs.foldl (fun kept b => if kept.any (·.bytes.isPrefixOf b.bytes) then kept else b :: kept)
    []).reverse

def commonBytes : List UInt8 → List UInt8 → List UInt8
  | x :: xs, y :: ys => if x = y then x :: commonBytes xs ys else []
  | _, _ => []

def common : List Beginning → List UInt8
  | [] => []
  | b :: bs => bs.foldl (fun bytes c => commonBytes bytes c.bytes) b.bytes

end Beginning

abbrev Beginnings := Option (List Beginning)

namespace Beginnings

def longest : Nat := 100

def most : Nat := 250

/-- The most characters of a set that are told apart, and the most repetitions. -/
def spread : Nat := 10

def empty : Beginnings :=
  some [.empty]

def allOpen (b : Beginnings) : Bool :=
  b.all fun bs => bs.all (!·.whole)

def opened (b : Beginnings) : Beginnings :=
  b.map (·.map Beginning.opened)

def andThen (b c : Beginnings) : Beginnings :=
  if b.allOpen then b
  else match b, c with
  | none, _ => none
  | some bs, some cs =>
    if bs.length * cs.length ≤ most then
      let follow (x : Beginning) : List Beginning :=
        if x.whole then cs.map fun y => ⟨x.bytes ++ y.bytes, y.whole⟩ else [x]
      some ((Beginning.join (bs.flatMap follow)).map (·.keep longest))
    else anything bs
  | some bs, none => anything bs
where
  anything (bs : List Beginning) : Beginnings :=
    if bs.any (·.bytes.isEmpty) then none else opened (some bs)

/-- Either these or those. If they are too many, four bytes of each have to do. -/
def orElse (b c : Beginnings) : Beginnings :=
  match b, c with
  | some bs, some cs =>
    if bs.length + cs.length ≤ most then some (Beginning.join (bs ++ cs))
    else
      let bs := Beginning.join (bs.map (·.keep 4))
      let cs := Beginning.join (cs.map (·.keep 4))
      if bs.length + cs.length ≤ most then some (Beginning.join (bs ++ cs)) else none
  | _, _ => none

def repeated (b : Beginnings) : Nat → Beginnings → Beginnings
  | 0, done => done
  | n + 1, done => b.repeated n (done.andThen b)

def times (b : Beginnings) (least : Nat) (most : Option Nat) (greedy : Bool) : Beginnings :=
  if least = 0 then
    let once := if most = some 1 then b else b.opened
    if greedy then once.orElse empty else empty.orElse once
  else
    let first := b.repeated (min least spread) empty
    if most = some least ∧ least ≤ spread then first else first.opened

def ofSet (s : CharSet) : Beginnings :=
  if s.foldl (fun n r => n + (r.last.toNat + 1 - r.first.toNat)) 0 ≤ spread then
    some (s.flatMap fun r =>
      (List.range' r.first.toNat (r.last.toNat + 1 - r.first.toNat)).map fun n =>
        ⟨encode [Char.ofNat n], true⟩)
  else none

def frequent : List Char :=
  "\n\r (),-./0129:_abcdefghilmnoprstuvxy|".toList

def isRare (b : UInt8) : Bool :=
  b < 128 && !frequent.contains (Char.ofNat b.toNat)

/-- Lists of more than so many are cut down to so many bytes each, as long as they are too long. -/
def cut : List (Nat × Nat) → List Beginning → List Beginning
  | [], bs => bs
  | (many, n) :: more, bs =>
      if bs.length ≤ many then bs else cut more (Beginning.reachable (bs.map (·.keep n)))

def cuts : List (Nat × Nat) :=
  [(10, 5), (10, 4), (64, 3), (64, 2), (10, 1)]

/-- What is looked for at first in order to find one of some beginnings that are not empty. If they
share a beginning that is rare or long, it may be only that. Many are cut down, unless they are
whole and would become too short or stay too many. -/
def sought (bs : List Beginning) : List Beginning :=
  let kept := Beginning.reachable bs
  let shared := Beginning.common kept
  if 1 < bs.length ∧ shared.length ≤ 3 ∧ shared.head?.any isRare then
    Beginning.join (kept.map (·.keep 1))
  else
    let quick := kept.all (·.whole) && kept.length ≤ 16
    let onlyShared := 4 < shared.length || (1 < shared.length && !quick)
    let kept := if onlyShared then Beginning.join (kept.map (·.keep shared.length)) else kept
    let short := cut cuts kept
    if kept.all (·.whole) ∧ (64 < short.length ∨ short.any (·.bytes.length ≤ 2)) then kept
    else short

def suffice (b : Beginnings) : Bool :=
  match b with
  | none | some [] => false
  | some bs => !bs.any (·.bytes.isEmpty) && (sought (Beginning.join bs)).all (·.whole)

end Beginnings

/-- What stands before a pattern: nothing, what it follows, or what it is an alternative to. -/
inductive Context where
  | alone
  | behind (b : Beginnings)
  | beside (b : Beginnings)

def Context.join : Context → Beginnings → Beginnings
  | .alone, c => c
  | .behind b, c => b.andThen c
  | .beside b, c => b.orElse c

namespace Pattern

def beginnings : Pattern → Context → Beginnings
  | .empty, k | .edge _, k => k.join .empty
  | .text cs, k => k.join (some [Beginning.keep Beginnings.longest ⟨encode cs, true⟩])
  | .oneOf set _, k => k.join (.ofSet set)
  | .times p least most greedy, k => k.join ((p.beginnings .alone).times least most greedy)
  | .group _ p, k => k.join (p.beginnings .alone)
  | .seq p q, .behind b => q.beginnings (.behind (p.beginnings (.behind b)))
  | .seq p q, k => k.join (q.beginnings (.behind (p.beginnings (.behind .empty))))
  | .either p q, .beside b => q.beginnings (.beside (p.beginnings (.beside b)))
  | .either p q, k => k.join (q.beginnings (.beside (p.beginnings (.beside (some [])))))

def isPlain : Pattern → Bool
  | .empty | .text _ | .oneOf _ _ => true
  | .edge _ | .group _ _ => false
  | .times p _ _ _ => p.isPlain
  | .seq p q | .either p q => p.isPlain && q.isPlain

def manyTexts : Nat := 3000

def allTexts (ps : List Pattern) : Option (List (List Char)) :=
  ps.mapM fun p => match p with
    | .text cs => some cs
    | _ => none

def isTexts (p : Pattern) : Bool :=
  p.isPlain && ((p.beginnings .alone).suffice ||
    (allTexts p.branches).any fun texts => manyTexts ≤ texts.length)

end Pattern

end FuzzHarness.Log
