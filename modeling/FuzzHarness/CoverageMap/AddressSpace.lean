import FuzzHarness.CoverageMap.Memory

/-!
The address space of a process, by pages.

A mapping takes whole pages. At a fixed address it is refused where a page is taken; a hint is
followed where its pages are free and is otherwise as good as no address. Mappings without an
address go to the highest free place below the top of the address space or directly below another
mapping.
-/

namespace FuzzHarness

structure AddressSpace where
  blocks : List Block
  deriving DecidableEq, Repr

/-- What is left of a block without the pages of another: a part below and a part above. -/
def Block.without (b hole : Block) : List Block :=
  let below : Block := ⟨b.first, min (b.first + b.count) hole.first - b.first⟩
  let start := max b.first (hole.first + hole.count)
  let above : Block := ⟨start, b.first + b.count - start⟩
  [below, above].filter fun c => c.count ≠ 0

namespace AddressSpace
open Memory

def top : Nat := 0x7ffffffff000

def lowestHint : Nat := 0x10000

def Mapped (s : AddressSpace) (page : Nat) : Prop :=
  ∃ b ∈ s.blocks, b.Contains page

instance (s : AddressSpace) (page : Nat) : Decidable (s.Mapped page) :=
  inferInstanceAs (Decidable (∃ b ∈ s.blocks, b.Contains page))

def isFree (s : AddressSpace) (b : Block) : Bool :=
  s.blocks.all fun c => c.count = 0 || c.first + c.count ≤ b.first || b.first + b.count ≤ c.first

def insert (s : AddressSpace) (b : Block) : AddressSpace :=
  ⟨b :: s.blocks⟩

def remove (s : AddressSpace) (hole : Block) : AddressSpace :=
  ⟨s.blocks.flatMap fun b => b.without hole⟩

/-- Where that many pages go that have no address. -/
def place? (s : AddressSpace) (count : Nat) : Option Nat :=
  let ends := (top / pageSize :: s.blocks.map (·.first)).filter (· ≤ top / pageSize)
  let starts := (ends.filter fun e => count + lowestHint / pageSize ≤ e).map fun e => e - count
  (starts.filter fun first => s.isFree ⟨first, count⟩).max?

def mapAnywhere (s : AddressSpace) (count : Nat) : Except Errno Address × AddressSpace :=
  match s.place? count with
  | some first => (.ok (first * pageSize), s.insert ⟨first, count⟩)
  | none => (.error .noMemory, s)

def mapFixed (base size : Nat) (s : AddressSpace) : Except Errno Address × AddressSpace :=
  let block : Block := ⟨base / pageSize, pages size⟩
  if top < size || top < base + pages size * pageSize then (.error .noMemory, s)
  else if base % pageSize ≠ 0 then (.error .invalidArgument, s)
  else if !s.isFree block then (.error .fileExists, s)
  else (.ok base, s.insert block)

/-- The first page of a hint, raised to the lowest that is followed; page 0 is no hint at all. -/
def hintPage (base : Nat) : Nat :=
  if base < pageSize then 0 else max (base / pageSize) (lowestHint / pageSize)

def mapHint (base size : Nat) (s : AddressSpace) : Except Errno Address × AddressSpace :=
  let block : Block := ⟨hintPage base, pages size⟩
  if top < size then (.error .noMemory, s)
  else if block.first ≠ 0 && (block.first + block.count) * pageSize ≤ top && s.isFree block then
    (.ok (block.first * pageSize), s.insert block)
  else s.mapAnywhere (pages size)

def unmap (base size : Nat) (s : AddressSpace) : Except Errno Unit × AddressSpace :=
  if base % pageSize ≠ 0 || top < base + size || size = 0 then (.error .invalidArgument, s)
  else (.ok (), s.remove ⟨base / pageSize, pages size⟩)

def memory : Memory AddressSpace where
  mapFixed := mapFixed
  mapHint := mapHint
  unmap := unmap

def backend : MapBackend AddressSpace :=
  memory.backend

end AddressSpace

end FuzzHarness
