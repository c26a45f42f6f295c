import FuzzHarness.Input

/-!
A stream of inputs that is read from a script.

A read takes from the item in front alone, however much more it asks for. An item of bytes is used
up once its last byte is out; one without bytes is used up by a read that gives nothing.
-/

namespace FuzzHarness.Scripted

inductive StreamItem where
  | bytes (rest : Bytes)
  | fail (cause : IoError)
  | endless (byte : UInt8)
  deriving DecidableEq, Repr

namespace StreamItem

/-- The items that stay when bytes were read from the one in front. -/
def afterBytes (left : Bytes) (rest : List StreamItem) : List StreamItem :=
  if left.isEmpty then rest else .bytes left :: rest

/-- One read of at most so many bytes. After the last item there is nothing more to read. -/
def read (n : Nat) : List StreamItem → Except IoError Bytes × List StreamItem
  | [] => (.ok [], [])
  | .bytes s :: rest => (.ok (s.take n), afterBytes (s.drop n) rest)
  | .fail cause :: rest => (.error cause, rest)
  | .endless byte :: rest => (.ok (List.replicate n byte), .endless byte :: rest)

theorem length_read_le {n : Nat} {items : List StreamItem} {data : Bytes} {items' : List StreamItem}
    (h : read n items = (.ok data, items')) : data.length ≤ n := by
  cases items with
  | nil =>
      simp only [read, Prod.mk.injEq, Except.ok.injEq] at h
      simp [← h.1]
  | cons item rest =>
      cases item with
      | bytes s =>
          simp only [read, Prod.mk.injEq, Except.ok.injEq] at h
          rw [← h.1]
          exact List.length_take_le n s
      | fail cause => simp [read] at h
      | endless byte =>
          simp only [read, Prod.mk.injEq, Except.ok.injEq] at h
          simp [← h.1]

def reader : Reader (List StreamItem) where
  read := read
  length_le := length_read_le

end StreamItem

end FuzzHarness.Scripted
