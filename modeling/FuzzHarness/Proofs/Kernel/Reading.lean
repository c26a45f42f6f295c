import FuzzHarness.Input
import FuzzHarness.Proofs.Redirection.Steps

/-!
What a file gives as an input. That depends on the tree and on whether there is a descriptor left to
open it with, and on nothing else that the operating system knows. A redirection that succeeds
leaves a descriptor exactly where there was one before.
-/

namespace FuzzHarness

/-- The first bytes that a node gives when it is read. -/
def Node.start? (count : Nat) : Node → Option Bytes
  | .file content => some (content.take count)
  | .directory _ _ => none
  | .zeroDevice => some (List.replicate count 0)
  | .link _ | .nullDevice => some []

namespace FileTree

/-- The first bytes of what a path leads to, if that can be read. -/
def start? (t : FileTree) (path : Bytes) (count : Nat) : Option Bytes :=
  if path.hasNul then none
  else match t.resolve false path with
  | .ok (.node id) => (t.node? id).elim (some []) (Node.start? count)
  | _ => none

/-- The input that a path leads to: what can be read and is not empty, cut off where it is too
long. -/
def input? (t : FileTree) (path : Bytes) : Option Bytes :=
  (t.start? path maxFile).filter fun data => !data.isEmpty

end FileTree

namespace Kernel

variable {k k' : Kernel} {path : Bytes} {n : Nat}

def hasRoom (k : Kernel) : Bool :=
  k.lowestFree?.isSome

theorem lt_of_lowestFree (free : k.lowestFree? = some n) : n < k.limit :=
  List.mem_range.mp (List.mem_of_find?_eq_some free)

theorem hasRoom_of_free (inside : n < k.limit) (free : k.table n = none) : k.hasRoom = true := by
  refine List.find?_isSome.mpr ⟨n, List.mem_range.mpr inside, ?_⟩
  rw [free]
  rfl

theorem hasRoom_congr (table : k'.table = k.table) (limit : k'.limit = k.limit) :
    k'.hasRoom = k.hasRoom := by
  rw [hasRoom, lowestFree?, table, limit]
  rfl

theorem locate_read (k : Kernel) (path : Bytes) :
    k.locate path .read = match k.tree.resolve false path with
      | .error e => .error e
      | .ok (.vacant _ _) => .error .noEntry
      | .ok (.node id) => .ok (id, k.tree) := by
  have no_creation : decide (OpenMode.read = .append) = false := rfl
  rw [locate, no_creation]
  cases k.tree.resolve false path with
  | error e => rfl
  | ok place =>
      cases place with
      | vacant dir name => rfl
      | node id =>
          simp only
          split <;> rfl

theorem read_opened {fd : Fd} {slot : Nat} {id : NodeId} (count : Nat) (hs : k.slot? fd = some slot)
    (ho : k.opened[slot]? = some (OpenMode.openFile .read id)) :
    (k.read fd count).1.toOption = (k.tree.node? id).elim (some []) (Node.start? count) := by
  have readable : (OpenMode.openFile .read id).readable = true := rfl
  have at_node : (OpenMode.openFile .read id).node = id := rfl
  simp only [read, hs, ho, readable, at_node]
  cases k.tree.node? id with
  | none => rfl
  | some node => cases node <;> rfl

/-- What a path gives when it is read depends on the tree and on whether there is a descriptor
left. -/
theorem readPath_eq (k : Kernel) (path : Bytes) (count : Nat) :
    (k.readPath path count).1.toOption = if k.hasRoom then k.tree.start? path count else none := by
  unfold readPath openPath FileTree.start? hasRoom
  cases nul : path.hasNul with
  | true => simp [Except.toOption]
  | false =>
      cases malformed : FileTree.malformed? path with
      | some e => simp [Except.toOption, FileTree.resolve, malformed]
      | none =>
          cases free : k.lowestFree? with
          | none => rfl
          | some n =>
              simp only [locate_read, Option.isSome_some, if_true, Bool.false_eq_true, if_false]
              cases k.tree.resolve false path with
              | error e => rfl
              | ok place =>
                  cases place with
                  | vacant dir name => rfl
                  | node id =>
                      let fresh : Kernel :=
                        { k with opened := k.opened ++ [OpenMode.openFile .read id] }.assign n
                          (some k.opened.length)
                      have referred : fresh.slot? (Int.ofNat n) = some k.opened.length := by
                        simp [fresh, slot?, assign]
                      have started :
                          fresh.opened[k.opened.length]? = some (OpenMode.openFile .read id) := by
                        simp [fresh, assign]
                      have read := read_opened count referred started
                      refine Eq.trans ?_ read
                      change ((fresh.read (Int.ofNat n) count).1.mapError IoError.os).toOption = _
                      cases (fresh.read (Int.ofNat n) count).1 <;> rfl

theorem limit_write (k : Kernel) (fd : Fd) (data : Bytes) :
    (k.write fd data).2.limit = k.limit := by
  rcases k.writable_or_closed fd with ⟨slot, f, hs, ho, hw⟩ | closed
  · rw [write_open hs ho hw]
    split
    · split <;> rfl
    · rfl
  · rw [write_closed data closed]

theorem limit_openPath (k : Kernel) (path : Bytes) (mode : OpenMode) :
    (k.openPath path mode).2.limit = k.limit := by
  rcases outcome : k.openPath path mode with ⟨result, k'⟩
  cases result with
  | error e => rw [openPath_error outcome]
  | ok fd =>
      obtain ⟨n, id, tree, -, -, -, rfl⟩ := openPath_ok outcome
      rfl

theorem limit_close (k : Kernel) (fd : Fd) : (k.close fd).limit = k.limit := by
  cases fd <;> rfl

theorem limit_read (k : Kernel) (fd : Fd) (count : Nat) : (k.read fd count).2.limit = k.limit := by
  unfold read
  split
  · rfl
  · rename_i slot _
    split
    · rfl
    · rename_i found
      split
      · rfl
      · split
        · simp only [seek, found]
        · rfl
        · rfl
        · rfl

theorem limit_readPath (k : Kernel) (path : Bytes) (count : Nat) :
    (k.readPath path count).2.limit = k.limit := by
  have opened := limit_openPath k path .read
  unfold readPath
  split
  · rename_i outcome
    rwa [outcome] at opened
  · rename_i outcome
    rw [outcome] at opened
    exact (limit_close _ _).trans ((limit_read _ _ _).trans opened)

theorem limit_duplicate (k : Kernel) (fd : Fd) : (k.duplicate fd).2.limit = k.limit := by
  rcases outcome : k.duplicate fd with ⟨result, k'⟩
  cases result with
  | error e => rw [duplicate_error outcome]
  | ok fresh =>
      obtain ⟨n, slot, -, -, -, rfl⟩ := duplicate_ok outcome
      rfl

theorem limit_duplicateOnto (k : Kernel) (fd onto : Fd) :
    (k.duplicateOnto fd onto).2.limit = k.limit := by
  rcases outcome : k.duplicateOnto fd onto with ⟨result, k'⟩
  cases result with
  | error e => rw [duplicateOnto_error outcome]
  | ok done =>
      obtain ⟨n, slot, -, -, rfl⟩ := duplicateOnto_ok outcome
      rfl

theorem table_close (k : Kernel) (n : Nat) : (k.close (Int.ofNat n)).table n = none := by
  simp [close, assign]

end Kernel

theorem World.limit_log (w : World) (n : Notice) : (w.log n).kernel.limit = w.kernel.limit := by
  unfold log
  split
  · exact Kernel.limit_write _ _ _
  · rfl

namespace Redirection
open Kernel

variable {w w' : World} {fd : Fd} {streams : StdStreams} {policy : RedirectionPolicy}

theorem Steps.limit_eq (h : Steps w w') : w'.kernel.limit = w.kernel.limit := by
  induction h with
  | refl => rfl
  | openPath path mode _ ih => exact (limit_openPath _ path mode).trans ih
  | duplicate fd _ ih => exact (limit_duplicate _ fd).trans ih
  | duplicateOnto fd onto _ ih => exact (limit_duplicateOnto _ fd onto).trans ih
  | close fd _ ih => exact (limit_close _ fd).trans ih
  | log n _ ih => exact (World.limit_log _ n).trans ih

theorem Steps.hasRoom {n : Nat} (h : Steps w w') (free : w.kernel.lowestFree? = some n)
    (closed : w'.kernel.table n = none) : w.kernel.hasRoom = true ∧ w'.kernel.hasRoom = true := by
  refine ⟨?_, hasRoom_of_free ?_ closed⟩
  · rw [Kernel.hasRoom, free]
    rfl
  · rw [h.limit_eq]
    exact lt_of_lowestFree free

theorem hasRoom_discard (h : discard fd w = (.ok (), w')) :
    w.kernel.hasRoom = true ∧ w'.kernel.hasRoom = true := by
  have steps : Steps w w' := by
    have discarded := steps_discard fd w
    rwa [h] at discarded
  unfold discard at h
  split at h
  · cases h
  · rename_i outcome
    obtain ⟨n, id, tree, rfl, free, -, -⟩ := openPath_ok outcome
    refine steps.hasRoom free ?_
    rw [← (Prod.mk.inj h).2]
    exact table_close _ n

theorem hasRoom_appendTo {path : Bytes} {stderr : Fd} (h : appendTo path stderr w = (.ok (), w')) :
    w.kernel.hasRoom = true ∧ w'.kernel.hasRoom = true := by
  have steps : Steps w w' := by
    have appended := steps_appendTo path stderr w
    rwa [h] at appended
  unfold appendTo at h
  split at h
  · cases h
  · rename_i outcome
    obtain ⟨n, id, tree, rfl, free, -, -⟩ := openPath_ok outcome
    refine steps.hasRoom free ?_
    split at h
    · cases h
    · rw [← (Prod.mk.inj h).2]
      exact table_close _ n

theorem hasRoom_keepAndDiscard {stderr : Fd} {d : DiagnosticStream}
    (h : keepAndDiscard stderr w = (.ok d, w')) :
    w.kernel.hasRoom = true ∧ w'.kernel.hasRoom = true := by
  unfold keepAndDiscard at h
  split at h
  · cases h
  · rename_i kept
    obtain ⟨n, slot, -, free, -⟩ := keep_ok kept
    refine ⟨by rw [hasRoom, free]; rfl, ?_⟩
    split at h
    · cases h
    · rename_i discarded
      obtain ⟨-, rfl⟩ := Prod.mk.inj h
      exact (hasRoom_discard discarded).2

theorem hasRoom_silence {d : DiagnosticStream} (h : silence streams policy w = (.ok d, w')) :
    w'.kernel.hasRoom = w.kernel.hasRoom := by
  unfold silence at h
  split at h
  · cases h
  · rename_i v outcome
    have first : v.kernel.hasRoom = w.kernel.hasRoom := by
      split at outcome
      · obtain ⟨before, after⟩ := hasRoom_discard outcome
        rw [before, after]
      · rw [(Prod.mk.inj outcome).2]
    split at h
    · obtain ⟨before, after⟩ := hasRoom_keepAndDiscard h
      rw [after, ← before, first]
    · rw [← (Prod.mk.inj h).2, first]

/-- A redirection that succeeds gives back what it takes: files can be opened after it if they could
before. -/
theorem hasRoom_apply {d : DiagnosticStream} (h : apply streams policy w = (.ok d, w')) :
    w'.kernel.hasRoom = w.kernel.hasRoom := by
  rw [apply_eq] at h
  split at h
  · cases h
  · rename_i v outcome
    rw [hasRoom_silence h]
    unfold appending at outcome
    split at outcome
    · obtain ⟨before, after⟩ := hasRoom_appendTo outcome
      rw [before, after]
    · rw [(Prod.mk.inj outcome).2]

end Redirection

end FuzzHarness
