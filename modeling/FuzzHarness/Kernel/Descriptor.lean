import FuzzHarness.Kernel.Environment
import FuzzHarness.Kernel.FileTree
import FuzzHarness.Kernel.IoError

/-!
The operating system as one process sees it: the file tree, the files it has open, its descriptor
table and its environment.

A descriptor refers to an open file, an open file to a node. Duplicated descriptors share the open
file and with it the offset. A new descriptor is the lowest free number below the limit; with none
free, nothing is opened or duplicated. Open files are numbered in the order of opening and stay
recorded after their last descriptor is closed.
-/

namespace FuzzHarness

/-- A descriptor number; negative numbers are never open. -/
abbrev Fd := Int

/-- An open file; one that appends writes to the end of its node, wherever the offset stands. -/
structure OpenFile where
  node : NodeId
  offset : Nat
  appending : Bool
  readable : Bool
  writable : Bool
  deriving DecidableEq, Repr

/-- What a path is opened for: reading; reading and appending, which creates a missing file; or
writing an existing file from its start. -/
inductive OpenMode where
  | read
  | append
  | write
  deriving DecidableEq, Repr

structure Kernel where
  tree : FileTree
  opened : List OpenFile
  table : Nat → Option Nat
  limit : Nat
  environment : Environment

/-- A file's content after bytes were written at an offset; a gap before them is filled with zero
bytes. -/
def overwrite (content : Bytes) (offset : Nat) (data : Bytes) : Bytes :=
  content.take offset ++ List.replicate (offset - content.length) 0 ++ data ++
    content.drop (offset + data.length)

theorem overwrite_at_end (content data : Bytes) :
    overwrite content content.length data = content ++ data := by
  simp [overwrite]

namespace Kernel

def slot? (k : Kernel) : Fd → Option Nat
  | .ofNat n => k.table n
  | .negSucc _ => none

def openFile? (k : Kernel) (fd : Fd) : Option OpenFile :=
  (k.slot? fd).bind fun slot => k.opened[slot]?

def target? (k : Kernel) (fd : Fd) : Option NodeId :=
  (k.openFile? fd).map (·.node)

def lowestFree? (k : Kernel) : Option Nat :=
  (List.range k.limit).find? fun n => (k.table n).isNone

def assign (k : Kernel) (n : Nat) (slot : Option Nat) : Kernel :=
  { k with table := fun m => if m = n then slot else k.table m }

def close (k : Kernel) : Fd → Kernel
  | .ofNat n => k.assign n none
  | .negSucc _ => k

def locate (k : Kernel) (path : Bytes) (mode : OpenMode) : Except Errno (NodeId × FileTree) :=
  match k.tree.resolve (mode = .append) path with
  | .error e => .error e
  | .ok (.vacant dir name) =>
    if mode = .append then .ok (k.tree.create dir name (.file [])) else .error .noEntry
  | .ok (.node id) =>
    match k.tree.node? id with
    | some (.directory _ _) => if mode = .read then .ok (id, k.tree) else .error .isDirectory
    | _ => .ok (id, k.tree)

def OpenMode.openFile (mode : OpenMode) (node : NodeId) : OpenFile where
  node := node
  offset := 0
  appending := mode = .append
  readable := mode ≠ .write
  writable := mode ≠ .read

/-- Opens a path. A path that is no path at all is refused first, then a full descriptor table, then
what the walk meets. -/
def openPath (k : Kernel) (path : Bytes) (mode : OpenMode) : Except IoError Fd × Kernel :=
  if path.hasNul then (.error .nulInPath, k)
  else match FileTree.malformed? path with
  | some e => (.error (.os e), k)
  | none =>
    match k.lowestFree? with
    | none => (.error (.os .tooManyOpen), k)
    | some n =>
      match k.locate path mode with
      | .error e => (.error (.os e), k)
      | .ok (node, tree) =>
        let opened := k.opened ++ [OpenMode.openFile mode node]
        (.ok n, { k with tree, opened }.assign n (some k.opened.length))

def duplicate (k : Kernel) (fd : Fd) : Except Errno Fd × Kernel :=
  match k.slot? fd with
  | none => (.error .badDescriptor, k)
  | some slot =>
    match k.lowestFree? with
    | none => (.error .tooManyOpen, k)
    | some n => (.ok n, k.assign n (some slot))

def duplicateOnto (k : Kernel) (fd onto : Fd) : Except Errno Unit × Kernel :=
  match k.slot? fd, onto with
  | some slot, .ofNat n =>
      if n < k.limit then (.ok (), k.assign n (some slot)) else (.error .badDescriptor, k)
  | _, _ => (.error .badDescriptor, k)

def seek (k : Kernel) (slot offset : Nat) : Kernel :=
  match k.opened[slot]? with
  | some file => { k with opened := k.opened.set slot { file with offset } }
  | none => k

/-- Writes bytes through a descriptor. Devices swallow them. -/
def write (k : Kernel) (fd : Fd) (data : Bytes) : Except Errno Unit × Kernel :=
  match k.slot? fd with
  | none => (.error .badDescriptor, k)
  | some slot =>
    match k.opened[slot]? with
    | none => (.error .badDescriptor, k)
    | some file =>
      if !file.writable then (.error .badDescriptor, k)
      else match k.tree.node? file.node with
      | some (.file content) =>
        if data.isEmpty then (.ok (), k)
        else
          let offset := if file.appending then content.length else file.offset
          let tree := k.tree.setNode file.node (.file (overwrite content offset data))
          (.ok (), { k with tree }.seek slot (offset + data.length))
      | _ => (.ok (), k)

def read (k : Kernel) (fd : Fd) (count : Nat) : Except Errno Bytes × Kernel :=
  match k.slot? fd with
  | none => (.error .badDescriptor, k)
  | some slot =>
    match k.opened[slot]? with
    | none => (.error .badDescriptor, k)
    | some file =>
      if !file.readable then (.error .badDescriptor, k)
      else match k.tree.node? file.node with
      | some (.file content) =>
        let data := (content.drop file.offset).take count
        (.ok data, k.seek slot (file.offset + data.length))
      | some (.directory _ _) => (.error .isDirectory, k)
      | some .zeroDevice => (.ok (List.replicate count 0), k)
      | _ => (.ok [], k)

def readPath (k : Kernel) (path : Bytes) (count : Nat) : Except IoError Bytes × Kernel :=
  match k.openPath path .read with
  | (.error e, k) => (.error e, k)
  | (.ok fd, k) =>
    let (result, k) := k.read fd count
    (result.mapError .os, k.close fd)

def contentAt? (k : Kernel) (path : Bytes) : Option Bytes :=
  match k.tree.resolve false path with
  | .ok (.node id) =>
    match k.tree.node? id with
    | some (.file content) => some content
    | some .nullDevice => some []
    | _ => none
  | _ => none

end Kernel

end FuzzHarness
