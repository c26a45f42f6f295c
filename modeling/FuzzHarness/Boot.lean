import FuzzHarness.World

/-!
A process as it starts: a small file tree with the two devices and an empty working directory, three
open files for the standard streams, and nothing said yet.
-/

namespace FuzzHarness

namespace FileTree

/-- The nodes of the tree that a process starts with, in the order of their numbers. -/
def bootNodes : List Node :=
  [.directory 0 [(Bytes.ofString "dev", 1), (Bytes.ofString "tmp", 2)],
    .directory 0 [(Bytes.ofString "null", 4), (Bytes.ofString "zero", 5)],
    .directory 0 [(Bytes.ofString "work", 3)],
    .directory 2 [],
    .nullDevice,
    .zeroDevice,
    .file [],
    .file [],
    .file []]

def rootDirectory : NodeId := 0

def workDirectory : NodeId := 3

/-- The file behind standard input, which no path leads to. -/
def stdinNode : NodeId := 6

def stdoutNode : NodeId := 7

def stderrNode : NodeId := 8

def boot : FileTree :=
  ⟨bootNodes, rootDirectory, workDirectory⟩

end FileTree

namespace Kernel

def defaultLimit : Nat := 1024

def streamFile (node : NodeId) (writable : Bool) : OpenFile :=
  ⟨node, 0, false, !writable, writable⟩

def boot (environment : Environment) : Kernel where
  tree := FileTree.boot
  opened := [streamFile FileTree.stdinNode false, streamFile FileTree.stdoutNode true,
    streamFile FileTree.stderrNode true]
  table n := if n < 3 then some n else none
  limit := defaultLimit
  environment

/-- Puts an item into the tree. An absolute path starts at the root, any other in the working
directory. -/
def install (k : Kernel) (path : Bytes) (item : FileTree.Item) : Kernel :=
  let route := Route.ofPath path
  { k with
    tree := k.tree.install (if route.absolute then k.tree.root else k.tree.cwd) item route.names }

/-- Opens a new empty file that no path leads to, for writing, and answers with its descriptor and
its node. There is no descriptor if the table is full. -/
def openUnnamed (k : Kernel) : Option (Fd × NodeId) × Kernel :=
  match k.lowestFree? with
  | none => (none, k)
  | some n =>
    let (node, tree) := k.tree.addNode (.file [])
    let opened := k.opened ++ [streamFile node true]
    (some (n, node), { k with tree, opened }.assign n (some k.opened.length))

end Kernel

namespace World

def boot (environment : Environment) (filter : Option Log.Filter) : World :=
  ⟨Kernel.boot environment, 2, filter, [], []⟩

def printed (w : World) : Bytes :=
  (w.kernel.tree.content? FileTree.stdoutNode).getD []

def reported (w : World) : Bytes :=
  (w.kernel.tree.content? FileTree.stderrNode).getD []

end World

end FuzzHarness
