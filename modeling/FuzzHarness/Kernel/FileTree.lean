import FuzzHarness.Kernel.Errno
import FuzzHarness.Kernel.Path

/-!
Files, directories, symbolic links and two devices, and the walk that a path takes through them.

Nodes are numbered in the order of their creation and never removed. The walk goes name by name; a
link is replaced by the names of its target, at most `Route.maxLinks` times. It ends at a node, or
at the place in a directory where the last name is missing. Permissions are not modelled.
-/

namespace FuzzHarness

abbrev NodeId := Nat

inductive Node where
  | file (content : Bytes)
  | directory (parent : NodeId) (entries : List (Bytes × NodeId))
  | link (target : Bytes)
  | nullDevice
  | zeroDevice
  deriving DecidableEq, Repr

structure FileTree where
  nodes : List Node
  root : NodeId
  cwd : NodeId
  deriving Repr

inductive Place where
  | node (id : NodeId)
  | vacant (directory : NodeId) (name : Bytes)
  deriving DecidableEq, Repr

namespace FileTree

def node? (t : FileTree) (id : NodeId) : Option Node :=
  t.nodes[id]?

def content? (t : FileTree) (id : NodeId) : Option Bytes :=
  match t.node? id with
  | some (.file content) => some content
  | _ => none

def setNode (t : FileTree) (id : NodeId) (n : Node) : FileTree :=
  { t with nodes := t.nodes.set id n }

def addNode (t : FileTree) (n : Node) : NodeId × FileTree :=
  (t.nodes.length, { t with nodes := t.nodes ++ [n] })

def create (t : FileTree) (dir : NodeId) (name : Bytes) (n : Node) : NodeId × FileTree :=
  let (id, t) := t.addNode n
  match t.node? dir with
  | some (.directory parent entries) =>
      (id, t.setNode dir (.directory parent (entries ++ [(name, id)])))
  | _ => (id, t)

def child (t : FileTree) (dir : NodeId) (name : Bytes) : Except Errno (Option NodeId) :=
  match t.node? dir with
  | some (.directory parent entries) =>
    if name = Route.dot then .ok (some dir)
    else if name = Route.dotDot then .ok (some parent)
    else if name.length > Route.maxName then .error .nameTooLong
    else .ok (entries.lookup name)
  | _ => .error .notDirectory

/-- The walk through a list of names, given how it goes on at a link. A walk that may create its
last name refuses a final slash there, whatever the name leads to. -/
def walkWith (t : FileTree) (create : Bool)
    (follow : NodeId → List Bytes → Bool → Except Errno Place) :
    NodeId → List Bytes → Bool → Except Errno Place
  | dir, [], _ => .ok (.node dir)
  | dir, name :: rest, finalSlash =>
    if create && finalSlash && rest.isEmpty && !Route.isDots name then .error .isDirectory
    else match t.child dir name with
    | .error e => .error e
    | .ok none => if rest.isEmpty && !finalSlash then .ok (.vacant dir name) else .error .noEntry
    | .ok (some id) =>
      match t.node? id with
      | some (.link target) =>
        let route := Route.ofPath target
        follow (if route.absolute then t.root else dir) (route.names ++ rest)
          (finalSlash || (rest.isEmpty && route.finalSlash))
      | some (.directory _ _) => walkWith t create follow id rest finalSlash
      | some _ => if rest.isEmpty && !finalSlash then .ok (.node id) else .error .notDirectory
      | none => .error .noEntry

def walk (t : FileTree) (create : Bool) : Nat → NodeId → List Bytes → Bool → Except Errno Place
  | 0 => t.walkWith create fun _ _ _ => .error .linkLoop
  | links + 1 => t.walkWith create (t.walk create links)

def malformed? (path : Bytes) : Option Errno :=
  if path.isEmpty then some .noEntry
  else if path.length > Route.maxPath then some .nameTooLong
  else none

def resolve (t : FileTree) (create : Bool) (path : Bytes) : Except Errno Place :=
  match malformed? path with
  | some e => .error e
  | none =>
    let route := Route.ofPath path
    t.walk create Route.maxLinks
      (if route.absolute then t.root else t.cwd) route.names route.finalSlash

inductive Item where
  | file (content : Bytes)
  | directory
  | link (target : Bytes)
  deriving DecidableEq, Repr

def Item.node (parent : NodeId) : Item → Node
  | .file content => .file content
  | .directory => .directory parent []
  | .link target => .link target

/-- Puts an item at the end of a list of names, making the directories on the way. An existing file
is overwritten, also through links; an existing directory stays. -/
def install (t : FileTree) (dir : NodeId) (item : Item) : List Bytes → FileTree
  | [] => t
  | name :: rest =>
    let here := t.walk true Route.maxLinks dir [name] false
    if rest.isEmpty then
      match here, item with
      | .ok (.vacant d n), item => (t.create d n (item.node d)).2
      | .ok (.node id), .file content =>
        match t.node? id with
        | some (.file _) => t.setNode id (.file content)
        | _ => t
      | _, _ => t
    else match here with
      | .ok (.node id) => install t id item rest
      | .ok (.vacant d n) =>
        let (id, t) := t.create d n (.directory d [])
        install t id item rest
      | .error _ => t

theorem node?_setNode (t : FileTree) (id j : NodeId) (n : Node) :
    (t.setNode id n).node? j = if id = j ∧ id < t.nodes.length then some n else t.node? j := by
  simp only [node?, setNode, List.getElem?_set]
  by_cases h : id = j
  · subst h
    by_cases hl : id < t.nodes.length
    · simp [hl]
    · simp [hl]
  · simp [h]

end FileTree

end FuzzHarness
