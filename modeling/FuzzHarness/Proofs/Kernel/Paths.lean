import FuzzHarness.Kernel.Descriptor

/-!
Where paths lead while files change. A path that leads to a node leads to it after files were
written and after files were created; a place that is vacant stays so until something is created
there.
-/

namespace FuzzHarness

theorem Route.names_ofPath_ne_nil {path : Bytes} (some_path : path ≠ [])
    (relative : (ofPath path).absolute = false) : (ofPath path).names ≠ [] := by
  cases path with
  | nil => exact absurd rfl some_path
  | cons b path =>
      have no_slash : (b == Bytes.slash) = false := by simpa [ofPath] using relative
      obtain ⟨first, more, split⟩ :=
        List.exists_cons_of_ne_nil (List.splitOnP_ne_nil (· == Bytes.slash) path)
      simp [ofPath, List.splitOn_eq_splitOnP, List.splitOnP_cons_eq_if_modifyHead, no_slash, split]

/-- A node without what it holds. -/
def Node.shape : Node → Node
  | .file _ => .file []
  | .directory parent _ => .directory parent []
  | n => n

namespace FileTree

variable {t t' t'' : FileTree}

/-- Every node of a tree is in another, as the same kind of node and under the same names. -/
structure Grows (t t' : FileTree) : Prop where
  root : t'.root = t.root
  cwd : t'.cwd = t.cwd
  length : t.nodes.length ≤ t'.nodes.length
  shape : ∀ {id n}, t.node? id = some n → ∃ n', t'.node? id = some n' ∧ n'.shape = n.shape
  child : ∀ {dir name id}, t.child dir name = .ok (some id) → t'.child dir name = .ok (some id)

theorem Grows.refl (t : FileTree) : Grows t t :=
  ⟨rfl, rfl, Nat.le_refl _, fun h => ⟨_, h, rfl⟩, id⟩

theorem Grows.trans (h : Grows t t') (h' : Grows t' t'') : Grows t t'' where
  root := h'.root.trans h.root
  cwd := h'.cwd.trans h.cwd
  length := Nat.le_trans h.length h'.length
  shape := by
    intro id n found
    obtain ⟨n', found', same⟩ := h.shape found
    obtain ⟨n'', found'', same'⟩ := h'.shape found'
    exact ⟨n'', found'', same'.trans same⟩
  child found := h'.child (h.child found)

theorem Grows.of_shape (root : t'.root = t.root)
    (cwd : t'.cwd = t.cwd) (length : t.nodes.length ≤ t'.nodes.length)
    (shape : ∀ j, (t'.node? j).map Node.shape = (t.node? j).map Node.shape)
    (child : ∀ dir name, t'.child dir name = t.child dir name) : Grows t t' where
  root := root
  cwd := cwd
  length := length
  shape := by
    intro j n found
    have same := shape j
    rw [found, Option.map_some] at same
    exact Option.map_eq_some_iff.mp same
  child := by
    intro dir name j found
    rw [child, found]

/-- The same place is found by a walk in a tree that grew, unless it was vacant and is no more. -/
theorem walkWith_of_grows (h : Grows t t') {create : Bool} {p : Place}
    (hp : ∀ dir name, p = .vacant dir name → t.child dir name = .ok none →
      t'.child dir name = .ok none)
    {follow follow' : NodeId → List Bytes → Bool → Except Errno Place}
    (hf : ∀ dir names slash, follow dir names slash = .ok p → follow' dir names slash = .ok p)
    {dir : NodeId} {names : List Bytes} {slash : Bool}
    (found : t.walkWith create follow dir names slash = .ok p) :
    t'.walkWith create follow' dir names slash = .ok p := by
  induction names generalizing dir with
  | nil => exact found
  | cons name rest ih =>
      simp only [walkWith] at found ⊢
      split at found
      · cases found
      · rename_i slash_ok
        rw [if_neg slash_ok]
        split at found
        · cases found
        · rename_i missing
          split at found
          · rename_i last
            obtain rfl : Place.vacant dir name = p := Except.ok.inj found
            rw [hp dir name rfl missing]
            simp only [last, if_true]
          · cases found
        · rename_i id entered
          rw [h.child entered]
          simp only
          split at found
          · rename_i target node
            obtain ⟨n', node', same⟩ := h.shape node
            obtain rfl : n' = .link target := by
              cases n' <;> simp [Node.shape] at same
              exact congrArg _ same
            rw [node', h.root]
            exact hf _ _ _ found
          · rename_i parent entries node
            obtain ⟨n', node', same⟩ := h.shape node
            obtain ⟨entries', rfl⟩ : ∃ entries', n' = .directory parent entries' := by
              cases n' <;> simp [Node.shape] at same
              exact ⟨_, congrArg (Node.directory · _) same⟩
            rw [node']
            exact ih found
          · rename_i n not_link not_directory node
            obtain ⟨n', node', same⟩ := h.shape node
            rw [node']
            cases n' with
            | link target =>
                cases n <;> simp [Node.shape] at same
                exact absurd rfl (not_link _)
            | directory parent entries =>
                cases n <;> simp [Node.shape] at same
                exact absurd rfl (not_directory _ _)
            | file content => exact found
            | nullDevice => exact found
            | zeroDevice => exact found
          · cases found

theorem walk_of_grows (h : Grows t t') {create : Bool} {p : Place}
    (hp : ∀ dir name, p = .vacant dir name → t.child dir name = .ok none →
      t'.child dir name = .ok none)
    {links : Nat} {dir : NodeId} {names : List Bytes} {slash : Bool}
    (found : t.walk create links dir names slash = .ok p) :
    t'.walk create links dir names slash = .ok p := by
  induction links generalizing dir names slash with
  | zero => exact walkWith_of_grows h hp (fun _ _ _ no_link => by cases no_link) found
  | succ links ih => exact walkWith_of_grows h hp (fun _ _ _ later => ih later) found

theorem resolve_of_grows (h : Grows t t') {create : Bool} {p : Place} {path : Bytes}
    (hp : ∀ dir name, p = .vacant dir name → t.child dir name = .ok none →
      t'.child dir name = .ok none)
    (found : t.resolve create path = .ok p) : t'.resolve create path = .ok p := by
  unfold resolve at found ⊢
  split at found
  · cases found
  · simp only [h.root, h.cwd]
    exact walk_of_grows h hp found

theorem resolve_node_of_grows (h : Grows t t') {create : Bool} {id : NodeId} {path : Bytes}
    (found : t.resolve create path = .ok (.node id)) : t'.resolve create path = .ok (.node id) :=
  resolve_of_grows h (fun _ _ vacant => by cases vacant) found

theorem node?_of_child {dir : NodeId} {name : Bytes} {next : Option NodeId}
    (entered : t.child dir name = .ok next) :
    ∃ n, t.node? dir = some n := by
  unfold child at entered
  split at entered
  · rename_i here
    exact ⟨_, here⟩
  · cases entered

theorem node?_of_walkWith {create : Bool} {follow : NodeId → List Bytes → Bool → Except Errno Place}
    {id : NodeId} (root : ∃ n, t.node? t.root = some n)
    (hf :
      ∀ {dir names slash}, (∃ n, t.node? dir = some n) → follow dir names slash = .ok (.node id) →
      ∃ n, t.node? id = some n)
    {dir : NodeId} {names : List Bytes} {slash : Bool}
    (start : names = [] → ∃ n, t.node? dir = some n)
    (found : t.walkWith create follow dir names slash = .ok (.node id)) :
    ∃ n, t.node? id = some n := by
  induction names generalizing dir with
  | nil =>
      obtain rfl : dir = id := by simpa [walkWith] using found
      exact start rfl
  | cons name rest ih =>
      simp only [walkWith] at found
      split at found
      · cases found
      · split at found
        · cases found
        · split at found <;> cases found
        · rename_i next entered
          split at found
          · refine hf ?_ found
            split
            · exact root
            · exact node?_of_child entered
          · rename_i there
            exact ih (fun _ => ⟨_, there⟩) found
          · rename_i there
            split at found
            · obtain rfl : next = id := by simpa using found
              exact ⟨_, there⟩
            · cases found
          · cases found

theorem node?_of_walk {create : Bool} {id : NodeId} (root : ∃ n, t.node? t.root = some n)
    {links : Nat} {dir : NodeId} {names : List Bytes}
    {slash : Bool} (start : names = [] → ∃ n, t.node? dir = some n)
    (found : t.walk create links dir names slash = .ok (.node id)) : ∃ n, t.node? id = some n := by
  induction links generalizing dir names slash with
  | zero => exact node?_of_walkWith root (fun _ no_link => by cases no_link) start found
  | succ links ih =>
      exact node?_of_walkWith root (fun here later => ih (fun _ => here) later) start found

theorem node?_of_resolve {create : Bool} {path : Bytes} {id : NodeId}
    (root : ∃ n, t.node? t.root = some n) (found : t.resolve create path = .ok (.node id)) :
    ∃ n, t.node? id = some n := by
  unfold resolve at found
  split at found
  · cases found
  · rename_i well_formed
    refine node?_of_walk root (fun none_left => ?_) found
    split
    · exact root
    · rename_i relative
      have some_path : path ≠ [] := by
        rintro rfl
        simp [malformed?] at well_formed
      exact absurd none_left (Route.names_ofPath_ne_nil some_path (by simpa using relative))

theorem node?_root_of_resolve {create : Bool} {path : Bytes} {p : Place}
    {name : Bytes} {rest : List Bytes} (absolute : (Route.ofPath path).absolute = true)
    (names : (Route.ofPath path).names = name :: rest) (found : t.resolve create path = .ok p) :
    ∃ n, t.node? t.root = some n := by
  have entered : ∀ {follow : NodeId → List Bytes → Bool → Except Errno Place} {slash : Bool},
      t.walkWith create follow t.root (name :: rest) slash = .ok p →
      ∃ n, t.node? t.root = some n := by
    intro follow slash walked
    simp only [walkWith] at walked
    split at walked
    · cases walked
    · split at walked
      · cases walked
      · rename_i entered
        exact node?_of_child entered
      · rename_i entered
        exact node?_of_child entered
  unfold resolve at found
  split at found
  · cases found
  · simp only [names, absolute, if_true] at found
    exact entered found

/-- Two trees that differ in nothing but what their files hold. -/
structure SameShape (t t' : FileTree) : Prop where
  grows : Grows t t'
  shrinks : Grows t' t
  child : ∀ dir name, t'.child dir name = t.child dir name

theorem SameShape.refl (t : FileTree) : SameShape t t :=
  ⟨.refl t, .refl t, fun _ _ => rfl⟩

theorem SameShape.symm (h : SameShape t t') : SameShape t' t :=
  ⟨h.shrinks, h.grows, fun dir name => (h.child dir name).symm⟩

theorem SameShape.trans (h : SameShape t t') (h' : SameShape t' t'') : SameShape t t'' :=
  ⟨h.grows.trans h'.grows, h'.shrinks.trans h.shrinks,
    fun dir name => (h'.child dir name).trans (h.child dir name)⟩

theorem SameShape.resolve (h : SameShape t t') {create : Bool} {p : Place} {path : Bytes}
    (found : t.resolve create path = .ok p) : t'.resolve create path = .ok p :=
  resolve_of_grows h.grows (fun dir name _ missing => (h.child dir name).trans missing) found

theorem SameShape.length (h : SameShape t t') : t'.nodes.length = t.nodes.length :=
  Nat.le_antisymm h.shrinks.length h.grows.length

theorem child_setNode_file {id : NodeId} {content : Bytes}
    (hn : t.node? id = some (.file content)) (data : Bytes) (dir : NodeId) (name : Bytes) :
    (t.setNode id (.file data)).child dir name = t.child dir name := by
  unfold child
  rw [node?_setNode]
  by_cases here : id = dir ∧ id < t.nodes.length
  · rw [if_pos here, ← here.1, hn]
  · rw [if_neg here]

theorem shape_setNode_file {id j : NodeId} {content : Bytes}
    (hn : t.node? id = some (.file content)) (data : Bytes) :
    ((t.setNode id (.file data)).node? j).map Node.shape = (t.node? j).map Node.shape := by
  rw [node?_setNode]
  split
  · rename_i here
    rw [← here.1, hn]
    rfl
  · rfl

theorem sameShape_setNode_file {id : NodeId} {content : Bytes}
    (hn : t.node? id = some (.file content)) (data : Bytes) :
    SameShape t (t.setNode id (.file data)) where
  grows := .of_shape rfl rfl (by simp [setNode])
    (fun _ => shape_setNode_file hn data) (child_setNode_file hn data)
  shrinks := .of_shape rfl rfl (by simp [setNode]) (fun _ => (shape_setNode_file hn data).symm)
    fun dir name => (child_setNode_file hn data dir name).symm
  child := child_setNode_file hn data

theorem node?_addNode (t : FileTree) (n : Node) (j : NodeId) :
    (t.addNode n).2.node? j = if j = t.nodes.length then some n else t.node? j := by
  simp only [addNode, node?, List.getElem?_append]
  rcases Nat.lt_trichotomy j t.nodes.length with before | same | after
  · rw [if_pos before, if_neg (Nat.ne_of_lt before)]
  · simp [same]
  · rw [if_neg (Nat.lt_asymm after), if_neg (Nat.ne_of_gt after),
      List.getElem?_eq_none (Nat.le_of_lt after), List.getElem?_eq_none (by simp; omega)]

theorem node?_length (t : FileTree) : t.node? t.nodes.length = none := by
  simp [node?]

theorem node?_create (t : FileTree) (dir : NodeId) (name : Bytes) (j : NodeId) :
    (t.create dir name (.file [])).1 = t.nodes.length ∧
      ((t.create dir name (.file [])).2.node? j =
        (if j = t.nodes.length then some (.file []) else t.node? j) ∨
        j = dir ∧ ∃ parent entries, t.node? dir = some (.directory parent entries) ∧
          (t.create dir name (.file [])).2.node? j =
            some (.directory parent (entries ++ [(name, t.nodes.length)]))) := by
  have added := node?_addNode t (.file [])
  unfold create
  simp only
  split
  · rename_i parent entries found
    refine ⟨rfl, ?_⟩
    rw [node?_setNode]
    split
    · rename_i here
      refine .inr ⟨here.1.symm, parent, entries, ?_, rfl⟩
      rw [added] at found
      split at found
      · cases found
      · exact found
    · exact .inl (added j)
  · exact ⟨rfl, .inl (added j)⟩

theorem grows_create (t : FileTree) (dir : NodeId) (name : Bytes) :
    Grows t (t.create dir name (.file [])).2 where
  root := by
    unfold create
    simp only
    split <;> rfl
  cwd := by
    unfold create
    simp only
    split <;> rfl
  length := by
    unfold create
    simp only
    split <;> simp [setNode, addNode]
  shape := by
    intro id n found
    have old : id ≠ t.nodes.length := by
      rintro rfl
      simp [node?_length] at found
    rcases (node?_create t dir name id).2 with same | ⟨rfl, parent, entries, directory, entered⟩
    · rw [if_neg old] at same
      exact ⟨n, same.trans found, rfl⟩
    · rw [directory] at found
      cases found
      exact ⟨_, entered, rfl⟩
  child := by
    intro d m id found
    have old : d ≠ t.nodes.length := by
      rintro rfl
      simp [child, node?_length] at found
    rcases (node?_create t dir name d).2 with same | ⟨rfl, parent, entries, directory, entered⟩
    · rw [if_neg old] at same
      simpa only [child, same] using found
    · simp only [child, directory] at found
      simp only [child, entered]
      split at found
      · rw [if_pos (by assumption)]
        exact found
      · rw [if_neg (by assumption)]
        split at found
        · rw [if_pos (by assumption)]
          exact found
        · rw [if_neg (by assumption)]
          split at found
          · cases found
          · rw [if_neg (by assumption)]
            have entry := Except.ok.inj found
            rw [List.lookup_append, entry]
            rfl

theorem content?_create (t : FileTree) (dir : NodeId) (name : Bytes) (j : NodeId) :
    (t.create dir name (.file [])).2.content? j =
      if j = t.nodes.length then some [] else t.content? j := by
  rcases (node?_create t dir name j).2 with same | ⟨rfl, parent, entries, directory, entered⟩
  · rw [content?, same]
    by_cases new : j = t.nodes.length
    · rw [if_pos new, if_pos new]
    · rw [if_neg new, if_neg new, content?]
  · have old : j ≠ t.nodes.length := by
      rintro rfl
      simp [node?_length] at directory
    rw [if_neg old, content?, content?, entered, directory]

end FileTree

namespace Kernel

variable {k k' : Kernel} {path : Bytes} {id : NodeId} {tree : FileTree}

theorem locate_append_cases (h : k.locate path .append = .ok (id, tree)) :
    (k.tree.resolve true path = .ok (.node id) ∧ tree = k.tree ∧ ∀ parent entries,
        k.tree.node? id ≠ some (.directory parent entries)) ∨
      ∃ dir name, k.tree.resolve true path = .ok (.vacant dir name) ∧ id = k.tree.nodes.length ∧
        tree = (k.tree.create dir name (.file [])).2 := by
  simp only [locate, decide_true] at h
  split at h
  · cases h
  · rename_i dir name vacant
    simp only [if_true, Except.ok.injEq] at h
    refine .inr ⟨dir, name, vacant, ?_, (congrArg Prod.snd h).symm⟩
    rw [← (FileTree.node?_create k.tree dir name 0).1, h]
  · rename_i found at_node
    split at h
    · simp at h
    · rename_i not_directory
      obtain ⟨rfl, rfl⟩ := Prod.mk.inj (Except.ok.inj h)
      exact .inl ⟨at_node, rfl, not_directory⟩

/-- A path that is appended to leads to a file that was there or to a new empty one; all others are
as before. -/
theorem locate_append (h : k.locate path .append = .ok (id, tree)) :
    k.tree.Grows tree ∧ ∀ j, j ≠ id → tree.content? j = k.tree.content? j := by
  rcases locate_append_cases h with ⟨-, rfl, -⟩ | ⟨dir, name, -, rfl, rfl⟩
  · exact ⟨.refl _, fun _ _ => rfl⟩
  · refine ⟨FileTree.grows_create _ _ _, fun j other => ?_⟩
    rw [FileTree.content?_create, if_neg other]

/-- Opening a path creates at most one file, an empty one that is the last node. -/
theorem tree_locate {mode : OpenMode} (h : k.locate path mode = .ok (id, tree)) :
    tree = k.tree ∨ id = k.tree.nodes.length ∧
    ∃ dir name, tree = (k.tree.create dir name (.file [])).2 := by
  unfold locate at h
  split at h
  · cases h
  · rename_i dir name _
    split at h
    · refine .inr ⟨?_, dir, name, (congrArg Prod.snd (Except.ok.inj h)).symm⟩
      rw [← (FileTree.node?_create k.tree dir name 0).1, Except.ok.inj h]
    · cases h
  · split at h
    · split at h
      · exact .inl (Prod.mk.inj (Except.ok.inj h)).2.symm
      · cases h
    · exact .inl (Prod.mk.inj (Except.ok.inj h)).2.symm

theorem node?_locate {mode : OpenMode} (root : ∃ n, k.tree.node? k.tree.root = some n)
    (h : k.locate path mode = .ok (id, tree)) : ∃ n, tree.node? id = some n := by
  unfold locate at h
  split at h
  · cases h
  · rename_i dir name _
    split at h
    · obtain ⟨created, -⟩ := FileTree.node?_create k.tree dir name 0
      have holds := FileTree.content?_create k.tree dir name k.tree.nodes.length
      rw [Except.ok.inj h] at created holds
      obtain rfl : id = k.tree.nodes.length := created
      rw [if_pos rfl] at holds
      cases there : tree.node? k.tree.nodes.length with
      | none =>
          rw [FileTree.content?, there] at holds
          cases holds
      | some n => exact ⟨n, rfl⟩
    · cases h
  · rename_i found at_node
    have there := FileTree.node?_of_resolve root at_node
    split at h
    · split at h
      · obtain ⟨rfl, rfl⟩ := Prod.mk.inj (Except.ok.inj h)
        exact there
      · cases h
    · obtain ⟨rfl, rfl⟩ := Prod.mk.inj (Except.ok.inj h)
      exact there

theorem grows_locate {mode : OpenMode} (h : k.locate path mode = .ok (id, tree)) :
    k.tree.Grows tree := by
  rcases tree_locate h with rfl | ⟨-, dir, name, rfl⟩
  · exact .refl _
  · exact FileTree.grows_create _ _ _

theorem content?_locate {mode : OpenMode} {j : NodeId} {n : Node}
    (h : k.locate path mode = .ok (id, tree)) (found : k.tree.node? j = some n) :
    tree.content? j = k.tree.content? j := by
  rcases tree_locate h with rfl | ⟨-, dir, name, rfl⟩
  · rfl
  · have old : j ≠ k.tree.nodes.length := by
      rintro rfl
      simp [FileTree.node?_length] at found
    rw [FileTree.content?_create, if_neg old]

theorem locate_append_sameShape (shape : k.tree.SameShape k'.tree)
    (h : k.locate path .append = .ok (id, tree)) :
    ∃ tree', k'.locate path .append = .ok (id, tree') ∧
      (k'.tree.content? id = k.tree.content? id → tree'.content? id = tree.content? id) := by
  rcases locate_append_cases h with ⟨found, rfl, not_directory⟩ | ⟨dir, name, vacant, rfl, rfl⟩
  · refine ⟨k'.tree, ?_, fun same => same⟩
    simp only [locate, decide_true, shape.resolve found]
    split
    · rename_i parent entries directory
      obtain ⟨n, before, same⟩ := shape.shrinks.shape directory
      cases n <;> simp [Node.shape] at same
      exact absurd before (not_directory _ _)
    · rfl
  · have created := (FileTree.node?_create k'.tree dir name 0).1
    refine ⟨(k'.tree.create dir name (.file [])).2, ?_, fun _ => ?_⟩
    · simp only [locate, decide_true, shape.resolve vacant, if_true]
      rw [← shape.length, ← created]
    · rw [FileTree.content?_create, FileTree.content?_create, if_pos rfl, if_pos shape.length.symm]

end Kernel

end FuzzHarness
