import FuzzHarness.Proofs.Kernel.Paths

/-!
What files hold after writes. Bytes that were written through one open file stand in its file one
after the other, as if they had been written at once; files that nobody writes to keep what they
hold.
-/

namespace FuzzHarness

namespace OpenFile

def position (f : OpenFile) (content : Bytes) : Nat :=
  if f.appending then content.length else f.offset

def place (f : OpenFile) (content data : Bytes) : Bytes :=
  if data.isEmpty then content else overwrite content (f.position content) data

def moved (f : OpenFile) (content data : Bytes) : OpenFile :=
  if data.isEmpty then f else { f with offset := f.position content + data.length }

end OpenFile

theorem overwrite_overwrite (content : Bytes) (offset : Nat) (xs ys : Bytes) :
    overwrite (overwrite content offset xs) (offset + xs.length) ys =
      overwrite content offset (xs ++ ys) := by
  have front :
      (content.take offset ++ List.replicate (offset - content.length) 0).length = offset := by
    simp only [List.length_append, List.length_take, List.length_replicate]
    omega
  generalize written :
    content.take offset ++ List.replicate (offset - content.length) 0 = start at front
  have kept : (start ++ xs ++ content.drop (offset + xs.length)).take (offset + xs.length) =
      start ++ xs := by
    rw [List.take_append_of_le_length (by simp [front]), List.take_of_length_le (by simp [front])]
  have no_gap :
      offset + xs.length - (start ++ xs ++ content.drop (offset + xs.length)).length = 0 := by
    simp only [List.length_append, front]
    omega
  have behind :
    (start ++ xs ++ content.drop (offset + xs.length)).drop (offset + xs.length + ys.length) =
      content.drop (offset + (xs ++ ys).length) := by
    have reached : (start ++ xs).length = offset + xs.length := by simp [front]
    rw [List.drop_append, reached, List.drop_eq_nil_of_le (by simp [front]), List.nil_append,
      List.drop_drop]
    congr 1
    simp only [List.length_append]
    omega
  rw [overwrite, overwrite, written, kept, no_gap, behind, overwrite, written]
  simp

/-- Nothing that is written over a file makes it shorter. -/
theorem length_le_overwrite (content : Bytes) (offset : Nat) (data : Bytes) :
    content.length ≤ (overwrite content offset data).length := by
  simp only [overwrite, List.length_append, List.length_take, List.length_replicate,
    List.length_drop]
  omega

namespace OpenFile

theorem place_of_ne_nil (f : OpenFile) (content : Bytes) {data : Bytes} (hd : data ≠ []) :
    f.place content data = overwrite content (f.position content) data := by
  simp [place, hd]

theorem position_moved (f : OpenFile) (content : Bytes) {data : Bytes} (hd : data ≠ []) :
    (f.moved content data).position (f.place content data) = f.position content + data.length := by
  cases appending : f.appending with
  | true => simp [moved, position, place, hd, appending, overwrite_at_end]
  | false => simp [moved, position, hd, appending]

theorem place_moved (f : OpenFile) (content xs ys : Bytes) :
    (f.moved content xs).place (f.place content xs) ys = f.place content (xs ++ ys) := by
  by_cases first : xs = []
  · subst first
    rfl
  · by_cases second : ys = []
    · subst second
      simp [place]
    · rw [place_of_ne_nil _ _ second, position_moved f content first, place_of_ne_nil f content
        first, overwrite_overwrite, place_of_ne_nil f content (by simp [first])]

theorem moved_node (f : OpenFile) (content data : Bytes) :
    (f.moved content data).node = f.node := by
  unfold moved
  split <;> rfl

theorem moved_writable (f : OpenFile) (content data : Bytes) :
    (f.moved content data).writable = f.writable := by
  unfold moved
  split <;> rfl

end OpenFile

namespace Kernel

variable {k k' k'' : Kernel} {fd : Fd} {slot : Nat} {f : OpenFile} {data : Bytes}

theorem content?_eq_some {t : FileTree} {id : NodeId} {content : Bytes} :
    t.content? id = some content ↔ t.node? id = some (.file content) := by
  unfold FileTree.content?
  split <;> simp_all

theorem write_open (hs : k.slot? fd = some slot) (ho : k.opened[slot]? = some f) (hw : f.writable)
    (data : Bytes) :
    (k.write fd data).2 = match k.tree.content? f.node with
      | some content =>
        if data.isEmpty then k
        else { k with
          tree := k.tree.setNode f.node (.file (f.place content data))
          opened := k.opened.set slot (f.moved content data) }
      | none => k := by
  simp only [write, hs, ho, hw, Bool.not_true, Bool.false_eq_true, if_false]
  cases found : k.tree.content? f.node with
  | none =>
      have no_file : ∀ content, k.tree.node? f.node ≠ some (.file content) := by
        intro content file
        rw [content?_eq_some.mpr file] at found
        cases found
      split
      · rename_i content file
        exact absurd file (no_file content)
      · rfl
  | some content =>
      rw [content?_eq_some.mp found]
      simp only
      split
      · rfl
      · rename_i some_data
        simp [seek, ho, OpenFile.place, OpenFile.moved, OpenFile.position, some_data]

theorem writable_or_closed (k : Kernel) (fd : Fd) :
    (∃ slot f, k.slot? fd = some slot ∧ k.opened[slot]? = some f ∧ f.writable = true) ∨
      ∀ slot f, k.slot? fd = some slot → k.opened[slot]? = some f → f.writable = false := by
  by_cases connected : ∃ slot f, k.slot? fd = some slot ∧ k.opened[slot]? = some f ∧
    f.writable = true
  · exact .inl connected
  · refine .inr fun slot f hs ho => ?_
    simpa using fun hw => connected ⟨slot, f, hs, ho, hw⟩

theorem write_closed (data : Bytes)
    (h : ∀ slot f, k.slot? fd = some slot → k.opened[slot]? = some f → f.writable = false) :
    (k.write fd data).2 = k := by
  unfold write
  split
  · rfl
  · rename_i slot hs
    split
    · rfl
    · rename_i f ho
      simp [h slot f hs ho]

/-- A state in which every descriptor still refers to the open file, the node and the mode of access
that it referred to, and no tree changed its shape. -/
structure Keeps (k k' : Kernel) : Prop where
  table : k'.table = k.table
  opened : ∀ {slot : Nat} {f : OpenFile}, k.opened[slot]? = some f →
    ∃ f', k'.opened[slot]? = some f' ∧ f'.node = f.node ∧ f'.writable = f.writable
  shape : k.tree.SameShape k'.tree

theorem Keeps.refl (k : Kernel) : Keeps k k :=
  ⟨rfl, fun h => ⟨_, h, rfl, rfl⟩, .refl _⟩

theorem Keeps.trans (h : Keeps k k') (h' : Keeps k' k'') : Keeps k k'' where
  table := h'.table.trans h.table
  opened := by
    intro slot f found
    obtain ⟨f', found', node, writable⟩ := h.opened found
    obtain ⟨f'', found'', node', writable'⟩ := h'.opened found'
    exact ⟨f'', found'', node'.trans node, writable'.trans writable⟩
  shape := h.shape.trans h'.shape

theorem Keeps.slot? (h : Keeps k k') (fd : Fd) : k'.slot? fd = k.slot? fd := by
  cases fd with
  | ofNat n => exact congrFun h.table n
  | negSucc n => rfl

theorem keeps_write (k : Kernel) (fd : Fd) (data : Bytes) : Keeps k (k.write fd data).2 := by
  rcases k.writable_or_closed fd with ⟨slot, f, hs, ho, hw⟩ | closed
  · rw [write_open hs ho hw]
    split
    · rename_i content found
      split
      · exact .refl k
      · refine ⟨rfl, ?_, FileTree.sameShape_setNode_file (content?_eq_some.mp found) _⟩
        intro other g found'
        by_cases same : slot = other
        · subst same
          obtain rfl : f = g := Option.some.inj (ho.symm.trans found')
          have inside : slot < k.opened.length := (List.getElem?_eq_some_iff.mp ho).1
          refine ⟨f.moved content data, ?_, f.moved_node _ _, f.moved_writable _ _⟩
          simp [inside]
        · exact ⟨g, by simpa [List.getElem?_set, same] using found', rfl, rfl⟩
    · exact .refl k
  · rw [write_closed data closed]
    exact .refl k

theorem table_of_lowestFree {n : Nat} (h : k.lowestFree? = some n) : k.table n = none := by
  simpa using List.find?_some h

theorem tree_locate_read {path : Bytes} {id : NodeId} {tree : FileTree}
    (h : k.locate path .read = .ok (id, tree)) :
    tree = k.tree := by
  simp only [locate] at h
  split at h
  · cases h
  · cases h
  · split at h
    · exact (Prod.mk.inj (Except.ok.inj h)).2.symm
    · exact (Prod.mk.inj (Except.ok.inj h)).2.symm

theorem read_frame (k : Kernel) (fd : Fd) (count : Nat) :
    (k.read fd count).2.tree = k.tree ∧ (k.read fd count).2.table = k.table ∧
      ∀ {slot : Nat} {f : OpenFile}, k.slot? fd ≠ some slot → k.opened[slot]? = some f →
        (k.read fd count).2.opened[slot]? = some f := by
  unfold read
  split
  · exact ⟨rfl, rfl, fun _ found => found⟩
  · rename_i here hs
    split
    · exact ⟨rfl, rfl, fun _ found => found⟩
    · rename_i g ho
      split
      · exact ⟨rfl, rfl, fun _ found => found⟩
      · split
        · simp only [seek, ho, true_and]
          intro slot f other found
          have other : here ≠ slot := fun same => other (same ▸ hs)
          simpa [List.getElem?_set, other] using found
        · exact ⟨rfl, rfl, fun _ found => found⟩
        · exact ⟨rfl, rfl, fun _ found => found⟩
        · exact ⟨rfl, rfl, fun _ found => found⟩

theorem openPath_ok {path : Bytes} {mode : OpenMode} (h : k.openPath path mode = (.ok fd, k')) :
    ∃ n id tree, fd = Int.ofNat n ∧ k.lowestFree? = some n ∧ k.locate path mode = .ok (id, tree) ∧
      k' = { k with tree, opened := k.opened ++ [OpenMode.openFile mode id] }.assign n
        (some k.opened.length) := by
  unfold openPath at h
  split at h
  · cases h
  · split at h
    · cases h
    · split at h
      · cases h
      · rename_i n free
        split at h
        · cases h
        · rename_i id tree located
          obtain ⟨hfd, hk⟩ := Prod.mk.inj h
          exact ⟨n, id, tree, (Except.ok.inj hfd).symm, free, located, hk.symm⟩

theorem openPath_error {path : Bytes} {mode : OpenMode} {e : IoError}
    (h : k.openPath path mode = (.error e, k')) : k' = k := by
  unfold openPath at h
  split at h
  · exact (Prod.mk.inj h).2.symm
  · split at h
    · exact (Prod.mk.inj h).2.symm
    · split at h
      · exact (Prod.mk.inj h).2.symm
      · split at h
        · exact (Prod.mk.inj h).2.symm
        · cases h

theorem readPath_frame (k : Kernel) (path : Bytes) (count : Nat) :
    (k.readPath path count).2.table = k.table ∧ (k.readPath path count).2.tree = k.tree ∧
      ∀ {slot : Nat} {f : OpenFile}, k.opened[slot]? = some f →
        (k.readPath path count).2.opened[slot]? = some f := by
  unfold readPath
  split
  · rename_i e k' outcome
    rw [openPath_error outcome]
    exact ⟨rfl, rfl, fun found => found⟩
  · rename_i fd k' outcome
    obtain ⟨n, id, tree, rfl, free, located, rfl⟩ := openPath_ok outcome
    obtain rfl := tree_locate_read located
    let reading : Kernel := { k with opened := k.opened ++ [OpenMode.openFile .read id] }
    obtain ⟨tree, table, opened⟩ :=
      read_frame (reading.assign n (some k.opened.length)) (Int.ofNat n) count
    refine ⟨?_, tree, ?_⟩
    · funext m
      have before := congrFun table m
      simp only [close, assign] at before ⊢
      split
      · rename_i same
        rw [same, table_of_lowestFree free]
      · rename_i other
        rwa [if_neg other] at before
    · intro slot f found
      have inside : slot < k.opened.length := (List.getElem?_eq_some_iff.mp found).1
      refine opened ?_ ?_
      · simp [slot?, assign, Nat.ne_of_gt inside]
      · simpa [reading, assign, List.getElem?_append_left inside] using found

/-- A descriptor refers to a node through an open file that may be written. -/
structure Wired (k : Kernel) (fd : Fd) (slot : Nat) (node : NodeId) : Prop where
  slot_eq : k.slot? fd = some slot
  opened : ∃ f, k.opened[slot]? = some f ∧ f.node = node ∧ f.writable = true

theorem wired_of_openFile (h : k.openFile? fd = some f) (writable : f.writable = true) :
    ∃ slot, k.opened[slot]? = some f ∧ Wired k fd slot f.node := by
  obtain ⟨slot, slot_eq, found⟩ := Option.bind_eq_some_iff.mp h
  exact ⟨slot, found, slot_eq, f, found, rfl, writable⟩

theorem Wired.target?_eq {node : NodeId} (wired : Wired k fd slot node) :
    k.target? fd = some node := by
  obtain ⟨f, found, rfl, -⟩ := wired.opened
  simp [target?, openFile?, wired.slot_eq, found]

theorem Keeps.wired (h : Keeps k k') {node : NodeId} (wired : Wired k fd slot node) :
    Wired k' fd slot node := by
  obtain ⟨f, found, node, writable⟩ := wired.opened
  obtain ⟨f', found', node', writable'⟩ := h.opened found
  exact ⟨(h.slot? fd).trans wired.slot_eq, f', found', node'.trans node, writable'.trans writable⟩

theorem content?_setNode_file {t : FileTree} {id : NodeId} {content : Bytes}
    (h : t.content? id = some content) (data : Bytes) (j : NodeId) :
    (t.setNode id (.file data)).content? j = if j = id then some data else t.content? j := by
  have inside : id < t.nodes.length := (List.getElem?_eq_some_iff.mp (content?_eq_some.mp h)).1
  simp only [FileTree.content?, FileTree.node?_setNode]
  by_cases same : j = id
  · simp [same, inside]
  · rw [if_neg fun here => same here.1.symm, if_neg same]

theorem content?_write {node : NodeId} (wired : Wired k fd slot node) {j : NodeId}
    (other : j ≠ node) (data : Bytes) :
    (k.write fd data).2.tree.content? j = k.tree.content? j := by
  obtain ⟨f, found, rfl, writable⟩ := wired.opened
  rw [write_open wired.slot_eq found writable]
  split
  · rename_i content holds
    split
    · rfl
    · exact (content?_setNode_file holds _ j).trans (if_neg other)
  · rfl

theorem length_content?_write (fd : Fd) (data : Bytes) {id : NodeId} {content : Bytes}
    (holds : k.tree.content? id = some content) :
    ∃ content', (k.write fd data).2.tree.content? id = some content' ∧
      content.length ≤ content'.length := by
  rcases k.writable_or_closed fd with ⟨slot, f, hs, ho, hw⟩ | closed
  · rw [write_open hs ho hw]
    split
    · rename_i before found
      split
      · exact ⟨content, holds, Nat.le_refl _⟩
      · rename_i some_data
        simp only [content?_setNode_file found]
        by_cases here : id = f.node
        · subst here
          obtain rfl : content = before := Option.some.inj (holds.symm.trans found)
          refine ⟨_, if_pos rfl, ?_⟩
          rw [OpenFile.place, if_neg some_data]
          exact length_le_overwrite _ _ _
        · exact ⟨content, (if_neg here).trans holds, Nat.le_refl _⟩
    · exact ⟨content, holds, Nat.le_refl _⟩
  · rw [write_closed data closed]
    exact ⟨content, holds, Nat.le_refl _⟩

/-- From one state to another these bytes, and no others, arrived in the file of an open file, and
bytes that follow will stand behind them. -/
structure Delivered (slot : Nat) (f : OpenFile) (data : Bytes) (k k' : Kernel) : Prop where
  opened : ∃ f', k'.opened[slot]? = some f' ∧ f'.node = f.node ∧ f'.writable = f.writable ∧
    ∀ content, k.tree.content? f.node = some content → ∀ more,
      f'.place (f.place content data) more = f.place content (data ++ more)
  content : k'.tree.content? f.node = (k.tree.content? f.node).map (f.place · data)

theorem Delivered.refl (found : k.opened[slot]? = some f) : Delivered slot f [] k k where
  opened := ⟨f, found, rfl, rfl, fun _ _ _ => rfl⟩
  content := by
    cases k.tree.content? f.node with
    | none => rfl
    | some content => rfl

theorem Delivered.of_same (d : Delivered slot f data k k')
    (opened : ∀ {g : OpenFile}, k'.opened[slot]? = some g → k''.opened[slot]? = some g)
    (content : k''.tree.content? f.node = k'.tree.content? f.node) :
    Delivered slot f data k k'' := by
  obtain ⟨f', found, rest⟩ := d.opened
  exact ⟨⟨f', opened found, rest⟩, content.trans d.content⟩

theorem Delivered.write (d : Delivered slot f data k k')
    (hs : k'.slot? fd = some slot) (hw : f.writable = true) (more : Bytes) :
    Delivered slot f (data ++ more) k (k'.write fd more).2 := by
  obtain ⟨f', found, node, writable, continued⟩ := d.opened
  have inside : slot < k'.opened.length := (List.getElem?_eq_some_iff.mp found).1
  have written := write_open hs found (writable.trans hw) more
  rw [node, d.content] at written
  cases holds : k.tree.content? f.node with
  | none =>
      rw [holds] at written
      simp only [Option.map_none] at written
      rw [written]
      refine ⟨⟨f', found, node, writable, ?_⟩, ?_⟩
      · simp [holds]
      · rw [d.content, holds]
        rfl
  | some content =>
      rw [holds] at written
      simp only [Option.map_some] at written
      by_cases no_more : more = []
      · subst no_more
        simp only [List.isEmpty_nil, if_true] at written
        rw [written, List.append_nil]
        exact d
      · rw [written, if_neg (by simpa using no_more)]
        have placed : f'.place (f.place content data) more = f.place content (data ++ more) :=
          continued content holds more
        refine ⟨⟨f'.moved (f.place content data) more, by simp [inside], ?_, ?_, ?_⟩, ?_⟩
        · rw [OpenFile.moved_node, node]
        · rw [OpenFile.moved_writable, writable]
        · intro other same rest
          obtain rfl : content = other := Option.some.inj (holds.symm.trans same)
          rw [← placed, OpenFile.place_moved, continued content holds, List.append_assoc]
        · have before : k'.tree.content? f.node = some (f.place content data) := by
            rw [d.content, holds]; rfl
          rw [content?_setNode_file before, if_pos rfl, placed, holds]
          rfl

theorem Delivered.write_elsewhere (d : Delivered slot f data k k') {other : Nat} {node : NodeId}
    (wired : Wired k' fd other node) (apart : node ≠ f.node) (more : Bytes) :
    Delivered slot f data k (k'.write fd more).2 := by
  obtain ⟨f', found, same, writable, continued⟩ := d.opened
  obtain ⟨g, found', at_node, g_writable⟩ := wired.opened
  have other_slot : other ≠ slot := by
    rintro rfl
    obtain rfl : f' = g := Option.some.inj (found.symm.trans found')
    exact apart (at_node.symm.trans same)
  refine ⟨⟨f', ?_, same, writable, continued⟩,
    (content?_write wired (Ne.symm apart) more).trans d.content⟩
  rw [write_open wired.slot_eq found' g_writable]
  split
  · split
    · exact found
    · simpa [List.getElem?_set, other_slot] using found
  · exact found

theorem Delivered.trans {f' : OpenFile} {more : Bytes} (d : Delivered slot f data k k')
    (found : k'.opened[slot]? = some f') (node : f'.node = f.node)
    (writable : f'.writable = f.writable)
    (d' : Delivered slot f' more k' k'') : Delivered slot f (data ++ more) k k'' := by
  obtain ⟨g, found', -, -, continued⟩ := d.opened
  obtain rfl : f' = g := Option.some.inj (found.symm.trans found')
  obtain ⟨f'', opened, node', writable', continued'⟩ := d'.opened
  have before := d.content
  refine ⟨⟨f'', opened, node'.trans node, writable'.trans writable, ?_⟩, ?_⟩
  · intro content holds rest
    have placed := continued content holds
    rw [holds, Option.map_some] at before
    rw [← placed more, continued' _ (by rw [node, before]), placed, List.append_assoc]
  · have after := d'.content
    rw [node] at after
    cases holds : k.tree.content? f.node with
    | none => simp [after, before, holds]
    | some content => simp [after, before, holds, continued content holds more]

/-- From one state to another the file behind an open file receives these bytes, whatever stands in
it before. -/
def Carries (slot : Nat) (node : NodeId) (data : Bytes) (k k' : Kernel) : Prop :=
  ∀ f, k.opened[slot]? = some f → f.node = node → f.writable = true → Delivered slot f data k k'

theorem Carries.trans {node : NodeId} {more : Bytes} (h : Carries slot node data k k')
    (h' : Carries slot node more k' k'') : Carries slot node (data ++ more) k k'' := by
  intro f found at_node writable
  have d := h f found at_node writable
  obtain ⟨f', found', node', writable', -⟩ := d.opened
  exact d.trans found' node' writable'
    (h' f' found' (node'.trans at_node) (writable'.trans writable))

theorem Carries.of_same {node : NodeId}
    (opened : ∀ {g : OpenFile}, k.opened[slot]? = some g → k'.opened[slot]? = some g)
    (content : k'.tree.content? node = k.tree.content? node) : Carries slot node [] k k' := by
  rintro f found rfl -
  exact (Delivered.refl found).of_same opened content

end Kernel

end FuzzHarness
