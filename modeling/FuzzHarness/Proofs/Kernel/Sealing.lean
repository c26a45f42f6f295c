import FuzzHarness.Proofs.Kernel.Reading

/-!
Files that nobody writes to. A file is sealed while nothing is open for writing to it and the null
sink does not lead there. Writes, reads and redirections to the null sink leave such a file as it
is, and sealed.
-/

namespace FuzzHarness

open Redirection (nullSink)

/-- A path leads to a file at this node. -/
structure FileTree.FileAt (t : FileTree) (path : Bytes) (id : NodeId) : Prop where
  leads : t.resolve false path = .ok (.node id)
  is_file : ∃ content, t.node? id = some (.file content)

namespace Kernel

variable {k k' k'' : Kernel} {path : Bytes} {fd : Fd}

/-- Nobody can write to the file that a path leads to. -/
structure Sealed (k : Kernel) (path : Bytes) : Prop where
  closed : ∀ {id : NodeId}, k.tree.FileAt path id → ∀ f ∈ k.opened, f.writable = true → f.node ≠ id
  apart : ∀ {id : NodeId}, k.tree.FileAt path id → k.tree.resolve false nullSink ≠ .ok (.node id)

theorem Sealed.of_leads {id null : NodeId} (leads : k.tree.resolve false path = .ok (.node id))
    (closed : ∀ f ∈ k.opened, f.node ≠ id) (sink : k.tree.resolve false nullSink = .ok (.node null))
    (apart : null ≠ id) : k.Sealed path := by
  refine ⟨fun found f member _ => ?_, fun found same => ?_⟩
  · cases leads.symm.trans found.leads
    exact closed f member
  · cases leads.symm.trans found.leads
    cases sink.symm.trans same
    exact apart rfl

/-- From one state to another what a path leads to stayed as it is, and sealed. -/
structure Spares (path : Bytes) (k k' : Kernel) : Prop where
  shape : k.tree.SameShape k'.tree
  node :
    ∀ {id : NodeId}, k.tree.resolve false path = .ok (.node id) → k'.tree.node? id = k.tree.node? id
  still : k'.Sealed path

theorem Sealed.refl (h : k.Sealed path) : Spares path k k :=
  ⟨.refl _, fun _ => rfl, h⟩

theorem Spares.trans (first : Spares path k k') (second : Spares path k' k'') :
    Spares path k k'' where
  shape := first.shape.trans second.shape
  node leads := (second.node (first.shape.resolve leads)).trans (first.node leads)
  still := second.still

theorem Spares.input?_eq (h : Spares path k k') : k'.tree.input? path = k.tree.input? path := by
  have start : k'.tree.start? path maxFile = k.tree.start? path maxFile := by
    unfold FileTree.start?
    split
    · rfl
    · cases place : k.tree.resolve false path with
      | ok p =>
          rw [h.shape.resolve place]
          cases p with
          | node id => simp only [h.node place]
          | vacant dir name => rfl
      | error e =>
          cases place' : k'.tree.resolve false path with
          | error e' => rfl
          | ok p =>
              rw [h.shape.symm.resolve place'] at place
              cases place
  rw [FileTree.input?, start]
  rfl

/-- A step spares a sealed file that is not written in it if it opens nothing for writing but the
null sink. -/
theorem Sealed.spares (h : k.Sealed path) (shape : k.tree.SameShape k'.tree)
    (node : ∀ {id : NodeId}, k.tree.resolve false path = .ok (.node id) →
      k'.tree.node? id = k.tree.node? id)
    (opened : ∀ f ∈ k'.opened, f.writable = true →
      (∃ g ∈ k.opened, g.writable = true ∧ g.node = f.node) ∨
        k.tree.resolve false nullSink = .ok (.node f.node)) :
    Spares path k k' := by
  have before : ∀ {id : NodeId}, k'.tree.FileAt path id → k.tree.FileAt path id := fun found => by
    have leads := shape.symm.resolve found.leads
    exact ⟨leads, node leads ▸ found.is_file⟩
  refine ⟨shape, node, fun found f member writable same => ?_, fun found sink => ?_⟩
  · rcases opened f member writable with ⟨g, member', writable', same'⟩ | sink
    · exact h.closed (before found) g member' writable' (same'.trans same)
    · exact h.apart (before found) (same ▸ sink)
  · exact h.apart (before found) (shape.symm.resolve sink)

theorem Sealed.spares_same (h : k.Sealed path) (tree : k'.tree = k.tree)
    (opened : ∀ f ∈ k'.opened, f.writable = true →
      (∃ g ∈ k.opened, g.writable = true ∧ g.node = f.node) ∨
        k.tree.resolve false nullSink = .ok (.node f.node)) :
    Spares path k k' :=
  h.spares (tree ▸ .refl _) (fun _ => by rw [tree]) opened

theorem Sealed.spares_retabled (h : k.Sealed path) (tree : k'.tree = k.tree)
    (retabled : Retabled k k') :
    Spares path k k' :=
  h.spares_same tree fun f member writable => .inl ⟨f, retabled.opened ▸ member, writable, rfl⟩

theorem spares_write (h : k.Sealed path) (fd : Fd) (data : Bytes) :
    Spares path k (k.write fd data).2 := by
  rcases k.writable_or_closed fd with ⟨slot, f, hs, ho, hw⟩ | closed
  · have shape := (keeps_write k fd data).shape
    have member : f ∈ k.opened := List.mem_of_getElem? ho
    rw [write_open hs ho hw] at shape ⊢
    cases holds : k.tree.content? f.node with
    | none => exact h.refl
    | some content =>
        rw [holds] at shape
        simp only at shape ⊢
        split at shape
        · rename_i empty
          rw [if_pos empty]
          exact h.refl
        · rename_i some_data
          rw [if_neg some_data]
          refine h.spares shape (fun {id} leads => ?_) fun g found writable => .inl ?_
          · rw [FileTree.node?_setNode, if_neg]
            rintro ⟨rfl, -⟩
            exact h.closed ⟨leads, content, content?_eq_some.mp holds⟩ f member hw rfl
          · rcases List.mem_or_eq_of_mem_set found with old | rfl
            · exact ⟨g, old, writable, rfl⟩
            · exact ⟨f, member, hw, (f.moved_node content data).symm⟩
  · rw [write_closed data closed]
    exact h.refl

theorem opened_read (k : Kernel) (fd : Fd) (count : Nat) :
    ∀ f ∈ (k.read fd count).2.opened, ∃ g ∈ k.opened, g.writable = f.writable ∧
      g.node = f.node := by
  intro f found
  unfold read at found
  split at found
  · exact ⟨f, found, rfl, rfl⟩
  · split at found
    · exact ⟨f, found, rfl, rfl⟩
    · rename_i g ho
      split at found
      · exact ⟨f, found, rfl, rfl⟩
      · split at found
        · simp only [seek, ho] at found
          rcases List.mem_or_eq_of_mem_set found with old | rfl
          · exact ⟨f, old, rfl, rfl⟩
          · exact ⟨g, List.mem_of_getElem? ho, rfl, rfl⟩
        · exact ⟨f, found, rfl, rfl⟩
        · exact ⟨f, found, rfl, rfl⟩
        · exact ⟨f, found, rfl, rfl⟩

theorem spares_readPath (h : k.Sealed path) (other : Bytes) (count : Nat) :
    Spares path k (k.readPath other count).2 := by
  refine h.spares_same (k.readPath_frame other count).2.1 fun f found writable => .inl ?_
  unfold readPath at found
  split at found
  · rename_i outcome
    rw [openPath_error outcome] at found
    exact ⟨f, found, writable, rfl⟩
  · rename_i fd k' outcome
    obtain ⟨n, id, tree, rfl, -, -, rfl⟩ := openPath_ok outcome
    obtain ⟨g, member, same, node⟩ := opened_read _ _ _ f found
    rcases List.mem_append.mp member with old | fresh
    · exact ⟨g, old, same.trans writable, node⟩
    · obtain rfl := List.mem_singleton.mp fresh
      rw [writable] at same
      cases same

theorem locate_write {other : Bytes} {id : NodeId} {tree : FileTree}
    (h : k.locate other .write = .ok (id, tree)) :
    k.tree.resolve false other = .ok (.node id) ∧ tree = k.tree := by
  have no_creation : decide (OpenMode.write = .append) = false := rfl
  rw [locate, no_creation] at h
  split at h
  · cases h
  · cases h
  · rename_i found
    split at h
    · cases h
    · obtain ⟨rfl, rfl⟩ := Prod.mk.inj (Except.ok.inj h)
      exact ⟨found, rfl⟩

theorem spares_openSink (h : k.Sealed path) : Spares path k (k.openPath nullSink .write).2 := by
  rcases outcome : k.openPath nullSink .write with ⟨result, k'⟩
  cases result with
  | error e =>
      rw [openPath_error outcome]
      exact h.refl
  | ok fd =>
      obtain ⟨n, id, tree, -, -, located, rfl⟩ := openPath_ok outcome
      obtain ⟨leads, rfl⟩ := locate_write located
      refine h.spares_same rfl fun f found writable => ?_
      rcases List.mem_append.mp found with old | fresh
      · exact .inl ⟨f, old, writable, rfl⟩
      · obtain rfl := List.mem_singleton.mp fresh
        exact .inr leads

theorem spares_close (h : k.Sealed path) (fd : Fd) : Spares path k (k.close fd) :=
  h.spares_retabled (by cases fd <;> rfl) (retabled_close k fd)

theorem spares_duplicate (h : k.Sealed path) (fd : Fd) : Spares path k (k.duplicate fd).2 := by
  refine h.spares_retabled ?_ (retabled_duplicate k fd)
  rcases outcome : k.duplicate fd with ⟨result, k'⟩
  cases result with
  | error e => rw [duplicate_error outcome]
  | ok fresh =>
      obtain ⟨n, slot, -, -, -, rfl⟩ := duplicate_ok outcome
      rfl

theorem spares_duplicateOnto (h : k.Sealed path) (fd onto : Fd) :
    Spares path k (k.duplicateOnto fd onto).2 := by
  refine h.spares_retabled ?_ (retabled_duplicateOnto k fd onto)
  rcases outcome : k.duplicateOnto fd onto with ⟨result, k'⟩
  cases result with
  | error e => rw [duplicateOnto_error outcome]
  | ok done =>
      obtain ⟨n, slot, -, -, rfl⟩ := duplicateOnto_ok outcome
      rfl

end Kernel

namespace Redirection
open Kernel

variable {w : World} {path : Bytes}

theorem spares_putOnto (h : w.kernel.Sealed path) (fd onto : Fd) :
    Spares path w.kernel (putOnto fd onto w).2.kernel := by
  have put := spares_duplicateOnto h fd onto
  unfold putOnto
  split
  · rename_i outcome
    rwa [outcome] at put
  · rename_i outcome
    rwa [outcome] at put

theorem spares_discard (h : w.kernel.Sealed path) (fd : Fd) :
    Spares path w.kernel (discard fd w).2.kernel := by
  have opening := spares_openSink h
  unfold discard
  split
  · rename_i outcome
    rwa [outcome] at opening
  · rename_i sink kernel outcome
    rw [outcome] at opening
    have put := opening.trans (spares_putOnto (w := { w with kernel }) opening.still sink fd)
    exact put.trans (spares_close put.still sink)

theorem spares_keep (h : w.kernel.Sealed path) (stderr : Fd) :
    Spares path w.kernel (keep stderr w).2.kernel := by
  have kept := spares_duplicate h stderr
  unfold keep
  split
  · rename_i outcome
    rwa [outcome] at kept
  · rename_i outcome
    rwa [outcome] at kept

theorem spares_keepAndDiscard (h : w.kernel.Sealed path) (stderr : Fd) :
    Spares path w.kernel (keepAndDiscard stderr w).2.kernel := by
  have kept := spares_keep h stderr
  unfold keepAndDiscard
  split
  · rename_i outcome
    rwa [outcome] at kept
  · rename_i fd w' outcome
    rw [outcome] at kept
    have discarded := kept.trans (spares_discard kept.still stderr)
    split
    · rename_i ended
      rwa [ended] at discarded
    · rename_i ended
      rwa [ended] at discarded

/-- A redirection that appends nothing to a file opens none but the null sink. -/
theorem spares_apply (h : w.kernel.Sealed path) (streams : StdStreams) (policy : RedirectionPolicy)
    (no_duplicate : policy.stderrDuplicate = none) :
    Spares path w.kernel (apply streams policy w).2.kernel := by
  have silent : apply streams policy w = silence streams policy w := by
    rw [apply, no_duplicate]
  have discarded : Spares path w.kernel
      (if policy.discardStdout then discard streams.stdout w else (.ok (), w)).2.kernel := by
    split
    · exact spares_discard h _
    · exact h.refl
  rw [silent]
  unfold silence
  split
  · rename_i outcome
    rwa [outcome] at discarded
  · rename_i outcome
    rw [outcome] at discarded
    split
    · exact discarded.trans (spares_keepAndDiscard discarded.still _)
    · exact discarded

end Redirection

end FuzzHarness
