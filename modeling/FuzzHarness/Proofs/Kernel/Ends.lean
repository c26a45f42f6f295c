import FuzzHarness.Proofs.Redirection

/-!
Descriptors that write to the ends of files. A ledger says which bytes went to which node; as long
as every descriptor in use is at the end of what it refers to, files hold what they held and then
what the ledger has for them.
-/

namespace FuzzHarness

/-- What was written to nodes, in order. -/
abbrev Ledger := List (NodeId × Bytes)

namespace Ledger

def received (ledger : Ledger) (id : NodeId) : Bytes :=
  ledger.flatMap fun entry => if entry.1 = id then entry.2 else []

theorem received_append (ledger more : Ledger) (id : NodeId) :
    received (ledger ++ more) id = ledger.received id ++ more.received id :=
  List.flatMap_append

theorem received_eq_nil {ledger : Ledger} {id : NodeId} (h : ∀ entry ∈ ledger, entry.1 ≠ id) :
    ledger.received id = [] :=
  List.flatMap_eq_nil_iff.mpr fun entry member => if_neg (h entry member)

end Ledger

theorem OpenFile.place_at_end {f : OpenFile} {content : Bytes}
    (h : f.position content = content.length) (data : Bytes) :
    f.place content data = content ++ data := by
  by_cases empty : data = []
  · simp [place, empty]
  · rw [place_of_ne_nil f content empty, h, overwrite_at_end]

theorem OpenFile.moved_appending (f : OpenFile) (content data : Bytes) :
    (f.moved content data).appending = f.appending := by
  unfold moved
  split <;> rfl

theorem OpenFile.position_moved_at_end {f : OpenFile} {content : Bytes}
    (h : f.position content = content.length) (data : Bytes) :
    (f.moved content data).position (content ++ data) = (content ++ data).length := by
  by_cases empty : data = []
  · subst empty
    simpa [moved] using h
  · rw [← place_at_end h, position_moved f content empty, place_at_end h, h, List.length_append]

namespace Kernel

variable {k k' k'' : Kernel} {fd : Fd} {fds fds' : List Fd} {owned : NodeId → Prop} {id : NodeId}
  {tree : FileTree}

def entry (k : Kernel) (fd : Fd) (data : Bytes) : Ledger :=
  (k.target? fd).toList.map fun node => (node, data)

/-- From one state to another the files receive what the ledger says, behind what they hold, and new
files receive it from empty. -/
structure Receives (k k' : Kernel) (ledger : Ledger) : Prop where
  grows : k.tree.Grows k'.tree
  existing : ∀ {id : NodeId} {n : Node}, k.tree.node? id = some n →
    k'.tree.content? id = (k.tree.content? id).map (· ++ ledger.received id)
  created :
    ∀ {id : NodeId} {content : Bytes}, k.tree.node? id = none → k'.tree.content? id = some content →
    content = ledger.received id
  entered : ∀ e ∈ ledger, ∃ n, k'.tree.node? e.1 = some n

theorem Receives.trans {ledger more : Ledger} (h : Receives k k' ledger)
    (h' : Receives k' k'' more) :
    Receives k k'' (ledger ++ more) where
  grows := h.grows.trans h'.grows
  existing := by
    intro id n found
    obtain ⟨n', found', -⟩ := h.grows.shape found
    rw [h'.existing found', h.existing found, Option.map_map, Ledger.received_append]
    congr 1
    funext content
    exact List.append_assoc _ _ _
  created := by
    intro id content missing holds
    rw [Ledger.received_append]
    cases before : k'.tree.node? id with
    | none =>
        have nothing : ledger.received id = [] := Ledger.received_eq_nil fun e member same => by
          obtain ⟨n, found⟩ := h.entered e member
          rw [same, before] at found
          cases found
        rw [nothing]
        exact h'.created before holds
    | some n =>
        rw [h'.existing before] at holds
        obtain ⟨content', holds', rfl⟩ := Option.map_eq_some_iff.mp holds
        rw [h.created missing holds']
  entered := by
    intro e member
    rcases List.mem_append.mp member with early | late
    · obtain ⟨n, found⟩ := h.entered e early
      obtain ⟨n', found', -⟩ := h'.grows.shape found
      exact ⟨n', found'⟩
    · exact h'.entered e late

theorem Receives.of_tree (h : k'.tree = k.tree) : Receives k k' [] where
  grows := h ▸ .refl _
  existing _ := by
    rw [h]
    simp [Ledger.received]
  created missing holds := by
    rw [h, FileTree.content?, missing] at holds
    cases holds
  entered := nofun

theorem Receives.of_locate {path : Bytes} {mode : OpenMode}
    (located : k.locate path mode = .ok (id, tree)) (h : k'.tree = tree) : Receives k k' [] where
  grows := h ▸ grows_locate located
  existing found := by
    rw [h, content?_locate located found]
    simp [Ledger.received]
  created missing holds := by
    rcases tree_locate located with rfl | ⟨-, dir, name, rfl⟩
    · rw [h, FileTree.content?, missing] at holds
      cases holds
    · rw [h, FileTree.content?_create] at holds
      split at holds
      · exact (Option.some.inj holds).symm
      · rw [FileTree.content?, missing] at holds
        cases holds
  entered := nofun

/-- Some of these descriptors refer to an open file. -/
structure InUse (k : Kernel) (fds : List Fd) (slot : Nat) (f : OpenFile) : Prop where
  opened : k.opened[slot]? = some f
  referred : ∃ fd ∈ fds, k.slot? fd = some slot

/-- Every one of these descriptors writes to the end of what it refers to, and goes on to do so: its
open file appends, or is the only one in use on a file that nobody else may open. -/
structure Tidy (k : Kernel) (fds : List Fd) (owned : NodeId → Prop) : Prop where
  wired : ∀ fd ∈ fds, ∃ slot f n, k.slot? fd = some slot ∧ k.opened[slot]? = some f ∧
    f.writable = true ∧
    k.tree.node? f.node = some n
  at_end : ∀ {slot : Nat} {f : OpenFile} {content : Bytes}, k.InUse fds slot f →
    k.tree.content? f.node = some content → f.position content = content.length
  alone : ∀ {slot : Nat} {f : OpenFile} {content : Bytes}, k.InUse fds slot f →
    k.tree.content? f.node = some content → f.appending = false →
      owned f.node ∧
      ∀ {slot' : Nat} {f' : OpenFile}, k.InUse fds slot' f' → f'.node = f.node → slot' = slot

theorem Tidy.slot? (h : Tidy k fds owned) (member : fd ∈ fds) : ∃ slot, k.slot? fd = some slot := by
  obtain ⟨slot, -, -, referred, -⟩ := h.wired fd member
  exact ⟨slot, referred⟩

theorem Tidy.recorded (h : Tidy k fds owned) (member : fd ∈ fds) :
    ∀ slot, k.slot? fd = some slot → slot < k.opened.length := by
  intro slot referred
  obtain ⟨slot', f, -, referred', found, -⟩ := h.wired fd member
  obtain rfl : slot' = slot := Option.some.inj (referred'.symm.trans referred)
  exact (List.getElem?_eq_some_iff.mp found).1

theorem Tidy.number (h : Tidy k fds owned) (member : fd ∈ fds) :
    ∃ m, fd = Int.ofNat m ∧ k.table m ≠ none := by
  obtain ⟨slot, referred⟩ := h.slot? member
  cases fd with
  | ofNat m =>
      have busy : k.table m = some slot := referred
      exact ⟨m, rfl, by simp [busy]⟩
  | negSucc n => cases referred

theorem Tidy.rewire (h : Tidy k fds owned) (opened : k'.opened = k.opened) (tree : k'.tree = k.tree)
    (sources : ∀ fd ∈ fds', ∃ source ∈ fds, k'.slot? fd = k.slot? source) : Tidy k' fds' owned := by
  have used : ∀ {slot f}, k'.InUse fds' slot f → k.InUse fds slot f := by
    rintro slot f ⟨found, fd, member, referred⟩
    obtain ⟨source, member', same⟩ := sources fd member
    exact ⟨opened ▸ found, source, member', same ▸ referred⟩
  refine ⟨fun fd member => ?_, fun inside holds => ?_, fun inside holds moves => ?_⟩
  · obtain ⟨source, member', same⟩ := sources fd member
    rw [same, opened, tree]
    exact h.wired source member'
  · rw [tree] at holds
    exact h.at_end (used inside) holds
  · rw [tree] at holds
    obtain ⟨own, only⟩ := h.alone (used inside) holds moves
    exact ⟨own, fun inside' => only (used inside')⟩

theorem Tidy.mono (h : Tidy k fds owned) (sub : fds' ⊆ fds) : Tidy k fds' owned :=
  h.rewire rfl rfl fun fd member => ⟨fd, sub member, rfl⟩

theorem InUse.of_refit {m slot : Nat} {file f : OpenFile} (tidy : Tidy k fds owned)
    (h : (k.refit m file tree).InUse (Int.ofNat m :: fds) slot f) :
    (slot = k.opened.length ∧ f = file) ∨ k.InUse fds slot f ∧
    ∃ n, k.tree.node? f.node = some n := by
  obtain ⟨found, fd, member, referred⟩ := h
  by_cases here : fd = Int.ofNat m
  · subst here
    obtain rfl : k.opened.length = slot := by
      simpa [Kernel.slot?, Kernel.refit, Kernel.assign] using referred
    exact .inl ⟨rfl, by simpa [Kernel.refit, Kernel.assign, eq_comm] using found⟩
  · have member := (List.mem_cons.mp member).resolve_left here
    have before : k.slot? fd = some slot := (slot?_assign_of_ne _ _ here).symm.trans referred
    obtain ⟨slot', f', n, referred', found', -, at_node⟩ := tidy.wired fd member
    obtain rfl : slot' = slot := Option.some.inj (referred'.symm.trans before)
    obtain rfl : f' = f := Option.some.inj ((opened_refit found' m file tree).symm.trans found)
    exact .inr ⟨⟨found', fd, member, before⟩, n, at_node⟩

theorem Tidy.refit {m : Nat} {file : OpenFile} (h : Tidy k fds owned) (grows : k.tree.Grows tree)
    (same : ∀ {j n}, k.tree.node? j = some n → tree.content? j = k.tree.content? j)
    (writable : file.writable = true) (there : ∃ n, tree.node? file.node = some n)
    (harmless : ∀ {content}, tree.content? file.node = some content → file.appending = true ∧
      ¬owned file.node) :
    Tidy (k.refit m file tree) (Int.ofNat m :: fds) owned := by
  refine ⟨fun fd member => ?_, fun inside holds => ?_, fun inside holds moves => ?_⟩
  · by_cases here : fd = Int.ofNat m
    · obtain ⟨n, at_node⟩ := there
      exact ⟨k.opened.length, file, n, by simp [here, Kernel.slot?, Kernel.refit, Kernel.assign],
        by simp [Kernel.refit, Kernel.assign], writable, at_node⟩
    · obtain ⟨slot, f, n, referred, found, writable', at_node⟩ :=
        h.wired fd ((List.mem_cons.mp member).resolve_left here)
      obtain ⟨n', at_node', -⟩ := grows.shape at_node
      exact ⟨slot, f, n', (slot?_assign_of_ne _ _ here).trans referred,
        opened_refit found m file tree, writable',
        at_node'⟩
  · rcases inside.of_refit h with ⟨-, rfl⟩ | ⟨before, n, at_node⟩
    · rw [OpenFile.position, if_pos (harmless holds).1]
    · exact h.at_end before ((same at_node).symm.trans holds)
  · rcases inside.of_refit h with ⟨-, rfl⟩ | ⟨before, n, at_node⟩
    · rw [(harmless holds).1] at moves
      cases moves
    · obtain ⟨own, only⟩ := h.alone before ((same at_node).symm.trans holds) moves
      refine ⟨own, fun {slot' f'} inside' at_same => ?_⟩
      rcases inside'.of_refit h with ⟨-, rfl⟩ | ⟨before', -⟩
      · rw [← at_same] at holds own
        exact absurd own (harmless holds).2
      · exact only before' at_same

section Write

variable {slot : Nat} {f : OpenFile}

theorem content?_write_at_end (hs : k.slot? fd = some slot) (ho : k.opened[slot]? = some f)
    (hw : f.writable = true) (at_end : ∀ {content}, k.tree.content? f.node = some content →
      f.position content = content.length) (data : Bytes) (j : NodeId) :
    (k.write fd data).2.tree.content? j =
      if j = f.node then (k.tree.content? f.node).map (· ++ data) else k.tree.content? j := by
  rw [write_open hs ho hw]
  cases holds : k.tree.content? f.node with
  | none =>
      by_cases here : j = f.node
      · simp [here, holds]
      · simp [here]
  | some content =>
      by_cases empty : data = []
      · by_cases here : j = f.node
        · simp [empty, here, holds]
        · simp [empty, here]
      · simp only [List.isEmpty_iff, empty, if_false, content?_setNode_file holds,
          OpenFile.place_at_end (at_end holds), Option.map_some]

theorem opened_write (hs : k.slot? fd = some slot) (ho : k.opened[slot]? = some f)
    (hw : f.writable = true) (data : Bytes) {other : Nat} {g : OpenFile}
    (found : (k.write fd data).2.opened[other]? = some g) :
    other ≠ slot ∧ k.opened[other]? = some g ∨
      other = slot ∧ g = (k.tree.content? f.node).elim f fun content => f.moved content data := by
  rw [write_open hs ho hw] at found
  by_cases same : other = slot
  · subst same
    refine .inr ⟨rfl, ?_⟩
    cases holds : k.tree.content? f.node with
    | none =>
        simp only [holds] at found
        exact (Option.some.inj (ho.symm.trans found)).symm
    | some content =>
        simp only [holds] at found
        by_cases empty : data = []
        · simp only [empty, List.isEmpty_nil, if_true] at found
          simpa [empty, OpenFile.moved] using (Option.some.inj (ho.symm.trans found)).symm
        · have inside : other < k.opened.length := (List.getElem?_eq_some_iff.mp ho).1
          rw [if_neg (by simpa using empty)] at found
          simpa [inside] using found.symm
  · refine .inl ⟨same, ?_⟩
    split at found
    · split at found
      · exact found
      · simpa [List.getElem?_set, Ne.symm same] using found
    · exact found

theorem receives_write {n : Node} (hs : k.slot? fd = some slot) (ho : k.opened[slot]? = some f)
    (hw : f.writable = true) (at_node : k.tree.node? f.node = some n)
    (at_end : ∀ {content}, k.tree.content? f.node = some content →
      f.position content = content.length)
    (data : Bytes) : Receives k (k.write fd data).2 (k.entry fd data) := by
  have content := content?_write_at_end hs ho hw at_end data
  have grows := (keeps_write k fd data).shape.grows
  have entered : k.entry fd data = [(f.node, data)] := by simp [entry, target?, openFile?, hs, ho]
  refine ⟨grows, fun {id m} found => ?_, fun {id now} missing holds => ?_, fun e entry => ?_⟩
  · rw [content, entered]
    by_cases same : id = f.node
    · simp [same, Ledger.received]
    · simp [same, Ne.symm same, Ledger.received]
  · have other : id ≠ f.node := by
      rintro rfl
      rw [missing] at at_node
      cases at_node
    rw [content, if_neg other, FileTree.content?, missing] at holds
    cases holds
  · rw [entered] at entry
    obtain rfl := List.mem_singleton.mp entry
    obtain ⟨n', at_node', -⟩ := grows.shape at_node
    exact ⟨n', at_node'⟩

theorem InUse.of_write {other : Nat} {g : OpenFile} (here : k.InUse fds slot f)
    (hs : k.slot? fd = some slot) (hw : f.writable = true) {data : Bytes}
    (h : (k.write fd data).2.InUse fds other g) :
    other ≠ slot ∧ k.InUse fds other g ∨
      other = slot ∧ g = (k.tree.content? f.node).elim f fun content => f.moved content data := by
  obtain ⟨found, fd', member, referred⟩ := h
  rw [(keeps_write k fd data).slot?] at referred
  exact (opened_write hs here.opened hw data found).imp_left fun ⟨apart, before⟩ =>
    ⟨apart, before, fd', member, referred⟩

end Write

theorem Tidy.write (h : Tidy k fds owned) (member : fd ∈ fds) (data : Bytes) :
    Tidy (k.write fd data).2 fds owned ∧ Receives k (k.write fd data).2 (k.entry fd data) := by
  obtain ⟨slot, f, n, hs, ho, hw, at_node⟩ := h.wired fd member
  have here : k.InUse fds slot f := ⟨ho, fd, member, hs⟩
  have content := content?_write_at_end hs ho hw (h.at_end here) data
  have keeps := keeps_write k fd data
  have origin : ∀ {other g}, (k.write fd data).2.InUse fds other g → ∃ g₀, k.InUse fds other g₀ ∧
      g.node = g₀.node ∧ g.appending = g₀.appending := by
    intro other g inside
    rcases here.of_write hs hw inside with ⟨-, before⟩ | ⟨rfl, rfl⟩
    · exact ⟨g, before, rfl, rfl⟩
    · refine ⟨f, here, ?_, ?_⟩
      · cases k.tree.content? f.node with
        | none => rfl
        | some content => exact f.moved_node content data
      · cases k.tree.content? f.node with
        | none => rfl
        | some content => exact f.moved_appending content data
  refine ⟨⟨fun fd' member' => ?_, fun {other g now} inside holds => ?_,
    fun {other g now} inside holds moves => ?_⟩,
    receives_write hs ho hw at_node (h.at_end here) data⟩
  · obtain ⟨other, g, m, referred, found, writable, at_node'⟩ := h.wired fd' member'
    obtain ⟨g', found', node, writable'⟩ := keeps.opened found
    obtain ⟨m', at_node'', -⟩ := keeps.shape.grows.shape at_node'
    exact ⟨other, g', m', (keeps.slot? fd').trans referred, found', writable'.trans writable,
      node ▸ at_node''⟩
  · rcases here.of_write hs hw inside with ⟨apart, before⟩ | ⟨rfl, rfl⟩
    · rw [content] at holds
      by_cases shared : g.node = f.node
      · rw [if_pos shared] at holds
        obtain ⟨old, was, rfl⟩ := Option.map_eq_some_iff.mp holds
        cases appends : g.appending with
        | true => rw [OpenFile.position, if_pos appends]
        | false =>
            obtain ⟨-, only⟩ := h.alone before (shared ▸ was) appends
            exact absurd (only here shared.symm).symm apart
      · rw [if_neg shared] at holds
        exact h.at_end before holds
    · obtain ⟨g₀, before, node, -⟩ := origin inside
      obtain rfl : f = g₀ := Option.some.inj (ho.symm.trans before.opened)
      rw [content, node, if_pos rfl] at holds
      obtain ⟨old, was, rfl⟩ := Option.map_eq_some_iff.mp holds
      rw [was]
      exact OpenFile.position_moved_at_end (h.at_end here was) data
  · obtain ⟨g₀, before, node, appending⟩ := origin inside
    obtain ⟨was, holds₀⟩ : ∃ was, k.tree.content? g₀.node = some was := by
      rw [content, node] at holds
      split at holds
      · rename_i same
        obtain ⟨old, was, -⟩ := Option.map_eq_some_iff.mp holds
        exact ⟨old, same ▸ was⟩
      · exact ⟨now, holds⟩
    obtain ⟨own, only⟩ := h.alone before holds₀ (appending ▸ moves)
    refine ⟨node ▸ own, fun inside' at_same => ?_⟩
    obtain ⟨g₁, before', node', -⟩ := origin inside'
    exact only before' (node'.symm.trans (at_same.trans node))

end Kernel

end FuzzHarness
