import FuzzHarness.Proofs.Redirection.Steps

/-!
What a redirection that succeeds does to the descriptors. Each of its steps puts a newly opened file
on one descriptor, or gives a new descriptor to the open file of another; all other descriptors
refer to what they referred to.
-/

namespace FuzzHarness

namespace Kernel

variable {k k' k'' : Kernel} {m n slot other : Nat} {fd : Fd} {node : NodeId} {file : OpenFile}
  {tree : FileTree}

/-- A descriptor refers to a newly opened file, in a tree as opening it left it. -/
def refit (k : Kernel) (m : Nat) (file : OpenFile) (tree : FileTree) : Kernel :=
  { k with tree, opened := k.opened ++ [file] }.assign m (some k.opened.length)

theorem opened_refit (found : k.opened[slot]? = some file) (m : Nat) (g : OpenFile)
    (tree : FileTree) :
    (k.refit m g tree).opened[slot]? = some file := by
  have inside : slot < k.opened.length := (List.getElem?_eq_some_iff.mp found).1
  simpa [refit, assign, List.getElem?_append_left inside] using found

theorem wired_refit_self (k : Kernel) (m : Nat) (tree : FileTree)
    (writable : file.writable = true) :
    Wired (k.refit m file tree) (Int.ofNat m) k.opened.length file.node where
  slot_eq := by simp [slot?, refit, assign]
  opened := ⟨file, by simp [refit, assign], rfl, writable⟩

theorem Wired.refit (wired : Wired k fd slot node) (h : fd ≠ Int.ofNat m) (file : OpenFile)
    (tree : FileTree) :
    Wired (k.refit m file tree) fd slot node where
  slot_eq := (slot?_assign_of_ne _ _ h).trans wired.slot_eq
  opened := by
    obtain ⟨f, found, rest⟩ := wired.opened
    exact ⟨f, opened_refit found m file tree, rest⟩

theorem carries_refit (k : Kernel) (m : Nat) (file : OpenFile)
    (same : tree.content? node = k.tree.content? node) :
    Carries slot node [] k (k.refit m file tree) :=
  .of_same (fun found => opened_refit found m file tree) same

theorem Wired.assign (wired : Wired k fd slot node) (h : fd ≠ Int.ofNat n) (x : Option Nat) :
    Wired (k.assign n x) fd slot node :=
  ⟨(slot?_assign_of_ne k x h).trans wired.slot_eq, wired.opened⟩

theorem wired_assign_self {f : OpenFile} (found : k.opened[slot]? = some f)
    (writable : f.writable = true) :
    Wired (k.assign n (some slot)) (Int.ofNat n) slot f.node :=
  ⟨by simp [slot?, Kernel.assign], f, found, rfl, writable⟩

theorem ne_of_free (busy : k.table m ≠ none) (free : k.lowestFree? = some n) : n ≠ m := by
  rintro rfl
  exact busy (table_of_lowestFree free)

theorem openPath_onto {path : Bytes} {mode : OpenMode} (busy : k.table m ≠ none)
    (opened : k.openPath path mode = (.ok fd, k'))
    (onto : k'.duplicateOnto fd (Int.ofNat m) = (.ok (), k'')) :
    ∃ id tree, k.locate path mode = .ok (id, tree) ∧ fd ≠ Int.ofNat m ∧
      k''.close fd = k.refit m (OpenMode.openFile mode id) tree := by
  obtain ⟨n, id, tree, rfl, free, located, rfl⟩ := openPath_ok opened
  have other := ne_of_free busy free
  refine ⟨id, tree, located, fun same => other (Int.ofNat.inj same), ?_⟩
  have slot_eq : ({ k with tree, opened := k.opened ++ [OpenMode.openFile mode id] }.assign n
      (some k.opened.length)).slot? (Int.ofNat n) = some k.opened.length := by simp [slot?, assign]
  simp only [duplicateOnto, slot_eq] at onto
  split at onto
  · obtain rfl := (Prod.mk.inj onto).2
    simp only [close, refit, assign]
    congr 1
    funext i
    by_cases first : i = n
    · subst first
      simp [other, table_of_lowestFree free]
    · simp [first]
  · cases onto

theorem write_close (h : fd ≠ Int.ofNat n) (data : Bytes) :
    ((k.close (Int.ofNat n)).write fd data).2 = (k.write fd data).2.close (Int.ofNat n) := by
  have slots : (k.close (Int.ofNat n)).slot? fd = k.slot? fd := slot?_assign_of_ne k none h
  rcases k.writable_or_closed fd with ⟨slot, f, hs, ho, hw⟩ | closed
  · rw [write_open hs ho hw, write_open (slots.trans hs) ho hw]
    simp only [close, assign]
    split
    · split <;> rfl
    · rfl
  · rw [write_closed data closed,
      write_closed data fun slot f hs ho => closed slot f (slots ▸ hs) ho]

end Kernel

theorem World.isSome_filter_of_allows {w : World} {notice : Notice} (h : w.allows notice = true) :
    w.filter.isSome = true := by
  unfold World.allows at h
  split at h
  · rename_i installed
    rw [installed]
    rfl
  · cases h

namespace Redirection
open Kernel

variable {w w' : World} {m : Nat}

theorem log_close (w : World) (notice : Notice) {n : Nat}
    (h : w.filter.isSome = true → w.diagnostic ≠ Int.ofNat n) :
    close (Int.ofNat n) (w.log notice) = (close (Int.ofNat n) w).log notice := by
  have same : (close (Int.ofNat n) w).allows notice = w.allows notice := rfl
  simp only [World.log, same]
  split
  · rename_i allowed
    simp only [World.diagnose, World.write, close]
    rw [write_close (h (World.isSome_filter_of_allows allowed))]
  · rfl

theorem appendTo_refit {path : Bytes} (h : appendTo path (Int.ofNat m) w = (.ok (), w'))
    (busy : w.kernel.table m ≠ none)
    (heard : w.filter.isSome = true → ∃ slot, w.kernel.slot? w.diagnostic = some slot) :
    ∃ id tree, w.kernel.locate path .append = .ok (id, tree) ∧
      w' = { w with kernel := w.kernel.refit m (OpenMode.openFile .append id) tree }.log
        (.stderrAppends path) := by
  unfold appendTo at h
  split at h
  · cases h
  · rename_i fd kernel opened
    split at h
    · cases h
    · rename_i put
      obtain ⟨kernel', onto, rfl⟩ := putOnto_ok put
      obtain ⟨id, tree, located, other, closed⟩ := openPath_onto busy opened onto
      obtain ⟨n, -, -, rfl, free, -⟩ := openPath_ok opened
      refine ⟨id, tree, located, ?_⟩
      obtain rfl := (Prod.mk.inj h).2
      rw [log_close _ _ fun spoken => ?_, close, closed]
      obtain ⟨slot, taken⟩ := heard spoken
      exact ne_of_lowestFree taken free

theorem appendTo_ok {path : Bytes} (h : appendTo path (Int.ofNat m) w = (.ok (), w'))
    (busy : w.kernel.table m ≠ none) (diagnostic : w.diagnostic = Int.ofNat m) :
    ∃ id tree, w.kernel.locate path .append = .ok (id, tree) ∧
      w' = { w with kernel := w.kernel.refit m (OpenMode.openFile .append id) tree }.log
        (.stderrAppends path) :=
  appendTo_refit h busy fun _ => diagnostic ▸ Option.ne_none_iff_exists'.mp busy

theorem discard_ok (h : discard (Int.ofNat m) w = (.ok (), w')) (busy : w.kernel.table m ≠ none) :
    ∃ id tree, w.kernel.locate nullSink .write = .ok (id, tree) ∧
      w' = { w with kernel := w.kernel.refit m (OpenMode.openFile .write id) tree } := by
  unfold discard at h
  split at h
  · cases h
  · rename_i fd kernel opened
    have result : (putOnto fd (Int.ofNat m) { w with kernel }).1 = .ok () := congrArg Prod.fst h
    have final : close fd (putOnto fd (Int.ofNat m) { w with kernel }).2 = w' := congrArg Prod.snd h
    have put : putOnto fd (Int.ofNat m) { w with kernel } =
        (.ok (), (putOnto fd (Int.ofNat m) { w with kernel }).2) := Prod.ext result rfl
    obtain ⟨kernel', onto, same⟩ := putOnto_ok put
    obtain ⟨id, tree, located, -, closed⟩ := openPath_onto busy opened onto
    refine ⟨id, tree, located, ?_⟩
    rw [← final, same, close, closed]

/-- The path of the null sink leads to a device that swallows everything. -/
structure SinkAt (t : FileTree) (sink : NodeId) : Prop where
  leads : t.resolve false nullSink = .ok (.node sink)
  swallows : t.node? sink = some .nullDevice

theorem SinkAt.grows {t t' : FileTree} {sink : NodeId} (at_sink : SinkAt t sink) (h : t.Grows t') :
    SinkAt t' sink := by
  refine ⟨FileTree.resolve_node_of_grows h at_sink.leads, ?_⟩
  obtain ⟨n, found, same⟩ := h.shape at_sink.swallows
  cases n <;> simp [Node.shape] at same
  exact found

theorem SinkAt.root {t : FileTree} {sink : NodeId} (at_sink : SinkAt t sink) :
    ∃ n, t.node? t.root = some n :=
  FileTree.node?_root_of_resolve (show (Route.ofPath nullSink).absolute = true from rfl) rfl
    at_sink.leads

theorem SinkAt.content?_eq {t : FileTree} {sink : NodeId} (at_sink : SinkAt t sink) :
    t.content? sink = none := by
  rw [FileTree.content?, at_sink.swallows]

theorem SinkAt.locate {k : Kernel} {sink id : NodeId} {tree : FileTree}
    (at_sink : SinkAt k.tree sink) (h : k.locate nullSink .write = .ok (id, tree)) :
    id = sink ∧ tree = k.tree := by
  have no_creation : decide (OpenMode.write = OpenMode.append) = false := rfl
  simp only [Kernel.locate, no_creation, at_sink.leads, at_sink.swallows, Except.ok.injEq,
    Prod.mk.injEq] at h
  exact ⟨h.1.symm, h.2.symm⟩

/-- What a step of a redirection leaves to itself: the files that are open, what they hold, and who
was told what. -/
structure Rewired (w w' : World) : Prop where
  opened : ∀ {slot : Nat} {f : OpenFile}, w.kernel.opened[slot]? = some f →
    w'.kernel.opened[slot]? = some f
  tree : w'.kernel.tree = w.kernel.tree
  output : w'.output = w.output
  diagnostic : w'.diagnostic = w.diagnostic

theorem Rewired.refl (w : World) : Rewired w w :=
  ⟨fun found => found, rfl, rfl, rfl⟩

theorem Rewired.trans {w'' : World} (h : Rewired w w') (h' : Rewired w' w'') : Rewired w w'' :=
  ⟨fun found => h'.opened (h.opened found), h'.tree.trans h.tree, h'.output.trans h.output,
    h'.diagnostic.trans h.diagnostic⟩

theorem Rewired.carries (h : Rewired w w') (slot : Nat) (node : NodeId) :
    Carries slot node [] w.kernel w'.kernel :=
  .of_same h.opened (congrArg (·.content? node) h.tree)

theorem busy_of_wired {k : Kernel} {slot : Nat} {node : NodeId}
    (wired : Wired k (Int.ofNat m) slot node) :
    k.table m ≠ none := by
  have found : k.table m = some slot := wired.slot_eq
  simp [found]

/-- Discarding a descriptor wires it to the null sink, and leaves all others. -/
theorem discard_wired {slot : Nat} {node sink : NodeId} (h : discard (Int.ofNat m) w = (.ok (), w'))
    (wired : Wired w.kernel (Int.ofNat m) slot node) (at_sink : SinkAt w.kernel.tree sink) :
    Rewired w w' ∧ (∃ fresh, Wired w'.kernel (Int.ofNat m) fresh sink) ∧
      ∀ {fd : Fd} {other : Nat} {at_node : NodeId}, fd ≠ Int.ofNat m →
        Wired w.kernel fd other at_node →
        Wired w'.kernel fd other at_node := by
  obtain ⟨id, tree, located, rfl⟩ := discard_ok h (busy_of_wired wired)
  obtain ⟨rfl, rfl⟩ := at_sink.locate located
  refine ⟨⟨fun found => opened_refit found _ _ _, rfl, rfl, rfl⟩,
    ⟨_, wired_refit_self _ _ _ rfl⟩, ?_⟩
  intro fd other at_node apart wired'
  exact wired'.refit apart _ _

/-- Keeping and discarding a descriptor gives a fresh one to what it was wired to. -/
theorem keepAndDiscard_wired {d : DiagnosticStream} {slot : Nat} {node sink : NodeId}
    (h : keepAndDiscard (Int.ofNat m) w = (.ok d, w'))
    (wired : Wired w.kernel (Int.ofNat m) slot node)
    (at_sink : SinkAt w.kernel.tree sink) :
    Rewired w w' ∧ d.duplicated = true ∧ d.fd ≠ Int.ofNat m ∧ Wired w'.kernel d.fd slot node ∧
      (∃ fresh, Wired w'.kernel (Int.ofNat m) fresh sink) ∧
      ∀ {fd : Fd} {other : Nat} {at_node : NodeId}, fd ≠ Int.ofNat m →
        Wired w.kernel fd other at_node →
        fd ≠ d.fd ∧ Wired w'.kernel fd other at_node := by
  unfold keepAndDiscard at h
  split at h
  · cases h
  · rename_i fd u kept
    obtain ⟨n, slot', rfl, free, at_slot, rfl⟩ := keep_ok kept
    split at h
    · cases h
    · rename_i u' discarded
      obtain ⟨same, rfl⟩ := Prod.mk.inj h
      obtain rfl := Except.ok.inj same
      obtain rfl : slot = slot' := Option.some.inj (wired.slot_eq.symm.trans at_slot)
      have apart : Int.ofNat n ≠ Int.ofNat m := fun same =>
        ne_of_free (busy_of_wired wired) free (Int.ofNat.inj same)
      obtain ⟨f, found, rfl, writable⟩ := wired.opened
      have assigned : Wired (w.kernel.assign n (some slot)) (Int.ofNat n) slot f.node :=
        wired_assign_self found writable
      obtain ⟨rewired, sunk, others⟩ :=
        discard_wired discarded (wired.assign (Ne.symm apart) _) at_sink
      have first : Rewired w { w with kernel := w.kernel.assign n (some slot) } :=
        ⟨fun found => found, rfl, rfl, rfl⟩
      refine ⟨first.trans rewired, rfl, apart, others apart assigned, sunk, ?_⟩
      intro fd other at_node elsewhere wired'
      have unused : fd ≠ Int.ofNat n := by
        rintro rfl
        have taken : w.kernel.table n = some other := wired'.slot_eq
        simp [table_of_lowestFree free] at taken
      exact ⟨unused, others elsewhere (wired'.assign unused _)⟩

/-- Where the descriptors of a silenced process lead: those of the streams, and that of the
diagnostics, which go where standard error went. -/
structure Wiring (policy : RedirectionPolicy) (k : Kernel) (d : DiagnosticStream)
    (outSlot errSlot : Nat) (out err sink : NodeId) : Prop where
  stdout : if policy.discardStdout then ∃ fresh, Wired k 1 fresh sink else Wired k 1 outSlot out
  stderr : if policy.discardStderr then ∃ fresh, Wired k 2 fresh sink else Wired k 2 errSlot err
  diagnostics : Wired k d.fd errSlot err
  duplicated : d.duplicated = policy.discardStderr
  fd_eq_two : d.fd = 2 ↔ policy.discardStderr = false
  fd_ne_one : d.fd ≠ 1

theorem Wiring.cases {policy : RedirectionPolicy} {k : Kernel}
    {d : DiagnosticStream} {outSlot errSlot : Nat} {out err sink : NodeId}
    (wiring : Wiring policy k d outSlot errSlot out err sink) {fd : Fd}
    (known : fd = 1 ∨ fd = 2 ∨ fd = d.fd) :
    (fd ≠ d.fd ∧ (fd = 1 → policy.discardStdout = true) ∧ ∃ fresh, Wired k fd fresh sink) ∨
      (fd = 1 ∧ policy.discardStdout = false ∧ Wired k fd outSlot out) ∨ fd = d.fd ∧
      Wired k fd errSlot err := by
  by_cases diagnostics : fd = d.fd
  · exact .inr (.inr ⟨diagnostics, diagnostics ▸ wiring.diagnostics⟩)
  · rcases known with rfl | rfl | same
    · have stdout := wiring.stdout
      cases discards : policy.discardStdout with
      | true => exact .inl ⟨diagnostics, fun _ => rfl, by simpa [discards] using stdout⟩
      | false => exact .inr (.inl ⟨rfl, rfl, by simpa [discards] using stdout⟩)
    · have discards : policy.discardStderr = true := by
        simpa using fun kept => diagnostics (wiring.fd_eq_two.mpr kept).symm
      have stderr := wiring.stderr
      exact .inl ⟨diagnostics, by simp, by simpa [discards] using stderr⟩
    · exact absurd same diagnostics

theorem silence_wired {policy : RedirectionPolicy} {d : DiagnosticStream} {outSlot errSlot : Nat}
    {out err sink : NodeId} (h : silence .default policy w = (.ok d, w'))
    (stdout : Wired w.kernel 1 outSlot out)
    (stderr : Wired w.kernel 2 errSlot err) (at_sink : SinkAt w.kernel.tree sink) :
    Rewired w w' ∧ Wiring policy w'.kernel d outSlot errSlot out err sink := by
  unfold silence at h
  split at h
  · cases h
  · rename_i u outcome
    have apart : (2 : Fd) ≠ Int.ofNat 1 := by decide
    have apart' : (1 : Fd) ≠ Int.ofNat 2 := by decide
    obtain ⟨first, stdout', stderr'⟩ : Rewired w u ∧
        (if policy.discardStdout then ∃ fresh, Wired u.kernel 1 fresh sink
          else Wired u.kernel 1 outSlot out) ∧
        Wired u.kernel 2 errSlot err := by
      cases discards : policy.discardStdout with
      | true =>
          rw [discards] at outcome
          obtain ⟨rewired, sunk, others⟩ := discard_wired (m := 1) outcome stdout at_sink
          exact ⟨rewired, sunk, others apart stderr⟩
      | false =>
          rw [discards] at outcome
          obtain rfl : w = u := congrArg Prod.snd outcome
          exact ⟨.refl w, stdout, stderr⟩
    have at_sink' : SinkAt u.kernel.tree sink := by rwa [first.tree]
    cases discards : policy.discardStderr with
    | true =>
        rw [discards] at h
        obtain ⟨second, duplicated, fd_ne, kept, sunk, others⟩ :=
          keepAndDiscard_wired (m := 2) h stderr' at_sink'
        have fd_ne_one : d.fd ≠ 1 := by
          split at stdout'
          · obtain ⟨fresh, wired⟩ := stdout'
            exact Ne.symm (others apart' wired).1
          · exact Ne.symm (others apart' stdout').1
        refine ⟨first.trans second,
          ⟨?_, by simpa [discards] using sunk, kept, by rw [duplicated, discards], ?_, fd_ne_one⟩⟩
        · split at stdout'
          · obtain ⟨fresh, wired⟩ := stdout'
            rw [if_pos (by assumption)]
            exact ⟨fresh, (others apart' wired).2⟩
          · rw [if_neg (by assumption)]
            exact (others apart' stdout').2
        · simpa [discards] using fd_ne
    | false =>
        rw [discards] at h
        obtain rfl : (⟨2, false⟩ : DiagnosticStream) = d := Except.ok.inj (congrArg Prod.fst h)
        obtain rfl : u = w' := congrArg Prod.snd h
        exact ⟨first,
          ⟨stdout', by simpa [discards] using stderr', stderr', discards.symm, by simp [discards],
            by decide⟩⟩

end Redirection

end FuzzHarness
