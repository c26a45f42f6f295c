import FuzzHarness.Boot
import FuzzHarness.Proofs.Kernel.Ends

/-!
Redirections one after the other, with writes between them. Each does to the descriptors what its
policy says and to none but its own, whatever the earlier ones did. Every descriptor in use stays at
the end of what it refers to, so nothing that is written through one is lost to another.
-/

namespace FuzzHarness

namespace Redirection
open Kernel

variable {w w' : World} {streams : StdStreams} {policy : RedirectionPolicy} {d : DiagnosticStream}
  {fd : Fd} {fds : List Fd} {owned : NodeId → Prop} {sink : NodeId}

/-- What a redirection says itself, and where the diagnostics lead when it does. -/
def noticed (streams : StdStreams) (policy : RedirectionPolicy) (w : World) : Ledger :=
  match policy.stderrDuplicate with
  | none => []
  | some path =>
    if w.allows (.stderrAppends path) then
      (appending streams policy w).2.kernel.entry w.diagnostic
        (Bytes.ofString (Notice.stderrAppends path).line)
    else []

/-- No path of a policy leads to one of these nodes. -/
def Avoids (policy : RedirectionPolicy) (k : Kernel) (owned : NodeId → Prop) : Prop :=
  ∀ path id tree, policy.stderrDuplicate = some path → k.locate path .append = .ok (id, tree) →
    ¬owned id

/-- What a redirection that answered made of the descriptors. A fresh one refers to what standard
error would refer to if that had not been discarded. -/
structure Redirected (streams : StdStreams) (policy : RedirectionPolicy) (sink : NodeId) (w : World)
    (d : DiagnosticStream) (w' : World) : Prop where
  stdout : if policy.discardStdout then w'.kernel.target? streams.stdout = some sink
    else w'.kernel.slot? streams.stdout = w.kernel.slot? streams.stdout
  stderr : if policy.discardStderr then w'.kernel.target? streams.stderr = some sink
    else match policy.stderrDuplicate with
    | some path => ∃ id tree, w.kernel.locate path .append = .ok (id, tree) ∧
        w'.kernel.target? streams.stderr = some id
    | none => w'.kernel.slot? streams.stderr = w.kernel.slot? streams.stderr
  answer : if policy.discardStderr then d.duplicated = true ∧ w.kernel.slot? d.fd = none ∧
      ∃ kept, apply streams { policy with discardStderr := false } w =
        (.ok ⟨streams.stderr, false⟩, kept) ∧
        w'.kernel.slot? d.fd = kept.kernel.slot? streams.stderr ∧
        w'.kernel.target? d.fd = kept.kernel.target? streams.stderr
    else d = ⟨streams.stderr, false⟩
  others : ∀ fd, fd ≠ streams.stdout → fd ≠ streams.stderr → fd ≠ d.fd →
    w'.kernel.slot? fd = w.kernel.slot? fd
  recorded : Records w.kernel w'.kernel

theorem Redirected.ne_answer (h : Redirected streams policy sink w d w') {slot : Nat}
    (busy : w.kernel.slot? fd = some slot) (not_stderr : fd ≠ streams.stderr) : fd ≠ d.fd := by
  have answer := h.answer
  rintro rfl
  split at answer
  · rw [busy] at answer
    cases answer.2.1
  · rw [answer] at not_stderr
    exact not_stderr rfl

theorem tidy_log (notice : Notice) (tidy : Tidy w.kernel fds owned)
    (heard : w.filter.isSome = true → w.diagnostic ∈ fds) : Tidy (w.log notice).kernel fds owned ∧
      Receives w.kernel (w.log notice).kernel (if w.allows notice then
        (w.log notice).kernel.entry w.diagnostic (Bytes.ofString notice.line) else []) := by
  unfold World.log
  split
  · rename_i allowed
    have member := heard (World.isSome_filter_of_allows allowed)
    have keeps := keeps_write w.kernel w.diagnostic (Bytes.ofString notice.line)
    have same := keeps.records.target?_eq (keeps.slot? w.diagnostic) (tidy.recorded member)
    have written := tidy.write member (Bytes.ofString notice.line)
    rw [entry, ← same] at written
    exact written
  · exact ⟨tidy, .of_tree rfl⟩

theorem appending_tidy (h : appending streams policy w = (.ok (), w'))
    (tidy : Tidy w.kernel fds owned) (err : streams.stderr ∈ fds)
    (heard : w.filter.isSome = true → w.diagnostic ∈ fds) (avoids : Avoids policy w.kernel owned)
    (root : ∃ n, w.kernel.tree.node? w.kernel.tree.root = some n) :
    Tidy w'.kernel fds owned ∧ Receives w.kernel w'.kernel (noticed streams policy w) ∧
      (∀ fd, fd ≠ streams.stderr → w'.kernel.slot? fd = w.kernel.slot? fd) ∧
      match policy.stderrDuplicate with
      | some path => ∃ id tree, w.kernel.locate path .append = .ok (id, tree) ∧
          w'.kernel.target? streams.stderr = some id
      | none => w'.kernel.slot? streams.stderr = w.kernel.slot? streams.stderr := by
  have said : noticed streams policy w = match policy.stderrDuplicate with
    | none => []
    | some path => if w.allows (.stderrAppends path) then
        w'.kernel.entry w.diagnostic (Bytes.ofString (Notice.stderrAppends path).line) else [] := by
    rw [noticed, h]
  rw [said]
  unfold appending at h
  cases duplicate : policy.stderrDuplicate with
  | none =>
      rw [duplicate] at h
      obtain rfl := (Prod.mk.inj h).2
      exact ⟨tidy, .of_tree rfl, fun _ _ => rfl, rfl⟩
  | some path =>
      rw [duplicate] at h
      obtain ⟨m, number, busy⟩ := tidy.number err
      rw [number] at h ⊢
      obtain ⟨id, tree, located, rfl⟩ := appendTo_refit h busy fun spoken =>
        tidy.slot? (heard spoken)
      have appends : Tidy (w.kernel.refit m (OpenMode.openFile .append id) tree)
          (Int.ofNat m :: fds) owned :=
        tidy.refit (grows_locate located) (fun found => content?_locate located found) rfl
          (node?_locate root located) fun _ => ⟨rfl, avoids path id tree duplicate located⟩
      let u : World := { w with kernel := w.kernel.refit m (OpenMode.openFile .append id) tree }
      have keeps := World.keeps_log u (.stderrAppends path)
      obtain ⟨tidied, received⟩ := tidy_log (w := u) (.stderrAppends path)
        (appends.mono fun fd member => List.mem_cons_of_mem _ member) heard
      refine ⟨tidied, (Receives.of_locate located rfl).trans received, fun fd other => ?_, id, tree,
        located, ?_⟩
      · exact (keeps.slot? fd).trans (slot?_assign_of_ne _ _ other)
      · exact (keeps.wired (wired_refit_self w.kernel m tree rfl)).target?_eq

theorem discard_tidy (h : discard fd w = (.ok (), w')) (tidy : Tidy w.kernel fds owned)
    (member : fd ∈ fds) (at_sink : SinkAt w.kernel.tree sink) :
    Tidy w'.kernel fds owned ∧ w'.kernel.tree = w.kernel.tree ∧ w'.kernel.target? fd = some sink ∧
      ∀ x, x ≠ fd → w'.kernel.slot? x = w.kernel.slot? x := by
  obtain ⟨m, rfl, busy⟩ := tidy.number member
  obtain ⟨id, tree, located, rfl⟩ := discard_ok h busy
  obtain ⟨rfl, rfl⟩ := at_sink.locate located
  have sunk : Tidy (w.kernel.refit m (OpenMode.openFile .write id) w.kernel.tree)
      (Int.ofNat m :: fds) owned :=
    tidy.refit (.refl _) (fun _ => rfl) rfl ⟨_, at_sink.swallows⟩ fun holds => by
      have nothing := at_sink.content?_eq
      rw [show (OpenMode.openFile .write id).node = id from rfl, nothing] at holds
      cases holds
  exact ⟨sunk.mono fun fd member => List.mem_cons_of_mem _ member, rfl,
    (wired_refit_self w.kernel m w.kernel.tree rfl).target?_eq, fun x other =>
      slot?_assign_of_ne _ _ other⟩

theorem keepAndDiscard_tidy (h : keepAndDiscard fd w = (.ok d, w')) (tidy : Tidy w.kernel fds owned)
    (member : fd ∈ fds) (at_sink : SinkAt w.kernel.tree sink) :
    Tidy w'.kernel (d.fd :: fds) owned ∧ w'.kernel.tree = w.kernel.tree ∧
      w'.kernel.target? fd = some sink ∧
      d.duplicated = true ∧ w.kernel.slot? d.fd = none ∧ w'.kernel.slot? d.fd = w.kernel.slot? fd ∧
      ∀ x, x ≠ fd → x ≠ d.fd → w'.kernel.slot? x = w.kernel.slot? x := by
  unfold keepAndDiscard at h
  split at h
  · cases h
  · rename_i fresh u kept
    obtain ⟨n, slot, rfl, free, referred, rfl⟩ := keep_ok kept
    split at h
    · cases h
    · rename_i u' discarded
      obtain ⟨same, rfl⟩ := Prod.mk.inj h
      obtain rfl := Except.ok.inj same
      have apart := ne_of_lowestFree referred free
      have taken : (w.kernel.assign n (some slot)).slot? (Int.ofNat n) = some slot := by
        simp [slot?, assign]
      have doubled : Tidy (w.kernel.assign n (some slot)) (Int.ofNat n :: fds) owned := by
        refine tidy.rewire rfl rfl fun x inside => ?_
        by_cases new : x = Int.ofNat n
        · exact ⟨fd, member, by rw [new, taken, referred]⟩
        · exact ⟨x, (List.mem_cons.mp inside).resolve_left new, slot?_assign_of_ne _ _ new⟩
      obtain ⟨tidied, tree, sunk, others⟩ := discard_tidy
        (w := { w with kernel := w.kernel.assign n (some slot) }) discarded doubled
          (List.mem_cons_of_mem _ member) at_sink
      refine ⟨tidied, tree, sunk, rfl, table_of_lowestFree free, ?_, fun x other new => ?_⟩
      · rw [others _ (Ne.symm apart), taken, referred]
      · exact (others x other).trans (slot?_assign_of_ne _ _ new)

theorem silence_cases (h : silence streams policy w = (.ok d, w')) : ∃ u,
    silence streams { policy with discardStderr := false } w = (.ok ⟨streams.stderr, false⟩, u) ∧
      (if policy.discardStdout then discard streams.stdout w = (.ok (), u) else u = w) ∧
      if policy.discardStderr then keepAndDiscard streams.stderr u = (.ok d, w')
      else d = ⟨streams.stderr, false⟩ ∧ w' = u := by
  unfold silence at h ⊢
  split at h
  · cases h
  · rename_i u outcome
    refine ⟨u, by rw [outcome]; rfl, ?_, ?_⟩
    · cases discards : policy.discardStdout with
      | true => simpa [discards] using outcome
      | false => simpa [discards, eq_comm] using outcome
    · cases discards : policy.discardStderr with
      | true => simpa [discards] using h
      | false => simpa [discards, eq_comm] using h

theorem silence_stdout {discards : Bool}
    (h : if discards then discard fd w = (.ok (), w') else w' = w) (tidy : Tidy w.kernel fds owned)
    (member : fd ∈ fds) (at_sink : SinkAt w.kernel.tree sink) :
    Tidy w'.kernel fds owned ∧ w'.kernel.tree = w.kernel.tree ∧ Records w.kernel w'.kernel ∧
      (if discards then w'.kernel.target? fd = some sink
        else w'.kernel.slot? fd = w.kernel.slot? fd) ∧
      ∀ x, x ≠ fd → w'.kernel.slot? x = w.kernel.slot? x := by
  cases discards with
  | true =>
      obtain ⟨tidied, tree, sunk, others⟩ := discard_tidy h tidy member at_sink
      have steps := steps_discard fd w
      rw [h] at steps
      exact ⟨tidied, tree, steps.records, sunk, others⟩
  | false =>
      obtain rfl : w' = w := h
      exact ⟨tidy, rfl, .refl _, rfl, fun _ _ => rfl⟩

theorem silence_stderr {discards : Bool}
    (h : if discards then keepAndDiscard fd w = (.ok d, w') else d = ⟨fd, false⟩ ∧ w' = w)
    (tidy : Tidy w.kernel fds owned) (member : fd ∈ fds) (at_sink : SinkAt w.kernel.tree sink) :
    Tidy w'.kernel (d.fd :: fds) owned ∧ w'.kernel.tree = w.kernel.tree ∧
      Records w.kernel w'.kernel ∧
      (if discards then w'.kernel.target? fd = some sink
        else w'.kernel.slot? fd = w.kernel.slot? fd) ∧
      (if discards then d.duplicated = true ∧ w.kernel.slot? d.fd = none ∧
        w'.kernel.slot? d.fd = w.kernel.slot? fd else d = ⟨fd, false⟩) ∧
      ∀ x, x ≠ fd → x ≠ d.fd → w'.kernel.slot? x = w.kernel.slot? x := by
  cases discards with
  | true =>
      obtain ⟨tidied, tree, sunk, duplicated, free, taken, others⟩ :=
        keepAndDiscard_tidy h tidy member at_sink
      have steps := steps_keepAndDiscard fd w
      rw [h] at steps
      exact ⟨tidied, tree, steps.records, sunk, ⟨duplicated, free, taken⟩, others⟩
  | false =>
      obtain ⟨rfl, rfl⟩ : d = ⟨fd, false⟩ ∧ w' = w := h
      exact ⟨tidy.mono (List.cons_subset.mpr ⟨member, List.Subset.refl fds⟩), rfl, .refl _, rfl,
        rfl, fun _ _ _ => rfl⟩

theorem silence_tidy (h : silence streams policy w = (.ok d, w')) (tidy : Tidy w.kernel fds owned)
    (out : streams.stdout ∈ fds) (err : streams.stderr ∈ fds)
    (apart : streams.stdout ≠ streams.stderr)
    (at_sink : SinkAt w.kernel.tree sink) :
    Tidy w'.kernel (d.fd :: fds) owned ∧ w'.kernel.tree = w.kernel.tree ∧
      Redirected streams { policy with stderrDuplicate := none } sink w d w' := by
  obtain ⟨u, kept, stdout, stderr⟩ := silence_cases h
  obtain ⟨tidy₁, tree₁, records₁, sunk₁, others₁⟩ := silence_stdout stdout tidy out at_sink
  obtain ⟨tidy₂, tree₂, records₂, sunk₂, answered, others₂⟩ :=
    silence_stderr stderr tidy₁ err (tree₁ ▸ at_sink)
  have fresh : policy.discardStderr = true → d.fd ≠ streams.stdout ∧ d.fd ≠ streams.stderr := by
    intro discards
    rw [discards, if_pos rfl] at answered
    obtain ⟨-, free, -⟩ := answered
    refine ⟨fun same => ?_, fun same => ?_⟩
    · obtain ⟨slot, busy⟩ := tidy₁.slot? out
      rw [same, busy] at free
      cases free
    · obtain ⟨slot, busy⟩ := tidy₁.slot? err
      rw [same, busy] at free
      cases free
  have answer_apart : streams.stdout ≠ d.fd := by
    cases discards : policy.discardStderr with
    | true => exact Ne.symm (fresh discards).1
    | false =>
        rw [discards] at answered
        obtain rfl : d = ⟨streams.stderr, false⟩ := answered
        exact apart
  refine ⟨tidy₂, tree₂.trans tree₁,
    ⟨?_, ?_, ?_, fun x not_out not_err new => ?_, records₁.trans records₂⟩⟩
  · have same := others₂ _ apart answer_apart
    have target := records₂.target?_eq same (tidy₁.recorded out)
    rw [same, target]
    exact sunk₁
  · have same := others₁ _ (Ne.symm apart)
    rw [same] at sunk₂
    exact sunk₂
  · cases discards : policy.discardStderr with
    | true =>
        rw [discards, if_pos rfl] at answered
        obtain ⟨duplicated, free, taken⟩ := answered
        refine ⟨duplicated, (others₁ _ (fresh discards).1).symm.trans free, u, kept, taken, ?_⟩
        exact records₂.target?_eq taken (tidy₁.recorded err)
    | false =>
        rw [discards] at answered
        exact answered
  · exact (others₂ x not_err new).trans (others₁ x not_out)

/-- A redirection that answers does to the descriptors what its policy says, writes nothing but its
notice, and leaves every descriptor in use at the end of what it refers to. -/
theorem apply_tidy (h : apply streams policy w = (.ok d, w')) (tidy : Tidy w.kernel fds owned)
    (out : streams.stdout ∈ fds) (err : streams.stderr ∈ fds)
    (apart : streams.stdout ≠ streams.stderr)
    (heard : w.filter.isSome = true → w.diagnostic ∈ fds) (avoids : Avoids policy w.kernel owned)
    (at_sink : SinkAt w.kernel.tree sink) :
    Tidy w'.kernel (d.fd :: fds) owned ∧ Receives w.kernel w'.kernel (noticed streams policy w) ∧
      Redirected streams policy sink w d w' := by
  rcases appended : appending streams policy w with ⟨e | done, v⟩
  · rw [apply_eq, appended] at h
    cases h
  · have silenced : silence streams policy v = (.ok d, w') := by rwa [apply_eq, appended] at h
    obtain ⟨tidy₁, receives, others₁, appends⟩ :=
      appending_tidy appended tidy err heard avoids at_sink.root
    obtain ⟨tidy₂, tree, redirected⟩ :=
      silence_tidy silenced tidy₁ out err apart (at_sink.grows receives.grows)
    have records₁ : Records w.kernel v.kernel := by
      have steps := steps_appending streams policy w
      rw [appended] at steps
      exact steps.records
    have all := receives.trans (.of_tree tree)
    rw [List.append_nil] at all
    refine ⟨tidy₂, all,
      ⟨?_, ?_, ?_, fun x not_out not_err new => ?_, records₁.trans redirected.recorded⟩⟩
    · have stdout := redirected.stdout
      rw [others₁ _ apart] at stdout
      exact stdout
    · have stderr := redirected.stderr
      cases discards : policy.discardStderr with
      | true => simpa [discards] using stderr
      | false =>
          have same : w'.kernel.slot? streams.stderr = v.kernel.slot? streams.stderr := by
            simpa [discards] using stderr
          rw [same, redirected.recorded.target?_eq same (tidy₁.recorded err)]
          exact appends
    · have answer := redirected.answer
      cases discards : policy.discardStderr with
      | true =>
          simp only [discards, if_true] at answer
          obtain ⟨duplicated, free, kept, without, taken⟩ := answer
          have fresh : d.fd ≠ streams.stderr := fun same => by
            obtain ⟨slot, busy⟩ := tidy₁.slot? err
            rw [same, busy] at free
            cases free
          refine ⟨duplicated, (others₁ _ fresh).symm.trans free, kept, ?_, taken⟩
          have same : appending streams { policy with discardStderr := false } w = (.ok (), v) :=
            appended
          rw [apply_eq, same]
          exact without
      | false => simpa [discards] using answer
    · exact (redirected.others x not_out not_err new).trans (others₁ x not_err)

/-- Descriptors that are open for writing at the end of what they refer to. Two that refer to the
same file share the open file. -/
structure AtEnds (k : Kernel) (fds : List Fd) : Prop where
  at_end : ∀ fd ∈ fds, ∃ slot f n, k.slot? fd = some slot ∧ k.opened[slot]? = some f ∧
    f.writable = true ∧
    k.tree.node? f.node = some n ∧ ∀ content, n = .file content →
    f.position content = content.length
  shared : ∀ fd ∈ fds, ∀ fd' ∈ fds, k.target? fd = k.target? fd' → k.slot? fd = k.slot? fd'

theorem AtEnds.tidy {k : Kernel} (h : AtEnds k fds) : Tidy k fds fun id =>
    ∃ fd ∈ fds, k.target? fd = some id where
  wired fd member := by
    obtain ⟨slot, f, n, referred, found, writable, at_node, -⟩ := h.at_end fd member
    exact ⟨slot, f, n, referred, found, writable, at_node⟩
  at_end := by
    rintro slot f content ⟨found, fd, member, referred⟩ holds
    obtain ⟨slot', f', n, referred', found', -, at_node, ends⟩ := h.at_end fd member
    obtain rfl : slot' = slot := Option.some.inj (referred'.symm.trans referred)
    obtain rfl : f' = f := Option.some.inj (found'.symm.trans found)
    exact ends content (Option.some.inj (at_node.symm.trans (content?_eq_some.mp holds)))
  alone := by
    rintro slot f content ⟨found, fd, member, referred⟩ - -
    have target : k.target? fd = some f.node := by simp [target?, openFile?, referred, found]
    refine ⟨⟨fd, member, target⟩, ?_⟩
    rintro slot' f' ⟨found', fd', member', referred'⟩ same
    have target' : k.target? fd' = some f.node := by
      simp [target?, openFile?, referred', found', same]
    have slots := h.shared fd member fd' member' (target.trans target'.symm)
    rw [referred, referred'] at slots
    exact (Option.some.inj slots).symm

/-- A world with the descriptors that redirections answered with so far and the ledger of what was
written. -/
structure Stage where
  world : World
  answered : List Fd
  ledger : Ledger

/-- What may happen to streams: redirections that answer, by policies whose paths lead to none of
the owned nodes, and writes through the known descriptors and those answered with so far, which the
diagnostics may be sent to as well. -/
inductive History (streams : StdStreams) (known : List Fd) (owned : NodeId → Prop) (s : Stage) :
    Stage → Prop
  | refl : History streams known owned s s
  | apply {s' : Stage} {policy : RedirectionPolicy} {d : DiagnosticStream} {w : World} :
      History streams known owned s s' → Avoids policy s'.world.kernel owned →
      Redirection.apply streams policy s'.world = (.ok d, w) →
      History streams known owned s
        ⟨w, s'.answered ++ [d.fd], s'.ledger ++ noticed streams policy s'.world⟩
  | write {s' : Stage} {fd : Fd} (data : Bytes) (writer : Writer) :
      History streams known owned s s' →
      fd ∈ known ++ s'.answered →
      History streams known owned s
        ⟨s'.world.write fd data writer, s'.answered, s'.ledger ++ s'.world.kernel.entry fd data⟩
  | retarget {s' : Stage} {fd : Fd} : History streams known owned s s' → fd ∈ known ++ s'.answered →
      History streams known owned s ⟨s'.world.setDiagnostic fd, s'.answered, s'.ledger⟩

/-- What holds at every stage of a history that began in a world. -/
structure Sound (streams : StdStreams) (known : List Fd) (owned : NodeId → Prop) (sink : NodeId)
    (w : World) (s : Stage) : Prop where
  tidy : Tidy s.world.kernel (known ++ s.answered) owned
  sink : SinkAt s.world.kernel.tree sink
  heard : s.world.filter.isSome = true → s.world.diagnostic ∈ known ++ s.answered
  receives : Receives w.kernel s.world.kernel s.ledger
  not_stdout : ∀ fd ∈ s.answered, fd ≠ streams.stdout

namespace Sound

variable {known : List Fd} {s s' : Stage}

theorem start (ends : AtEnds w.kernel known) (heard : w.filter.isSome = true → w.diagnostic ∈ known)
    (at_sink : SinkAt w.kernel.tree sink) :
    Sound streams known
      (fun id => ∃ fd ∈ known, w.kernel.target? fd = some id) sink w ⟨w, [], []⟩ where
  tidy := by simpa using ends.tidy
  sink := at_sink
  heard := by simpa using heard
  receives := .of_tree rfl
  not_stdout := nofun

variable (out : streams.stdout ∈ known) (err : streams.stderr ∈ known)
  (apart : streams.stdout ≠ streams.stderr)
include out err apart

theorem redirected (sound : Sound streams known owned sink w s)
    (avoids : Avoids policy s.world.kernel owned)
    (h : Redirection.apply streams policy s.world = (.ok d, w')) :
    Redirected streams policy sink s.world d w' ∧
      Sound streams known owned sink w
        ⟨w', s.answered ++ [d.fd], s.ledger ++ noticed streams policy s.world⟩ := by
  obtain ⟨tidied, received, redirected⟩ := apply_tidy h sound.tidy (List.mem_append_left _ out)
    (List.mem_append_left _ err) apart sound.heard avoids sound.sink
  have steps := steps_apply streams policy s.world
  rw [h] at steps
  refine ⟨redirected, tidied.mono ?_, sound.sink.grows received.grows, ?_,
    sound.receives.trans received, ?_⟩
  · exact List.append_subset.mpr
      ⟨fun fd member => List.mem_cons_of_mem _ (List.mem_append_left _ member),
      List.append_subset.mpr ⟨fun fd member =>
        List.mem_cons_of_mem _ (List.mem_append_right _ member),
        fun fd member => List.mem_singleton.mp member ▸ List.mem_cons_self⟩⟩
  · intro spoken
    rw [steps.filter_eq] at spoken
    rw [steps.diagnostic_eq, ← List.append_assoc]
    exact List.mem_append_left _ (sound.heard spoken)
  · intro fd member
    rcases List.mem_append.mp member with before | last
    · exact sound.not_stdout fd before
    · obtain ⟨slot, busy⟩ := sound.tidy.slot? (List.mem_append_left s.answered out)
      rw [List.mem_singleton.mp last]
      exact Ne.symm (redirected.ne_answer busy apart)

/-- Every stage of a history is sound, and the fresh descriptors of a stage refer to the same at
every later one. -/
theorem run (history : History streams known owned s s')
    (sound : Sound streams known owned sink w s) :
    Sound streams known owned sink w s' ∧ s.answered ⊆ s'.answered ∧
      Records s.world.kernel s'.world.kernel ∧
      ∀ fd ∈ s.answered, fd ≠ streams.stderr →
        s'.world.kernel.slot? fd = s.world.kernel.slot? fd := by
  induction history with
  | refl => exact ⟨sound, List.Subset.refl _, .refl _, fun _ _ _ => rfl⟩
  | @apply s₁ policy d w₁ _ avoids answered ih =>
      obtain ⟨sound₁, more, records, stays⟩ := ih
      obtain ⟨redirected, sound₂⟩ := sound₁.redirected out err apart avoids answered
      refine ⟨sound₂, List.subset_append_of_subset_left _ more,
        records.trans redirected.recorded, ?_⟩
      intro fd member not_stderr
      obtain ⟨slot, busy⟩ := sound₁.tidy.slot? (List.mem_append_right known (more member))
      exact (redirected.others fd (sound₁.not_stdout fd (more member)) not_stderr
        (redirected.ne_answer busy not_stderr)).trans (stays fd member not_stderr)
  | @write s₁ fd data writer _ known_fd ih =>
      obtain ⟨sound₁, more, records, stays⟩ := ih
      have keeps := keeps_write s₁.world.kernel fd data
      obtain ⟨tidied, received⟩ := sound₁.tidy.write known_fd data
      refine ⟨⟨tidied, sound₁.sink.grows received.grows, sound₁.heard,
        sound₁.receives.trans received,
        sound₁.not_stdout⟩, more, records.trans keeps.records, ?_⟩
      intro x member not_stderr
      exact (keeps.slot? x).trans (stays x member not_stderr)
  | retarget _ known_fd ih =>
      obtain ⟨sound₁, rest⟩ := ih
      exact ⟨⟨sound₁.tidy, sound₁.sink, fun _ => known_fd, sound₁.receives,
        sound₁.not_stdout⟩, rest⟩

end Sound

/-- Let standard output and standard error be distinct descriptors among some known ones, all of
which are open for writing at the end of what they refer to, with the diagnostics among them if
anything is said at all. Let redirections and writes follow one another, where no policy leads to
what the known descriptors refer to. Then every redirection that answers does to the descriptors
what its policy says and leaves the others; what a fresh descriptor refers to is never changed
later; and every file holds what it held, or nothing if it is new, and then exactly what was written
to it. -/
theorem History.composes {known : List Fd} {s : Stage} (ends : AtEnds w.kernel known)
    (out : streams.stdout ∈ known) (err : streams.stderr ∈ known)
    (apart : streams.stdout ≠ streams.stderr)
    (heard : w.filter.isSome = true → w.diagnostic ∈ known) (at_sink : SinkAt w.kernel.tree sink)
    (history :
      History streams known (fun id => ∃ fd ∈ known, w.kernel.target? fd = some id) ⟨w, [], []⟩ s) :
    (∀ policy d w', Avoids policy s.world.kernel
      (fun id => ∃ fd ∈ known, w.kernel.target? fd = some id) →
      Redirection.apply streams policy s.world = (.ok d, w') →
      Redirected streams policy sink s.world d w') ∧
    (∀ s', History streams known (fun id => ∃ fd ∈ known, w.kernel.target? fd = some id) s s' →
      ∀ fd ∈ s.answered, fd ≠ streams.stderr →
        s'.world.kernel.slot? fd = s.world.kernel.slot? fd ∧
        s'.world.kernel.target? fd = s.world.kernel.target? fd) ∧
    ∀ id content,
      (w.kernel.tree.content? id = some content →
        s.world.kernel.tree.content? id = some (content ++ s.ledger.received id)) ∧
      (w.kernel.tree.node? id = none → s.world.kernel.tree.content? id = some content →
        content = s.ledger.received id) := by
  obtain ⟨sound, -⟩ := Sound.run out err apart history (.start ends heard at_sink)
  refine ⟨fun policy d w' avoids answered =>
    (sound.redirected out err apart avoids answered).1, ?_, ?_⟩
  · intro s' later fd member not_stderr
    obtain ⟨-, -, records, stays⟩ := Sound.run out err apart later sound
    have same := stays fd member not_stderr
    exact ⟨same, records.target?_eq same (sound.tidy.recorded (List.mem_append_right _ member))⟩
  · intro id content
    refine ⟨fun holds => ?_, fun missing holds => sound.receives.created missing holds⟩
    rw [sound.receives.existing (content?_eq_some.mp holds), holds]
    rfl

/-- Standard error is appended to a new file and then discarded; what is written through the fresh
descriptor stands in the file behind the notice. -/
theorem History.composes_kept :
    let path := Bytes.ofString "log"
    let w := World.boot [] (some ⟨[⟨none, Log.everything⟩], none⟩)
    let ended := Redirection.apply .default ⟨some path, false, true⟩ w
    let written := ended.2.write 3 [0x78]
    ended.1.toOption = some ⟨3, true⟩ ∧
      written.kernel.tree.content? 9 =
        some (Bytes.ofString (Notice.stderrAppends path).line ++ [0x78]) := by
  intro path w ended written
  have answered : ended.1.toOption = some ⟨3, true⟩ := by decide +kernel
  have created : (written.kernel.tree.content? 9).isSome = true := by decide +kernel
  obtain ⟨content, holds⟩ := Option.isSome_iff_exists.mp created
  refine ⟨answered, holds.trans (congrArg some ?_)⟩
  have ends : AtEnds w.kernel [1, 2] := by
    refine ⟨fun fd member => ?_, by decide +kernel⟩
    rcases List.mem_cons.mp member with rfl | member
    · exact ⟨1, Kernel.streamFile 7 true, .file [], rfl, rfl, rfl, rfl, by rintro _ ⟨⟩; rfl⟩
    · obtain rfl := List.mem_singleton.mp member
      exact ⟨2, Kernel.streamFile 8 true, .file [], rfl, rfl, rfl, rfl, by rintro _ ⟨⟩; rfl⟩
  have avoids : Avoids ⟨some path, false, true⟩ w.kernel fun id =>
      ∃ fd ∈ [1, 2], w.kernel.target? fd = some id := by
    rintro _ id tree ⟨⟩ located ⟨fd, member, target⟩
    have new : (w.kernel.locate path .append).toOption.map Prod.fst = some 9 := by decide +kernel
    rw [located] at new
    obtain rfl : id = 9 := Option.some.inj new
    have others : ∀ fd ∈ [1, 2], w.kernel.target? fd ≠ some 9 := by decide +kernel
    exact others fd member target
  have applied : ended = (.ok ⟨3, true⟩, ended.2) := by
    cases outcome : ended.1 with
    | error e =>
        rw [outcome] at answered
        cases answered
    | ok d =>
        rw [outcome] at answered
        obtain rfl : d = ⟨3, true⟩ := Option.some.inj answered
        exact outcome ▸ (Prod.eta ended).symm
  have at_sink : SinkAt w.kernel.tree 4 := ⟨rfl, rfl⟩
  have received :
    (noticed .default ⟨some path, false, true⟩ w ++ ended.2.kernel.entry 3 [0x78]).received 9 =
      Bytes.ofString (Notice.stderrAppends path).line ++ [0x78] := by decide +kernel
  have missing : w.kernel.tree.node? 9 = none := by decide +kernel
  obtain ⟨w', named⟩ : ∃ w', ended.2 = w' := ⟨_, rfl⟩
  rw [named] at applied received
  have final : written = w'.write 3 [0x78] := congrArg (·.write 3 [0x78]) named
  rw [final] at holds
  obtain ⟨-, -, holding⟩ :=
    History.composes ends (by decide) (by decide) (by decide) (by decide) at_sink
    (.write [0x78] .target (.apply .refl avoids applied)
      (List.mem_append_right [1, 2] List.mem_cons_self))
  have all := (holding 9 content).2 missing holds
  simp only [List.nil_append] at all
  rw [all, received]

end Redirection

end FuzzHarness
