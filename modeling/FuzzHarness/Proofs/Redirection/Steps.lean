import FuzzHarness.Proofs.Kernel.Content
import FuzzHarness.Redirection

/-!
The steps that a redirection is made of, whichever way it ends. A path is opened, a descriptor is
duplicated or closed, and something is said. None of these is an event, moves the diagnostics or
touches the environment, and the files that were open stay recorded.

Standard error is followed through these steps. The descriptor that a redirection answers with
refers to what standard error referred to before anything was discarded; if the redirection fails,
standard error itself still does.
-/

namespace FuzzHarness

namespace Kernel

variable {k k' k'' : Kernel} {x fd onto : Fd} {n slot : Nat} {node : NodeId} {path : Bytes}
  {mode : OpenMode}

/-- Every file that is open in one state is recorded in another, with its node and its access. -/
structure Records (k k' : Kernel) : Prop where
  opened : ∀ {slot : Nat} {f : OpenFile}, k.opened[slot]? = some f →
    ∃ f', k'.opened[slot]? = some f' ∧ f'.node = f.node ∧ f'.writable = f.writable

theorem Records.refl (k : Kernel) : Records k k :=
  ⟨fun found => ⟨_, found, rfl, rfl⟩⟩

theorem Records.trans (h : Records k k') (h' : Records k' k'') : Records k k'' where
  opened := by
    intro slot f found
    obtain ⟨f', found', node, writable⟩ := h.opened found
    obtain ⟨f'', found'', node', writable'⟩ := h'.opened found'
    exact ⟨f'', found'', node'.trans node, writable'.trans writable⟩

theorem Keeps.records (h : Keeps k k') : Records k k' :=
  ⟨h.opened⟩

theorem Records.wired (h : Records k k') (wired : Wired k x slot node)
    (same : k'.slot? fd = some slot) :
    Wired k' fd slot node := by
  obtain ⟨f, found, at_node, writable⟩ := wired.opened
  obtain ⟨f', found', node', writable'⟩ := h.opened found
  exact ⟨same, f', found', node'.trans at_node, writable'.trans writable⟩

theorem Records.target?_eq (h : Records k k') (same : k'.slot? x = k.slot? fd)
    (recorded : ∀ slot, k.slot? fd = some slot → slot < k.opened.length) :
    k'.target? x = k.target? fd := by
  simp only [target?, openFile?, same]
  cases referred : k.slot? fd with
  | none => rfl
  | some slot =>
      have found := List.getElem?_eq_getElem (recorded slot referred)
      obtain ⟨f', found', node, -⟩ := h.opened found
      simp only [Option.bind_some, found, found', Option.map_some, node]

theorem slot?_assign_of_ne (k : Kernel) (slot : Option Nat) (h : x ≠ Int.ofNat n) :
    (k.assign n slot).slot? x = k.slot? x := by
  cases x with
  | ofNat i =>
      have other : i ≠ n := fun same => h (congrArg Int.ofNat same)
      simp [slot?, assign, other]
  | negSucc i => rfl

theorem slot?_close (k : Kernel) (h : x ≠ fd) : (k.close fd).slot? x = k.slot? x := by
  cases fd with
  | ofNat n => exact slot?_assign_of_ne k none h
  | negSucc n => rfl

theorem ne_of_lowestFree (busy : k.slot? x = some slot) (free : k.lowestFree? = some n) :
    x ≠ Int.ofNat n := by
  rintro rfl
  have taken : k.table n = some slot := busy
  simp [table_of_lowestFree free] at taken

theorem duplicate_ok (h : k.duplicate x = (.ok fd, k')) :
    ∃ n slot, fd = Int.ofNat n ∧ k.lowestFree? = some n ∧ k.slot? x = some slot ∧
      k' = k.assign n (some slot) := by
  unfold duplicate at h
  split at h
  · cases h
  · rename_i slot hs
    split at h
    · cases h
    · rename_i n free
      obtain ⟨same, rfl⟩ := Prod.mk.inj h
      exact ⟨n, slot, (Except.ok.inj same).symm, free, hs, rfl⟩

theorem duplicate_error {e : Errno} (h : k.duplicate x = (.error e, k')) : k' = k := by
  unfold duplicate at h
  split at h
  · exact (Prod.mk.inj h).2.symm
  · split at h
    · exact (Prod.mk.inj h).2.symm
    · cases h

theorem duplicateOnto_ok (h : k.duplicateOnto fd onto = (.ok (), k')) :
    ∃ n slot, onto = Int.ofNat n ∧ k.slot? fd = some slot ∧ k' = k.assign n (some slot) := by
  unfold duplicateOnto at h
  split at h
  · rename_i slot n hs
    split at h
    · exact ⟨n, slot, rfl, hs, (Prod.mk.inj h).2.symm⟩
    · cases h
  · cases h

theorem duplicateOnto_error {e : Errno} (h : k.duplicateOnto fd onto = (.error e, k')) :
    k' = k := by
  unfold duplicateOnto at h
  split at h
  · split at h
    · cases h
    · exact (Prod.mk.inj h).2.symm
  · exact (Prod.mk.inj h).2.symm

/-- A change of the descriptor table alone. -/
structure Retabled (k k' : Kernel) : Prop where
  opened : k'.opened = k.opened
  environment : k'.environment = k.environment

theorem retabled_close (k : Kernel) (fd : Fd) : Retabled k (k.close fd) := by
  cases fd <;> exact ⟨rfl, rfl⟩

theorem retabled_duplicate (k : Kernel) (fd : Fd) : Retabled k (k.duplicate fd).2 := by
  rcases outcome : k.duplicate fd with ⟨result, k'⟩
  cases result with
  | error e =>
      rw [duplicate_error outcome]
      exact ⟨rfl, rfl⟩
  | ok fresh =>
      obtain ⟨n, slot, -, -, -, rfl⟩ := duplicate_ok outcome
      exact ⟨rfl, rfl⟩

theorem retabled_duplicateOnto (k : Kernel) (fd onto : Fd) :
    Retabled k (k.duplicateOnto fd onto).2 := by
  rcases outcome : k.duplicateOnto fd onto with ⟨result, k'⟩
  cases result with
  | error e =>
      rw [duplicateOnto_error outcome]
      exact ⟨rfl, rfl⟩
  | ok done =>
      obtain ⟨n, slot, -, -, rfl⟩ := duplicateOnto_ok outcome
      exact ⟨rfl, rfl⟩

theorem Retabled.records (h : Retabled k k') : Records k k' :=
  ⟨fun found => ⟨_, by rwa [h.opened], rfl, rfl⟩⟩

theorem records_openPath (k : Kernel) (path : Bytes) (mode : OpenMode) :
    Records k (k.openPath path mode).2 := by
  rcases outcome : k.openPath path mode with ⟨result, k'⟩
  cases result with
  | error e =>
      rw [openPath_error outcome]
      exact .refl k
  | ok fd =>
      obtain ⟨n, id, tree, -, -, -, rfl⟩ := openPath_ok outcome
      refine ⟨fun {slot f} found => ?_⟩
      have inside : slot < k.opened.length := (List.getElem?_eq_some_iff.mp found).1
      exact ⟨f, by simpa [assign, List.getElem?_append_left inside] using found, rfl, rfl⟩

theorem environment_openPath (k : Kernel) (path : Bytes) (mode : OpenMode) :
    (k.openPath path mode).2.environment = k.environment := by
  rcases outcome : k.openPath path mode with ⟨result, k'⟩
  cases result with
  | error e => rw [openPath_error outcome]
  | ok fd =>
      obtain ⟨n, id, tree, -, -, -, rfl⟩ := openPath_ok outcome
      rfl

@[simp] theorem environment_write (k : Kernel) (fd : Fd) (data : Bytes) :
    (k.write fd data).2.environment = k.environment := by
  rcases k.writable_or_closed fd with ⟨slot, f, hs, ho, hw⟩ | closed
  · rw [write_open hs ho hw]
    split
    · split <;> rfl
    · rfl
  · rw [write_closed data closed]

end Kernel

namespace World

theorem keeps_log (w : World) (n : Notice) : w.kernel.Keeps (w.log n).kernel := by
  unfold log
  split
  · exact Kernel.keeps_write _ _ _
  · exact .refl _

@[simp] theorem filter_log (w : World) (n : Notice) : (w.log n).filter = w.filter := by
  unfold log
  split <;> rfl

@[simp] theorem environment_log (w : World) (n : Notice) :
    (w.log n).kernel.environment = w.kernel.environment := by
  unfold log
  split
  · exact Kernel.environment_write _ _ _
  · rfl

end World

/-- Whether an error is one of broken plumbing: a file or a descriptor that cannot be had. -/
def HarnessError.isPlumbing : HarnessError → Bool
  | .stderrDuplicate .. | .nullSink _ | .descriptor .. => true
  | _ => false

namespace Redirection
open Kernel

variable {w w' : World} {x fd onto : Fd} {slot : Nat} {streams : StdStreams}
  {policy : RedirectionPolicy}

/-- A sequence of what redirections do. -/
inductive Steps (w : World) : World → Prop
  | refl : Steps w w
  | openPath {w' : World} (path : Bytes) (mode : OpenMode) : Steps w w' →
      Steps w { w' with kernel := (w'.kernel.openPath path mode).2 }
  | duplicate {w' : World} (fd : Fd) :
      Steps w w' → Steps w { w' with kernel := (w'.kernel.duplicate fd).2 }
  | duplicateOnto {w' : World} (fd onto : Fd) : Steps w w' →
      Steps w { w' with kernel := (w'.kernel.duplicateOnto fd onto).2 }
  | close {w' : World} (fd : Fd) : Steps w w' → Steps w { w' with kernel := w'.kernel.close fd }
  | log {w' : World} (n : Notice) : Steps w w' → Steps w (w'.log n)

namespace Steps

theorem trans {w'' : World} (first : Steps w w') (second : Steps w' w'') : Steps w w'' := by
  induction second with
  | refl => exact first
  | openPath path mode _ ih => exact ih.openPath path mode
  | duplicate fd _ ih => exact ih.duplicate fd
  | duplicateOnto fd onto _ ih => exact ih.duplicateOnto fd onto
  | close fd _ ih => exact ih.close fd
  | log n _ ih => exact ih.log n

theorem trace_eq (h : Steps w w') : w'.trace = w.trace := by
  induction h with
  | refl => rfl
  | openPath _ _ _ ih | duplicate _ _ ih | duplicateOnto _ _ _ ih | close _ _ ih => exact ih
  | log n _ ih => exact (World.trace_log _ n).trans ih

theorem diagnostic_eq (h : Steps w w') : w'.diagnostic = w.diagnostic := by
  induction h with
  | refl => rfl
  | openPath _ _ _ ih | duplicate _ _ ih | duplicateOnto _ _ _ ih | close _ _ ih => exact ih
  | log n _ ih => exact (World.diagnostic_log _ n).trans ih

theorem filter_eq (h : Steps w w') : w'.filter = w.filter := by
  induction h with
  | refl => rfl
  | openPath _ _ _ ih | duplicate _ _ ih | duplicateOnto _ _ _ ih | close _ _ ih => exact ih
  | log n _ ih => exact (World.filter_log _ n).trans ih

theorem environment_eq (h : Steps w w') : w'.kernel.environment = w.kernel.environment := by
  induction h with
  | refl => rfl
  | openPath path mode _ ih => exact (environment_openPath _ path mode).trans ih
  | duplicate fd _ ih => exact (retabled_duplicate _ fd).environment.trans ih
  | duplicateOnto fd onto _ ih => exact (retabled_duplicateOnto _ fd onto).environment.trans ih
  | close fd _ ih => exact (retabled_close _ fd).environment.trans ih
  | log n _ ih => exact (World.environment_log _ n).trans ih

theorem records (h : Steps w w') : Records w.kernel w'.kernel := by
  induction h with
  | refl => exact .refl _
  | openPath path mode _ ih => exact ih.trans (records_openPath _ path mode)
  | duplicate fd _ ih => exact ih.trans (retabled_duplicate _ fd).records
  | duplicateOnto fd onto _ ih => exact ih.trans (retabled_duplicateOnto _ fd onto).records
  | close fd _ ih => exact ih.trans (retabled_close _ fd).records
  | log n _ ih => exact ih.trans (World.keeps_log _ n).records

end Steps

theorem steps_putOnto (fd onto : Fd) (w : World) : Steps w (putOnto fd onto w).2 := by
  have put : Steps w { w with kernel := (w.kernel.duplicateOnto fd onto).2 } :=
    .duplicateOnto fd onto .refl
  unfold putOnto
  split
  · rename_i outcome
    rwa [outcome] at put
  · rename_i outcome
    rwa [outcome] at put

theorem steps_appendTo (path : Bytes) (stderr : Fd) (w : World) :
    Steps w (appendTo path stderr w).2 := by
  have opening : Steps w { w with kernel := (w.kernel.openPath path .append).2 } :=
    .openPath path .append .refl
  unfold appendTo
  split
  · rename_i outcome
    rwa [outcome] at opening
  · rename_i file kernel outcome
    rw [outcome] at opening
    have put := opening.trans (steps_putOnto file stderr _)
    split
    · rename_i ended
      rw [ended] at put
      exact put.close file
    · rename_i ended
      rw [ended] at put
      exact (put.log _).close file

theorem steps_discard (fd : Fd) (w : World) : Steps w (discard fd w).2 := by
  have opening : Steps w { w with kernel := (w.kernel.openPath nullSink .write).2 } :=
    .openPath nullSink .write .refl
  unfold discard
  split
  · rename_i outcome
    rwa [outcome] at opening
  · rename_i sink kernel outcome
    rw [outcome] at opening
    exact (opening.trans (steps_putOnto sink fd _)).close sink

theorem steps_keep (stderr : Fd) (w : World) : Steps w (keep stderr w).2 := by
  have kept : Steps w { w with kernel := (w.kernel.duplicate stderr).2 } := .duplicate stderr .refl
  unfold keep
  split
  · rename_i outcome
    rwa [outcome] at kept
  · rename_i outcome
    rwa [outcome] at kept

theorem steps_keepAndDiscard (stderr : Fd) (w : World) : Steps w (keepAndDiscard stderr w).2 := by
  have kept := steps_keep stderr w
  unfold keepAndDiscard
  split
  · rename_i outcome
    rwa [outcome] at kept
  · rename_i fd w' outcome
    rw [outcome] at kept
    have discarded := kept.trans (steps_discard stderr w')
    split
    · rename_i ended
      rwa [ended] at discarded
    · rename_i ended
      rwa [ended] at discarded

theorem steps_silence (streams : StdStreams) (policy : RedirectionPolicy) (w : World) :
    Steps w (silence streams policy w).2 := by
  have discarded :
      Steps w (if policy.discardStdout then discard streams.stdout w else (.ok (), w)).2 := by
    split
    · exact steps_discard _ _
    · exact .refl
  unfold silence
  split
  · rename_i outcome
    rwa [outcome] at discarded
  · rename_i outcome
    rw [outcome] at discarded
    split
    · exact discarded.trans (steps_keepAndDiscard _ _)
    · exact discarded

/-- The first part of a redirection, before anything is discarded: standard error is appended to a
file if there is one to append it to. -/
def appending (streams : StdStreams) (policy : RedirectionPolicy) (w : World) :
    Except HarnessError Unit × World :=
  match policy.stderrDuplicate with
  | some path => appendTo path streams.stderr w
  | none => (.ok (), w)

theorem steps_appending (streams : StdStreams) (policy : RedirectionPolicy) (w : World) :
    Steps w (appending streams policy w).2 := by
  unfold appending
  split
  · exact steps_appendTo _ _ _
  · exact .refl

theorem apply_eq (streams : StdStreams) (policy : RedirectionPolicy) (w : World) :
    apply streams policy w = match appending streams policy w with
      | (.error e, w) => (.error e, w)
      | (.ok (), w) => silence streams policy w := rfl

theorem apply_of_error {e : HarnessError} (h : (appending streams policy w).1 = .error e) :
    apply streams policy w = (.error e, (appending streams policy w).2) := by
  have outcome : appending streams policy w = (.error e, (appending streams policy w).2) :=
    Prod.ext h rfl
  rw [apply_eq, outcome]

theorem apply_of_ok (h : (appending streams policy w).1 = .ok ()) :
    apply streams policy w = silence streams policy (appending streams policy w).2 := by
  have outcome : appending streams policy w = (.ok (), (appending streams policy w).2) :=
    Prod.ext h rfl
  rw [apply_eq, outcome]

theorem steps_apply (streams : StdStreams) (policy : RedirectionPolicy) (w : World) :
    Steps w (apply streams policy w).2 := by
  have appended := steps_appending streams policy w
  cases outcome : (appending streams policy w).1 with
  | error e =>
      rw [apply_of_error outcome]
      exact appended
  | ok done =>
      rw [apply_of_ok outcome]
      exact appended.trans (steps_silence streams policy _)

theorem trace_apply (streams : StdStreams) (policy : RedirectionPolicy) (w : World) :
    (apply streams policy w).2.trace = w.trace :=
  (steps_apply streams policy w).trace_eq

theorem putOnto_ok {fd onto : Fd} (h : putOnto fd onto w = (.ok (), w')) :
    ∃ kernel, w.kernel.duplicateOnto fd onto = (.ok (), kernel) ∧ w' = { w with kernel } := by
  unfold putOnto at h
  split at h
  · rename_i kernel outcome
    exact ⟨kernel, outcome, (Prod.mk.inj h).2.symm⟩
  · cases h

theorem putOnto_error {e : HarnessError} (h : putOnto fd onto w = (.error e, w')) : w' = w := by
  unfold putOnto at h
  split at h
  · cases h
  · rename_i outcome
    rw [duplicateOnto_error outcome] at h
    exact (Prod.mk.inj h).2.symm

/-- A file that is opened, put onto a descriptor and closed leaves every other descriptor as it was,
and all of them if it could not be put there. -/
theorem slot?_opened_put {path : Bytes} {mode : OpenMode} {k : Kernel}
    {result : Except HarnessError Unit} (opened : w.kernel.openPath path mode = (.ok fd, k))
    (put : putOnto fd onto { w with kernel := k } = (result, w'))
    (spared : x ≠ onto ∨ ∃ e, result = .error e) :
    (close fd w').kernel.slot? x = w.kernel.slot? x := by
  obtain ⟨n, id, tree, rfl, free, -, rfl⟩ := openPath_ok opened
  by_cases first : x = Int.ofNat n
  · subst first
    calc (close (Int.ofNat n) w').kernel.slot? (Int.ofNat n)
      _ = none := by simp [close, Kernel.close, slot?, assign]
      _ = w.kernel.slot? (Int.ofNat n) := (table_of_lowestFree free).symm
  · rw [close, slot?_close _ first]
    have before := slot?_assign_of_ne
      { w.kernel with tree, opened := w.kernel.opened ++ [OpenMode.openFile mode id] }
      (some w.kernel.opened.length) first
    cases result with
    | error e =>
        rw [putOnto_error put]
        exact before
    | ok done =>
        obtain ⟨kernel, onto', rfl⟩ := putOnto_ok put
        obtain ⟨m, slot, rfl, -, rfl⟩ := duplicateOnto_ok onto'
        exact (slot?_assign_of_ne _ _ (spared.resolve_right (by simp))).trans before

theorem slot?_discard {result : Except HarnessError Unit} (h : discard fd w = (result, w'))
    (spared : x ≠ fd ∨ ∃ e, result = .error e) : w'.kernel.slot? x = w.kernel.slot? x := by
  unfold discard at h
  split at h
  · rename_i outcome
    obtain rfl := openPath_error outcome
    rw [← (Prod.mk.inj h).2]
  · rename_i sink kernel outcome
    rcases put : putOnto sink fd { w with kernel } with ⟨result', u⟩
    rw [put] at h
    obtain ⟨rfl, rfl⟩ := Prod.mk.inj h
    exact slot?_opened_put outcome put spared

theorem keep_error {e : HarnessError} (h : keep fd w = (.error e, w')) : w' = w := by
  unfold keep at h
  split at h
  · cases h
  · rename_i outcome
    rw [duplicate_error outcome] at h
    exact (Prod.mk.inj h).2.symm

theorem keep_ok {stderr : Fd} (h : keep stderr w = (.ok fd, w')) :
    ∃ n slot, fd = Int.ofNat n ∧ w.kernel.lowestFree? = some n ∧ w.kernel.slot? stderr = some slot ∧
      w' = { w with kernel := w.kernel.assign n (some slot) } := by
  unfold keep at h
  split at h
  · rename_i d kernel outcome
    obtain ⟨same, rfl⟩ := Prod.mk.inj h
    obtain rfl := Except.ok.inj same
    obtain ⟨n, slot, rfl, free, hs, rfl⟩ := duplicate_ok outcome
    exact ⟨n, slot, rfl, free, hs, rfl⟩
  · cases h

/-- The descriptor that stands for standard error when a redirection ends: the one that it answers
with, and standard error itself if it fails. -/
def standing (stderr : Fd) : Except HarnessError DiagnosticStream → Fd
  | .ok d => d.fd
  | .error _ => stderr

theorem slot?_keepAndDiscard {stderr : Fd} {result : Except HarnessError DiagnosticStream}
    (busy : w.kernel.slot? stderr = some slot) (h : keepAndDiscard stderr w = (result, w')) :
    w'.kernel.slot? (standing stderr result) = some slot ∧ ∀ d, result = .ok d →
    d.duplicated = true := by
  unfold keepAndDiscard at h
  split at h
  · rename_i e u kept
    obtain ⟨rfl, rfl⟩ := Prod.mk.inj h
    exact ⟨by rwa [keep_error kept], by simp⟩
  · rename_i fd u kept
    obtain ⟨n, slot', rfl, free, hs, rfl⟩ := keep_ok kept
    obtain rfl : slot = slot' := Option.some.inj (busy.symm.trans hs)
    have apart := ne_of_lowestFree busy free
    have busy' : (w.kernel.assign n (some slot)).slot? stderr = some slot :=
      (slot?_assign_of_ne _ _ apart).trans busy
    have fresh : (w.kernel.assign n (some slot)).slot? (Int.ofNat n) = some slot := by
      simp [slot?, assign]
    split at h
    · rename_i e v discarded
      obtain ⟨rfl, rfl⟩ := Prod.mk.inj h
      exact ⟨(slot?_discard discarded (.inr ⟨e, rfl⟩)).trans busy', by simp⟩
    · rename_i v discarded
      obtain ⟨rfl, rfl⟩ := Prod.mk.inj h
      refine ⟨(slot?_discard discarded (.inl (Ne.symm apart))).trans fresh, ?_⟩
      rintro d same
      exact Except.ok.inj same ▸ rfl

theorem slot?_silence {result : Except HarnessError DiagnosticStream}
    (apart : streams.stderr ≠ streams.stdout) (busy : w.kernel.slot? streams.stderr = some slot)
    (h : silence streams policy w = (result, w')) :
    w'.kernel.slot? (standing streams.stderr result) = some slot ∧
      ∀ d, result = .ok d → d.duplicated = policy.discardStderr ∧
        (d.duplicated = false → d.fd = streams.stderr) := by
  have spared :
    ∀ {silenced u}, (if policy.discardStdout then discard streams.stdout w else (.ok (), w)) =
      (silenced, u) → u.kernel.slot? streams.stderr = some slot := by
    intro silenced u outcome
    split at outcome
    · exact (slot?_discard outcome (.inl apart)).trans busy
    · obtain ⟨-, rfl⟩ := Prod.mk.inj outcome
      exact busy
  unfold silence at h
  split at h
  · rename_i outcome
    obtain ⟨rfl, rfl⟩ := Prod.mk.inj h
    exact ⟨spared outcome, by simp⟩
  · rename_i u outcome
    have busy' := spared outcome
    split at h
    · rename_i discards
      obtain ⟨stands, duplicated⟩ := slot?_keepAndDiscard busy' h
      refine ⟨stands, fun d same => ?_⟩
      rw [duplicated d same, discards]
      exact ⟨rfl, by simp⟩
    · rename_i keeps
      obtain ⟨rfl, rfl⟩ := Prod.mk.inj h
      refine ⟨busy', fun d same => ?_⟩
      obtain rfl := Except.ok.inj same
      exact ⟨by simpa using keeps, fun _ => rfl⟩

theorem slot?_putOnto_self (h : putOnto fd onto w = (.ok (), w')) :
    w'.kernel.slot? onto = w.kernel.slot? fd := by
  obtain ⟨kernel, put, rfl⟩ := putOnto_ok h
  obtain ⟨n, slot, rfl, hs, rfl⟩ := duplicateOnto_ok put
  rw [hs]
  simp [slot?, assign]

/-- Standard error that is appended to a file refers to that from then on, unless it was closed and
its number went to the file while that was open. -/
theorem appendTo_ok_cases {path : Bytes} {stderr : Fd} (h : appendTo path stderr w = (.ok (), w')) :
    (∃ file tree, w.kernel.locate path .append = .ok (file, tree) ∧
      Wired w'.kernel stderr w.kernel.opened.length file) ∨
    w.kernel.slot? stderr = none ∧ w'.kernel.slot? stderr = none := by
  unfold appendTo at h
  split at h
  · cases h
  · rename_i fd kernel opened
    split at h
    · cases h
    · rename_i u put
      obtain rfl := (Prod.mk.inj h).2
      have said := ((steps_putOnto fd stderr { w with kernel }).log (.stderrAppends path)).close fd
      rw [put] at said
      have onto : u.kernel.slot? stderr = kernel.slot? fd := slot?_putOnto_self put
      obtain ⟨n, file, tree, rfl, free, located, rfl⟩ := openPath_ok opened
      by_cases first : stderr = Int.ofNat n
      · subst first
        exact .inr ⟨table_of_lowestFree free, by simp [close, Kernel.close, slot?, assign]⟩
      · refine .inl ⟨file, tree, located, ?_⟩
        have fresh : Wired ({ w.kernel with tree, opened :=
          w.kernel.opened ++ [OpenMode.openFile .append file] }.assign
            n (some w.kernel.opened.length)) (Int.ofNat n) w.kernel.opened.length file :=
          ⟨by simp [slot?, assign], OpenMode.openFile .append file, by simp [assign], rfl, rfl⟩
        refine said.records.wired fresh ?_
        calc (close (Int.ofNat n) (u.log (.stderrAppends path))).kernel.slot? stderr
            = (u.log (.stderrAppends path)).kernel.slot? stderr := slot?_close _ first
          _ = u.kernel.slot? stderr := (World.keeps_log u _).slot? stderr
          _ = some w.kernel.opened.length := onto.trans fresh.slot_eq

theorem appendTo_ok_wired {path : Bytes} {stderr : Fd} (h : appendTo path stderr w = (.ok (), w'))
    (busy : w.kernel.slot? stderr = some slot) :
    ∃ file tree, w.kernel.locate path .append = .ok (file, tree) ∧
      Wired w'.kernel stderr w.kernel.opened.length file := by
  rcases appendTo_ok_cases h with wired | ⟨free, -⟩
  · exact wired
  · rw [busy] at free
    cases free

theorem slot?_appendTo_error {path : Bytes} {stderr : Fd} {e : HarnessError}
    (h : appendTo path stderr w = (.error e, w')) : w'.kernel.slot? x = w.kernel.slot? x := by
  unfold appendTo at h
  split at h
  · rename_i outcome
    obtain rfl := openPath_error outcome
    rw [← (Prod.mk.inj h).2]
  · rename_i opened
    split at h
    · rename_i put
      rw [← (Prod.mk.inj h).2]
      exact slot?_opened_put opened put (.inr ⟨_, rfl⟩)
    · cases h

theorem slot?_appending_error {e : HarnessError} (h : (appending streams policy w).1 = .error e) :
    (appending streams policy w).2.kernel.slot? x = w.kernel.slot? x := by
  unfold appending at h ⊢
  split at h
  · exact slot?_appendTo_error (Prod.ext h rfl)
  · cases h

theorem slot?_appending (policy : RedirectionPolicy)
    (busy : w.kernel.slot? streams.stderr = some slot) :
    ∃ slot', (appending streams policy w).2.kernel.slot? streams.stderr = some slot' := by
  cases outcome : (appending streams policy w).1 with
  | error e => exact ⟨slot, (slot?_appending_error outcome).trans busy⟩
  | ok done =>
      unfold appending at outcome ⊢
      split at outcome
      · obtain ⟨file, tree, -, appended⟩ := appendTo_ok_wired (Prod.ext outcome rfl) busy
        exact ⟨_, appended.slot_eq⟩
      · exact ⟨slot, busy⟩

theorem appending_wired (policy : RedirectionPolicy) {node : NodeId}
    (wired : Wired w.kernel streams.stderr slot node) :
    ∃ slot' node', Wired (appending streams policy w).2.kernel streams.stderr slot' node' ∧
      match policy.stderrDuplicate, (appending streams policy w).1 with
      | some path, .ok () =>
        slot' = w.kernel.opened.length ∧ ∃ tree, w.kernel.locate path .append = .ok (node', tree)
      | _, _ => slot' = slot ∧ node' = node := by
  have records := (steps_appending streams policy w).records
  cases outcome : (appending streams policy w).1 with
  | error e =>
      refine ⟨slot, node,
        records.wired wired ((slot?_appending_error outcome).trans wired.slot_eq), ?_⟩
      cases policy.stderrDuplicate <;> exact ⟨rfl, rfl⟩
  | ok done =>
      unfold appending at outcome records ⊢
      cases duplicate : policy.stderrDuplicate with
      | none => exact ⟨slot, node, wired, rfl, rfl⟩
      | some path =>
          rw [duplicate] at outcome
          obtain ⟨file, tree, located, appended⟩ :=
            appendTo_ok_wired (Prod.ext outcome rfl) wired.slot_eq
          exact ⟨_, file, appended, rfl, tree, located⟩

/-- However a redirection ends, a descriptor stands for what standard error referred to before
anything was discarded: the one it answers with, which is a fresh one if standard error is
discarded, or standard error itself if it fails. -/
theorem apply_stands {result : Except HarnessError DiagnosticStream}
    (apart : streams.stderr ≠ streams.stdout)
    (busy : (appending streams policy w).2.kernel.slot? streams.stderr = some slot)
    (h : apply streams policy w = (result, w')) :
    w'.kernel.slot? (standing streams.stderr result) = some slot ∧
      Records (appending streams policy w).2.kernel w'.kernel ∧
      ∀ d, result = .ok d → d.duplicated = policy.discardStderr ∧
        (d.duplicated = false → d.fd = streams.stderr) := by
  cases outcome : (appending streams policy w).1 with
  | error e =>
      rw [apply_of_error outcome] at h
      obtain ⟨rfl, rfl⟩ := Prod.mk.inj h
      exact ⟨busy, .refl _, by simp⟩
  | ok done =>
      rw [apply_of_ok outcome] at h
      have records := (steps_silence streams policy (appending streams policy w).2).records
      rw [h] at records
      obtain ⟨stands, answered⟩ := slot?_silence apart busy h
      exact ⟨stands, records, answered⟩

section Failure

variable {e : HarnessError}

theorem isPlumbing_putOnto (h : (putOnto fd onto w).1 = .error e) : e.isPlumbing := by
  unfold putOnto at h
  split at h
  · cases h
  · exact Except.error.inj h ▸ rfl

theorem isPlumbing_appendTo {path : Bytes} {stderr : Fd}
    (h : (appendTo path stderr w).1 = .error e) :
    e.isPlumbing := by
  unfold appendTo at h
  split at h
  · exact Except.error.inj h ▸ rfl
  · split at h
    · rename_i outcome
      exact isPlumbing_putOnto ((congrArg Prod.fst outcome).trans h)
    · cases h

theorem isPlumbing_discard (h : (discard fd w).1 = .error e) : e.isPlumbing := by
  unfold discard at h
  split at h
  · exact Except.error.inj h ▸ rfl
  · exact isPlumbing_putOnto h

theorem isPlumbing_keepAndDiscard {stderr : Fd} (h : (keepAndDiscard stderr w).1 = .error e) :
    e.isPlumbing := by
  unfold keepAndDiscard at h
  split at h
  · rename_i e' _ outcome
    obtain rfl : e' = e := Except.error.inj h
    unfold keep at outcome
    split at outcome
    · cases outcome
    · exact Except.error.inj (Prod.mk.inj outcome).1 ▸ rfl
  · split at h
    · rename_i e' _ outcome
      obtain rfl : e' = e := Except.error.inj h
      exact isPlumbing_discard (congrArg Prod.fst outcome)
    · cases h

theorem isPlumbing_silence (h : (silence streams policy w).1 = .error e) : e.isPlumbing := by
  unfold silence at h
  split at h
  · rename_i e' _ outcome
    obtain rfl : e' = e := Except.error.inj h
    split at outcome
    · exact isPlumbing_discard (congrArg Prod.fst outcome)
    · cases outcome
  · split at h
    · exact isPlumbing_keepAndDiscard h
    · cases h

theorem isPlumbing_apply (h : (apply streams policy w).1 = .error e) : e.isPlumbing := by
  cases appended : (appending streams policy w).1 with
  | error e' =>
      rw [apply_of_error appended] at h
      obtain rfl : e' = e := Except.error.inj h
      unfold appending at appended
      split at appended
      · exact isPlumbing_appendTo appended
      · cases appended
  | ok done =>
      rw [apply_of_ok appended] at h
      exact isPlumbing_silence h

end Failure

end Redirection

end FuzzHarness
