import FuzzHarness.Boot
import FuzzHarness.Proofs.Redirection.Steps

/-!
A redirection as a list of tasks. Each of them succeeds, or fails and changes nothing. The
redirection performs them in order and stops at the first that fails, with everything before it in
place and the file closed that was opened last.
-/

namespace FuzzHarness

namespace Redirection
open Kernel

inductive Task where
  | openDuplicate (path : Bytes)
  | putDuplicate (path : Bytes) (stderr : Fd)
  | openSink
  | putSink (onto : Fd)
  | keep (stderr : Fd)
  deriving DecidableEq, Repr

def keeping (stderr : Fd) (discards : Bool) : List Task :=
  if discards then [.keep stderr, .openSink, .putSink stderr] else []

def silencing (streams : StdStreams) (policy : RedirectionPolicy) : List Task :=
  (if policy.discardStdout then [.openSink, .putSink streams.stdout] else []) ++
    keeping streams.stderr policy.discardStderr

/-- The tasks of a redirection: those of the duplicate file, of standard output and of standard
error, as far as the policy asks for them. -/
def tasks (streams : StdStreams) (policy : RedirectionPolicy) : List Task :=
  (policy.stderrDuplicate.elim []
    fun path => [.openDuplicate path, .putDuplicate path streams.stderr]) ++
    silencing streams policy

/-- How far a redirection came. The file that was opened last is held until it is put where it
belongs; the descriptor is negative if there is none. -/
structure Progress where
  world : World
  held : Fd
  answer : DiagnosticStream

namespace Progress

def start (streams : StdStreams) (w : World) : Progress :=
  ⟨w, -1, ⟨streams.stderr, false⟩⟩

def release (p : Progress) : World :=
  close p.held p.world

def openFile (p : Progress) (path : Bytes) (mode : OpenMode) : Except IoError Progress :=
  match p.world.kernel.openPath path mode with
  | (.ok file, kernel) => .ok { p with world := { p.world with kernel }, held := file }
  | (.error cause, _) => .error cause

def put (p : Progress) (onto : Fd) (say : World → World) : Except IoError Progress :=
  match p.world.kernel.duplicateOnto p.held onto with
  | (.ok (), kernel) =>
      .ok { p with world := close p.held (say { p.world with kernel }), held := -1 }
  | (.error e, _) => .error (.os e)

def duplicate (p : Progress) (fd : Fd) : Except IoError Progress :=
  match p.world.kernel.duplicate fd with
  | (.ok fresh, kernel) => .ok { p with world := { p.world with kernel }, answer := ⟨fresh, true⟩ }
  | (.error e, _) => .error (.os e)

end Progress

namespace Task

def perform : Task → Progress → Except IoError Progress
  | .openDuplicate path, p => p.openFile path .append
  | .putDuplicate path stderr, p => p.put stderr (·.log (.stderrAppends path))
  | .openSink, p => p.openFile nullSink .write
  | .putSink onto, p => p.put onto id
  | .keep stderr, p => p.duplicate stderr

/-- The error that a task fails with, given the file it was about to put somewhere. -/
def error (held : Fd) : Task → IoError → HarnessError
  | .openDuplicate path => .stderrDuplicate path
  | .openSink => .nullSink
  | .putDuplicate _ onto | .putSink onto =>
    .descriptor ("Error calling dup2(" ++ toString held ++ ", " ++ toString onto ++ ")")
  | .keep stderr => .descriptor ("Error calling dup(" ++ toString stderr ++ ")")

end Task

def attemptAll : List Task → Progress → Except HarnessError DiagnosticStream × World
  | [], p => (.ok p.answer, p.release)
  | task :: left, p =>
    match task.perform p with
    | .ok p => attemptAll left p
    | .error cause => (.error (task.error p.held cause), p.release)

variable {w w' : World} {fd : Fd} {streams : StdStreams} {policy : RedirectionPolicy}

theorem attemptAll_duplicateFile (path : Bytes) (stderr : Fd) (left : List Task) (w : World)
    (answer : DiagnosticStream) :
    attemptAll (.openDuplicate path :: .putDuplicate path stderr :: left) ⟨w, -1, answer⟩ =
      match appendTo path stderr w with
      | (.ok (), w) => attemptAll left ⟨w, -1, answer⟩
      | (.error e, w) => (.error e, w) := by
  rcases opened : w.kernel.openPath path .append with ⟨cause | file, kernel⟩
  · obtain rfl := openPath_error opened
    simp only [attemptAll, Task.perform, Progress.openFile, appendTo, opened]
    rfl
  · rcases put : kernel.duplicateOnto file stderr with ⟨e | done, kernel'⟩
    · obtain rfl := duplicateOnto_error put
      simp only [attemptAll, Task.perform, Progress.openFile, Progress.put, appendTo, putOnto,
        opened, put]
      rfl
    · simp only [attemptAll, Task.perform, Progress.openFile, Progress.put, appendTo, putOnto,
        opened, put]

theorem attemptAll_sink (onto : Fd) (left : List Task) (w : World) (answer : DiagnosticStream) :
    attemptAll (.openSink :: .putSink onto :: left) ⟨w, -1, answer⟩ =
      match discard onto w with
      | (.ok (), w) => attemptAll left ⟨w, -1, answer⟩
      | (.error e, w) => (.error e, w) := by
  rcases opened : w.kernel.openPath nullSink .write with ⟨cause | sink, kernel⟩
  · obtain rfl := openPath_error opened
    simp only [attemptAll, Task.perform, Progress.openFile, discard, opened]
    rfl
  · rcases put : kernel.duplicateOnto sink onto with ⟨e | done, kernel'⟩
    · obtain rfl := duplicateOnto_error put
      simp only [attemptAll, Task.perform, Progress.openFile, Progress.put, discard, putOnto,
        opened, put]
      rfl
    · simp only [attemptAll, Task.perform, Progress.openFile, Progress.put, discard, putOnto,
        opened, put, id]

theorem attemptAll_keep (stderr : Fd) (left : List Task) (w : World) (answer : DiagnosticStream) :
    attemptAll (.keep stderr :: left) ⟨w, -1, answer⟩ =
      match keep stderr w with
      | (.ok fd, w) => attemptAll left ⟨w, -1, ⟨fd, true⟩⟩
      | (.error e, w) => (.error e, w) := by
  rcases kept : w.kernel.duplicate stderr with ⟨e | fd, kernel⟩
  · obtain rfl := duplicate_error kept
    simp only [attemptAll, Task.perform, Progress.duplicate, keep, kept]
    rfl
  · simp only [attemptAll, Task.perform, Progress.duplicate, keep, kept]

theorem attemptAll_keeping (streams : StdStreams) (discards : Bool) (w : World) :
    attemptAll (keeping streams.stderr discards) (.start streams w) =
      if discards then keepAndDiscard streams.stderr w else (.ok ⟨streams.stderr, false⟩, w) := by
  cases discards with
  | false => rfl
  | true =>
      rw [if_pos rfl, keepAndDiscard, keeping, if_pos rfl, Progress.start, attemptAll_keep]
      rcases keep streams.stderr w with ⟨e | fd, w⟩
      · rfl
      · simp only [attemptAll_sink]
        rcases discard streams.stderr w with ⟨e | done, w⟩ <;> rfl

theorem attemptAll_silencing (streams : StdStreams) (policy : RedirectionPolicy) (w : World) :
    attemptAll (silencing streams policy) (.start streams w) = silence streams policy w := by
  rw [silencing, silence]
  cases policy.discardStdout with
  | false => exact attemptAll_keeping streams _ w
  | true =>
      rw [if_pos rfl, if_pos rfl, List.cons_append, List.singleton_append, Progress.start,
        attemptAll_sink]
      rcases discard streams.stdout w with ⟨e | done, w⟩
      · rfl
      · exact attemptAll_keeping streams _ w

/-- A redirection does what its tasks do. -/
theorem attemptAll_tasks (streams : StdStreams) (policy : RedirectionPolicy) (w : World) :
    attemptAll (tasks streams policy) (.start streams w) = apply streams policy w := by
  rw [tasks, apply_eq, appending]
  cases policy.stderrDuplicate with
  | none => exact attemptAll_silencing streams policy w
  | some path =>
      rw [Option.elim_some, List.cons_append, List.singleton_append, Progress.start,
        attemptAll_duplicateFile]
      simp only
      rcases appendTo path streams.stderr w with ⟨e | done, w⟩
      · rfl
      · exact attemptAll_silencing streams policy w

/-- From one state to another all of these tasks succeed, one after the other. -/
inductive Performed : Progress → List Task → Progress → Prop
  | none (p : Progress) : Performed p [] p
  | more {p p' p'' : Progress} {task : Task} {left : List Task} : task.perform p = .ok p' →
      Performed p' left p'' → Performed p (task :: left) p''

/-- Either all tasks are performed or there is a first that fails. -/
theorem attemptAll_stops (all : List Task) (p : Progress) :
    (∃ p', Performed p all p' ∧ attemptAll all p = (.ok p'.answer, p'.release)) ∨
      ∃ done task left p' cause, all = done ++ task :: left ∧ Performed p done p' ∧
        task.perform p' = .error cause ∧
        attemptAll all p = (.error (task.error p'.held cause), p'.release) := by
  induction all generalizing p with
  | nil => exact .inl ⟨p, .none p, rfl⟩
  | cons task left ih =>
      cases outcome : task.perform p with
      | error cause =>
          refine .inr ⟨[], task, left, p, cause, rfl, .none p, outcome, ?_⟩
          simp only [attemptAll, outcome]
      | ok p₁ =>
          have continued : attemptAll (task :: left) p = attemptAll left p₁ := by
            simp only [attemptAll, outcome]
          rw [continued]
          rcases ih p₁ with
            ⟨p', all, ended⟩ | ⟨done, failing, rest, p', cause, rfl, performed, fails, ended⟩
          · exact .inl ⟨p', .more outcome all, ended⟩
          · exact .inr
              ⟨task :: done, failing, rest, p', cause, rfl, .more outcome performed, fails, ended⟩

theorem Steps.length_content? (h : Steps w w') {id : NodeId} {content : Bytes}
    (holds : w.kernel.tree.content? id = some content) :
    ∃ content', w'.kernel.tree.content? id = some content' ∧ content.length ≤ content'.length := by
  induction h with
  | refl => exact ⟨content, holds, Nat.le_refl _⟩
  | @openPath u path mode _ ih =>
      obtain ⟨content', holds', longer⟩ := ih
      refine ⟨content', ?_, longer⟩
      rcases outcome : u.kernel.openPath path mode with ⟨e | fd, k⟩
      · rw [openPath_error outcome]
        exact holds'
      · obtain ⟨n, node, tree, -, -, located, rfl⟩ := openPath_ok outcome
        exact (content?_locate located (content?_eq_some.mp holds')).trans holds'
  | @duplicate u fd _ ih =>
      rcases outcome : u.kernel.duplicate fd with ⟨e | fresh, k⟩
      · rw [duplicate_error outcome]
        exact ih
      · obtain ⟨n, slot, -, -, -, rfl⟩ := duplicate_ok outcome
        exact ih
  | @duplicateOnto u fd onto _ ih =>
      rcases outcome : u.kernel.duplicateOnto fd onto with ⟨e | done, k⟩
      · rw [duplicateOnto_error outcome]
        exact ih
      · obtain ⟨n, slot, -, -, rfl⟩ := duplicateOnto_ok outcome
        exact ih
  | close fd _ ih => cases fd <;> exact ih
  | @log u n _ ih =>
      obtain ⟨content', holds', longer⟩ := ih
      unfold World.log
      split
      · obtain ⟨content'', holds'', longer'⟩ :=
          length_content?_write u.diagnostic (Bytes.ofString n.line) holds'
        exact ⟨content'', holds'', Nat.le_trans longer longer'⟩
      · exact ⟨content', holds', longer⟩

theorem slot?_keepAndDiscard_error {e : HarnessError} (h : keepAndDiscard fd w = (.error e, w')) :
    w'.kernel.slot? fd = w.kernel.slot? fd := by
  unfold keepAndDiscard at h
  split at h
  · rename_i kept
    obtain ⟨-, rfl⟩ := Prod.mk.inj h
    rw [keep_error kept]
  · rename_i fresh u kept
    obtain ⟨n, slot, rfl, free, busy, rfl⟩ := keep_ok kept
    split at h
    · rename_i discarded
      obtain ⟨same, rfl⟩ := Prod.mk.inj h
      exact (slot?_discard discarded (.inr ⟨_, rfl⟩)).trans
        (slot?_assign_of_ne _ _ (ne_of_lowestFree busy free))
    · cases h

theorem slot?_silence_error {e : HarnessError}
    (apart : ¬(streams.stdout = streams.stderr ∧ policy.discardStdout = true))
    (h : silence streams policy w = (.error e, w')) :
    w'.kernel.slot? streams.stderr = w.kernel.slot? streams.stderr := by
  unfold silence at h
  split at h
  · rename_i outcome
    obtain ⟨-, rfl⟩ := Prod.mk.inj h
    split at outcome
    · exact slot?_discard outcome (.inr ⟨_, rfl⟩)
    · cases outcome
  · rename_i u outcome
    have first : u.kernel.slot? streams.stderr = w.kernel.slot? streams.stderr := by
      split at outcome
      · rename_i discards
        exact slot?_discard outcome (.inl fun same => apart ⟨same.symm, discards⟩)
      · rw [(Prod.mk.inj outcome).2]
    split at h
    · exact (slot?_keepAndDiscard_error h).trans first
    · cases h

theorem appending_cases (streams : StdStreams) (policy : RedirectionPolicy) (w : World) :
    (appending streams policy w).2.kernel.slot? streams.stderr = w.kernel.slot? streams.stderr ∨
      ∃ path file tree slot, policy.stderrDuplicate = some path ∧
        w.kernel.locate path .append = .ok (file, tree) ∧
        Wired (appending streams policy w).2.kernel streams.stderr slot file := by
  unfold appending
  cases policy.stderrDuplicate with
  | none => exact .inl rfl
  | some path =>
      simp only
      rcases outcome : appendTo path streams.stderr w with ⟨e | done, u⟩
      · exact .inl (slot?_appendTo_error outcome)
      · rcases appendTo_ok_cases outcome with ⟨file, tree, located, wired⟩ | ⟨free, closed⟩
        · exact .inr ⟨path, file, tree, _, rfl, located, wired⟩
        · exact .inl (closed.trans free.symm)

/-- Whatever fails, standard error refers to nothing but what it referred to and the file that it is
appended to. -/
theorem target?_apply_error {e : HarnessError} {sink : NodeId}
    (apart : ¬(streams.stdout = streams.stderr ∧ policy.discardStdout = true))
    (recorded : ∀ slot, w.kernel.slot? streams.stderr = some slot → slot < w.kernel.opened.length)
    (failed : apply streams policy w = (.error e, w'))
    (refers : w'.kernel.target? streams.stderr = some sink) :
    w.kernel.target? streams.stderr = some sink ∨
      ∃ path tree, policy.stderrDuplicate = some path ∧
        w.kernel.locate path .append = .ok (sink, tree) := by
  obtain ⟨same, records⟩ : w'.kernel.slot? streams.stderr =
      (appending streams policy w).2.kernel.slot? streams.stderr ∧
        Records (appending streams policy w).2.kernel w'.kernel := by
    cases outcome : (appending streams policy w).1 with
    | error e' =>
        rw [apply_of_error outcome] at failed
        obtain ⟨-, rfl⟩ := Prod.mk.inj failed
        exact ⟨rfl, .refl _⟩
    | ok done =>
        rw [apply_of_ok outcome] at failed
        have silenced := (steps_silence streams policy (appending streams policy w).2).records
        rw [failed] at silenced
        exact ⟨slot?_silence_error apart failed, silenced⟩
  rcases appending_cases streams policy w with
    kept | ⟨path, file, tree, slot, asked, located, wired⟩
  · have all := (steps_appending streams policy w).records.trans records
    exact .inl ((all.target?_eq (same.trans kept) recorded).symm.trans refers)
  · have appended := records.wired wired (same.trans wired.slot_eq)
    obtain rfl : file = sink := Option.some.inj (appended.target?_eq.symm.trans refers)
    exact .inr ⟨path, tree, asked, located⟩

/-- A redirection performs its tasks in order, and stops at the first that fails: with the error of
that task, and with the effects of those before it. It makes no file shorter. If it fails, standard
error refers to what it referred to or to the file that it was to be appended to. So it does not
refer to the null sink, unless that is one of these, or standard output, which is discarded first,
is the same descriptor. -/
theorem apply_stops (streams : StdStreams) (policy : RedirectionPolicy) (w : World) :
    ((∃ p, Performed (.start streams w) (tasks streams policy) p ∧
        apply streams policy w = (.ok p.answer, p.release)) ∨
      ∃ done task left p cause, tasks streams policy = done ++ task :: left ∧
        Performed (.start streams w) done p ∧ task.perform p = .error cause ∧
        apply streams policy w = (.error (task.error p.held cause), p.release)) ∧
    (∀ (id : NodeId) (content : Bytes), w.kernel.tree.content? id = some content →
      ∃ content', (apply streams policy w).2.kernel.tree.content? id = some content' ∧
        content.length ≤ content'.length) ∧
    ∀ (e : HarnessError) (w' : World) (sink : NodeId), apply streams policy w = (.error e, w') →
      (∀ slot, w.kernel.slot? streams.stderr = some slot → slot < w.kernel.opened.length) →
      w'.kernel.target? streams.stderr = some sink →
      w.kernel.target? streams.stderr = some sink ∨
        (∃ path tree, policy.stderrDuplicate = some path ∧
          w.kernel.locate path .append = .ok (sink, tree)) ∨
        streams.stdout = streams.stderr ∧ policy.discardStdout = true := by
  refine ⟨?_, fun id content holds => (steps_apply streams policy w).length_content? holds, ?_⟩
  · have stops := attemptAll_stops (tasks streams policy) (.start streams w)
    rwa [attemptAll_tasks] at stops
  · intro e w' sink failed recorded refers
    by_cases same : streams.stdout = streams.stderr ∧ policy.discardStdout = true
    · exact .inr (.inr same)
    · exact (target?_apply_error same recorded failed refers).imp_right .inl

/-- Standard output is closed and standard error is appended to a file that is not there: the sink
is opened and cannot be put on standard output, and standard error refers to the new file. -/
theorem apply_stops_closed :
    let policy : RedirectionPolicy := ⟨some (Bytes.ofString "log"), true, true⟩
    let w := World.boot [] none
    let ended := apply ⟨-1, 2⟩ policy w
    ended.1.isOk = false ∧ ended.2.kernel.target? 2 = some 9 ∧
      ∃ path tree, policy.stderrDuplicate = some path ∧
        w.kernel.locate path .append = .ok (9, tree) := by
  intro policy w ended
  have failed : ended.1.isOk = false := by decide +kernel
  have refers : ended.2.kernel.target? 2 = some 9 := by decide +kernel
  have elsewhere : w.kernel.target? 2 ≠ some 9 := by decide +kernel
  have recorded : ∀ slot, w.kernel.slot? 2 = some slot → slot < w.kernel.opened.length := by
    intro slot referred
    obtain rfl : 2 = slot := Option.some.inj referred
    decide
  refine ⟨failed, refers, ?_⟩
  obtain ⟨-, -, stands⟩ := apply_stops ⟨-1, 2⟩ policy w
  cases outcome : ended.1 with
  | ok d =>
      rw [outcome] at failed
      cases failed
  | error e =>
      have ends : ended = (.error e, ended.2) := outcome ▸ (Prod.eta ended).symm
      exact ((stands e ended.2 9 ends recorded refers).resolve_left elsewhere).resolve_right
        fun same => absurd same.1 (by decide)

/-- What `apply_stops` excepts does happen. A redirection that fails leaves standard error at the
null device where standard output, discarded first, is the same descriptor; and where the
operator's path is a link to the device. -/
theorem apply_error_silences :
    let full := { World.boot [] none with kernel := { Kernel.boot [] with limit := 4 } }
    let shared := apply ⟨2, 2⟩ ⟨none, true, true⟩ full
    let path := Bytes.ofString "l"
    let linked := { World.boot [] none with
      kernel := (Kernel.boot []).install path (.link nullSink) }
    let followed := apply ⟨-1, 2⟩ ⟨some path, true, false⟩ linked
    (shared.1 = .error (.nullSink (.os .tooManyOpen)) ∧ shared.2.kernel.target? 2 = some 4 ∧
      full.kernel.target? 2 = some 8 ∧ full.kernel.tree.node? 4 = some .nullDevice) ∧
    path ≠ nullSink ∧ followed.1.isOk = false ∧ followed.2.kernel.target? 2 = some 4 ∧
      linked.kernel.target? 2 = some 8 ∧ linked.kernel.tree.node? 4 = some .nullDevice := by
  intro full shared path linked followed
  have shared_error : shared.1 = .error (.nullSink (.os .tooManyOpen)) := rfl
  have shared_silenced : shared.2.kernel.target? 2 = some 4 := by decide +kernel
  have followed_error : followed.1.isOk = false := by decide +kernel
  have followed_silenced : followed.2.kernel.target? 2 = some 4 := by decide +kernel
  exact ⟨⟨shared_error, shared_silenced, by decide, by decide⟩, by decide, followed_error,
    followed_silenced, by decide +kernel, by decide +kernel⟩

end Redirection

end FuzzHarness
