import FuzzHarness.Proofs.Run.Course
import FuzzHarness.Proofs.Run.Unchanged

/-!
What the target sees does not depend on the placeholder, the masks or the handshake. Two runs with
the same arguments, over the same inputs and with the same answers to their questions for another
iteration, invoke the target with the same bytes, whatever the mapper and the engine do besides and
whatever the operator asks for.
-/

namespace FuzzHarness

/-- Two targets are alike if set-up leaves the same with them and an input has the same effect on
their state. What they write and what status they answer with may differ. -/
structure Target.Alike {τ : Type} (T T' : Target τ) : Prop where
  rewrite : ∀ arguments state, T'.rewrite arguments state = T.rewrite arguments state
  prepared : ∀ arguments state, T'.prepared arguments state = T.prepared arguments state
  state : ∀ data state, (T'.react data state).2 = (T.react data state).2
  aborts : ∀ data state, (T'.react data state).1.aborts = (T.react data state).1.aborts

namespace Target.Alike

variable {ι τ : Type} {T T' : Target τ}

theorem fate (alike : T.Alike T') (data : Bytes) (state : τ) :
    T'.fate data state = T.fate data state := by
  rw [Target.fate, alike.aborts]
  rfl

theorem fed (alike : T.Alike T') (i : Invoker τ) (data? : Option Bytes) :
    i.fed T' data? = i.fed T data? := by
  cases data? with
  | none => rfl
  | some data => rw [Invoker.fed, Invoker.invoked, alike.fate, alike.state]; rfl

theorem warmed (alike : T.Alike T') (i : Invoker τ) : i.warmed T' = i.warmed T := by
  rw [Invoker.warmed, alike.fate, alike.state]
  rfl

theorem stream (alike : T.Alike T') (R : Reader ι) (lifespan : Nat) (input : StreamInput ι)
    (decisions : List Bool) :
    Invoker.stream R T' lifespan input decisions = Invoker.stream R T lifespan input decisions := by
  induction lifespan generalizing input decisions with
  | zero =>
      rcases decisions with _ | ⟨_ | _, decisions⟩ <;> rfl
  | succ lifespan ih =>
      rcases decisions with _ | ⟨_ | _, decisions⟩
      · rfl
      · rfl
      · funext i
        rw [Invoker.stream, alike.fed, ih]
        rfl

theorem files (alike : T.Alike T') (inputs : List (Option Bytes)) :
    Invoker.files T' inputs = Invoker.files T inputs := by
  induction inputs with
  | nil => rfl
  | cons data? inputs ih =>
      funext i
      rw [Invoker.files, alike.fed, ih]
      rfl

end Target.Alike

namespace RunState
open Trace

variable {β β' ρ ρ' ι τ : Type} {h : Harness β ρ ι τ} {s : RunState β ρ ι τ}
  {h' : Harness β' ρ' ι τ} {s' : RunState β' ρ' ι τ} {arguments : List Bytes} {lifespan : Nat}
  {decisions : List Bool} {files : List (Bytes × Option Bytes)}

/-- What the inputs of a mode depend on when they begin: the invoker, the stream, and whether files
can be opened. -/
structure SameParties (t : RunState β ρ ι τ) (t' : RunState β' ρ' ι τ) : Prop where
  invoker : t'.invoker = t.invoker
  reader : t'.reader = t.reader
  hasRoom : t'.world.kernel.hasRoom = t.world.kernel.hasRoom

theorem course_alike {t : RunState β ρ ι τ} {t' : RunState β' ρ' ι τ}
    (alike : h.target.Alike h'.target) (source : h'.reader = h.reader) (parties : SameParties t t')
    (mode : Mode) :
    course h' lifespan files t' mode = course h lifespan files t mode := by
  funext decisions
  cases mode with
  | batch paths => rw [course, alike.files, parties.invoker, parties.hasRoom]; rfl
  | persistent budget =>
      rw [course, alike.warmed, source, alike.stream, parties.invoker, parties.reader]
      rfl

theorem Arrived.sameParties {t : RunState β ρ ι τ} {t' : RunState β' ρ' ι τ}
    (arrived : Arrived h arguments s t) (arrived' : Arrived h' arguments s' t')
    (alike : h.target.Alike h'.target) (parties : SameParties s s') :
    SameParties t t' where
  invoker := by rw [arrived'.invoker, arrived.invoker, alike.prepared, parties.invoker]
  reader := by rw [arrived'.reader, arrived.reader, parties.reader]
  hasRoom := by rw [arrived'.hasRoom, arrived.hasRoom, parties.hasRoom]

theorem mode_of_redirects (redirects : Redirects h arguments s) :
    (s.settle h arguments).1 = (Mode.read (h.target.rewrite arguments s.invoker.target)).1 := by
  rcases settle_cases h arguments s with ⟨e, w, -, refused, -⟩ | ⟨d, w, -, -, settled, -⟩
  · exact absurd redirects refused
  · exact settled

theorem settle_alike (redirects : Redirects h arguments s) (redirects' : Redirects h' arguments s')
    (alike : h.target.Alike h'.target) (parties : SameParties s s') :
    (s'.settle h' arguments).1 = (s.settle h arguments).1 := by
  rw [mode_of_redirects redirects', mode_of_redirects redirects, alike.rewrite, parties.invoker]

theorem run_refused {e : HarnessError} (refused : (s.settle h arguments).1 = .error e)
    (lifespan : Nat) :
    let ended := s.run h arguments lifespan
    payloads (s.world.since ended.2.world) = [] ∧ ended.1 = .returned (.error e) ∧
      ended.2 = (s.settle h arguments).2 := by
  obtain ⟨settling, settled, early, -⟩ := settle_events h arguments s
  have same := run_of_error arguments lifespan refused
  refine ⟨?_,
    (run_error_iff arguments lifespan).mpr ((settle_error_iff arguments).mp refused), same⟩
  rw [same, World.since_eq settled]
  exact view_eq_nil fun e member =>
    (Event.views_of_not_isInput
      (Event.views_of_isReservation_or_isArrangement (early e member)).2).1

/-- Two runs agree in what the placeholder, the engine and the operator have no say in: what the
target was invoked with, the mode, the executions, and what the run came to, but for whether it
remembers a signal. -/
structure Agree (arguments : List Bytes) (lifespan : Nat) (h : Harness β ρ ι τ)
    (s : RunState β ρ ι τ) (h' : Harness β' ρ' ι τ) (s' : RunState β' ρ' ι τ) : Prop where
  payloads : Trace.payloads (s'.world.since (s'.run h' arguments lifespan).2.world) =
    Trace.payloads (s.world.since (s.run h arguments lifespan).2.world)
  mode : (s'.settle h' arguments).1 = (s.settle h arguments).1
  executions : (s'.run h' arguments lifespan).2.invoker.executions =
    (s.run h arguments lifespan).2.invoker.executions
  verdict : (s'.run h' arguments lifespan).1.unsignaled = (s.run h arguments lifespan).1.unsignaled

/-- Runs agree that have alike targets and meet the same. -/
theorem Meets.agree (met : Meets h arguments lifespan s decisions files)
    (met' : Meets h' arguments lifespan s' decisions files) (alike : h.target.Alike h'.target)
    (source : h'.reader = h.reader) (parties : SameParties s s') :
    Agree arguments lifespan h s h' s' := by
  have settles := settle_alike met.redirects met'.redirects alike parties
  have arrived := arrived_settle arguments met.redirects
  have arrived' := arrived_settle arguments met'.redirects
  cases settled : (s.settle h arguments).1 with
  | error e =>
      rw [settled] at settles
      obtain ⟨nothing, verdict, same⟩ := run_refused settled lifespan
      obtain ⟨nothing', verdict', same'⟩ := run_refused settles lifespan
      have invoker := (arrived.sameParties arrived' alike parties).invoker
      refine ⟨nothing'.trans nothing.symm, settles.trans settled.symm, ?_, ?_⟩
      · rw [same, same', invoker]
      · rw [verdict, verdict']
  | ok mode =>
      rw [settled] at settles
      have same := (arrived.handedOver mode).sameParties (arrived'.handedOver mode) alike parties
      obtain ⟨ending, course, verdict⟩ := met.run_course settled
      obtain ⟨ending', course', verdict'⟩ := met'.run_course settles
      rw [course_alike alike source same, course, Course.mk.injEq] at course'
      obtain ⟨rfl, invoker, payloads⟩ := course'
      refine ⟨payloads.symm, settles.trans settled.symm,
        congrArg Invoker.executions invoker.symm, ?_⟩
      rw [verdict, verdict', invoker]

/-- A run whose streams are redirected, with no file to append standard error to. Its questions for
another iteration are answered by the first of these decisions, and nobody can write to the files of
a batch when it begins. -/
structure Undisturbed (h : Harness β ρ ι τ) (arguments : List Bytes) (lifespan : Nat)
    (s : RunState β ρ ι τ) (decisions : List Bool) : Prop where
  redirects : Redirects h arguments s
  no_duplicate : h.settings.stderrDuplicate = none
  answers : Trace.answers (s.world.since (s.run h arguments lifespan).2.world) <+: decisions
  still : ∀ paths, (s.settle h arguments).1 = .ok (.batch paths) →
    ∀ path ∈ paths, s.world.kernel.Sealed path

theorem Undisturbed.meets (quiet : Undisturbed h arguments lifespan s decisions)
    (same : ∀ paths, (s.settle h arguments).1 = .ok (.batch paths) →
      files = paths.map fun path => (path, s.world.kernel.tree.input? path)) :
    Meets h arguments lifespan s decisions files where
  redirects := quiet.redirects
  answers := quiet.answers
  offers paths settled := by
    rw [same paths settled]
    exact unchanged_of_sealed quiet.no_duplicate (quiet.still paths settled)

/-- What the target is invoked with, the mode and the executions are the same in two runs with the
same arguments over the same stream, the same files and the same answers to their questions for
another iteration. It makes no difference what the mapper grants, what the engine attaches, what is
discarded, whether deferral is announced, whether instrumentation is disabled, and what the target
writes and answers. -/
theorem run_independent (alike : h.target.Alike h'.target) (source : h'.reader = h.reader)
    (parties : SameParties s s') (first : Undisturbed h arguments lifespan s decisions)
    (second : Undisturbed h' arguments lifespan s' decisions)
    (contents : ∀ paths, (s.settle h arguments).1 = .ok (.batch paths) →
      ∀ path ∈ paths, s'.world.kernel.tree.input? path = s.world.kernel.tree.input? path) :
    Agree arguments lifespan h s h' s' := by
  have settles := settle_alike first.redirects second.redirects alike parties
  obtain ⟨files, held⟩ : ∃ files, ∀ paths, (s.settle h arguments).1 = .ok (.batch paths) →
      files = paths.map fun path => (path, s.world.kernel.tree.input? path) := by
    cases (s.settle h arguments).1 with
    | error e => exact ⟨[], fun paths settled => by cases settled⟩
    | ok mode =>
        cases mode with
        | batch paths => exact ⟨_, fun _ settled => by cases settled; rfl⟩
        | persistent budget => exact ⟨[], fun paths settled => by cases settled⟩
  have met' : Meets h' arguments lifespan s' decisions files :=
      second.meets fun paths settled' => by
    have settled := settles.symm.trans settled'
    rw [held paths settled]
    exact List.map_congr_left fun path member => by rw [contents paths settled path member]
  exact (first.meets held).agree met' alike source parties

/-- An engine that attaches its own map, a full address space, discarded streams and another status
make no difference to what the demonstration program is invoked with, in a loop or over a file that
is named twice. -/
theorem run_independent_demo :
    let attaching : Engine Standalone :=
      { Standalone.engine with manualInit := fun e => { e with area := some 4096 } }
    let failing : Target Unit := { Launch.demoTarget with
      react := fun data state =>
        let (reaction, state) := Launch.demoTarget.react data state
        ({ reaction with status := 7 }, state) }
    let h := Launch.harness Standalone.engine Launch.demoTarget Settings.default
    let h' := Launch.harness attaching failing ⟨true, none, some "3", false⟩
    let boot := World.boot [] none
    let w :=
      { boot with kernel := boot.kernel.install (Bytes.ofString "a") (.file (Bytes.ofString "y")) }
    let s := Launch.start w ⟨[]⟩ (.file (Bytes.ofString "x")) Standalone.fresh ()
    let s' :=
      Launch.start w ⟨[⟨0, AddressSpace.top⟩]⟩ (.file (Bytes.ofString "x")) Standalone.fresh ()
    let seen := fun arguments => payloads (s.world.since (s.run h arguments 5).2.world)
    let seen' := fun arguments => payloads (s'.world.since (s'.run h' arguments 5).2.world)
    let looping := [Bytes.ofString "demo", Bytes.ofString "-2"]
    let batch := [Bytes.ofString "demo", Bytes.ofString "a", Bytes.ofString "a"]
    (seen' looping = seen looping ∧ seen looping = [warmUpInput, Bytes.ofString "x"]) ∧
      seen' batch = seen batch ∧ seen batch = [Bytes.ofString "y", Bytes.ofString "y"] := by
  intro attaching failing h h' boot w s s' seen seen' looping batch
  have alike : h.target.Alike h'.target :=
    ⟨fun _ _ => rfl, fun _ _ => rfl, fun _ _ => rfl, fun _ _ => rfl⟩
  have leads : w.kernel.tree.resolve false (Bytes.ofString "a") = .ok (.node 9) := by rfl
  have sink : w.kernel.tree.resolve false Redirection.nullSink = .ok (.node 4) := by rfl
  have closed : ∀ f ∈ w.kernel.opened, f.node ≠ 9 := by decide
  have still : w.kernel.Sealed (Bytes.ofString "a") := by
    refine ⟨fun found f member _ => ?_, fun found => ?_⟩
    · cases leads.symm.trans found.leads
      exact closed f member
    · cases leads.symm.trans found.leads
      rw [sink]
      exact fun same => by cases same
  have loops : (Mode.read looping).1 = .ok (.persistent ⟨2, by decide, by decide⟩) := by rfl
  have batches :
    (Mode.read batch).1 = .ok (.batch [Bytes.ofString "a", Bytes.ofString "a"]) := by rfl
  have redirects : ∀ arguments ∈ [looping, batch], Redirects h arguments s ∧
      Redirects h' arguments s' := by
    unfold Redirects
    decide +kernel
  obtain ⟨ready, ready'⟩ := redirects looping (by simp)
  obtain ⟨filed, filed'⟩ := redirects batch (by simp)
  have looped : Undisturbed h looping 5 s [true, true, false] := by
    refine ⟨ready, rfl, by decide +kernel, fun paths settled => ?_⟩
    cases loops.symm.trans ((mode_of_redirects ready).symm.trans settled)
  have looped' : Undisturbed h' looping 5 s' [true, true, false] := by
    refine ⟨ready', rfl, by decide +kernel, fun paths settled => ?_⟩
    cases loops.symm.trans ((mode_of_redirects ready').symm.trans settled)
  have all_still : ∀ path ∈ [Bytes.ofString "a", Bytes.ofString "a"], w.kernel.Sealed path := by
    simpa using still
  have batched : Undisturbed h batch 5 s [] := by
    refine ⟨filed, rfl, by decide +kernel, fun paths settled => ?_⟩
    cases batches.symm.trans ((mode_of_redirects filed).symm.trans settled)
    exact all_still
  have batched' : Undisturbed h' batch 5 s' [] := by
    refine ⟨filed', rfl, by decide +kernel, fun paths settled => ?_⟩
    cases batches.symm.trans ((mode_of_redirects filed').symm.trans settled)
    exact all_still
  have loop : Agree looping 5 h s h' s' :=
    run_independent alike rfl ⟨rfl, rfl, rfl⟩ looped looped' fun _ _ _ _ => rfl
  have files : Agree batch 5 h s h' s' :=
    run_independent alike rfl ⟨rfl, rfl, rfl⟩ batched batched' fun _ _ _ _ => rfl
  exact ⟨⟨loop.payloads, by decide +kernel⟩, files.payloads, by decide +kernel⟩

end RunState

end FuzzHarness
