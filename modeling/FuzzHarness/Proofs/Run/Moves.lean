import FuzzHarness.Proofs.Trace
import FuzzHarness.Run

/-!
What the parties of a run can do to the world: an event is recorded, somebody writes to a
descriptor, a file is read, the environment is set. Every part of a run save the redirection of the
streams is a sequence of such moves.
-/

namespace FuzzHarness

/-- A diagnostic at the descriptor of those, or an output of another kind. -/
def Output.Expected (o : Output) (diagnostic : Fd) (P : Output → Prop) : Prop :=
  o.writer = .diagnostics ∧ o.fd = diagnostic ∨ P o

/-- What the harness prints on standard output, and what the target writes to some descriptors. -/
def Output.Foreground (F : Fd → Prop) (o : Output) : Prop :=
  match o.writer with
  | .harness => o.fd = 1
  | .target => F o.fd
  | _ => False

/-- What the linked diagnostics subsystem writes to a descriptor. -/
def Output.Reported (fd : Fd) (o : Output) : Prop :=
  o.writer = .reports ∧ o.fd = fd

/-- The target writes to no other descriptors than these. -/
def Target.WritesTo {τ : Type} (T : Target τ) (F : Fd → Prop) : Prop :=
  ∀ data state fd out, Effect.write fd out ∈ (T.react data state).1.effects → F fd

namespace World

/-- A sequence of moves that records such events only, with such outputs only besides
diagnostics. -/
inductive Moves (E : Event → Prop) (P : Output → Prop) (w : World) : World → Prop
  | refl : Moves E P w w
  | record {w' : World} (so_far : Moves E P w w') (e : Event) (allowed : E e) :
      Moves E P w (w'.record e)
  | write {w' : World} {writer : Writer} {fd : Fd} {data : Bytes} : Moves E P w w' →
      Output.Expected ⟨writer, fd, data⟩ w'.diagnostic P → Moves E P w (w'.write fd data writer)
  | read {w' : World} (path : Bytes) (count : Nat) : Moves E P w w' →
      Moves E P w { w' with kernel := (w'.kernel.readPath path count).2 }
  | setEnvironment {w' : World} (environment : Environment) : Moves E P w w' →
      Moves E P w { w' with kernel := { w'.kernel with environment } }

namespace Moves

variable {E E' : Event → Prop} {P P' : Output → Prop} {w w' w'' : World}

theorem trans (first : Moves E P w w') (second : Moves E P w' w'') : Moves E P w w'' := by
  induction second with
  | refl => exact first
  | record _ e allowed ih => exact ih.record e allowed
  | write _ expected ih => exact ih.write expected
  | read path count _ ih => exact ih.read path count
  | setEnvironment environment _ ih => exact ih.setEnvironment environment

theorem diagnostic_eq (h : Moves E P w w') : w'.diagnostic = w.diagnostic := by
  induction h with
  | refl => rfl
  | record _ _ _ ih | write _ _ ih | read _ _ _ ih | setEnvironment _ _ ih => exact ih

theorem mono (weaker : ∀ e, E e → E' e) (wider : ∀ o, P o → P' o) (h : Moves E P w w') :
    Moves E' P' w w' := by
  induction h with
  | refl => exact .refl
  | record _ e allowed ih => exact ih.record e (weaker e allowed)
  | write before expected ih =>
      refine ih.write (expected.imp (fun diagnostic => ?_) (wider _))
      rwa [ih.diagnostic_eq, ← before.diagnostic_eq]
  | read path count _ ih => exact ih.read path count
  | setEnvironment environment _ ih => exact ih.setEnvironment environment

theorem trace_eq (h : Moves E P w w') : ∃ events, w'.trace = w.trace ++ events ∧
    ∀ e ∈ events, E e := by
  induction h with
  | refl => exact ⟨[], by simp, by simp⟩
  | record _ e allowed ih =>
      obtain ⟨events, trace, all⟩ := ih
      refine ⟨events ++ [e], by simp [trace], ?_⟩
      intro e' member
      rcases List.mem_append.mp member with early | last
      · exact all e' early
      · rwa [List.mem_singleton.mp last]
  | write _ _ ih | read _ _ _ ih | setEnvironment _ _ ih => exact ih

theorem log (h : Moves E P w w') (n : Notice) : Moves E P w (w'.log n) := by
  unfold World.log
  split
  · exact h.write (.inl ⟨rfl, rfl⟩)
  · exact h

theorem print {F : Fd → Prop} (h : Moves E (Output.Foreground F) w w') (text : String) :
    Moves E (Output.Foreground F) w (w'.print text) :=
  h.write (.inr rfl)

end Moves

variable {E : Event → Prop} {F : Fd → Prop} {τ : Type} {T : Target τ}

theorem moves_effects {w : World} {effects : List Effect}
    (h : ∀ fd out, Effect.write fd out ∈ effects → F fd) :
    w.Moves E (Output.Foreground F) (effects.foldl perform w) := by
  induction effects generalizing w with
  | nil => exact .refl
  | cons effect effects ih =>
      have rest := ih (w := w.perform effect) fun fd out member =>
        h fd out (List.mem_cons_of_mem effect member)
      refine Moves.trans ?_ rest
      cases effect with
      | write fd data => exact Moves.refl.write (.inr (h fd data (by simp)))
      | log notice => exact Moves.refl.log notice

end World

namespace Invoker
variable {τ : Type} {T : Target τ} {F : Fd → Prop}

theorem moves_call (hT : T.WritesTo F) (area : Option Address) (data : Bytes) (i : Invoker τ)
    (w : World) :
    w.Moves (·.isInput) (Output.Foreground F) (i.call T area data w).2.2 := by
  have recorded : w.Moves (·.isInput) (Output.Foreground F) (w.record (.invoke data area)) :=
    World.Moves.refl.record _ rfl
  exact recorded.trans (World.moves_effects (hT data i.target))

theorem moves_invoke (hT : T.WritesTo F) (area : Option Address) (data : Bytes) (i : Invoker τ)
    (w : World) :
    w.Moves (·.isInput) (Output.Foreground F) (i.invoke T area data w).2.2 := by
  have called := moves_call hT area data i w
  unfold invoke
  split
  · rename_i outcome
    simpa only [outcome] using called
  · rename_i outcome
    simpa only [outcome] using called

theorem moves_warmUp (hT : T.WritesTo F) (area : Option Address) (i : Invoker τ) (w : World) :
    w.Moves (·.isInput) (Output.Foreground F) (i.warmUp T area w).2.2.2 := by
  unfold warmUp
  split
  · exact .refl
  · exact moves_call hT area warmUpInput _ w

theorem moves_setup (T : Target τ) (P : Output → Prop) (arguments : List Bytes) (i : Invoker τ)
    (w : World) :
    w.Moves (·.isSetup) P (i.setup T arguments w).2.2 := by
  unfold setup
  split
  · exact .refl
  · exact World.Moves.refl.record _ rfl
  · have announced : w.Moves (·.isSetup) P (w.log .setupRunning) := World.Moves.refl.log _
    exact (announced.record _ rfl).log .setupDone

end Invoker

namespace BatchFiles
variable {E : Event → Prop} {P : Output → Prop}

theorem moves_readInput (path : Bytes) (w : World) : w.Moves E P (readInput path w).2 := by
  have reading : w.Moves E P { w with kernel := (w.kernel.readPath path maxFile).2 } :=
    .read path maxFile .refl
  unfold readInput
  split
  · rename_i outcome
    rw [outcome] at reading
    exact reading.log _
  · rename_i outcome
    rw [outcome] at reading
    exact reading
  · rename_i outcome
    rw [outcome] at reading
    exact reading.log _

theorem moves_firstReadable (paths : List Bytes) (w : World) :
    w.Moves E P (firstReadable paths w).2.2 := by
  induction paths generalizing w with
  | nil => exact .refl
  | cons path rest ih =>
      have reading := moves_readInput (E := E) (P := P) path w
      unfold firstReadable
      split
      · rename_i outcome
        simpa only [outcome] using reading
      · rename_i outcome
        rw [outcome] at reading
        exact reading.trans (ih _)

theorem moves_pull (f : BatchFiles) (w : World) : w.Moves E P (f.pull w).2.2 := by
  have found := moves_firstReadable (E := E) (P := P) f.remaining w
  unfold pull nextFile
  split
  · rename_i outcome
    simp only [Prod.mk.injEq] at outcome
    exact outcome.2.2 ▸ found
  · rename_i outcome
    simp only [Prod.mk.injEq] at outcome
    exact outcome.2.2 ▸ found

end BatchFiles

theorem Dispatcher.moves_next {ι : Type} {P : Output → Prop} (R : Reader ι) (d : Dispatcher ι)
    (w : World) :
    w.Moves (·.isRead) P (d.next R w).2.2 := by
  cases d with
  | batch files => exact BatchFiles.moves_pull files w
  | stream input =>
      have recorded : w.Moves (·.isRead) P
          (w.record (.read input.capacity (R.read input.capacity input.reader).1)) :=
        World.Moves.refl.record _ rfl
      simp only [next, StreamInput.pull]
      split
      · exact recorded
      · exact recorded
      · split
        · exact recorded
        · exact recorded.log _

namespace LoopState
variable {ρ ι τ : Type} {T : Target τ} {F : Fd → Prop}

theorem moves_iterate (hT : T.WritesTo F) (E : Engine ρ) (R : Reader ι) (s : LoopState ρ ι τ) :
    s.world.Moves (·.isInput) (Output.Foreground F) (s.iterate E R T).2.world := by
  have pulled := (Dispatcher.moves_next (P := Output.Foreground F) R s.inputs s.world).mono
    (fun e read => Event.isInput_of_isRead read) fun _ allowed => allowed
  unfold iterate
  split
  rename_i pull inputs world outcome
  rw [outcome] at pulled
  split
  · exact pulled
  · rename_i data _
    exact pulled.trans (Invoker.moves_invoke hT (E.area s.engine) data s.invoker world)

theorem moves_ask {P : Output → Prop} (E : Engine ρ) (budget : Nat) (s : LoopState ρ ι τ) :
    s.world.Moves (·.isInput) P (s.ask E budget).2.world :=
  World.Moves.refl.record _ rfl

theorem moves_run (hT : T.WritesTo F) (E : Engine ρ) (R : Reader ι) (budget lifespan : Nat)
    (s : LoopState ρ ι τ) :
    s.world.Moves (·.isInput) (Output.Foreground F) (s.run E R T budget lifespan).2.world := by
  induction lifespan generalizing s with
  | zero =>
      have asked := moves_ask (P := Output.Foreground F) E budget s
      unfold run
      split
      · rename_i outcome
        rwa [outcome] at asked
      · rename_i outcome
        rwa [outcome] at asked
  | succ lifespan ih =>
      have asked := moves_ask (P := Output.Foreground F) E budget s
      unfold run
      split
      · rename_i outcome
        rwa [outcome] at asked
      · rename_i granted outcome
        rw [outcome] at asked
        have iterated := asked.trans (moves_iterate hT E R granted)
        simp only
        split
        · rename_i ended
          rwa [ended] at iterated
        · rename_i ended
          rw [ended] at iterated
          exact iterated.trans (ih _)

end LoopState

theorem Deferral.prepare_of (dontDefer : Bool) (w : World) :
    ((Deferral.of dontDefer).prepare w).1 = .ok () := by
  have valid : validName forkServerVariable = true := by decide
  simp [prepare, of, forVariable, valid]

theorem Mode.moves_resolve {E : Event → Prop} {P : Output → Prop} (arguments : List Bytes)
    (w : World) :
    w.Moves E P (resolve arguments w).2 := by
  unfold resolve
  split
  · exact World.Moves.refl.log _
  · exact .refl

namespace Session
variable {β ρ : Type} {P : Output → Prop}

theorem moves_tryStrategies (B : MapBackend β) (size : Nat) (strategies : List MapStrategy) (b : β)
    (w : World) :
    w.Moves (·.isReservation) P (tryStrategies B size strategies b w).2.2 := by
  induction strategies generalizing b w with
  | nil => exact World.Moves.refl.log _
  | cons strategy rest ih =>
      simp only [tryStrategies]
      split
      · rename_i region _ _
        have granted : w.Moves (·.isReservation) P (w.record (.map strategy size (some region))) :=
          World.Moves.refl.record _ rfl
        exact granted.log _
      · have refused : w.Moves (·.isReservation) P (w.record (.map strategy size none)) :=
          World.Moves.refl.record _ rfl
        exact (refused.log _).trans (ih _ _)

theorem moves_prepare (s : Session β ρ) : s.world.Moves (·.isReservation) P s.prepare.2.world := by
  simp only [prepare, Deferral.prepare]
  split
  · exact (World.Moves.refl.setEnvironment _).log _
  · exact .refl

theorem moves_reserve (B : MapBackend β) (E : Engine ρ) (s : Session β ρ) :
    s.world.Moves (·.isReservation) P (s.reserve B E).2.world := by
  have tried :=
    moves_tryStrategies (P := P) B s.map.layout.size (MapStrategy.preferences s.map.layout.base)
    s.backend s.world
  unfold reserve
  split
  · exact World.Moves.refl.log _
  · exact .refl
  · split
    · rename_i outcome
      rwa [outcome] at tried
    · rename_i outcome
      rw [outcome] at tried
      exact tried.record _ rfl

theorem moves_retract (E : Engine ρ) (s : Session β ρ) :
    s.world.Moves (·.isHandover) P (s.retract E).world := by
  unfold retract
  split
  · split
    · exact World.Moves.refl.record _ rfl
    · exact .refl
  · exact .refl

theorem moves_release (B : MapBackend β) (E : Engine ρ) (s : Session β ρ) :
    s.world.Moves (·.isHandover) P (s.release B E).world := by
  have retracted := moves_retract (P := P) E s
  simp only [release]
  split
  · exact retracted
  · split
    · exact retracted.record _ rfl
    · exact (retracted.record _ rfl).log _

theorem moves_complete (B : MapBackend β) (E : Engine ρ) (s : Session β ρ) :
    s.world.Moves (·.isHandover) P (s.complete B E).world := by
  unfold complete
  split
  · exact .refl
  · have signaled : s.world.Moves (·.isHandover) P ((s.retract E).signal E).world :=
      (moves_retract E s).record _ rfl
    let t : Session β ρ := { (s.retract E).signal E with
      deferral := { ((s.retract E).signal E).deferral with signaled := true } }
    exact signaled.trans (moves_release B E t)

end Session

namespace RunState
variable {β ρ ι τ : Type} {h : Harness β ρ ι τ} {F : Fd → Prop} {P : Output → Prop}

def placed (h : Harness β ρ ι τ) (s : RunState β ρ ι τ) : Session β ρ :=
  let announcing : Session β ρ := { s.session with deferral := .of h.settings.dontDefer }
  (announcing.prepare.2.reserve h.backend h.engine).2

theorem startUp_eq (s : RunState β ρ ι τ) :
    s.startUp h =
      (.ok (), { s with session := s.placed h }.log (.placeholderAt (s.placed h).map.pointer)) := by
  let announcing : Session β ρ := { s.session with deferral := .of h.settings.dontDefer }
  have announced : announcing.prepare = (.ok (), announcing.prepare.2) :=
    Prod.ext (Deferral.prepare_of h.settings.dontDefer s.session.world) rfl
  unfold startUp
  simp only
  rw [announced]
  rfl

theorem startUp_ok (s : RunState β ρ ι τ) : s.startUp h = (.ok (), (s.startUp h).2) := by
  rw [startUp_eq]

theorem moves_startUp (s : RunState β ρ ι τ) :
    s.world.Moves (·.isReservation) P (s.startUp h).2.world := by
  let announcing : Session β ρ := { s.session with deferral := .of h.settings.dontDefer }
  have prepared : s.world.Moves (·.isReservation) P announcing.prepare.2.world :=
    announcing.moves_prepare
  have reserved := prepared.trans (announcing.prepare.2.moves_reserve h.backend h.engine)
  rw [startUp_eq]
  exact reserved.log _

theorem moves_pointReports (s : RunState β ρ ι τ) :
    s.world.Moves (·.isReportFd) (Output.Reported s.world.diagnostic)
    (s.pointReports h s.world.diagnostic).world := by
  let linked := (h.engine.setReportFd s.world.diagnostic s.session.engine).1.isSome
  have pointed : s.world.Moves (·.isReportFd) (Output.Reported s.world.diagnostic)
      (s.world.record (.reportFd s.world.diagnostic linked)) := World.Moves.refl.record _ rfl
  simp only [pointReports]
  split
  · exact pointed.write (.inr ⟨rfl, rfl⟩)
  · exact pointed.log _

theorem pointReports_trace (h : Harness β ρ ι τ) (fd : Fd) (s : RunState β ρ ι τ) :
    ∃ linked, (s.pointReports h fd).world.trace = s.world.trace ++ [.reportFd fd linked] := by
  refine ⟨(h.engine.setReportFd fd s.session.engine).1.isSome, ?_⟩
  simp only [pointReports, world]
  split
  · exact World.trace_record _ _
  · exact (World.trace_log _ _).trans (World.trace_record _ _)

theorem moves_setUp (arguments : List Bytes) (s : RunState β ρ ι τ) :
    s.world.Moves (·.isSetup) P (s.setUp h arguments).2.world := by
  have ran := Invoker.moves_setup h.target P arguments s.invoker s.world
  simp only [setUp]
  split
  · exact ran
  · exact ran

theorem moves_complete (s : RunState β ρ ι τ) :
    s.world.Moves (·.isHandover) P (s.complete h).world :=
  s.session.moves_complete h.backend h.engine

theorem moves_invoke (hT : h.target.WritesTo F) (data : Bytes) (s : RunState β ρ ι τ) :
    s.world.Moves (·.isInput) (Output.Foreground F) (s.invoke h data).2.world :=
  Invoker.moves_invoke hT (s.area h) data s.invoker s.world

theorem moves_warmUp (hT : h.target.WritesTo F) (s : RunState β ρ ι τ) :
    s.world.Moves (·.isInput) (Output.Foreground F) (s.warmUp h).2.world :=
  Invoker.moves_warmUp hT (s.area h) s.invoker s.world

theorem moves_runLoop (hT : h.target.WritesTo F) (budget : Budget) (lifespan : Nat)
    (s : RunState β ρ ι τ) :
    s.world.Moves (·.isInput) (Output.Foreground F) (s.runLoop h budget lifespan).2.world :=
  LoopState.moves_run hT h.engine h.reader budget.count lifespan
    ⟨s.world, s.session.engine, _, s.invoker⟩

theorem moves_runFiles (hT : h.target.WritesTo F) (paths : List Bytes) (s : RunState β ρ ι τ) :
    s.world.Moves (·.isInput) (Output.Foreground F) (s.runFiles h paths).2.world := by
  induction paths generalizing s with
  | nil => exact .refl
  | cons path rest ih =>
      have reading :=
        BatchFiles.moves_readInput (E := (·.isInput)) (P := Output.Foreground F) path s.world
      unfold runFiles
      split
      · rename_i outcome
        rw [outcome] at reading
        exact reading.trans (ih (s.setWorld _))
      · rename_i data w outcome
        rw [outcome] at reading
        have printed := reading.print (readingLine path data)
        have invoked :=
          printed.trans (moves_invoke hT data ((s.setWorld w).print (readingLine path data)))
        split
        · rename_i ended
          rwa [ended] at invoked
        · rename_i survivor ended
          rw [ended] at invoked
          exact (invoked.print executedLine).trans (ih (survivor.print executedLine))

/-- The state in which the inputs of a mode begin. -/
def handedOver (h : Harness β ρ ι τ) (s : RunState β ρ ι τ) : Mode → RunState β ρ ι τ
  | .batch _ => (s.disableSharedMemory h).complete h
  | .persistent _ =>
    if h.settings.disableInstrumentation then s.log .instrumentationDisabled else s.complete h

theorem moves_handedOver (mode : Mode) (s : RunState β ρ ι τ) :
    s.world.Moves (fun e => e.isReportFd = false) P (s.handedOver h mode).world := by
  have completed : ∀ s : RunState β ρ ι τ, s.world.Moves
      (fun e => e.isReportFd = false) P (s.complete h).world :=
    fun s => (moves_complete s).mono (fun e handover => (Event.apart_of_isHandover handover).1)
      fun _ allowed => allowed
  cases mode with
  | batch paths =>
      have switched :
          s.world.Moves (fun e => e.isReportFd = false) P (s.disableSharedMemory h).world :=
        World.Moves.refl.record _ rfl
      exact switched.trans (completed _)
  | persistent budget =>
      simp only [handedOver]
      split
      · exact World.Moves.refl.log _
      · exact completed s

theorem moves_runBatch (hT : h.target.WritesTo F) (paths : List Bytes) (s : RunState β ρ ι τ) :
    (s.handedOver h (.batch paths)).world.Moves (·.isInput) (Output.Foreground F)
    (s.runBatch h paths).2.world := by
  have ran := moves_runFiles hT paths (s.handedOver h (.batch paths))
  unfold runBatch
  split
  · rename_i outcome
    rw [handedOver, outcome] at ran
    exact ran
  · rename_i outcome
    rw [handedOver, outcome] at ran
    exact ran

theorem moves_runPersistent (hT : h.target.WritesTo F) (budget : Budget) (lifespan : Nat)
    (s : RunState β ρ ι τ) :
    (s.handedOver h (.persistent budget)).world.Moves (·.isInput) (Output.Foreground F)
      (s.runPersistent h budget lifespan).2.world := by
  simp only [runPersistent, handedOver]
  generalize (if h.settings.disableInstrumentation then s.log .instrumentationDisabled
    else s.complete h) = t
  have noted : t.world.Moves (·.isInput) (Output.Foreground F)
      (t.log (.placeholderNow t.session.map.pointer)).world :=
    World.Moves.refl.log _
  have warmed := noted.trans (moves_warmUp hT _)
  split
  · rename_i outcome
    rwa [outcome] at warmed
  · rename_i u outcome
    rw [outcome] at warmed
    exact warmed.trans (moves_runLoop hT budget lifespan u)

theorem moves_runInputs (hT : h.target.WritesTo F) (mode : Mode) (lifespan : Nat)
    (s : RunState β ρ ι τ) :
    (s.handedOver h mode).world.Moves (·.isInput) (Output.Foreground F)
    (s.runInputs h mode lifespan).2.world := by
  cases mode with
  | batch paths => exact moves_runBatch hT paths s
  | persistent budget => exact moves_runPersistent hT budget lifespan s

theorem moves_runMode (hT : h.target.WritesTo F) (program : String) (mode : Mode) (lifespan : Nat)
    (s : RunState β ρ ι τ) :
    (s.handedOver h mode).world.Moves (·.isInput) (Output.Foreground F)
      (s.runMode h program mode lifespan).2.world := by
  have ran := moves_runInputs hT mode lifespan s
  unfold runMode
  split
  · rename_i outcome
    rwa [outcome] at ran
  · rename_i outcome
    rwa [outcome] at ran
  · rename_i outcome
    rw [outcome] at ran
    exact ran.print _

theorem run_of_error {s : RunState β ρ ι τ} {e : HarnessError} (arguments : List Bytes)
    (lifespan : Nat) (he : (s.settle h arguments).1 = .error e) :
    (s.run h arguments lifespan).2 = (s.settle h arguments).2 := by
  have settled : s.settle h arguments = (.error e, (s.settle h arguments).2) := Prod.ext he rfl
  unfold run
  rw [settled]

theorem run_of_ok {s : RunState β ρ ι τ} {mode : Mode} (arguments : List Bytes) (lifespan : Nat)
    (hm : (s.settle h arguments).1 = .ok mode) : s.run h arguments lifespan =
      (s.settle h arguments).2.runMode h (Mode.programName arguments) mode lifespan := by
  have settled : s.settle h arguments = (.ok mode, (s.settle h arguments).2) := Prod.ext hm rfl
  unfold run
  rw [settled]

/-- From the redirection on, a run is a sequence of moves that leave the diagnostics subsystem where
it points. -/
theorem moves_run (hT : h.target.WritesTo F) (s : RunState β ρ ι τ)
    (arguments : List Bytes) (lifespan : Nat) {u : RunState β ρ ι τ} (redirected :
      ((s.startUp h).2.print (banner (Mode.programName arguments))).redirect h = (.ok (), u)) :
    u.world.Moves (fun e => e.isReportFd = false) (Output.Foreground F)
    (s.run h arguments lifespan).2.world := by
  have set_up : u.world.Moves
      (fun e => e.isReportFd = false) (Output.Foreground F) (u.setUp h arguments).2.world :=
    (moves_setUp arguments u).mono (fun e setup => Event.isReportFd_of_isSetup setup)
      fun _ allowed => allowed
  have settled : u.world.Moves (fun e => e.isReportFd = false) (Output.Foreground F)
      (s.settle h arguments).2.world := by
    unfold settle
    rw [startUp_ok]
    simp only [redirected]
    exact set_up.trans (Mode.moves_resolve _ _)
  cases outcome : (s.settle h arguments).1 with
  | error e =>
      rw [run_of_error arguments lifespan outcome]
      exact settled
  | ok mode =>
      rw [run_of_ok arguments lifespan outcome]
      have inputs :=
        (moves_runMode hT (Mode.programName arguments) mode lifespan (s.settle h arguments).2).mono
        (fun e input => Event.isReportFd_of_isInput input) fun _ allowed => allowed
      exact (settled.trans (moves_handedOver mode _)).trans inputs

end RunState

end FuzzHarness
