import FuzzHarness.Boot
import FuzzHarness.Launch
import FuzzHarness.Proofs.CoverageMap.AddressSpace
import FuzzHarness.Proofs.Redirection
import FuzzHarness.Proofs.Run.Moves

/-!
The order of a whole run. The signal that set-up is complete is given at most once: after the
target's set-up, before the target sees an input, and over a null coverage pointer. Memory that was
granted is given back after the signal, and only then.
-/

namespace FuzzHarness

/-- An engine whose coverage pointer is written by nobody but the harness, except at the signal. -/
structure Engine.Lawful {ρ : Type} (E : Engine ρ) : Prop where
  area_publish : ∀ a e, E.area (E.publish a e) = some a
  area_retract : ∀ a e, E.area (E.retract a e) = if E.area e = some a then none else E.area e
  area_setSharedMemory : ∀ on e, E.area (E.setSharedMemory on e) = E.area e
  area_storeSwitch : ∀ word e, E.area (E.storeSwitch word e) = E.area e
  area_setReportFd : ∀ fd e, E.area (E.setReportFd fd e).2 = E.area e

theorem Standalone.engine_lawful : Standalone.engine.Lawful where
  area_publish _ _ := rfl
  area_retract a e := by
    by_cases same : e.area = some a
    · simp [engine, retract, same]
    · simp [engine, retract, same]
  area_setSharedMemory _ _ := rfl
  area_storeSwitch _ _ := rfl
  area_setReportFd _ _ := rfl

def Target.rewrite {τ : Type} (T : Target τ) (arguments : List Bytes) (state : τ) : List Bytes :=
  match T.setup with
  | none => arguments
  | some (.list run) => (run arguments state).1
  | some (.vector run) => (run (ArgVector.ofArguments arguments) state).1.vector.arguments

theorem Invoker.setup_arguments {τ : Type} (T : Target τ) (arguments : List Bytes) (i : Invoker τ)
    (w : World) :
    (i.setup T arguments w).1.arguments = T.rewrite arguments i.target := by
  unfold setup Target.rewrite
  cases T.setup with
  | none => rfl
  | some hook => cases hook <;> rfl

def Target.setupEvents {τ : Type} (T : Target τ) (arguments : List Bytes) : List Event :=
  match T.setup with
  | none => []
  | some (.list _) => [.setup arguments.length arguments]
  | some (.vector _) =>
    let vector := ArgVector.ofArguments arguments
    [.setup vector.count (ArgVector.beforeNull vector.entries)]

theorem Target.count_setupEvents {τ : Type} (T : Target τ) (arguments : List Bytes) :
    (T.setupEvents arguments).countP (·.isSetup) = if T.setup.isSome then 1 else 0 := by
  unfold setupEvents
  cases T.setup with
  | none => rfl
  | some hook => cases hook <;> rfl

theorem Target.isSetup_of_mem {τ : Type} (T : Target τ) (arguments : List Bytes) :
    ∀ e ∈ T.setupEvents arguments, e.isSetup := by
  unfold setupEvents
  cases T.setup with
  | none => simp
  | some hook => cases hook <;> simp

theorem Invoker.setup_trace {τ : Type} (T : Target τ) (arguments : List Bytes) (i : Invoker τ)
    (w : World) :
    (i.setup T arguments w).2.2.trace = w.trace ++ T.setupEvents arguments := by
  unfold setup Target.setupEvents
  cases T.setup with
  | none => simp
  | some hook => cases hook <;> simp

namespace Session
open CoverageMap Trace

variable {β ρ : Type} {B : MapBackend β} {E : Engine ρ} {layout : Layout} {s : Session β ρ}
  {events : List Event}

/-- A placeholder before the handshake: either there is none and the pointer is null, or it was
granted and the pointer holds it. -/
inductive Reserved (E : Engine ρ) (layout : Layout) (s : Session β ρ) (events : List Event) : Prop
  | without : s.map = awaiting layout → E.area s.engine = none → granted events = [] →
      Reserved E layout s events
  | placed (region : Address) : s.map = held layout region true → E.area s.engine = some region →
      granted events = [(region, layout.size)] → Reserved E layout s events

theorem Reserved.append {s' : Session β ρ} {more : List Event} (h : Reserved E layout s events)
    (hm : s'.map = s.map) (ha : E.area s'.engine = E.area s.engine) (hg : granted more = []) :
    Reserved E layout s' (events ++ more) := by
  cases h with
  | without map area g => exact .without (hm.trans map) (ha.trans area) (by simp [g, hg])
  | placed region map area g =>
      exact .placed region (hm.trans map) (ha.trans area) (by simp [g, hg])

theorem Reserved.granted_le_one (h : Reserved E layout s events) :
    (granted events).length ≤ 1 ∧ ∀ grant ∈ granted events, grant.2 = layout.size := by
  cases h with
  | without map area g => simp [g]
  | placed region map area g => simp [g]

/-- Events that hand nothing over: no region goes back and no signal is given. -/
structure Preliminary (events : List Event) : Prop where
  returned : returned events = []
  signals : signals events = []
  not_invoked : ∀ e ∈ events, e.isInvocation = false

theorem Preliminary.append {more : List Event} (h : Preliminary events) (h' : Preliminary more) :
    Preliminary (events ++ more) where
  returned := by simp [h.returned, h'.returned]
  signals := by simp [h.signals, h'.signals]
  not_invoked := by
    intro e member
    rcases List.mem_append.mp member with early | late
    · exact h.not_invoked e early
    · exact h'.not_invoked e late

theorem Preliminary.of_isSetup (h : ∀ e ∈ events, e.isSetup) : Preliminary events where
  returned := view_eq_nil fun e member => (Event.views_of_isSetup (h e member)).2.1
  signals := view_eq_nil fun e member => (Event.views_of_isSetup (h e member)).2.2.1
  not_invoked e member := (Event.views_of_isSetup (h e member)).2.2.2

theorem reserve_reserved (hE : E.Lawful) (hm : s.map = awaiting layout)
    (ha : E.area s.engine = none) :
    ∃ events, (s.reserve B E).2.world.trace = s.world.trace ++ events ∧
      Reserved E layout (s.reserve B E).2 events ∧ Preliminary events ∧
      (s.reserve B E).2.deferral = s.deferral := by
  obtain ⟨attempts, tried, found, failed⟩ := reserve_awaiting B E hm
  have preliminary : Preliminary attempts := ⟨tried.returned_eq, tried.signals_eq,
    fun e member => (Event.views_of_isMap (tried.mem_isMap e member)).2.2⟩
  cases outcome : (s.reserve B E).1 with
  | none =>
      have change := failed outcome
      refine ⟨attempts, change.trace, .without change.map ?_ ?_, preliminary, change.deferral⟩
      · rw [change.engine, ha]
      · simpa [outcome] using tried.granted_eq
  | some region =>
      have change := found region outcome
      refine ⟨_, change.trace, .placed region change.map ?_ ?_, ?_, change.deferral⟩
      · rw [change.engine, hE.area_publish]
      · simpa [outcome] using tried.granted_eq
      · exact preliminary.append ⟨rfl, rfl, by simp⟩

/-- The handshake: the pointer is cleared, the signal is given over a null pointer, and the memory
goes back. -/
theorem complete_reserved (hE : E.Lawful) (h : Reserved E layout s events)
    (hd : s.deferral.signaled = false) :
    ∃ back switch announced unmaps,
      (s.complete B E).world.trace = s.world.trace ++
        (back ++ .manualInit none switch announced :: unmaps) ∧
        granted back = [] ∧ Preliminary back ∧
        granted unmaps = [] ∧ signals unmaps = [] ∧ returned unmaps = granted events := by
  cases h with
  | without map area g =>
      obtain ⟨switch, announced, change⟩ :=
        complete_of_no_region B E (by simp [map, awaiting]) (by simp [map, awaiting]) hd
      refine ⟨[], switch, announced, [], ?_, rfl, ⟨rfl, rfl, by simp⟩, rfl, rfl, g.symm⟩
      rw [change.trace, area]
      rfl
  | placed region map area g =>
      obtain ⟨switch, announced, ok, change⟩ := complete_held B E map hd
      have null : E.area (withdrawn E region true s.engine) = none := by
        simp [withdrawn, hE.area_retract, area]
      refine ⟨[.retract region], switch, announced, [.unmap region layout.size ok], ?_, rfl,
        ⟨rfl, rfl, by simp⟩,
        rfl, rfl, by simp [g]⟩
      rw [change.trace, null]
      rfl

end Session

theorem Mode.resolve_read (arguments : List Bytes) (w : World) :
    (resolve arguments w).1 = (read arguments).1 ∧ (resolve arguments w).2.trace = w.trace := by
  unfold resolve
  split
  · rename_i outcome
    simp [outcome]
  · rename_i outcome
    simp [outcome]

def Mode.isBatch : Mode → Bool
  | .batch _ => true
  | .persistent _ => false

namespace RunState
open CoverageMap Trace Session

variable {β ρ ι τ : Type} {h : Harness β ρ ι τ} {layout : Layout} {start s : RunState β ρ ι τ}
  {events : List Event}

/-- A run before the handshake, with the events since its start. -/
structure Ready (h : Harness β ρ ι τ) (layout : Layout) (start s : RunState β ρ ι τ)
    (events : List Event) : Prop where
  trace : s.world.trace = start.world.trace ++ events
  reserved : Reserved h.engine layout s.session events
  preliminary : Preliminary events
  pending : s.session.deferral.signaled = false

theorem Ready.step {s' : RunState β ρ ι τ} {more : List Event} (r : Ready h layout start s events)
    (trace : s'.world.trace = s.world.trace ++ more) (map : s'.session.map = s.session.map)
    (area : h.engine.area s'.session.engine = h.engine.area s.session.engine)
    (deferral : s'.session.deferral = s.session.deferral) (no_grant : granted more = [])
    (preliminary : Preliminary more) : Ready h layout start s' (events ++ more) where
  trace := by rw [trace, r.trace, List.append_assoc]
  reserved := r.reserved.append map area no_grant
  preliminary := r.preliminary.append preliminary
  pending := by rw [deferral, r.pending]

theorem Ready.setWorld {w : World} (r : Ready h layout start s events)
    (trace : w.trace = s.world.trace) :
    Ready h layout start (s.setWorld w) events := by
  have same : (s.setWorld w).world.trace = s.world.trace ++ [] := by
    simpa [RunState.setWorld, world] using trace
  simpa using r.step same rfl rfl rfl rfl ⟨rfl, rfl, by simp⟩

theorem Ready.print (r : Ready h layout start s events) (text : String) :
    Ready h layout start (s.print text) events :=
  r.setWorld rfl

theorem Ready.log (r : Ready h layout start s events) (n : Notice) :
    Ready h layout start (s.log n) events :=
  r.setWorld (World.trace_log _ n)

theorem startUp_ready (hE : h.engine.Lawful) (hm : s.session.map = awaiting layout)
    (ha : h.engine.area s.session.engine = none) :
    ∃ t, s.startUp h = (.ok (), t) ∧ t.invoker = s.invoker ∧
      ∃ events, Ready h layout s t events := by
  let announcing : Session β ρ := { s.session with deferral := .of h.settings.dontDefer }
  have change : Change announcing announcing.prepare.2 s.session.map s.session.engine
      announcing.deferral [] :=
    announcing.prepare_change
  obtain ⟨events, trace, reserved, preliminary, deferral⟩ :=
    reserve_reserved (B := h.backend) hE (change.map.trans hm) (by rw [change.engine, ha])
  have placed_ready : Ready h layout s { s with session := s.placed h } events := by
    refine ⟨?_, reserved, preliminary, ?_⟩
    · rw [change.trace_same] at trace
      exact trace
    · exact congrArg Deferral.signaled (deferral.trans change.deferral)
  exact ⟨_, startUp_eq s, rfl, events, placed_ready.log _⟩

theorem pointReports_ready (hE : h.engine.Lawful) (fd : Fd) (r : Ready h layout start s events) :
    ∃ linked, Ready h layout start (s.pointReports h fd) (events ++ [.reportFd fd linked]) := by
  obtain ⟨linked, trace⟩ := pointReports_trace h fd s
  exact ⟨linked, r.step trace rfl (hE.area_setReportFd fd _) rfl rfl ⟨rfl, rfl, by simp⟩⟩

theorem redirect_ready (hE : h.engine.Lawful) (r : Ready h layout start s events) :
    (s.redirect h).2.invoker = s.invoker ∧
      ((s.redirect h).1.isOk ↔ (Redirection.apply h.streams h.settings.policy s.world).1.isOk) ∧
      ∃ more, Ready h layout start (s.redirect h).2 (events ++ more) := by
  have trace := Redirection.trace_apply h.streams h.settings.policy s.world
  unfold redirect
  split
  · rename_i e w outcome
    rw [outcome] at trace
    exact ⟨rfl, by simp [outcome, Except.isOk, Except.toBool], [], by simpa using r.setWorld trace⟩
  · rename_i diagnostics w outcome
    rw [outcome] at trace
    split
    · have retargeted : Ready h layout start (s.setWorld (w.setDiagnostic diagnostics.fd)) events :=
        r.setWorld trace
      obtain ⟨linked, pointed⟩ := pointReports_ready hE diagnostics.fd retargeted
      exact ⟨rfl, by simp [outcome, Except.isOk, Except.toBool], _, pointed⟩
    · exact ⟨rfl, by simp [outcome, Except.isOk, Except.toBool], [],
        by simpa using r.setWorld trace⟩

theorem setUp_ready (hE : h.engine.Lawful) (arguments : List Bytes)
    (r : Ready h layout start s events) :
    (s.setUp h arguments).1 = h.target.rewrite arguments s.invoker.target ∧
      ∃ more, Ready h layout start (s.setUp h arguments).2 (events ++ more) ∧
        (h.target.setup.isSome → ∃ e ∈ more, e.isSetup) := by
  have trace := Invoker.setup_trace h.target arguments s.invoker s.world
  have all_setup := h.target.isSetup_of_mem arguments
  have arguments_eq := Invoker.setup_arguments h.target arguments s.invoker s.world
  have no_grant : granted (h.target.setupEvents arguments) = [] :=
    view_eq_nil fun e member => (Event.views_of_isSetup (all_setup e member)).1
  have preliminary : Preliminary (h.target.setupEvents arguments) := .of_isSetup all_setup
  have recorded : h.target.setup.isSome → ∃ e ∈ h.target.setupEvents arguments, e.isSetup := by
    intro hook
    apply List.countP_pos_iff.mp
    rw [Target.count_setupEvents, if_pos hook]
    exact Nat.one_pos
  simp only [setUp]
  split
  · exact ⟨arguments_eq, _, r.step trace rfl rfl rfl no_grant preliminary, recorded⟩
  · rename_i word _
    exact ⟨arguments_eq, _, r.step trace rfl (hE.area_storeSwitch word _) rfl no_grant preliminary,
      recorded⟩

/-- The streams can be redirected where a run redirects them. -/
def Redirects (h : Harness β ρ ι τ) (arguments : List Bytes) (s : RunState β ρ ι τ) : Prop :=
  (Redirection.apply h.streams h.settings.policy
    ((s.startUp h).2.print (banner (Mode.programName arguments))).world).1.isOk

/-- A run comes to its inputs exactly if the redirection succeeds and the arguments that set-up
leaves name a mode. -/
theorem settle_ready (hE : h.engine.Lawful) (hm : s.session.map = awaiting layout)
    (ha : h.engine.area s.session.engine = none) (arguments : List Bytes) :
    ∃ events, Ready h layout s (s.settle h arguments).2 events ∧
      (∀ mode, (s.settle h arguments).1 = .ok mode ↔
        Redirects h arguments s ∧
        (Mode.read (h.target.rewrite arguments s.invoker.target)).1 = .ok mode) ∧
      ((s.settle h arguments).1.isOk → h.target.setup.isSome → ∃ e ∈ events, e.isSetup) := by
  obtain ⟨t, started, invoker, events, ready⟩ := startUp_ready hE hm ha
  obtain ⟨same_invoker, redirects, more, redirected⟩ :=
    redirect_ready hE (ready.print (banner (Mode.programName arguments)))
  have redirects_iff : Redirects h arguments s ↔
      ((t.print (banner (Mode.programName arguments))).redirect h).1.isOk := by
    rw [Redirects, started, redirects]
  rw [redirects_iff]
  unfold settle
  rw [started]
  simp only
  split
  · rename_i e u outcome
    rw [outcome] at redirected
    exact ⟨_, redirected, by simp [outcome, Except.isOk, Except.toBool],
      by simp [Except.isOk, Except.toBool]⟩
  · rename_i u outcome
    rw [outcome] at redirected same_invoker
    obtain ⟨rewritten, setup_events, settled, recorded⟩ := setUp_ready hE arguments redirected
    have arguments_eq : (u.setUp h arguments).1 = h.target.rewrite arguments s.invoker.target := by
      rw [rewritten, same_invoker]
      exact congrArg (fun i => h.target.rewrite arguments i.target) invoker
    have resolved := Mode.resolve_read (u.setUp h arguments).1 (u.setUp h arguments).2.world
    rw [arguments_eq] at resolved
    have finished := settled.setWorld resolved.2
    refine ⟨_, by rwa [← arguments_eq] at finished, ?_, ?_⟩
    · intro mode
      simp only [outcome, Except.isOk, Except.toBool, true_and, arguments_eq, resolved.1]
    · intro _ hook
      obtain ⟨e, member, is_setup⟩ := recorded hook
      exact ⟨e, List.mem_append_right _ member, is_setup⟩

/-- Whether a run comes to the handshake. -/
def Signals (h : Harness β ρ ι τ) (arguments : List Bytes) (s : RunState β ρ ι τ) : Prop :=
  Redirects h arguments s ∧
    ∃ mode, (Mode.read (h.target.rewrite arguments s.invoker.target)).1 = .ok mode ∧
    (mode.isBatch ∨ h.settings.disableInstrumentation = false)

theorem handedOver_trace (hE : h.engine.Lawful) (r : Ready h layout start s events) (mode : Mode)
    (signaling : mode.isBatch ∨ h.settings.disableInstrumentation = false) :
    ∃ back switch announced unmaps, (s.handedOver h mode).world.trace =
        start.world.trace ++ (events ++ back ++ .manualInit none switch announced :: unmaps) ∧
      granted back = [] ∧ Preliminary back ∧
      granted unmaps = [] ∧ signals unmaps = [] ∧ returned unmaps = granted events := by
  cases mode with
  | batch paths =>
      have switched :
          Ready h layout start (s.disableSharedMemory h) (events ++ [.sharedMemory false]) :=
        r.step (World.trace_record _ _) rfl (hE.area_setSharedMemory _ _) rfl rfl
          ⟨rfl, rfl, by simp⟩
      obtain ⟨back, switch, announced, unmaps, trace, no_grant, preliminary, handed⟩ :=
        complete_reserved (B := h.backend) hE switched.reserved switched.pending
      refine ⟨.sharedMemory false :: back, switch, announced, unmaps, ?_,
        by simpa using no_grant, ?_, ?_⟩
      · rw [handedOver, complete, world, trace, ← world, switched.trace]
        simp
      · have switched_only : Preliminary [.sharedMemory false] := ⟨rfl, rfl, by simp⟩
        exact switched_only.append preliminary
      · simpa using handed
  | persistent budget =>
      have enabled : h.settings.disableInstrumentation = false := by
        simpa [Mode.isBatch] using signaling
      obtain ⟨back, switch, announced, unmaps, trace, handed⟩ :=
        complete_reserved (B := h.backend) hE r.reserved r.pending
      refine ⟨back, switch, announced, unmaps, ?_, handed⟩
      simp only [handedOver, enabled, Bool.false_eq_true, if_false]
      rw [complete, world, trace, ← world, r.trace]
      simp

theorem handedOver_disabled {mode : Mode} (r : Ready h layout start s events)
    (persistent : mode.isBatch = false) (disabled : h.settings.disableInstrumentation = true) :
    (s.handedOver h mode).world.trace = start.world.trace ++ events := by
  cases mode with
  | batch paths => cases persistent
  | persistent budget =>
      simp only [handedOver, disabled, if_true]
      exact (r.log _).trace

theorem run_trace (arguments : List Bytes) (lifespan : Nat) {mode : Mode}
    (hm : (s.settle h arguments).1 = .ok mode) :
    ∃ inputs, (s.run h arguments lifespan).2.world.trace =
        ((s.settle h arguments).2.handedOver h mode).world.trace ++ inputs ∧
      granted inputs = [] ∧ returned inputs = [] ∧ signals inputs = [] := by
  have anywhere : h.target.WritesTo fun _ => True := fun _ _ _ _ _ => trivial
  obtain ⟨inputs, trace, all_input⟩ :=
    (moves_runMode anywhere (Mode.programName arguments) mode lifespan
    (s.settle h arguments).2).trace_eq
  refine ⟨inputs, ?_, ?_, ?_, ?_⟩
  · rw [run_of_ok arguments lifespan hm, trace]
  · exact view_eq_nil fun e member => (Event.views_of_isInput (all_input e member)).1
  · exact view_eq_nil fun e member => (Event.views_of_isInput (all_input e member)).2.1
  · exact view_eq_nil fun e member => (Event.views_of_isInput (all_input e member)).2.2

/-- In every run the signal that set-up is complete is given at most once, and exactly if the run
comes to the handshake. It is given after set-up, before the target is invoked and over a null
pointer, and memory that was granted is given back once after it and never before. -/
theorem run_handshake_order (hE : h.engine.Lawful) (hm : s.session.map = awaiting layout)
    (ha : h.engine.area s.session.engine = none) (arguments : List Bytes) (lifespan : Nat) :
    ∃ events, (s.run h arguments lifespan).2.world.trace = s.world.trace ++ events ∧
      ((granted events).length ≤ 1 ∧ ∀ grant ∈ granted events, grant.2 = layout.size) ∧
      (Signals h arguments s → ∃ before switch announced after,
        events = before ++ .manualInit none switch announced :: after ∧
          signals before = [] ∧ signals after = [] ∧
          (h.target.setup.isSome → ∃ e ∈ before, e.isSetup) ∧
          (∀ e ∈ before, e.isInvocation = false) ∧
          returned before = [] ∧ granted after = [] ∧ returned after = granted before) ∧
      (¬Signals h arguments s → signals events = [] ∧ returned events = []) := by
  obtain ⟨events, ready, settled, recorded⟩ := settle_ready hE hm ha arguments
  have one_grant := ready.reserved.granted_le_one
  cases outcome : (s.settle h arguments).1 with
  | error e =>
      have no_signal : ¬Signals h arguments s := by
        rintro ⟨redirects, mode, read, -⟩
        have ok := (settled mode).mpr ⟨redirects, read⟩
        rw [outcome] at ok
        cases ok
      refine ⟨events, by rw [run_of_error arguments lifespan outcome, ready.trace],
        one_grant, ?_, ?_⟩
      · exact fun signal => absurd signal no_signal
      · exact fun _ => ⟨ready.preliminary.signals, ready.preliminary.returned⟩
  | ok mode =>
      obtain ⟨inputs, trace, no_grant, no_return, no_signal⟩ :=
        run_trace (s := s) arguments lifespan outcome
      obtain ⟨redirects, read⟩ := (settled mode).mp outcome
      have signals_iff : Signals h arguments s ↔ mode.isBatch ∨
          h.settings.disableInstrumentation = false := by
        constructor
        · rintro ⟨-, other, read', signaling⟩
          obtain rfl : mode = other := Except.ok.inj (read.symm.trans read')
          exact signaling
        · exact fun signaling => ⟨redirects, mode, read, signaling⟩
      by_cases signaling : mode.isBatch ∨ h.settings.disableInstrumentation = false
      · obtain ⟨back, switch, announced, unmaps, handed, back_grant, preliminary, unmaps_grant,
          unmaps_signal,
          back_given⟩ := handedOver_trace hE ready mode signaling
        have before := ready.preliminary.append preliminary
        refine ⟨events ++ back ++ .manualInit none switch announced :: (unmaps ++ inputs), ?_,
          ?_, ?_, ?_⟩
        · rw [trace, handed]
          simp
        · simpa [back_grant, unmaps_grant, no_grant] using one_grant
        · refine fun _ =>
            ⟨events ++ back, switch, announced, unmaps ++ inputs, rfl, before.signals, ?_, ?_,
            before.not_invoked, before.returned, ?_, ?_⟩
          · simp [unmaps_signal, no_signal]
          · intro hook
            obtain ⟨e, member, is_setup⟩ := recorded (by rw [outcome]; rfl) hook
            exact ⟨e, List.mem_append_left _ member, is_setup⟩
          · simp [unmaps_grant, no_grant]
          · simp [back_given, no_return, back_grant]
        · exact fun silent => absurd (signals_iff.mpr signaling) silent
      · have persistent : mode.isBatch = false := by simpa using fun batch => signaling (.inl batch)
        have disabled : h.settings.disableInstrumentation = true := by
          simpa using fun enabled => signaling (.inr enabled)
        refine ⟨events ++ inputs, ?_, by simpa [no_grant] using one_grant, ?_, ?_⟩
        · rw [trace, handedOver_disabled ready persistent disabled, List.append_assoc]
        · exact fun signal => absurd (signals_iff.mp signal) signaling
        · exact fun _ => ⟨by simp [ready.preliminary.signals, no_signal],
            by simp [ready.preliminary.returned, no_return]⟩

/-- The demonstration program comes to the handshake when it is given no input file. -/
theorem run_handshake_order_demo :
    let h := Launch.harness Standalone.engine Launch.demoTarget Settings.default
    let s := Launch.start (World.boot [] none) ⟨[]⟩ (.file []) Standalone.fresh ()
    Signals h [] s ∧ ∃ before switch announced after,
      (s.run h [] 5).2.world.trace = before ++ .manualInit none switch announced :: after ∧
        returned before = [] ∧ returned after = granted before := by
  intro h s
  have signaling : Signals h [] s := ⟨rfl, .persistent .unbounded, rfl, .inr rfl⟩
  have fresh : s.session.map = awaiting Layout.default := rfl
  obtain ⟨events, trace, -, signaled, -⟩ :=
    run_handshake_order (h := h) (s := s) Standalone.engine_lawful fresh rfl [] 5
  obtain ⟨before, switch, announced, after, rfl, -, -, -, -, returned_before, -, returned_after⟩ :=
    signaled signaling
  exact ⟨signaling, before, switch, announced, after, trace, returned_before, returned_after⟩

end RunState

end FuzzHarness
