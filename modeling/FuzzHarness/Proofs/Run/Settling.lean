import FuzzHarness.Proofs.Run.HandshakeOrder

/-!
How a run comes to its mode, or is refused. There are two ways only to be refused: the streams
cannot be redirected, or the arguments that set-up leaves name no mode. Either way nothing has
happened yet but preparation.
-/

namespace FuzzHarness

theorem Mode.read_error {arguments : List Bytes} {e : HarnessError}
    (h : (read arguments).1 = .error e) :
    ∃ argument, e = .invalidBudget argument := by
  unfold read at h
  split at h
  · cases h
  · split at h
    · split at h
      · cases h
      · exact ⟨_, (Except.error.inj h).symm⟩
    · split at h <;> cases h
  · cases h

theorem Invoker.counters_setup {τ : Type} (T : Target τ) (arguments : List Bytes) (i : Invoker τ)
    (w : World) :
    (i.setup T arguments w).2.1.executions = i.executions ∧
    (i.setup T arguments w).2.1.warmedUp = i.warmedUp := by
  unfold setup
  cases T.setup with
  | none => exact ⟨rfl, rfl⟩
  | some hook => cases hook <;> exact ⟨rfl, rfl⟩

theorem Invoker.environment_setup {τ : Type} (T : Target τ) (arguments : List Bytes) (i : Invoker τ)
    (w : World) :
    (i.setup T arguments w).2.2.kernel.environment = w.kernel.environment := by
  unfold setup
  cases T.setup with
  | none => rfl
  | some hook => cases hook <;> simp

theorem Mode.environment_resolve (arguments : List Bytes) (w : World) :
    (resolve arguments w).2.kernel.environment = w.kernel.environment := by
  unfold resolve
  split
  · exact World.environment_log w _
  · rfl

namespace World

variable {w : World} {d : DiagnosticStream}

/-- A world whose diagnostics follow a redirection: they go to the descriptor that it answers with
if that was made for them. -/
def turned (w : World) (d : DiagnosticStream) : World :=
  if d.duplicated then w.setDiagnostic d.fd else w

@[simp] theorem kernel_turned : (w.turned d).kernel = w.kernel := by
  unfold turned
  split <;> rfl

@[simp] theorem output_turned : (w.turned d).output = w.output := by
  unfold turned
  split <;> rfl

theorem diagnostic_turned (kept : d.duplicated = false → w.diagnostic = d.fd) :
    (w.turned d).diagnostic = d.fd := by
  unfold turned
  split
  · rfl
  · rename_i no_duplicate
    exact kept (by simpa using no_duplicate)

end World

namespace RunState

variable {β ρ ι τ : Type} {h : Harness β ρ ι τ} {s : RunState β ρ ι τ} {d : DiagnosticStream}
  {w : World} {e : HarnessError}

/-- A run that has put its placeholder in place and said what it is. Its streams are redirected
next. -/
def greeted (h : Harness β ρ ι τ) (arguments : List Bytes) (s : RunState β ρ ι τ) :
    RunState β ρ ι τ :=
  (s.startUp h).2.print (banner (Mode.programName arguments))

/-- Diagnostics go to a descriptor of their own if there is one, and the diagnostics subsystem is
told so. -/
def follow (h : Harness β ρ ι τ) (d : DiagnosticStream) (s : RunState β ρ ι τ) : RunState β ρ ι τ :=
  if d.duplicated then (s.setWorld (s.world.setDiagnostic d.fd)).pointReports h d.fd else s

/-- A run whose streams are redirected and whose target is set up. Its mode is read next. -/
def equipped (h : Harness β ρ ι τ) (arguments : List Bytes) (d : DiagnosticStream) (w : World)
    (s : RunState β ρ ι τ) :
    RunState β ρ ι τ :=
  ((((s.greeted h arguments).setWorld w).follow h d).setUp h arguments).2

theorem redirect_of_ok
    (redirected : Redirection.apply h.streams h.settings.policy s.world = (.ok d, w)) :
    s.redirect h = (.ok (), (s.setWorld w).follow h d) := by
  unfold redirect follow
  rw [redirected]
  simp only
  split <;> rfl

theorem redirect_of_error
    (refused : Redirection.apply h.streams h.settings.policy s.world = (.error e, w)) :
    s.redirect h = (.error e, s.setWorld w) := by
  rw [redirect, refused]

theorem invoker_follow (s : RunState β ρ ι τ) : (s.follow h d).invoker = s.invoker := by
  unfold follow
  split <;> rfl

theorem invoker_greeted (arguments : List Bytes) : (s.greeted h arguments).invoker = s.invoker := by
  rw [greeted, startUp_eq]
  rfl

theorem setUp_arguments (arguments : List Bytes) (s : RunState β ρ ι τ) :
    (s.setUp h arguments).1 = h.target.rewrite arguments s.invoker.target := by
  rw [← Invoker.setup_arguments h.target arguments s.invoker s.world]
  simp only [setUp]
  split <;> rfl

theorem settle_of_refused (arguments : List Bytes)
    (refused :
      Redirection.apply h.streams h.settings.policy (s.greeted h arguments).world = (.error e, w)) :
    s.settle h arguments = (.error e, (s.greeted h arguments).setWorld w) := by
  have ended : ((s.startUp h).2.print (banner (Mode.programName arguments))).redirect h =
      (.error e, (s.greeted h arguments).setWorld w) := redirect_of_error refused
  unfold settle
  rw [startUp_ok]
  simp only [ended]

theorem settle_of_redirected (arguments : List Bytes)
    (redirected :
      Redirection.apply h.streams h.settings.policy (s.greeted h arguments).world = (.ok d, w)) :
    s.settle h arguments =
      let u := s.equipped h arguments d w
      let resolved := Mode.resolve (h.target.rewrite arguments s.invoker.target) u.world
      (resolved.1, u.setWorld resolved.2) := by
  have went_on : ((s.startUp h).2.print (banner (Mode.programName arguments))).redirect h =
      (.ok (), ((s.greeted h arguments).setWorld w).follow h d) := redirect_of_ok redirected
  have rewritten : (((((s.greeted h arguments).setWorld w).follow h d).setUp h arguments)).1 =
      h.target.rewrite arguments s.invoker.target := by
    rw [setUp_arguments, invoker_follow]
    exact congrArg (fun i => h.target.rewrite arguments i.target) (invoker_greeted arguments)
  unfold settle
  rw [startUp_ok]
  simp only [went_on, rewritten]
  rfl

/-- A run is refused for an error if that is why its streams cannot be redirected, or why the
arguments that set-up leaves name no mode. -/
def Refused (h : Harness β ρ ι τ) (arguments : List Bytes) (s : RunState β ρ ι τ)
    (e : HarnessError) : Prop :=
  (Redirection.apply h.streams h.settings.policy (s.greeted h arguments).world).1 = .error e ∨
    Redirects h arguments s ∧ (Mode.read (h.target.rewrite arguments s.invoker.target)).1 = .error e

theorem redirects_of_ok {arguments : List Bytes}
    (redirected :
      Redirection.apply h.streams h.settings.policy (s.greeted h arguments).world = (.ok d, w)) :
    Redirects h arguments s := by
  have outcome :
      (Redirection.apply h.streams h.settings.policy (s.greeted h arguments).world).1.isOk := by
    rw [redirected]
    rfl
  exact outcome

theorem not_redirects_of_error {arguments : List Bytes}
    (refused :
      Redirection.apply h.streams h.settings.policy (s.greeted h arguments).world = (.error e, w)) :
    ¬Redirects h arguments s := by
  intro redirects
  have outcome : (Redirection.apply h.streams h.settings.policy
    (s.greeted h arguments).world).1.isOk := redirects
  rw [refused] at outcome
  cases outcome

theorem settle_cases (h : Harness β ρ ι τ) (arguments : List Bytes) (s : RunState β ρ ι τ) :
    (∃ e w, Redirection.apply h.streams h.settings.policy (s.greeted h arguments).world =
      (.error e, w) ∧
        ¬Redirects h arguments s ∧
        s.settle h arguments = (.error e, (s.greeted h arguments).setWorld w)) ∨
      ∃ d w, Redirection.apply h.streams h.settings.policy (s.greeted h arguments).world =
        (.ok d, w) ∧
        Redirects h arguments s ∧
        (s.settle h arguments).1 = (Mode.read (h.target.rewrite arguments s.invoker.target)).1 ∧
        (s.settle h arguments).2 = (s.equipped h arguments d w).setWorld
          (Mode.resolve (h.target.rewrite arguments s.invoker.target)
            (s.equipped h arguments d w).world).2 := by
  rcases outcome : Redirection.apply h.streams h.settings.policy (s.greeted h arguments).world with
    ⟨result, w⟩
  cases result with
  | error e =>
      exact .inl ⟨e, w, rfl, not_redirects_of_error outcome, settle_of_refused arguments outcome⟩
  | ok d =>
      refine .inr ⟨d, w, rfl, redirects_of_ok outcome, ?_⟩
      rw [settle_of_redirected arguments outcome]
      exact ⟨(Mode.resolve_read _ _).1, rfl⟩

theorem settle_error_iff (arguments : List Bytes) :
    (s.settle h arguments).1 = .error e ↔ Refused h arguments s e := by
  rcases settle_cases h arguments s with
    ⟨e', w, outcome, refused, settled⟩ | ⟨d, w, outcome, redirects, settled, -⟩
  · simp [Refused, outcome, refused, settled]
  · simp [Refused, outcome, redirects, settled]

theorem settle_ok_iff {mode : Mode} (arguments : List Bytes) :
    (s.settle h arguments).1 = .ok mode ↔
      Redirects h arguments s ∧
      (Mode.read (h.target.rewrite arguments s.invoker.target)).1 = .ok mode := by
  rcases settle_cases h arguments s with
    ⟨e', w, -, refused, settled⟩ | ⟨d, w, -, redirects, settled, -⟩
  · simp [refused, settled]
  · simp [redirects, settled]

theorem run_error_iff (arguments : List Bytes) (lifespan : Nat) :
    (s.run h arguments lifespan).1 = .returned (.error e) ↔ Refused h arguments s e := by
  rw [← settle_error_iff]
  cases outcome : (s.settle h arguments).1 with
  | error e' =>
      have settled : s.settle h arguments = (.error e', (s.settle h arguments).2) :=
        Prod.ext outcome rfl
      unfold run
      rw [settled]
      simp
  | ok mode =>
      rw [run_of_ok arguments lifespan outcome, runMode]
      split <;> simp

theorem moves_greeted (h : Harness β ρ ι τ) (arguments : List Bytes) (s : RunState β ρ ι τ) :
    s.world.Moves (·.isReservation) (Output.Foreground fun _ => True)
    (s.greeted h arguments).world :=
  (moves_startUp s).print _

theorem trace_greeted (arguments : List Bytes) :
    (s.greeted h arguments).world.trace = (s.placed h).world.trace := by
  rw [greeted, startUp_eq]
  exact World.trace_log _ _

theorem placed_trace (h : Harness β ρ ι τ) (s : RunState β ρ ι τ) :
    ∃ events, (s.placed h).world.trace = s.world.trace ++ events ∧
      ∀ e ∈ events, e.isReservation := by
  rw [← trace_greeted []]
  exact (moves_greeted h [] s).trace_eq

theorem moves_follow (s : RunState β ρ ι τ) (d : DiagnosticStream) :
    (s.world.turned d).Moves (·.isReportFd) (Output.Reported d.fd) (s.follow h d).world := by
  unfold follow World.turned
  split
  · exact moves_pointReports (s.setWorld (s.world.setDiagnostic d.fd))
  · exact .refl

theorem follow_trace (h : Harness β ρ ι τ) (d : DiagnosticStream) (s : RunState β ρ ι τ) :
    ∃ linked, (s.follow h d).world.trace = s.world.trace ++
      if d.duplicated then [.reportFd d.fd linked] else [] := by
  obtain ⟨linked, pointed⟩ := pointReports_trace h d.fd (s.setWorld (s.world.setDiagnostic d.fd))
  refine ⟨linked, ?_⟩
  unfold follow
  split
  · exact pointed
  · rw [List.append_nil]

theorem equipped_trace (h : Harness β ρ ι τ) (arguments : List Bytes) (d : DiagnosticStream)
    (w : World) (s : RunState β ρ ι τ) :
    ∃ linked, (s.equipped h arguments d w).world.trace =
      w.trace ++ ((if d.duplicated then [.reportFd d.fd linked] else []) ++
        h.target.setupEvents arguments) := by
  let t := ((s.greeted h arguments).setWorld w).follow h d
  obtain ⟨linked, followed⟩ := follow_trace h d ((s.greeted h arguments).setWorld w)
  have set_up : (s.equipped h arguments d w).world.trace = t.world.trace ++
      h.target.setupEvents arguments := by
    have ran := Invoker.setup_trace h.target arguments t.invoker t.world
    simp only [equipped, setUp]
    split <;> exact ran
  refine ⟨linked, ?_⟩
  rw [set_up, followed, List.append_assoc]
  rfl

/-- Once the placeholder is in place, a run that is refused for its streams does nothing more. One
that is not points the diagnostics subsystem somewhere, if at all, and sets the target up once. -/
theorem settle_trace (h : Harness β ρ ι τ) (arguments : List Bytes) (s : RunState β ρ ι τ) :
    ∃ events, (s.settle h arguments).2.world.trace = (s.placed h).world.trace ++ events ∧
      (∀ e ∈ events, e.isArrangement) ∧ (¬Redirects h arguments s → events = []) ∧
      (Redirects h arguments s →
        events.countP (·.isSetup) = if h.target.setup.isSome then 1 else 0) := by
  have unmoved := Redirection.trace_apply h.streams h.settings.policy (s.greeted h arguments).world
  rw [trace_greeted] at unmoved
  rcases settle_cases h arguments s with
    ⟨e, w, outcome, refused, settled⟩ | ⟨d, w, outcome, redirects, -, settled⟩
  · rw [outcome] at unmoved
    refine ⟨[], ?_, by simp, fun _ => rfl, fun redirects => absurd redirects refused⟩
    rw [settled, List.append_nil]
    exact unmoved
  · rw [outcome] at unmoved
    obtain ⟨linked, equipped⟩ := equipped_trace h arguments d w s
    refine ⟨(if d.duplicated then [.reportFd d.fd linked] else []) ++
      h.target.setupEvents arguments, ?_, ?_,
      fun refused => absurd redirects refused, ?_⟩
    · calc (s.settle h arguments).2.world.trace
          = (s.equipped h arguments d w).world.trace := by
            rw [settled]
            exact (Mode.resolve_read _ _).2
        _ = w.trace ++ _ := equipped
        _ = (s.placed h).world.trace ++ _ := congrArg (· ++ _) unmoved
    · intro e member
      rcases List.mem_append.mp member with report | setup
      · split at report
        · rw [List.mem_singleton.mp report]
          rfl
        · cases report
      · exact Event.isArrangement_of_isSetup (Target.isSetup_of_mem _ _ e setup)
    · intro _
      rw [List.countP_append, Target.count_setupEvents]
      split <;> simp

/-- Until a run comes to its mode, it puts the placeholder in place and arranges things for the
target, which is set up once if the streams are redirected. -/
theorem settle_events (h : Harness β ρ ι τ) (arguments : List Bytes) (s : RunState β ρ ι τ) :
    ∃ events, (s.settle h arguments).2.world.trace = s.world.trace ++ events ∧
      (∀ e ∈ events, e.isReservation ∨ e.isArrangement) ∧
      (Redirects h arguments s →
        events.countP (·.isSetup) = if h.target.setup.isSome then 1 else 0) := by
  obtain ⟨placing, placed, reservations⟩ := placed_trace h s
  obtain ⟨arranging, arranged, arrangements, -, setup⟩ := settle_trace h arguments s
  refine ⟨placing ++ arranging, ?_, fun e member => ?_, fun redirects => ?_⟩
  · rw [arranged, placed, List.append_assoc]
  · exact (List.mem_append.mp member).imp (reservations e) (arrangements e)
  · have apart : placing.countP (·.isSetup) = 0 := Event.countP_none fun e member =>
      (Event.apart_of_isHandover (Event.isHandover_of_isReservation (reservations e member))).2
    rw [List.countP_append, apart, setup redirects, Nat.zero_add]

theorem moves_redirected (arguments : List Bytes) (lifespan : Nat)
    (redirected :
      Redirection.apply h.streams h.settings.policy (s.greeted h arguments).world = (.ok d, w)) :
    (w.turned d).Moves (fun _ => True) (fun o => o.writer ≠ .diagnostics)
    (s.run h arguments lifespan).2.world := by
  have anywhere : h.target.WritesTo fun _ => True := fun _ _ _ _ _ => trivial
  have reports := moves_follow (h := h) ((s.greeted h arguments).setWorld w) d
  have rest := moves_run anywhere s arguments lifespan (redirect_of_ok redirected)
  refine .trans (reports.mono (fun _ _ => trivial) ?_) (rest.mono (fun _ _ => trivial) ?_)
  · rintro o ⟨reported, -⟩ diagnostic
    cases reported.symm.trans diagnostic
  · intro o foreground diagnostic
    rw [Output.Foreground, diagnostic] at foreground
    exact foreground

/-- From one state to another nobody touched the placeholder, the deferral or the environment. -/
structure Untouched (s s' : RunState β ρ ι τ) : Prop where
  map : s'.session.map = s.session.map
  backend : s'.session.backend = s.session.backend
  deferral : s'.session.deferral = s.session.deferral
  environment : s'.world.kernel.environment = s.world.kernel.environment

theorem Untouched.trans {s s' s'' : RunState β ρ ι τ} (first : Untouched s s')
    (second : Untouched s' s'') :
    Untouched s s'' where
  map := second.map.trans first.map
  backend := second.backend.trans first.backend
  deferral := second.deferral.trans first.deferral
  environment := second.environment.trans first.environment

theorem untouched_setWorld (s : RunState β ρ ι τ)
    (same : w.kernel.environment = s.world.kernel.environment) :
    Untouched s (s.setWorld w) :=
  ⟨rfl, rfl, rfl, same⟩

theorem untouched_greeted (arguments : List Bytes) :
    Untouched { s with session := s.placed h } (s.greeted h arguments) := by
  rw [greeted, startUp_eq]
  exact (untouched_setWorld _ (World.environment_log _ _)).trans
    (untouched_setWorld _ (Kernel.environment_write _ _ _))

theorem untouched_follow (s : RunState β ρ ι τ) (d : DiagnosticStream) :
    Untouched s (s.follow h d) := by
  unfold follow
  split
  · refine ⟨rfl, rfl, rfl, ?_⟩
    simp only [pointReports, world]
    split
    · exact Kernel.environment_write _ _ _
    · exact World.environment_log _ _
  · exact ⟨rfl, rfl, rfl, rfl⟩

theorem untouched_setUp (arguments : List Bytes) (s : RunState β ρ ι τ) :
    Untouched s (s.setUp h arguments).2 := by
  have same := Invoker.environment_setup h.target arguments s.invoker s.world
  simp only [setUp]
  split
  · exact ⟨rfl, rfl, rfl, same⟩
  · exact ⟨rfl, rfl, rfl, same⟩

theorem untouched_settle (h : Harness β ρ ι τ) (arguments : List Bytes) (s : RunState β ρ ι τ) :
    Untouched { s with session := s.placed h } (s.settle h arguments).2 := by
  have greeted := untouched_greeted (h := h) (s := s) arguments
  have same := (Redirection.steps_apply h.streams h.settings.policy
    (s.greeted h arguments).world).environment_eq
  rcases settle_cases h arguments s with
    ⟨e, w, outcome, -, settled⟩ | ⟨d, w, outcome, -, -, settled⟩
  · rw [outcome] at same
    rw [settled]
    exact greeted.trans (untouched_setWorld _ same)
  · rw [outcome] at same
    rw [settled]
    have redirected := greeted.trans (untouched_setWorld _ same)
    have equipped := (redirected.trans (untouched_follow (h := h) _ d)).trans
      (untouched_setUp (h := h) arguments _)
    exact equipped.trans (untouched_setWorld _ (Mode.environment_resolve _ _))

theorem area_follow (hE : h.engine.Lawful) (s : RunState β ρ ι τ) (d : DiagnosticStream) :
    h.engine.area (s.follow h d).session.engine = h.engine.area s.session.engine := by
  unfold follow
  split
  · exact hE.area_setReportFd d.fd _
  · rfl

theorem area_setUp (hE : h.engine.Lawful) (arguments : List Bytes) (s : RunState β ρ ι τ) :
    h.engine.area (s.setUp h arguments).2.session.engine = h.engine.area s.session.engine := by
  simp only [setUp]
  split
  · rfl
  · exact hE.area_storeSwitch _ _

theorem area_settle (hE : h.engine.Lawful) (arguments : List Bytes) (s : RunState β ρ ι τ) :
    h.engine.area (s.settle h arguments).2.session.engine = h.engine.area (s.placed h).engine := by
  have greeted : (s.greeted h arguments).session.engine = (s.placed h).engine := by
    rw [RunState.greeted, startUp_eq]
    rfl
  rcases settle_cases h arguments s with ⟨e, w, -, -, settled⟩ | ⟨d, w, -, -, -, settled⟩
  · rw [settled, ← greeted]
    rfl
  · rw [settled, ← greeted]
    exact (area_setUp hE arguments _).trans (area_follow hE _ d)

theorem counters_settle (h : Harness β ρ ι τ) (arguments : List Bytes) (s : RunState β ρ ι τ) :
    (s.settle h arguments).2.invoker.executions = s.invoker.executions ∧
      (s.settle h arguments).2.invoker.warmedUp = s.invoker.warmedUp := by
  have greeted := invoker_greeted (h := h) (s := s) arguments
  rcases settle_cases h arguments s with ⟨e, w, -, -, settled⟩ | ⟨d, w, -, -, -, settled⟩
  · rw [settled]
    exact ⟨congrArg Invoker.executions greeted, congrArg Invoker.warmedUp greeted⟩
  · let t := ((s.greeted h arguments).setWorld w).follow h d
    have followed : t.invoker = s.invoker := (invoker_follow _).trans greeted
    have same : (s.equipped h arguments d w).invoker =
        (t.invoker.setup h.target arguments t.world).2.1 := by
      simp only [equipped, setUp]
      split <;> rfl
    rw [settled, ← followed]
    have counters := Invoker.counters_setup h.target arguments t.invoker t.world
    rw [← same] at counters
    exact counters

end RunState

end FuzzHarness
