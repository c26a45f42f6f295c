import FuzzHarness.Proofs.Run.Delivery
import FuzzHarness.Proofs.Run.Settling
import FuzzHarness.Proofs.Session.Announcements

/-!
What a failed run leaves. Its errors come before the handshake: the placeholder stays in place for
the engine to find, and nothing was handed over. The message that the process ends with reaches
standard error, however far the redirection of that came.
-/

namespace FuzzHarness

open CoverageMap Trace

/-- After a reservation either a region was granted, and the coverage pointer holds it, or none was,
and the pointer holds what it held. -/
inductive Session.Seeded {β ρ : Type} (E : Engine ρ) (layout : Layout) (area : Option Address)
    (s : Session β ρ) (events : List Event) : Prop
  | granted (region : Address) : granted events = [(region, layout.size)] →
      s.map = held layout region true →
      E.area s.engine = some region → Seeded E layout area s events
  | refused : granted events = [] → s.map = awaiting layout → E.area s.engine = area →
      Seeded E layout area s events

namespace Session

variable {β ρ : Type} {B : MapBackend β} {E : Engine ρ} {layout : Layout} {s : Session β ρ}

theorem Seeded.of_same {s' : Session β ρ} {area : Option Address} {events : List Event}
    (seeded : Seeded E layout area s events) (map : s'.map = s.map)
    (same : E.area s'.engine = E.area s.engine) :
    Seeded E layout area s' events := by
  cases seeded with
  | granted region grant held pointer =>
      exact .granted region grant (map.trans held) (same.trans pointer)
  | refused none awaiting pointer => exact .refused none (map.trans awaiting) (same.trans pointer)

theorem reserve_seeded (hE : E.Lawful) (hm : s.map = awaiting layout) :
    ∃ events, (s.reserve B E).2.world.trace = s.world.trace ++ events ∧
      (∀ e ∈ events, e.isReservation) ∧
      Seeded E layout (E.area s.engine) (s.reserve B E).2 events := by
  obtain ⟨attempts, tried, found, failed⟩ := reserve_awaiting B E hm
  have granted_eq := tried.granted_eq
  have all_maps : ∀ e ∈ attempts, e.isReservation :=
    fun e member => Event.isReservation_of_isMap (tried.mem_isMap e member)
  cases outcome : (s.reserve B E).1 with
  | none =>
      have change := failed outcome
      rw [outcome] at granted_eq
      exact ⟨attempts, change.trace, all_maps,
        .refused granted_eq change.map (congrArg E.area change.engine)⟩
  | some region =>
      have change := found region outcome
      rw [outcome] at granted_eq
      refine ⟨attempts ++ [.publish region], change.trace, ?_, .granted region ?_ change.map ?_⟩
      · intro e member
        rcases List.mem_append.mp member with attempt | published
        · exact all_maps e attempt
        · rw [List.mem_singleton.mp published]
          rfl
      · simp only [view_append, granted_eq]
        rfl
      · rw [change.engine, hE.area_publish]

end Session

namespace RunState

variable {β ρ ι τ : Type} {h : Harness β ρ ι τ} {s : RunState β ρ ι τ} {layout : Layout}

theorem placed_seeded (hE : h.engine.Lawful) (hm : s.session.map = awaiting layout) :
    ∃ events, (s.placed h).world.trace = s.world.trace ++ events ∧ (∀ e ∈ events, e.isReservation) ∧
      Session.Seeded h.engine layout (h.engine.area s.session.engine) (s.placed h) events := by
  let announcing : Session β ρ := { s.session with deferral := .of h.settings.dontDefer }
  have change := announcing.prepare_change
  obtain ⟨events, trace, reservations, seeded⟩ :=
    Session.reserve_seeded (B := h.backend) hE (change.map.trans hm)
  rw [change.engine] at seeded
  rw [change.trace_same] at trace
  exact ⟨events, trace, reservations, seeded⟩

theorem announced_placed (h : Harness β ρ ι τ) (s : RunState β ρ ι τ) :
    (s.placed h).announced = if h.settings.dontDefer then none else some Deferral.announcement := by
  let d := Deferral.of h.settings.dontDefer
  let announcing : Session β ρ := { s.session with deferral := d }
  have wellFormed : ¬Deferral.Malformed Deferral.forkServerVariable := by decide
  have prepared : announcing.prepare.2.announced = d.value :=
    (Deferral.announced_prepare d s.world).reflects.last [] d [] rfl wellFormed (by simp)
  have reserved := Session.environment_reserve h.backend h.engine announcing.prepare.2
  have same : (s.placed h).announced = announcing.prepare.2.announced :=
    congrArg (Environment.get? · (Bytes.ofString Deferral.forkServerVariable)) reserved
  rw [same, prepared]
  show (Deferral.of h.settings.dontDefer).value = _
  cases h.settings.dontDefer <;> rfl

/-- A run that returns an error has put the placeholder in place and nothing else, or has also set
the target up once: nothing was handed over, signalled, read or invoked. The placeholder stays
mapped, the coverage pointer holds it, and the announcement of deferral is what it should be. -/
theorem run_failed_untouched {cause : HarnessError} (hE : h.engine.Lawful)
    (hm : s.session.map = awaiting layout) (arguments : List Bytes) (lifespan : Nat)
    (failed : (s.run h arguments lifespan).1 = .returned (.error cause)) :
    let final := (s.run h arguments lifespan).2
    ∃ placing arranging, final.world.trace = s.world.trace ++ (placing ++ arranging) ∧
      (∀ e ∈ placing, e.isReservation) ∧ (∀ e ∈ arranging, e.isArrangement) ∧
      Session.Seeded h.engine layout (h.engine.area s.session.engine) final.session placing ∧
      final.session.backend = (s.placed h).backend ∧
      final.session.announced =
        (if h.settings.dontDefer then none else some Deferral.announcement) ∧
      (cause.isPlumbing ∧ arranging = [] ∧ final.invoker = s.invoker ∨
        (∃ argument, cause = .invalidBudget argument) ∧
          arranging.countP (·.isSetup) = if h.target.setup.isSome then 1 else 0) := by
  intro final
  have settled : (s.settle h arguments).1 = .error cause :=
    (settle_error_iff arguments).mpr ((run_error_iff arguments lifespan).mp failed)
  have ended : final = (s.settle h arguments).2 := run_of_error arguments lifespan settled
  obtain ⟨placing, placed, reservations, seeded⟩ := placed_seeded (h := h) (s := s) hE hm
  obtain ⟨arranging, trace, arrangements, refused_trace, redirects_trace⟩ :=
    settle_trace h arguments s
  have untouched := untouched_settle h arguments s
  rw [ended]
  refine ⟨placing, arranging, ?_, reservations, arrangements, ?_, untouched.backend, ?_, ?_⟩
  · rw [trace, placed, List.append_assoc]
  · exact seeded.of_same untouched.map (area_settle hE arguments s)
  · rw [← announced_placed h s]
    exact congrArg (Environment.get? · (Bytes.ofString Deferral.forkServerVariable))
      untouched.environment
  · rcases settle_cases h arguments s with
      ⟨e, w, outcome, refused, same⟩ | ⟨d, w, outcome, redirects, read, -⟩
    · rw [same] at settled
      obtain rfl : e = cause := Except.error.inj settled
      refine .inl
        ⟨Redirection.isPlumbing_apply (congrArg Prod.fst outcome), refused_trace refused, ?_⟩
      rw [same]
      exact invoker_greeted arguments
    · rw [read] at settled
      exact .inr ⟨Mode.read_error settled, redirects_trace redirects⟩

/-- An argument that is no budget fails the demonstration program, which has no set-up. -/
theorem run_failed_untouched_demo :
    let h := Launch.harness Standalone.engine Launch.demoTarget Settings.default
    let s := Launch.start (World.boot [] none) ⟨[]⟩ (.file []) Standalone.fresh ()
    let arguments := [Bytes.ofString "demo", Bytes.ofString "-x"]
    (s.run h arguments 5).1 = .returned (.error (.invalidBudget "-x")) ∧
      ∃ placing arranging, (s.run h arguments 5).2.world.trace = placing ++ arranging ∧
        Session.Seeded h.engine Layout.default none (s.run h arguments 5).2.session placing ∧
        arranging.countP (·.isSetup) = 0 := by
  intro h s arguments
  have redirects : Redirects h arguments s := rfl
  have read : (Mode.read arguments).1 = .error (.invalidBudget "-x") := rfl
  have failed : (s.run h arguments 5).1 = .returned (.error (.invalidBudget "-x")) :=
    (run_error_iff arguments 5).mpr (.inr ⟨redirects, read⟩)
  have fresh : s.session.map = awaiting Layout.default := rfl
  obtain ⟨placing, arranging, trace, -, -, seeded, -, -, cause⟩ :=
    run_failed_untouched (h := h) (s := s) Standalone.engine_lawful fresh arguments 5 failed
  refine ⟨failed, placing, arranging, trace, seeded, ?_⟩
  rcases cause with ⟨plumbing, -⟩ | ⟨-, count⟩
  · cases plumbing
  · exact count

theorem diagnostics_stand {slot : Nat} {node : NodeId} (apart : h.streams.stderr ≠ h.streams.stdout)
    (diagnostic : s.world.diagnostic = h.streams.stderr) (arguments : List Bytes) (lifespan : Nat)
    (appended : Kernel.Wired
      (Redirection.appending h.streams h.settings.policy (s.greeted h arguments).world).2.kernel
      h.streams.stderr slot node) :
    let final := (s.run h arguments lifespan).2.world
    Kernel.Wired final.kernel final.diagnostic slot node := by
  intro final
  have unmoved := (Redirection.steps_apply h.streams h.settings.policy
    (s.greeted h arguments).world).diagnostic_eq
  rw [(moves_greeted h arguments s).diagnostic_eq, diagnostic] at unmoved
  rcases settle_cases h arguments s with ⟨e, w, outcome, -, same⟩ | ⟨d, w, outcome, -⟩
  · have settled : (s.settle h arguments).1 = .error e := congrArg Prod.fst same
    have ended : final = w := by
      have run := run_of_error arguments lifespan settled
      rw [same] at run
      exact congrArg RunState.world run
    obtain ⟨stands, records, -⟩ := Redirection.apply_stands apart appended.slot_eq outcome
    rw [outcome] at unmoved
    have at_end := records.wired appended stands
    rw [ended, show w.diagnostic = h.streams.stderr from unmoved]
    exact at_end
  · have moves := moves_redirected arguments lifespan outcome
    obtain ⟨stands, records, answered⟩ := Redirection.apply_stands apart appended.slot_eq outcome
    rw [outcome] at unmoved
    have turned : (w.turned d).diagnostic = d.fd :=
      World.diagnostic_turned fun kept => unmoved.trans ((answered d rfl).2 kept).symm
    rw [moves.diagnostic_eq, turned]
    apply moves.keeps.wired
    rw [World.kernel_turned]
    exact records.wired appended stands

/-- At the end of every run diagnostics reach what standard error referred to before anything was
discarded: the file that it is appended to, once that stands there, and the original standard error
before. That was open before any sink was. So the message that a failed run is ended with arrives
there. -/
theorem fatal_reaches_stderr {err : OpenFile}
    (streams : h.streams = .default) (diagnostic : s.world.diagnostic = 2)
    (stderr : s.world.kernel.openFile? 2 = some err ∧ err.writable = true) (arguments : List Bytes)
    (lifespan : Nat) :
    let begun := (s.greeted h arguments).world
    let appended := Redirection.appending .default h.settings.policy begun
    let final := (s.run h arguments lifespan).2.world
    ∃ slot node, Kernel.Wired appended.2.kernel 2 slot node ∧
      slot < appended.2.kernel.opened.length ∧
      Kernel.Wired final.kernel final.diagnostic slot node ∧
      (∀ cause, (s.run h arguments lifespan).1 = .returned (.error cause) →
        Kernel.Carries slot node (Bytes.ofString (fatalLine cause)) final.kernel
          (final.diagnose (fatalLine cause)).kernel) ∧
      match h.settings.policy.stderrDuplicate, appended.1 with
      | some path, .ok () =>
        slot = begun.kernel.opened.length ∧
          ∃ tree, begun.kernel.locate path .append = .ok (node, tree)
      | _, _ => s.world.kernel.slot? 2 = some slot ∧ node = err.node := by
  intro begun appended final
  obtain ⟨errSlot, -, at_start⟩ := Kernel.wired_of_openFile stderr.1 stderr.2
  have at_begun : Kernel.Wired begun.kernel StdStreams.default.stderr errSlot err.node :=
    (moves_greeted h arguments s).keeps.wired at_start
  obtain ⟨slot, node, at_appended, object⟩ := Redirection.appending_wired h.settings.policy at_begun
  have reaches : Kernel.Wired final.kernel final.diagnostic slot node :=
    diagnostics_stand (by simp [streams, StdStreams.default])
      (by rw [streams]; exact diagnostic) arguments lifespan
      (by rw [streams]; exact at_appended)
  refine ⟨slot, node, at_appended, ?_, reaches, ?_, ?_⟩
  · obtain ⟨f, found, -⟩ := at_appended.opened
    exact (List.getElem?_eq_some_iff.mp found).1
  · rintro cause - f found - writable
    exact (Kernel.Delivered.refl found).write reaches.slot_eq writable
      (Bytes.ofString (fatalLine cause))
  · cases duplicate : h.settings.policy.stderrDuplicate with
    | none =>
        rw [duplicate] at object
        obtain ⟨rfl, rfl⟩ := object
        exact ⟨at_start.slot_eq, rfl⟩
    | some path =>
        cases result : appended.1 with
        | ok done =>
            rw [duplicate, show (Redirection.appending .default h.settings.policy begun).1 = _
              from result] at object
            exact object
        | error e =>
            rw [duplicate, show (Redirection.appending .default h.settings.policy begun).1 = _
              from result] at object
            obtain ⟨rfl, rfl⟩ := object
            exact ⟨at_start.slot_eq, rfl⟩

/-- The demonstration program says what its argument is refused for, also where standard error is
discarded. -/
theorem fatal_reaches_stderr_discarded :
    let h := Launch.harness Standalone.engine Launch.demoTarget { Settings.default with
      closeFdMask := some "2" }
    let s := Launch.start (World.boot [] none) ⟨[]⟩ (.file []) Standalone.fresh ()
    let arguments := [Bytes.ofString "demo", Bytes.ofString "-x"]
    let final := (s.run h arguments 5).2.world
    (s.run h arguments 5).1 = .returned (.error (.invalidBudget "-x")) ∧
      ∃ slot, Kernel.Wired final.kernel final.diagnostic slot FileTree.stderrNode ∧
        Kernel.Carries slot FileTree.stderrNode
          (Bytes.ofString (fatalLine (.invalidBudget "-x"))) final.kernel
          (Launch.conclude (s.run h arguments 5)).2.world.kernel := by
  intro h s arguments final
  have redirects : (Redirection.apply h.streams h.settings.policy
      (s.greeted h arguments).world).1.isOk = true := by
    decide +kernel
  have read : (Mode.read arguments).1 = .error (.invalidBudget "-x") := rfl
  have failed : (s.run h arguments 5).1 = .returned (.error (.invalidBudget "-x")) :=
    (run_error_iff arguments 5).mpr (.inr ⟨redirects, read⟩)
  obtain ⟨slot, node, -, -, reaches, arrives, -, rfl⟩ :=
    fatal_reaches_stderr (h := h) (s := s) rfl rfl ⟨rfl, rfl⟩ arguments 5
  have concluded : (Launch.conclude (s.run h arguments 5)).2.world =
      final.diagnose (fatalLine (.invalidBudget "-x")) := by
    rw [show s.run h arguments 5 =
      (.returned (.error (.invalidBudget "-x")), (s.run h arguments 5).2) from
      Prod.ext failed rfl]
    rfl
  refine ⟨failed, slot, reaches, ?_⟩
  rw [concluded]
  exact arrives _ failed

end RunState

end FuzzHarness
