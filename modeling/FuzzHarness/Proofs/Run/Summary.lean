import FuzzHarness.Proofs.Run.Settling

/-!
What a run answers with is true. It returns an error exactly if it is refused; otherwise its summary
names the mode that the arguments ask for, counts the invocations of the target save the warm-up,
and says whether the signal was given.
-/

namespace FuzzHarness

def Target.Aborts {τ : Type} (T : Target τ) : Prop :=
  ∃ data state, (T.react data state).1.aborts = true

/-- While the process lives, the invocations among these events are those counted from one state to
another. -/
def Survival.Accounts {τ : Type} (T : Target τ) (i i' : Invoker τ) (events : List Event) :
    Survival → Prop
  | .alive => i'.executions = i.executions + events.countP (·.isInvocation)
  | .aborted => T.Aborts

/-- Inputs come to an end because the engine ends them, the target aborts, or more iterations are
granted than the process lives to finish. -/
def LoopEnd.Accounts {τ : Type} (T : Target τ) (lifespan : Nat) (i i' : Invoker τ)
    (events : List Event) :
    LoopEnd → Prop
  | .refused => i'.executions = i.executions + events.countP (·.isInvocation)
  | .aborted => T.Aborts
  | .tornDown => lifespan < events.countP (·.isGrant)

/-- An execution is an invocation that is not the warm-up. There is a warm-up in the persistent
mode, and it comes first. -/
def Mode.Counts (executions : Nat) (events : List Event) : Mode → Prop
  | .batch _ => executions = events.countP (·.isInvocation)
  | .persistent _ => ∃ before area after, events = before ++ .invoke warmUpInput area :: after ∧
      before.countP (·.isInvocation) = 0 ∧ executions = after.countP (·.isInvocation)

theorem Mode.Counts.prepend {mode : Mode} {executions : Nat} {early late : List Event}
    (none : early.countP (·.isInvocation) = 0) (counts : mode.Counts executions late) :
    mode.Counts executions (early ++ late) := by
  cases mode with
  | batch paths =>
      rw [Counts, List.countP_append, none, Nat.zero_add]
      exact counts
  | persistent budget =>
      obtain ⟨before, area, after, rfl, first, counted⟩ := counts
      refine ⟨early ++ before, area, after, by simp, ?_, counted⟩
      rw [List.countP_append, none, first]

/-- What the end of the inputs of a mode says about their events. -/
def LoopEnd.Explained {τ : Type} (T : Target τ) (mode : Mode) (lifespan executions : Nat)
    (events : List Event) :
    LoopEnd → Prop
  | .refused => mode.Counts executions events
  | .aborted => T.Aborts
  | .tornDown => lifespan < events.countP (·.isGrant)

section Accounting

variable {τ : Type} {T : Target τ} {i i' i'' : Invoker τ} {early late events : List Event}
  {ending : LoopEnd} {lifespan lifespan' : Nat}

theorem Survival.Accounts.after {survival : Survival} (first : Survival.alive.Accounts T i i' early)
    (rest : survival.Accounts T i' i'' late) : survival.Accounts T i i'' (early ++ late) := by
  cases survival with
  | aborted => exact rest
  | alive =>
      have counted : i''.executions = i'.executions + late.countP (·.isInvocation) := rest
      have counted_before : i'.executions = i.executions + early.countP (·.isInvocation) := first
      rw [Accounts, counted, counted_before, List.countP_append, Nat.add_assoc]

theorem LoopEnd.Accounts.after (first : Survival.alive.Accounts T i i' early)
    (used : lifespan ≤ lifespan' + early.countP (·.isGrant))
    (rest : ending.Accounts T lifespan' i' i'' late) :
    ending.Accounts T lifespan i i'' (early ++ late) := by
  cases ending with
  | aborted => exact rest
  | refused =>
      have alive : Survival.alive.Accounts T i' i'' late := rest
      exact first.after alive
  | tornDown =>
      have granted : lifespan' < late.countP (·.isGrant) := rest
      rw [Accounts, List.countP_append]
      omega

theorem Survival.accounts_of_no_invocation (same : i'.executions = i.executions)
    (none : early.countP (·.isInvocation) = 0) : Survival.alive.Accounts T i i' early := by
  rw [Accounts, none, same, Nat.add_zero]

theorem LoopEnd.Accounts.explained (accounts : ending.Accounts T lifespan i i' events)
    (unused : i.executions = 0) (budget : Budget) (area : Option Address) :
    ending.Explained T (.persistent budget) lifespan i'.executions
      (.invoke warmUpInput area :: events) := by
  cases ending with
  | aborted => exact accounts
  | refused =>
      have counted : i'.executions = i.executions + events.countP (·.isInvocation) := accounts
      refine ⟨[], area, events, rfl, rfl, ?_⟩
      rw [counted, unused, Nat.zero_add]
  | tornDown =>
      have granted : lifespan < events.countP (·.isGrant) := accounts
      rw [Explained, List.countP_cons_of_neg (by simp)]
      exact granted

theorem LoopEnd.Explained.prepend {mode : Mode}
    {executions : Nat} (none : early.countP (·.isInvocation) = 0)
    (explained : ending.Explained T mode lifespan executions late) :
    ending.Explained T mode lifespan executions (early ++ late) := by
  cases ending with
  | aborted => exact explained
  | refused => exact Mode.Counts.prepend none explained
  | tornDown =>
      have granted : lifespan < late.countP (·.isGrant) := explained
      rw [Explained, List.countP_append]
      omega

end Accounting

namespace Invoker
variable {τ : Type}

theorem trace_effects (effects : List Effect) (w : World) :
    (effects.foldl World.perform w).trace = w.trace := by
  induction effects generalizing w with
  | nil => rfl
  | cons effect effects ih =>
      rw [List.foldl_cons, ih]
      cases effect with
      | write fd data => rfl
      | log notice => exact World.trace_log w notice

theorem call_trace (T : Target τ) (area : Option Address) (data : Bytes) (i : Invoker τ)
    (w : World) :
    (i.call T area data w).2.2.trace = w.trace ++ [.invoke data area] := by
  unfold call
  rw [trace_effects, World.trace_record]

theorem call_accounts (T : Target τ) (area : Option Address) (data : Bytes) (i : Invoker τ)
    (w : World) :
    (i.call T area data w).2.1.executions = i.executions ∧
      ((i.call T area data w).1 = .aborted → T.Aborts) := by
  refine ⟨rfl, ?_⟩
  intro aborted
  simp only [call] at aborted
  split at aborted
  · rename_i aborts
    exact ⟨data, i.target, aborts⟩
  · cases aborted

theorem invoke_accounts (T : Target τ) (area : Option Address) (data : Bytes) (i : Invoker τ)
    (w : World) :
    (i.invoke T area data w).2.2.trace = w.trace ++ [.invoke data area] ∧
      (i.invoke T area data w).1.Accounts T i (i.invoke T area data w).2.1 [.invoke data area] := by
  have trace := call_trace T area data i w
  obtain ⟨executions, aborts⟩ := call_accounts T area data i w
  unfold invoke
  split
  · rename_i outcome
    rw [outcome] at trace executions
    exact ⟨trace, congrArg (· + 1) executions⟩
  · rename_i outcome
    rw [outcome] at trace aborts
    exact ⟨trace, aborts rfl⟩

end Invoker

namespace LoopState
variable {ρ ι τ : Type}

theorem iterate_accounts (E : Engine ρ) (R : Reader ι) (T : Target τ) (s : LoopState ρ ι τ) :
    ∃ events, (s.iterate E R T).2.world.trace = s.world.trace ++ events ∧
      (s.iterate E R T).1.Accounts T s.invoker (s.iterate E R T).2.invoker events := by
  obtain ⟨reads, pulled, all_reads⟩ :=
    (Dispatcher.moves_next (P := fun _ => False) R s.inputs s.world).trace_eq
  have no_invocation : reads.countP (·.isInvocation) = 0 :=
    Event.countP_none fun e member => Event.not_isInvocation_of_isRead (all_reads e member)
  unfold iterate
  split
  rename_i pull inputs world outcome
  rw [outcome] at pulled
  split
  · exact ⟨reads, pulled, Survival.accounts_of_no_invocation rfl no_invocation⟩
  · rename_i data _
    obtain ⟨trace, accounts⟩ := Invoker.invoke_accounts T (E.area s.engine) data s.invoker world
    refine ⟨reads ++ [.invoke data (E.area s.engine)], ?_, ?_⟩
    · rw [trace, pulled, List.append_assoc]
    · exact (Survival.accounts_of_no_invocation rfl no_invocation).after accounts

theorem ask_accounts (E : Engine ρ) (budget : Nat) (s : LoopState ρ ι τ) :
    ∃ reply, (s.ask E budget).1 = reply.proceeds ∧
      (s.ask E budget).2.world.trace = s.world.trace ++ [.loop budget reply] ∧
      (s.ask E budget).2.invoker = s.invoker :=
  ⟨_, rfl, World.trace_record _ _, rfl⟩

theorem run_accounts (E : Engine ρ) (R : Reader ι) (T : Target τ) (budget lifespan : Nat)
    (s : LoopState ρ ι τ) :
    ∃ events, (s.run E R T budget lifespan).2.world.trace = s.world.trace ++ events ∧
      (s.run E R T budget lifespan).1.Accounts T lifespan s.invoker
        (s.run E R T budget lifespan).2.invoker events := by
  induction lifespan generalizing s with
  | zero =>
      obtain ⟨reply, answer, trace, invoker⟩ := ask_accounts E budget s
      refine ⟨[.loop budget reply], ?_⟩
      unfold run
      split
      · rename_i outcome
        rw [outcome] at trace invoker
        exact ⟨trace,
          Survival.accounts_of_no_invocation (T := T) (congrArg Invoker.executions invoker) rfl⟩
      · rename_i outcome
        rw [outcome] at trace answer
        refine ⟨trace, ?_⟩
        have granted : reply.proceeds = true := answer.symm
        simp [LoopEnd.Accounts, granted]
  | succ lifespan ih =>
      obtain ⟨reply, answer, trace, invoker⟩ := ask_accounts E budget s
      have asked :
          Survival.alive.Accounts T s.invoker (s.ask E budget).2.invoker [.loop budget reply] :=
        Survival.accounts_of_no_invocation (congrArg Invoker.executions invoker) rfl
      unfold run
      split
      · rename_i outcome
        rw [outcome] at trace asked
        exact ⟨[.loop budget reply], trace, asked⟩
      · rename_i granted outcome
        rw [outcome] at trace asked answer
        obtain ⟨events, iterated, accounts⟩ := iterate_accounts E R T granted
        simp only
        split
        · rename_i ended
          rw [ended] at iterated accounts
          exact ⟨.loop budget reply :: events, by rw [iterated, trace]; simp, accounts⟩
        · rename_i survivor ended
          rw [ended] at iterated accounts
          obtain ⟨later, trace', rest⟩ := ih survivor
          refine ⟨(.loop budget reply :: events) ++ later, ?_,
            LoopEnd.Accounts.after (asked.after accounts) ?_ rest⟩
          · rw [trace', iterated, trace]
            simp
          · have proceeds : reply.proceeds = true := answer.symm
            simp [proceeds]

end LoopState

namespace Session
open Trace

variable {β ρ : Type}

theorem complete_signals (B : MapBackend β) (E : Engine ρ) (s : Session β ρ)
    (pending : s.deferral.signaled = false) :
    (s.complete B E).deferral.signaled = true ∧
      ∃ events, (s.complete B E).world.trace = s.world.trace ++ events ∧
        (∀ e ∈ events, e.isHandover) ∧
        signals events ≠ [] := by
  obtain ⟨back, area, switch, announced, given, trace, all_back, all_given⟩ :=
    complete_trace B E s pending
  refine ⟨?_, _, trace, ?_, by simp⟩
  · rw [complete, if_neg (by simp [pending]), deferral_release]
  · intro e member
    rcases List.mem_append.mp member with early | late
    · exact Event.isHandover_of_isWithdrawal (all_back e early)
    · rcases List.mem_cons.mp late with rfl | last
      · rfl
      · exact Event.isHandover_of_isWithdrawal (all_given e last)

end Session

namespace RunState
open Trace

variable {β ρ ι τ : Type} {h : Harness β ρ ι τ} {s : RunState β ρ ι τ}

theorem invoke_accounts (h : Harness β ρ ι τ) (data : Bytes) (s : RunState β ρ ι τ) :
    (s.invoke h data).2.world.trace = s.world.trace ++ [.invoke data (s.area h)] ∧
      (s.invoke h data).1.Accounts h.target s.invoker
        (s.invoke h data).2.invoker [.invoke data (s.area h)] ∧
      (s.invoke h data).2.session.deferral = s.session.deferral := by
  obtain ⟨trace, accounts⟩ := Invoker.invoke_accounts h.target (s.area h) data s.invoker s.world
  exact ⟨trace, accounts, rfl⟩

theorem runFiles_accounts (h : Harness β ρ ι τ) (paths : List Bytes) (s : RunState β ρ ι τ) :
    ∃ events, (s.runFiles h paths).2.world.trace = s.world.trace ++ events ∧
      (s.runFiles h paths).1.Accounts h.target s.invoker (s.runFiles h paths).2.invoker events ∧
      (s.runFiles h paths).2.session.deferral = s.session.deferral := by
  induction paths generalizing s with
  | nil => exact ⟨[], by simp [runFiles], rfl, rfl⟩
  | cons path rest ih =>
      obtain ⟨none, read, no_event⟩ :=
        (BatchFiles.moves_readInput (E := fun _ => False)
          (P := fun _ => False) path s.world).trace_eq
      obtain rfl : none = [] := List.eq_nil_iff_forall_not_mem.mpr no_event
      rw [List.append_nil] at read
      unfold runFiles
      split
      · rename_i w outcome
        rw [outcome] at read
        obtain ⟨events, trace, accounts⟩ := ih (s.setWorld w)
        refine ⟨events, ?_, accounts⟩
        rw [trace, ← read]
        rfl
      · rename_i data w outcome
        rw [outcome] at read
        obtain ⟨invoked, accounts, deferral⟩ :=
          invoke_accounts h data ((s.setWorld w).print (readingLine path data))
        have printed :
          ((s.setWorld w).print (readingLine path data)).world.trace = s.world.trace := read
        rw [printed] at invoked
        split
        · rename_i ended
          rw [ended] at invoked accounts deferral
          exact ⟨_, invoked, accounts, deferral⟩
        · rename_i survivor ended
          rw [ended] at invoked accounts deferral
          obtain ⟨events, trace, accounts', deferral'⟩ := ih (survivor.print executedLine)
          refine ⟨_, ?_, Survival.Accounts.after accounts accounts', deferral'.trans deferral⟩
          rw [trace, ← List.append_assoc, ← invoked]
          rfl

theorem runLoop_accounts (h : Harness β ρ ι τ) (budget : Budget) (lifespan : Nat)
    (s : RunState β ρ ι τ) :
    ∃ events, (s.runLoop h budget lifespan).2.world.trace = s.world.trace ++ events ∧
      (s.runLoop h budget lifespan).1.Accounts h.target lifespan s.invoker
        (s.runLoop h budget lifespan).2.invoker
        events ∧
      (s.runLoop h budget lifespan).2.session.deferral = s.session.deferral := by
  obtain ⟨events, trace, accounts⟩ :=
    LoopState.run_accounts h.engine h.reader h.target budget.count lifespan
    ⟨s.world, s.session.engine, .stream ⟨s.reader, streamCapacity⟩, s.invoker⟩
  exact ⟨events, trace, accounts, rfl⟩

theorem warmUp_accounts (h : Harness β ρ ι τ) (s : RunState β ρ ι τ)
    (cold : s.invoker.warmedUp = false) :
    (s.warmUp h).2.world.trace = s.world.trace ++ [.invoke warmUpInput (s.area h)] ∧
      (s.warmUp h).2.invoker.executions = s.invoker.executions ∧
      ((s.warmUp h).1 = .aborted → h.target.Aborts) ∧
      (s.warmUp h).2.session.deferral = s.session.deferral := by
  have same : s.invoker.warmUp h.target (s.area h) s.world =
      (true, { s.invoker with warmedUp := true }.call h.target (s.area h) warmUpInput s.world) := by
    simp [Invoker.warmUp, cold]
  simp only [warmUp, same]
  obtain ⟨executions, aborts⟩ := Invoker.call_accounts h.target (s.area h) warmUpInput
    { s.invoker with warmedUp := true } s.world
  exact ⟨Invoker.call_trace _ _ _ _ _, executions, aborts, rfl⟩

theorem parties_handedOver (h : Harness β ρ ι τ) (mode : Mode) (s : RunState β ρ ι τ) :
    (s.handedOver h mode).invoker = s.invoker ∧ (s.handedOver h mode).reader = s.reader := by
  cases mode with
  | batch paths => exact ⟨rfl, rfl⟩
  | persistent budget =>
      simp only [handedOver]
      split <;> exact ⟨rfl, rfl⟩

/-- The handshake is neither an input nor a set-up. It is left out in the persistent mode if
instrumentation is disabled, and never else; whether the signal was given is remembered. -/
theorem handedOver_events (h : Harness β ρ ι τ) (mode : Mode) (s : RunState β ρ ι τ)
    (pending : s.session.deferral.signaled = false) :
    ∃ events, (s.handedOver h mode).world.trace = s.world.trace ++ events ∧
      (∀ e ∈ events, e.isInput = false ∧ e.isSetup = false) ∧
      (signals events ≠ [] ↔ mode.isBatch ∨ h.settings.disableInstrumentation = false) ∧
      ((s.handedOver h mode).session.deferral.signaled = true ↔ signals events ≠ []) := by
  have apart :
      ∀ {e : Event}, e.isHandover → e.isInput = false ∧ e.isSetup = false := fun handover =>
    ⟨Event.not_isInput_of_isHandover handover, (Event.apart_of_isHandover handover).2⟩
  cases mode with
  | batch paths =>
      let t := s.disableSharedMemory h
      obtain ⟨signaled, events, trace, handover, signal⟩ :=
        Session.complete_signals h.backend h.engine t.session pending
      have given : signals (.sharedMemory false :: events) ≠ [] := by simpa using signal
      refine ⟨.sharedMemory false :: events, ?_, ?_, iff_of_true given (.inl rfl),
        iff_of_true signaled given⟩
      · have switched : t.session.world.trace = s.world.trace ++ [.sharedMemory false] :=
          World.trace_record _ _
        rw [switched, List.append_assoc] at trace
        exact trace
      · intro e member
        rcases List.mem_cons.mp member with rfl | later
        · exact ⟨rfl, rfl⟩
        · exact apart (handover e later)
  | persistent budget =>
      simp only [handedOver]
      cases disabled : h.settings.disableInstrumentation with
      | true =>
          refine ⟨[], ?_, by simp, by simp [Mode.isBatch], ?_⟩
          · rw [if_pos rfl, List.append_nil]
            exact World.trace_log _ _
          · exact iff_of_false (by simp [log, setWorld, pending]) (by simp)
      | false =>
          obtain ⟨signaled, events, trace, handover, signal⟩ :=
            Session.complete_signals h.backend h.engine s.session pending
          exact ⟨events, trace, fun e member => apart (handover e member),
            iff_of_true signal (.inr rfl), iff_of_true signaled signal⟩

theorem runInputs_explained (h : Harness β ρ ι τ) (mode : Mode) (lifespan : Nat)
    (s : RunState β ρ ι τ) (cold : (s.handedOver h mode).invoker.warmedUp = false)
    (unused : (s.handedOver h mode).invoker.executions = 0) :
    ∃ events, (s.runInputs h mode lifespan).2.world.trace = (s.handedOver h mode).world.trace ++
      events ∧
      (s.runInputs h mode lifespan).2.session.deferral = (s.handedOver h mode).session.deferral ∧
      (s.runInputs h mode lifespan).1.Explained h.target mode lifespan
        (s.runInputs h mode lifespan).2.invoker.executions events := by
  cases mode with
  | batch paths =>
      obtain ⟨events, trace, accounts, deferral⟩ :=
        runFiles_accounts h paths (s.handedOver h (.batch paths))
      refine ⟨events, ?_⟩
      simp only [runInputs, runBatch]
      split
      · rename_i outcome
        rw [handedOver, outcome] at trace accounts deferral
        exact ⟨trace, deferral, accounts⟩
      · rename_i u outcome
        rw [handedOver, outcome] at trace accounts deferral
        refine ⟨trace, deferral, ?_⟩
        have counted : u.invoker.executions =
            (s.handedOver h (.batch paths)).invoker.executions + events.countP (·.isInvocation) :=
              accounts
        rw [unused, Nat.zero_add] at counted
        exact counted
  | persistent budget =>
      simp only [runInputs, runPersistent]
      rw [handedOver] at cold unused ⊢
      generalize (if h.settings.disableInstrumentation then s.log .instrumentationDisabled
        else s.complete h) = t
        at cold unused ⊢
      let noting := t.log (.placeholderNow t.session.map.pointer)
      have noted : noting.world.trace = t.world.trace := World.trace_log _ _
      obtain ⟨warmed, executions, aborts, deferral⟩ := warmUp_accounts h noting cold
      split
      · rename_i outcome
        rw [outcome] at warmed aborts deferral
        refine ⟨[.invoke warmUpInput (noting.area h)], ?_, deferral, aborts rfl⟩
        rw [warmed, noted]
      · rename_i u outcome
        rw [outcome] at warmed executions deferral
        obtain ⟨events, trace, accounts, deferral'⟩ := runLoop_accounts h budget lifespan u
        refine ⟨.invoke warmUpInput (noting.area h) :: events, ?_, deferral'.trans deferral, ?_⟩
        · rw [trace, warmed, noted]
          simp
        · exact accounts.explained (executions.trans unused) budget _

end RunState

/-- A summary that is true of the events of a run. -/
structure Summary.TrueOf (summary : Summary) (events : List Event) : Prop where
  counts : summary.mode.Counts summary.executions events
  signaled : summary.deferredSignaled = true ↔ Trace.signals events ≠ []

namespace RunState
open Trace

variable {β ρ ι τ : Type} {h : Harness β ρ ι τ} {s : RunState β ρ ι τ}

theorem pending_settle (h : Harness β ρ ι τ) (arguments : List Bytes) (s : RunState β ρ ι τ) :
    (s.settle h arguments).2.session.deferral.signaled = false := by
  let announcing : Session β ρ := { s.session with deferral := .of h.settings.dontDefer }
  have placed : (s.placed h).deferral = .of h.settings.dontDefer :=
    (Session.deferral_reserve h.backend h.engine announcing.prepare.2).trans
      announcing.prepare_change.deferral
  rw [(untouched_settle h arguments s).deferral, placed]
  rfl

theorem signals_runInputs (h : Harness β ρ ι τ) {mode : Mode} {lifespan : Nat} {inputs : List Event}
    (trace :
      (s.runInputs h mode lifespan).2.world.trace = (s.handedOver h mode).world.trace ++ inputs) :
    signals inputs = [] := by
  have anywhere : h.target.WritesTo fun _ => True := fun _ _ _ _ _ => trivial
  obtain ⟨events, trace', all_inputs⟩ := (moves_runInputs anywhere mode lifespan s).trace_eq
  obtain rfl : inputs = events := List.append_cancel_left (trace.symm.trans trace')
  exact view_eq_nil fun e member => (Event.views_of_isInput (all_inputs e member)).2.2

/-- Before the inputs of a run there is no input, one set-up of the target if it has any, and the
signal unless instrumentation is disabled in the persistent mode. -/
theorem prelude_events (arguments : List Bytes) (mode : Mode)
    (redirects : Redirects h arguments s) :
    let t := (s.settle h arguments).2.handedOver h mode
    ∃ before, t.world.trace = s.world.trace ++ before ∧
      (∀ e ∈ before, e.isInput = false) ∧
      before.countP (·.isSetup) = (if h.target.setup.isSome then 1 else 0) ∧
      (signals before ≠ [] ↔ mode.isBatch ∨ h.settings.disableInstrumentation = false) ∧
      (t.session.deferral.signaled = true ↔ signals before ≠ []) := by
  obtain ⟨settling, settled, early, setup⟩ := settle_events h arguments s
  obtain ⟨handing, handed, apart, signals_iff, signaled⟩ :=
    handedOver_events h mode (s.settle h arguments).2 (pending_settle h arguments s)
  have silent : signals settling = [] := view_eq_nil fun e member =>
    (Event.views_of_isReservation_or_isArrangement (early e member)).1
  have signals_eq : signals (settling ++ handing) = signals handing := by
    simp only [view_append, silent, List.nil_append]
  have unprepared : handing.countP (·.isSetup) = 0 :=
    Event.countP_none fun e member => (apart e member).2
  refine ⟨settling ++ handing, ?_, fun e member => ?_, ?_, ?_, ?_⟩
  · rw [handed, settled, List.append_assoc]
  · rcases List.mem_append.mp member with first | last
    · exact (Event.views_of_isReservation_or_isArrangement (early e first)).2
    · exact (apart e last).1
  · rw [List.countP_append, setup redirects, unprepared, Nat.add_zero]
  · rwa [signals_eq]
  · rwa [signals_eq]

/-- A run that settles on a mode ends as its inputs do, and with a summary that is true if the
engine ends them. -/
theorem run_explained {mode : Mode} (fresh : s.invoker = .fresh s.invoker.target)
    (arguments : List Bytes) (lifespan : Nat) (settled : (s.settle h arguments).1 = .ok mode) :
    ∃ events, (s.run h arguments lifespan).2.world.trace = s.world.trace ++ events ∧
      match (s.run h arguments lifespan).1 with
      | .returned (.error _) => False
      | .returned (.ok summary) => summary.mode = mode ∧ summary.TrueOf events
      | .aborted => h.target.Aborts
      | .tornDown => lifespan < events.countP (·.isGrant) := by
  have counters := counters_settle h arguments s
  rw [fresh] at counters
  have invoker := (parties_handedOver h mode (s.settle h arguments).2).1
  obtain ⟨before, handed, early, -, -, signaled⟩ :=
    prelude_events arguments mode ((settle_ok_iff arguments).mp settled).1
  obtain ⟨inputs, trace, deferral, explained⟩ :=
    runInputs_explained h mode lifespan (s.settle h arguments).2
      ((congrArg Invoker.warmedUp invoker).trans counters.2)
      ((congrArg Invoker.executions invoker).trans counters.1)
  have uninvoked : before.countP (·.isInvocation) = 0 :=
    Event.countP_none fun e member => (Event.views_of_not_isInput (early e member)).2.2
  have whole := explained.prepend uninvoked
  have signals_eq : signals (before ++ inputs) = signals before := by
    simp only [view_append, signals_runInputs h trace, List.append_nil]
  rw [handed, List.append_assoc] at trace
  rw [← deferral, ← signals_eq] at signaled
  refine ⟨before ++ inputs, ?_⟩
  rw [run_of_ok arguments lifespan settled, runMode]
  split
  · rename_i outcome
    rw [outcome] at trace whole
    exact ⟨by simpa using trace, whole⟩
  · rename_i outcome
    rw [outcome] at trace whole
    exact ⟨by simpa using trace, whole⟩
  · rename_i outcome
    rw [outcome] at trace whole signaled
    exact ⟨by simpa [print, setWorld, world, World.print] using trace, rfl, whole, signaled⟩

/-- A run returns an error exactly if its streams cannot be redirected or the arguments that set-up
leaves name no mode, and that error. Otherwise, unless the target aborts or the process is ended
before the engine ends the loop, it returns a summary that is true: it names the mode, counts the
invocations save the warm-up, and says whether the signal that set-up is complete was given. -/
theorem run_truthful (fresh : s.invoker = .fresh s.invoker.target) (arguments : List Bytes)
    (lifespan : Nat) :
    ∃ events, (s.run h arguments lifespan).2.world.trace = s.world.trace ++ events ∧
      (∀ e, (s.run h arguments lifespan).1 = .returned (.error e) ↔ Refused h arguments s e) ∧
      (∀ summary, (s.run h arguments lifespan).1 = .returned (.ok summary) →
        (Mode.read (h.target.rewrite arguments s.invoker.target)).1 = .ok summary.mode ∧
        summary.TrueOf events) ∧
      ((s.run h arguments lifespan).1 = .aborted → h.target.Aborts) ∧
      ((s.run h arguments lifespan).1 = .tornDown → lifespan < events.countP (·.isGrant)) := by
  have refused : ∀ e, (s.run h arguments lifespan).1 = .returned (.error e) ↔
      Refused h arguments s e :=
    fun e => run_error_iff arguments lifespan
  cases settled : (s.settle h arguments).1 with
  | error e =>
      have failed : (s.run h arguments lifespan).1 = .returned (.error e) :=
        (refused e).mpr ((settle_error_iff arguments).mp settled)
      obtain ⟨settling, trace, -⟩ := settle_events h arguments s
      refine ⟨settling, ?_, refused, ?_⟩
      · rw [run_of_error arguments lifespan settled, trace]
      · rw [failed]
        refine ⟨?_, ?_, ?_⟩
        · intro summary returned
          cases returned
        · intro aborted
          cases aborted
        · intro torn
          cases torn
  | ok mode =>
      obtain ⟨events, trace, explained⟩ := run_explained fresh arguments lifespan settled
      have read : (Mode.read (h.target.rewrite arguments s.invoker.target)).1 = .ok mode :=
        ((settle_ok_iff arguments).mp settled).2
      refine ⟨events, trace, refused, ?_, ?_, ?_⟩
      · intro summary returned
        rw [returned] at explained
        rw [explained.1]
        exact ⟨read, explained.2⟩
      · intro aborted
        rw [aborted] at explained
        exact explained
      · intro torn
        rw [torn] at explained
        exact explained

/-- The demonstration program is granted two iterations and finds an input for one of them. -/
theorem run_truthful_demo :
    let h := Launch.harness Standalone.engine Launch.demoTarget Settings.default
    let s := Launch.start (World.boot [] none) ⟨[]⟩ (.file (Bytes.ofString "x")) Standalone.fresh ()
    let arguments := [Bytes.ofString "demo", Bytes.ofString "-2"]
    ∃ mode events, (s.run h arguments 5).1 = .returned (.ok ⟨mode, 1, true⟩) ∧
      (s.run h arguments 5).2.world.trace = events ∧ Summary.TrueOf ⟨mode, 1, true⟩ events := by
  intro h s arguments
  obtain ⟨mode, returned⟩ : ∃ mode, (s.run h arguments 5).1 = .returned (.ok ⟨mode, 1, true⟩) := by
    unfold h s arguments
    exact ⟨_, rfl⟩
  obtain ⟨events, trace, -, truthful, -⟩ := run_truthful (h := h) (s := s) rfl arguments 5
  exact ⟨mode, events, returned, trace, (truthful _ returned).2⟩

end RunState

end FuzzHarness
