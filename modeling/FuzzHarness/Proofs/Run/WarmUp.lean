import FuzzHarness.Proofs.Run.Batch
import FuzzHarness.Proofs.Run.Rounds

/-!
The warm-up. In the persistent mode it is the first invocation of the target and comes before the
first question of the loop and the first read of the input stream; every later invocation is fed by
a read of its own. In the batch mode there is none.
-/

namespace FuzzHarness

/-- Every invocation among the inputs of a loop follows the read that its bytes come from. -/
inductive Trace.Fed : List Event → Prop
  | nil : Fed []
  | asked (budget : Nat) (reply : LoopReply) {events : List Event} :
      Fed events → Fed (.loop budget reply :: events)
  | unused (capacity : Nat) (result : Except IoError Bytes) {events : List Event} :
      Fed events → Fed (.read capacity result :: events)
  | fed (capacity : Nat) (data : Bytes) (area : Option Address) {events : List Event} :
      Fed events → Fed (.read capacity (.ok data) :: .invoke data area :: events)

namespace Trace.Fed

variable {events more : List Event}

theorem append (first : Fed events) (second : Fed more) : Fed (events ++ more) := by
  induction first with
  | nil => exact second
  | asked budget reply _ ih => exact .asked budget reply ih
  | unused capacity result _ ih => exact .unused capacity result ih
  | fed capacity data area _ ih => exact .fed capacity data area ih

theorem isInput (h : Fed events) : ∀ e ∈ events, e.isInput := by
  induction h with
  | nil => simp
  | asked _ _ _ ih | unused _ _ _ ih | fed _ _ _ _ ih => simpa using ih

end Trace.Fed

theorem Round.fed {r : Round} {capacity : Nat} {result : Except IoError Bytes}
    (reading : (r.pull, r.reads) = Pull.reading capacity result) (budget : Nat) :
    Trace.Fed (r.events budget) ∧
    (r.events budget).countP (·.isInvocation) = r.pull.data?.toList.length := by
  obtain ⟨pull, reads⟩ := Prod.mk.inj reading
  unfold events invocation
  rw [reads]
  cases found : r.pull.data? with
  | none => exact ⟨.asked budget r.reply (.unused capacity result .nil), by simp⟩
  | some data =>
      obtain rfl : result = .ok data := Pull.data?_ofRead (pull ▸ found)
      exact ⟨.asked budget r.reply (.fed capacity data r.area .nil), by simp⟩

theorem Round.fed_all {rounds : List Round} {capacity : Nat} (budget : Nat)
    (reading : ∀ r ∈ rounds, ∃ result, (r.pull, r.reads) = Pull.reading capacity result) :
    Trace.Fed (rounds.flatMap (·.events budget)) ∧
      (rounds.flatMap (·.events budget)).countP (·.isInvocation) =
        (rounds.filterMap (·.pull.data?)).length := by
  induction rounds with
  | nil => exact ⟨.nil, rfl⟩
  | cons r rounds ih =>
      obtain ⟨result, first⟩ := reading r (List.mem_cons_self ..)
      obtain ⟨fed, counted⟩ := r.fed first budget
      obtain ⟨fed', counted'⟩ := ih fun r' member => reading r' (List.mem_cons_of_mem r member)
      refine ⟨fed.append fed', ?_⟩
      rw [List.flatMap_cons, List.countP_append, counted, counted', List.filterMap_cons]
      cases r.pull.data? with
      | none => exact Nat.zero_add _
      | some data => exact Nat.add_comm _ _

namespace LoopState

variable {ρ ι τ : Type} {E : Engine ρ} {R : Reader ι} {T : Target τ} {budget : Nat}
  {s s' : LoopState ρ ι τ} {rounds : List Round} {closing : List Event} {input : StreamInput ι}

theorem Made.reading (made : Made E R T budget s s' rounds closing)
    (streaming : s.inputs = .stream input) :
    ∀ r ∈ rounds, ∃ result, (r.pull, r.reads) = Pull.reading input.capacity result := by
  intro r member
  have pulled := made.pulled
  rw [streaming] at pulled
  have given := List.mem_map_of_mem (f := fun r : Round => (r.pull, r.reads)) member
  rw [pulled.of_stream.2] at given
  obtain ⟨n, -, same⟩ := List.mem_map.mp given
  exact ⟨_, same.symm⟩

theorem run_fed (E : Engine ρ) (R : Reader ι) (T : Target τ) (budget lifespan : Nat)
    (streaming : s.inputs = .stream input) :
    ∃ events, (s.run E R T budget lifespan).2.world.trace = s.world.trace ++ events ∧
      Trace.Fed events ∧
      ((s.run E R T budget lifespan).1 = .aborted ∧ T.Aborts ∨
        (s.run E R T budget lifespan).2.invoker.executions =
          s.invoker.executions + events.countP (·.isInvocation)) := by
  obtain ⟨rounds, s₁, made, ending⟩ := run_rounds E R T budget lifespan s
  have asked : ∃ events, (s₁.ask E budget).2.world.trace = s.world.trace ++ events ∧
    Trace.Fed events ∧
      (s₁.ask E budget).2.invoker.executions =
        s.invoker.executions + events.countP (·.isInvocation) := by
    obtain ⟨fed, counted⟩ := Round.fed_all budget (made.made_asked.reading streaming)
    refine ⟨_, made.made_asked.trace, fed.append (.asked budget _ .nil), ?_⟩
    have executions : (s₁.ask E budget).2.invoker.executions = _ := made.executions_eq
    rw [executions, List.countP_append, counted]
    rfl
  rcases ending with ⟨-, same⟩ | ⟨-, -, same⟩ | ⟨granted, aborted, same⟩
  · rw [same]
    obtain ⟨events, trace, fed, executions⟩ := asked
    exact ⟨events, trace, fed, .inr executions⟩
  · rw [same]
    obtain ⟨events, trace, fed, executions⟩ := asked
    exact ⟨events, trace, fed, .inr executions⟩
  · have whole := made.made_aborted granted
    obtain ⟨fed, -⟩ := Round.fed_all budget (whole.reading streaming)
    have trace := whole.trace
    rw [List.append_nil] at trace
    rw [same]
    exact ⟨_, trace, fed, .inl ⟨rfl, (iterate_round E R T budget s₁).2.2.2.2 aborted⟩⟩

end LoopState

namespace RunState
open Trace

variable {β ρ ι τ : Type} {h : Harness β ρ ι τ} {s : RunState β ρ ι τ}

theorem runLoop_fed (h : Harness β ρ ι τ) (budget : Budget) (lifespan : Nat)
    (s : RunState β ρ ι τ) :
    ∃ events, (s.runLoop h budget lifespan).2.world.trace = s.world.trace ++ events ∧ Fed events ∧
      ((s.runLoop h budget lifespan).1 = .aborted ∧ h.target.Aborts ∨
        (s.runLoop h budget lifespan).2.invoker.executions =
          s.invoker.executions + events.countP (·.isInvocation)) :=
  LoopState.run_fed (s :=
    ⟨s.world, s.session.engine, .stream ⟨s.reader, streamCapacity⟩, s.invoker⟩)
    h.engine h.reader h.target budget.count lifespan rfl

theorem runPersistent_warms (h : Harness β ρ ι τ) (budget : Budget) (lifespan : Nat)
    (s : RunState β ρ ι τ) (cold : (s.handedOver h (.persistent budget)).invoker.warmedUp = false)
    (unused : (s.handedOver h (.persistent budget)).invoker.executions = 0) :
    ∃ area after, (s.runPersistent h budget lifespan).2.world.trace =
        (s.handedOver h (.persistent budget)).world.trace ++ .invoke warmUpInput area :: after ∧
        Fed after ∧
      ((s.runPersistent h budget lifespan).1 = .aborted ∧ h.target.Aborts ∨
        (s.runPersistent h budget lifespan).2.invoker.executions =
          after.countP (·.isInvocation)) := by
  simp only [runPersistent]
  rw [handedOver] at cold unused ⊢
  generalize (if h.settings.disableInstrumentation then s.log .instrumentationDisabled
    else s.complete h) = t
    at cold unused ⊢
  let noting := t.log (.placeholderNow t.session.map.pointer)
  have noted : noting.world.trace = t.world.trace := World.trace_log _ _
  obtain ⟨warmed, executions, aborts, -⟩ := warmUp_accounts h noting cold
  split
  · rename_i outcome
    rw [outcome] at warmed aborts
    refine ⟨noting.area h, [], ?_, .nil, .inl ⟨rfl, aborts rfl⟩⟩
    rw [warmed, noted]
  · rename_i u outcome
    rw [outcome] at warmed executions
    obtain ⟨events, trace, fed, counted⟩ := runLoop_fed h budget lifespan u
    refine ⟨noting.area h, events, ?_, fed, counted.imp_right fun counted => ?_⟩
    · rw [trace, warmed, noted, List.append_assoc]
      rfl
    · rw [counted, executions.trans unused, Nat.zero_add]

theorem runMode_inputs (h : Harness β ρ ι τ) (program : String) (mode : Mode) (lifespan : Nat)
    (s : RunState β ρ ι τ) :
    (s.runMode h program mode lifespan).2.world.trace =
      (s.runInputs h mode lifespan).2.world.trace ∧
      (s.runMode h program mode lifespan).2.invoker = (s.runInputs h mode lifespan).2.invoker ∧
      ((s.runInputs h mode lifespan).1 = .aborted →
        (s.runMode h program mode lifespan).1 = .aborted) := by
  unfold runMode
  rcases s.runInputs h mode lifespan with ⟨ending, s'⟩
  cases ending with
  | refused => exact ⟨rfl, rfl, fun aborted => by cases aborted⟩
  | aborted => exact ⟨rfl, rfl, fun _ => rfl⟩
  | tornDown => exact ⟨rfl, rfl, fun aborted => by cases aborted⟩

/-- A run that warms its target up: what comes before that, and what comes after it and is
counted. -/
structure WarmsUp (h : Harness β ρ ι τ) (s : RunState β ρ ι τ) (ended : Verdict × RunState β ρ ι τ)
    (before : List Event) (area : Option Address) (after : List Event) : Prop where
  trace : ended.2.world.trace = s.world.trace ++ (before ++ .invoke warmUpInput area :: after)
  early : ∀ e ∈ before, e.isInput = false
  setup : before.countP (·.isSetup) = if h.target.setup.isSome then 1 else 0
  signaled : signals before ≠ [] ↔ h.settings.disableInstrumentation = false
  late : ∀ e ∈ after, e.isInput
  fed : Fed after
  counted : ended.1 = .aborted ∧ h.target.Aborts ∨
    ended.2.invoker.executions = after.countP (·.isInvocation)

/-- A run that does not warm its target up: every invocation is counted. -/
structure StaysCold (h : Harness β ρ ι τ) (s : RunState β ρ ι τ)
    (ended : Verdict × RunState β ρ ι τ) (before : List Event) (area : Option Address)
    (inputs : List Bytes) : Prop where
  trace :
    ended.2.world.trace = s.world.trace ++ (before ++ inputs.map fun data => .invoke data area)
  early : ∀ e ∈ before, e.isInput = false
  cold : ended.2.invoker.warmedUp = false
  counted : ended.1 = .aborted ∧ h.target.Aborts ∨ ended.2.invoker.executions = inputs.length

theorem run_warmsUp (fresh : s.invoker = .fresh s.invoker.target)
    (arguments : List Bytes) (lifespan : Nat) {budget : Budget}
    (settled : (s.settle h arguments).1 = .ok (.persistent budget)) :
    ∃ before area after, WarmsUp h s (s.run h arguments lifespan) before area after := by
  have redirects := ((settle_ok_iff arguments).mp settled).1
  have arrived :
      Arrived h arguments s ((s.settle h arguments).2.handedOver h (.persistent budget)) :=
    (arrived_settle arguments redirects).handedOver (.persistent budget)
  obtain ⟨before, handed, early, setup, signaled, -⟩ :=
    prelude_events arguments (.persistent budget) redirects
  obtain ⟨area, after, trace, fed, counted⟩ :=
    runPersistent_warms h budget lifespan (s.settle h arguments).2
    (by rw [arrived.invoker, fresh]; rfl) (by rw [arrived.invoker, fresh]; rfl)
  obtain ⟨same_trace, same_invoker, same_end⟩ :=
    runMode_inputs h (Mode.programName arguments) (.persistent budget)
    lifespan (s.settle h arguments).2
  have ran := run_of_ok arguments lifespan settled
  refine ⟨before, area, after, ?_, early, setup, ?_, fed.isInput, fed, ?_⟩
  · rw [ran, same_trace]
    refine trace.trans ?_
    rw [handed, List.append_assoc]
  · simpa [Mode.isBatch] using signaled
  · rw [ran, same_invoker]
    exact counted.imp_left (And.imp_left same_end)

theorem run_staysCold (fresh : s.invoker = .fresh s.invoker.target)
    (arguments : List Bytes) (lifespan : Nat) {paths : List Bytes}
    (settled : (s.settle h arguments).1 = .ok (.batch paths)) :
    ∃ before area inputs, StaysCold h s (s.run h arguments lifespan) before area inputs := by
  have redirects := ((settle_ok_iff arguments).mp settled).1
  let t := (s.settle h arguments).2.handedOver h (.batch paths)
  have arrived : Arrived h arguments s t :=
    (arrived_settle arguments redirects).handedOver (.batch paths)
  obtain ⟨before, handed, early, -⟩ := prelude_events arguments (.batch paths) redirects
  obtain ⟨ran, ended⟩ := runFiles_ran h paths t
  let files := taken t.world.kernel.hasRoom (t.offered h paths)
  have trace : (s.run h arguments lifespan).2.world.trace =
      s.world.trace ++ (before ++ (files.map (·.2)).map fun data => .invoke data (t.area h)) := by
    rw [trace_of_batch arguments lifespan settled, ran.trace, handed, List.append_assoc,
      List.map_map]
    rfl
  have ends := run_of_batch arguments lifespan settled
  rcases outcome : t.runFiles h paths with ⟨survival, s'⟩
  rw [outcome] at ran ended ends
  have invoker : (s.run h arguments lifespan).2.invoker = s'.invoker := by
    rw [ends]
    cases survival <;> rfl
  refine ⟨before, t.area h, files.map (·.2), trace, early, ?_, ?_⟩
  · rw [invoker, ran.warmedUp, arrived.invoker, fresh]
    rfl
  · cases survival with
    | aborted => exact .inl ⟨congrArg Prod.fst ends, ended⟩
    | alive =>
        refine .inr ?_
        rw [invoker, ended.2.executions, arrived.invoker, fresh, List.length_map]
        exact Nat.zero_add _

/-- In the persistent mode the warm-up is the first invocation. It comes after the target's set-up
and after the signal, if that is given, and before the first question for an iteration and the first
read; it is not counted, and every invocation after it is fed by a read of its own. In the batch
mode there is no warm-up. An invoker lets the first warm-up through and no other, whatever is called
in between, and counts the invocations. -/
theorem warm_up_once (fresh : s.invoker = .fresh s.invoker.target) (arguments : List Bytes)
    (lifespan : Nat) :
    (∀ budget, (s.settle h arguments).1 = .ok (.persistent budget) →
      ∃ before area after, WarmsUp h s (s.run h arguments lifespan) before area after) ∧
    (∀ paths, (s.settle h arguments).1 = .ok (.batch paths) →
      ∃ before area inputs, StaysCold h s (s.run h arguments lifespan) before area inputs) ∧
    ∀ (calls : List Invoker.Call) (state : τ) (w : World),
      let served := Invoker.serveAll h.target calls (.fresh state) w
      (∃ made, made <+: calls ∧
        served.2.2.trace = w.trace ++ Invoker.Call.history h.target false made ∧
          (served.1 = .alive → made = calls)) ∧
        (served.1 = .alive → served.2.1.executions = calls.countP (·.isInvoke) ∧
          ∀ area, (served.2.1.warmUp h.target area served.2.2).1 = !calls.any (·.isWarmUp)) := by
  refine ⟨fun budget settled => run_warmsUp fresh arguments lifespan settled,
    fun paths settled => run_staysCold fresh arguments lifespan settled, fun calls state w => ?_⟩
  obtain ⟨made, counts⟩ := Invoker.serveAll_accounts h.target calls (.fresh state) w
  refine ⟨made, fun alive => ?_⟩
  obtain ⟨executions, warmedUp⟩ := counts alive
  refine ⟨executions.trans (Nat.zero_add _), fun area => ?_⟩
  rw [(Invoker.warmUp_answers h.target area _ _).1, warmedUp]
  rfl

/-- An input that is the warm-up's comes after the warm-up. -/
theorem warm_up_once_demo :
    let h := Launch.harness Standalone.engine Launch.demoTarget Settings.default
    let s := Launch.start (World.boot [] none) ⟨[]⟩ (.file warmUpInput) Standalone.fresh ()
    ∃ before area after, WarmsUp h s (s.run h [] 5) before area after := by
  intro h s
  have settled : (s.settle h []).1 = .ok (.persistent .unbounded) := by
    unfold s h
    rfl
  exact (warm_up_once (h := h) (s := s) rfl [] 5).1 .unbounded settled

end RunState

end FuzzHarness
