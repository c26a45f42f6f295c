import FuzzHarness.Proofs.Run.WarmUp

/-!
What a run does to its target, told without the world. The course of a run is decided by the target,
the input stream, the answers to the questions for another iteration and what the files of a batch
hold at their turn.
-/

namespace FuzzHarness

/-- What running inputs comes to for the target: how it ends, the invoker it leaves, and what the
target was invoked with on the way. -/
structure Course (τ : Type) where
  ending : LoopEnd
  invoker : Invoker τ
  payloads : List Bytes

namespace Course

variable {τ : Type}

/-- Feeding an input, if there is one, and going on with what is left of the invoker unless the
target aborts. -/
def feed (data? : Option Bytes) (fed : Survival × Invoker τ) (rest : Invoker τ → Course τ) :
    Course τ :=
  match fed with
  | (.aborted, i) => ⟨.aborted, i, data?.toList⟩
  | (.alive, i) => { rest i with payloads := data?.toList ++ (rest i).payloads }

theorem feed_aborted {fed : Survival × Invoker τ} (aborted : fed.1 = .aborted)
    (data? : Option Bytes) (rest : Invoker τ → Course τ) :
    feed data? fed rest = ⟨.aborted, fed.2, data?.toList⟩ := by
  obtain ⟨survival, i⟩ := fed
  obtain rfl : survival = .aborted := aborted
  rfl

theorem feed_alive {fed : Survival × Invoker τ} (alive : fed.1 = .alive) (data? : Option Bytes)
    {rest : Invoker τ → Course τ} {ending : LoopEnd} {i : Invoker τ} {payloads : List Bytes}
    (went_on : rest fed.2 = ⟨ending, i, payloads⟩) :
    feed data? fed rest = ⟨ending, i, data?.toList ++ payloads⟩ := by
  obtain ⟨survival, left⟩ := fed
  obtain rfl : survival = .alive := alive
  rw [feed, went_on]

end Course

def World.since (w w' : World) : List Event :=
  w'.trace.drop w.trace.length

theorem World.since_eq {w w' : World} {events : List Event} (trace : w'.trace = w.trace ++ events) :
    w.since w' = events := by
  rw [since, trace, List.drop_left]

namespace Invoker

variable {ι τ : Type}

/-- The course of a loop over a stream. Only the stream, the target and the answers to the questions
for another iteration decide it. -/
def stream (R : Reader ι) (T : Target τ) : Nat → StreamInput ι → List Bool → Invoker τ → Course τ
  | _, _, [], i => ⟨.refused, i, []⟩
  | _, _, false :: _, i => ⟨.refused, i, []⟩
  | 0, _, true :: _, i => ⟨.tornDown, i, []⟩
  | lifespan + 1, input, true :: decisions, i =>
    let data? := (Pull.ofRead (R.read input.capacity input.reader).1).data?
    let input := { input with reader := (R.read input.capacity input.reader).2 }
    .feed data? (i.fed T data?) (stream R T lifespan input decisions)

theorem stream_refused (R : Reader ι) (T : Target τ) (lifespan : Nat)
    (input : StreamInput ι) (decisions : List Bool) (i : Invoker τ) :
    stream R T lifespan input (false :: decisions) i = ⟨.refused, i, []⟩ := by
  cases lifespan <;> rfl

/-- The course of a batch of files, some of which have no input. -/
def files (T : Target τ) : List (Option Bytes) → Invoker τ → Course τ
  | [], i => ⟨.refused, i, []⟩
  | data? :: inputs, i => .feed data? (i.fed T data?) (files T inputs)

end Invoker

/-- From one world to another the inputs ran as a course has it that the answers decide: if the
answers given so far are the first of these decisions, then that is the course for them. -/
def World.Follows {τ : Type} (w w' : World) (course : List Bool → Course τ) (ending : LoopEnd)
    (i : Invoker τ) : Prop :=
  ∃ events, w'.trace = w.trace ++ events ∧
    ∀ decisions, Trace.answers events <+: decisions →
      course decisions = ⟨ending, i, Trace.payloads events⟩

theorem World.Follows.of_answer {τ : Type} {w w' : World} {course : List Bool → Course τ}
    {ending : LoopEnd} {i : Invoker τ} {events : List Event} {answer : Bool}
    {rest : List Bool} (trace : w'.trace = w.trace ++ events)
    (answered : Trace.answers events = answer :: rest) (went_on : ∀ decisions, rest <+: decisions →
      course (answer :: decisions) = ⟨ending, i, Trace.payloads events⟩) :
    w.Follows w' course ending i := by
  refine ⟨events, trace, fun decisions agreed => ?_⟩
  rw [answered] at agreed
  obtain ⟨later, rfl, so_far⟩ := List.cons_prefix_iff.mp agreed
  exact went_on later so_far

namespace LoopState
open Trace

variable {ρ ι τ : Type}

theorem iterate_stream (E : Engine ρ) (R : Reader ι) (T : Target τ) {s : LoopState ρ ι τ}
    {input : StreamInput ι} (streaming : s.inputs = .stream input) :
    let data? := (Pull.ofRead (R.read input.capacity input.reader).1).data?
    let after := (s.iterate E R T).2
    (s.iterate E R T).1 = (s.invoker.fed T data?).1 ∧ after.invoker = (s.invoker.fed T data?).2 ∧
      after.inputs = .stream { input with reader := (R.read input.capacity input.reader).2 } ∧
      ∃ events, after.world.trace = s.world.trace ++ events ∧ payloads events = data?.toList ∧
        answers events = [] := by
  intro data? after
  obtain ⟨pull, left, trace⟩ := input.pull_eq R s.world
  rcases outcome : input.pull R s.world with ⟨given, input', world⟩
  rw [outcome] at pull left trace
  have data : given.data? = data? := congrArg Pull.data? pull
  have next : s.inputs.next R s.world = (given, .stream input', world) := by
    rw [streaming, Dispatcher.next, outcome]
  unfold after iterate
  rw [next]
  simp only [data]
  cases data? with
  | none =>
      exact ⟨rfl, rfl, congrArg Dispatcher.stream left, _, trace, by simp, by simp⟩
  | some bytes =>
      obtain ⟨fate, invoked⟩ := Invoker.invoke_eq T (E.area s.engine) bytes s.invoker world
      have invocation := (Invoker.invoke_accounts T (E.area s.engine) bytes s.invoker world).1
      rw [trace, List.append_assoc] at invocation
      exact ⟨fate, invoked, congrArg Dispatcher.stream left, _, invocation, by simp, by simp⟩

theorem ask_events (E : Engine ρ) (budget : Nat) (s : LoopState ρ ι τ) :
    ∃ events, (s.ask E budget).2.world.trace = s.world.trace ++ events ∧
      answers events = [(s.ask E budget).1] ∧
      payloads events = [] :=
  ⟨[.loop budget (E.loop budget s.engine).1], World.trace_record _ _, rfl, rfl⟩

theorem run_follows_of_refused {E : Engine ρ} {budget : Nat} {s : LoopState ρ ι τ}
    (refused : (s.ask E budget).1 = false) (R : Reader ι) (T : Target τ) (lifespan : Nat)
    (input : StreamInput ι) :
    let ended := s.run E R T budget lifespan
    s.world.Follows ended.2.world
      (fun decisions => Invoker.stream R T lifespan input decisions s.invoker) ended.1
      ended.2.invoker := by
  obtain ⟨asking, trace, answered, nothing⟩ := ask_events E budget s
  rw [refused] at answered
  simp only [run_of_refused refused]
  refine .of_answer trace answered fun decisions _ => ?_
  rw [nothing, Invoker.stream_refused]
  rfl

/-- A loop over a stream takes the course that the answers decide. -/
theorem run_follows (E : Engine ρ) (R : Reader ι) (T : Target τ) (budget lifespan : Nat)
    (s : LoopState ρ ι τ) {input : StreamInput ι} (streaming : s.inputs = .stream input) :
    let ended := s.run E R T budget lifespan
    s.world.Follows ended.2.world
      (fun decisions => Invoker.stream R T lifespan input decisions s.invoker) ended.1
      ended.2.invoker := by
  simp only
  induction lifespan generalizing s input with
  | zero =>
      obtain ⟨asking, trace, answered, nothing⟩ := ask_events E budget s
      cases asked : (s.ask E budget).1 with
      | false => exact run_follows_of_refused asked R T 0 input
      | true =>
          rw [asked] at answered
          rw [run_zero_of_granted asked]
          refine .of_answer trace answered fun decisions _ => ?_
          rw [nothing]
          rfl
  | succ lifespan ih =>
      obtain ⟨asking, trace, answered, nothing⟩ := ask_events E budget s
      cases asked : (s.ask E budget).1 with
      | false => exact run_follows_of_refused asked R T (lifespan + 1) input
      | true =>
          rw [asked] at answered
          obtain ⟨fate, invoker, inputs, reading, iterated, given, unasked⟩ :=
            iterate_stream E R T (s := (s.ask E budget).2) streaming
          rw [trace, List.append_assoc] at iterated
          cases survived : ((s.ask E budget).2.iterate E R T).1 with
          | aborted =>
              rw [run_succ_of_aborted asked survived]
              refine .of_answer iterated (by simp only [view_append, answered, unasked]; rfl)
                fun decisions _ => ?_
              simp only [Invoker.stream, view_append, nothing, given, invoker]
              exact Course.feed_aborted (fate.symm.trans survived) _ _
          | alive =>
              obtain ⟨later, went_on, agrees⟩ := ih ((s.ask E budget).2.iterate E R T).2 inputs
              rw [iterated, List.append_assoc] at went_on
              rw [run_succ_of_alive asked survived]
              refine .of_answer went_on (by simp only [view_append, answered, unasked]; rfl)
                fun decisions agreed => ?_
              simp only [Invoker.stream, view_append, nothing, given]
              refine Course.feed_alive (fate.symm.trans survived) _ ?_
              rw [← agrees decisions agreed, invoker]

end LoopState

def Survival.ending : Survival → LoopEnd
  | .alive => .refused
  | .aborted => .aborted

/-- What a run comes to by how its inputs end. It does not remember a signal. -/
def LoopEnd.verdict (mode : Mode) (executions : Nat) : LoopEnd → Verdict
  | .refused => .returned (.ok ⟨mode, executions, false⟩)
  | .aborted => .aborted
  | .tornDown => .tornDown

/-- What a run came to, but for whether it remembers a signal. -/
def Verdict.unsignaled : Verdict → Verdict
  | .returned (.ok summary) => .returned (.ok { summary with deferredSignaled := false })
  | verdict => verdict

namespace RunState
open Trace

variable {β ρ ι τ : Type} {h : Harness β ρ ι τ} {s : RunState β ρ ι τ} {arguments : List Bytes}
  {lifespan : Nat} {decisions : List Bool} {files : List (Bytes × Option Bytes)}

/-- What some of the files that may be offered have for inputs, if files can be opened. -/
def inputs (room : Bool) (count : Nat) (files : List (Bytes × Option Bytes)) :
    List (Option Bytes) :=
  (files.take count).map fun file => if room then file.2 else none

theorem inputs_cons (room : Bool) (count : Nat) (path : Bytes) (data? : Option Bytes) :
    inputs room (count + 1) ((path, data?) :: files) = (if room then data? else none) ::
      inputs room count files := by
  rw [inputs, List.take_succ_cons, List.map_cons]
  rfl

/-- A batch takes the course that is decided by what the files hold at their turn. -/
theorem runFiles_course (h : Harness β ρ ι τ) (paths : List Bytes) (s : RunState β ρ ι τ)
    (same : s.offered h paths <+: files) :
    let room := s.world.kernel.hasRoom
    let ended := s.runFiles h paths
    s.invoker.files h.target (inputs room paths.length files) =
      ⟨ended.1.ending, ended.2.invoker, (taken room (s.offered h paths)).map (·.2)⟩ := by
  simp only
  induction paths generalizing s files with
  | nil => rfl
  | cons path rest ih =>
      have first := fun offers => taken_offered path offers s.world
      have input : (if s.world.kernel.hasRoom then s.world.kernel.tree.input? path else none) = _ :=
        (BatchFiles.readInput_eq path s.world).symm
      rcases reads : BatchFiles.readInput path s.world with ⟨data?, w⟩
      rw [reads] at first input
      cases data? with
      | none =>
          rw [offered_skipped reads] at same ⊢
          obtain ⟨others, rfl, so_far⟩ := List.cons_prefix_iff.mp same
          have later := ih (s.setWorld w) so_far
          rw [(ran_reading (h := h) reads).hasRoom] at later
          rw [runFiles_skipped reads, first, List.length_cons, inputs_cons, input, List.map_append]
          exact Course.feed_alive rfl none later
      | some data =>
          obtain ⟨fate, invoker⟩ :=
            invoker_invoke h data ((s.setWorld w).print (readingLine path data))
          rcases invoked : ((s.setWorld w).print (readingLine path data)).invoke h data with
            ⟨survival, t⟩
          rw [invoked] at fate invoker
          cases survival with
          | aborted =>
              rw [offered_aborted reads invoked] at same ⊢
              obtain ⟨others, rfl, -⟩ := List.cons_prefix_iff.mp same
              rw [runFiles_aborted reads invoked, first, List.length_cons, inputs_cons, input,
                List.map_append, invoker]
              exact Course.feed_aborted fate.symm (some data) _
          | alive =>
              rw [offered_executed reads invoked] at same ⊢
              obtain ⟨others, rfl, so_far⟩ := List.cons_prefix_iff.mp same
              have later := ih (t.print executedLine) so_far
              rw [(executed reads invoked).ran.hasRoom] at later
              have same_invoker :
                (t.print executedLine).invoker = s.invoker.invoked h.target data := invoker
              rw [same_invoker] at later
              rw [runFiles_executed reads invoked, first, List.length_cons, inputs_cons, input,
                List.map_append]
              exact Course.feed_alive fate.symm (some data) later

def course (h : Harness β ρ ι τ) (lifespan : Nat) (files : List (Bytes × Option Bytes))
    (t : RunState β ρ ι τ) :
    Mode → List Bool → Course τ
  | .batch paths, _ => t.invoker.files h.target (inputs t.world.kernel.hasRoom paths.length files)
  | .persistent _, decisions =>
    .feed t.invoker.warmUpInput? (t.invoker.warmed h.target)
      (Invoker.stream h.reader h.target lifespan ⟨t.reader, streamCapacity⟩ decisions)

theorem runBatch_follows (paths : List Bytes) (lifespan : Nat)
    (same : (s.handedOver h (.batch paths)).offered h paths <+: files) :
    (s.handedOver h (.batch paths)).world.Follows (s.runBatch h paths).2.world
      (course h lifespan files (s.handedOver h (.batch paths)) (.batch paths))
      (s.runBatch h paths).1
      (s.runBatch h paths).2.invoker := by
  let t := s.handedOver h (.batch paths)
  have ends : s.runBatch h paths = ((t.runFiles h paths).1.ending, (t.runFiles h paths).2) := by
    simp only [t, runBatch, handedOver]
    rcases ((s.disableSharedMemory h).complete h).runFiles h paths with ⟨survival, s'⟩
    cases survival <;> rfl
  have fed :
    ∀ done : List (Bytes × Bytes), payloads (done.map fun file => .invoke file.2 (t.area h)) =
      done.map (·.2) := fun done => by
    rw [payloads, view_map, ← List.filterMap_eq_map]
    rfl
  rw [ends]
  refine ⟨_, (runFiles_ran h paths t).1.trace, fun decisions _ => ?_⟩
  rw [fed]
  exact runFiles_course h paths t same

theorem runLoop_follows (h : Harness β ρ ι τ) (budget : Budget) (lifespan : Nat)
    (s : RunState β ρ ι τ) :
    let input : StreamInput ι := ⟨s.reader, streamCapacity⟩
    let ended := s.runLoop h budget lifespan
    s.world.Follows ended.2.world
      (fun decisions => Invoker.stream h.reader h.target lifespan input decisions s.invoker)
      ended.1 ended.2.invoker :=
  LoopState.run_follows h.engine h.reader h.target budget.count lifespan
    ⟨s.world, s.session.engine, .stream ⟨s.reader, streamCapacity⟩, s.invoker⟩ rfl

theorem runPersistent_follows (h : Harness β ρ ι τ) (budget : Budget) (lifespan : Nat)
    (s : RunState β ρ ι τ) :
    (s.handedOver h (.persistent budget)).world.Follows (s.runPersistent h budget lifespan).2.world
      (course h lifespan files (s.handedOver h (.persistent budget)) (.persistent budget))
      (s.runPersistent h budget lifespan).1 (s.runPersistent h budget lifespan).2.invoker := by
  simp only [runPersistent]
  rw [handedOver]
  generalize (if h.settings.disableInstrumentation then s.log .instrumentationDisabled
    else s.complete h) = t
  let noting := t.log (.placeholderNow t.session.map.pointer)
  have noted : noting.world.trace = t.world.trace := World.trace_log _ _
  obtain ⟨warmed, warming, trace, given, unasked⟩ :=
    noting.invoker.warmUp_eq h.target (noting.area h) noting.world
  have trace : (noting.warmUp h).2.world.trace = t.world.trace ++ warming := noted ▸ trace
  have warmed :
    ((noting.warmUp h).1, (noting.warmUp h).2.invoker) = t.invoker.warmed h.target := warmed
  have same_reader : (noting.warmUp h).2.reader = t.reader := rfl
  split
  · rename_i u outcome
    rw [outcome] at trace warmed
    refine ⟨warming, trace, fun decisions _ => ?_⟩
    rw [course, given, ← warmed]
    exact Course.feed_aborted rfl _ _
  · rename_i u outcome
    rw [outcome] at trace warmed same_reader
    obtain ⟨events, later, agrees⟩ := runLoop_follows h budget lifespan u
    rw [trace, List.append_assoc] at later
    refine ⟨_, later, fun decisions agreed => ?_⟩
    simp only [view_append, unasked] at agreed
    simp only [course, view_append, given, ← warmed, ← same_reader]
    exact Course.feed_alive rfl _ (agrees decisions agreed)

theorem runInputs_follows (h : Harness β ρ ι τ)
    (mode : Mode) (lifespan : Nat) (s : RunState β ρ ι τ)
    (same : ∀ paths, mode = .batch paths → (s.handedOver h mode).offered h paths <+: files) :
    (s.handedOver h mode).world.Follows (s.runInputs h mode lifespan).2.world
      (course h lifespan files (s.handedOver h mode) mode) (s.runInputs h mode lifespan).1
      (s.runInputs h mode lifespan).2.invoker := by
  cases mode with
  | batch paths => exact runBatch_follows paths lifespan (same paths rfl)
  | persistent budget => exact runPersistent_follows h budget lifespan s

theorem runMode_verdict (h : Harness β ρ ι τ) (program : String) (mode : Mode) (lifespan : Nat)
    (s : RunState β ρ ι τ) :
    let ended := s.runInputs h mode lifespan
    (s.runMode h program mode lifespan).1.unsignaled =
      ended.1.verdict mode ended.2.invoker.executions := by
  simp only [runMode]
  rcases s.runInputs h mode lifespan with ⟨ending, s'⟩
  cases ending <;> rfl

/-- A run as the inputs see it: its streams are redirected, its questions for another iteration are
answered by the first of these decisions, and the files of a batch hold at their turn what the first
of these say. -/
structure Meets (h : Harness β ρ ι τ) (arguments : List Bytes) (lifespan : Nat)
    (s : RunState β ρ ι τ) (decisions : List Bool) (files : List (Bytes × Option Bytes)) :
    Prop where
  redirects : Redirects h arguments s
  answers : Trace.answers (s.world.since (s.run h arguments lifespan).2.world) <+: decisions
  offers : ∀ paths, (s.settle h arguments).1 = .ok (.batch paths) →
    ((s.settle h arguments).2.handedOver h (.batch paths)).offered h paths <+: files

theorem Meets.run_course (met : Meets h arguments lifespan s decisions files) {mode : Mode}
    (settled : (s.settle h arguments).1 = .ok mode) :
    let ended := s.run h arguments lifespan
    ∃ ending, course h lifespan files ((s.settle h arguments).2.handedOver h mode) mode decisions =
        ⟨ending, ended.2.invoker, payloads (s.world.since ended.2.world)⟩ ∧
      ended.1.unsignaled = ending.verdict mode ended.2.invoker.executions := by
  intro ended
  have ran :
      ended = (s.settle h arguments).2.runMode h (Mode.programName arguments) mode lifespan :=
    run_of_ok arguments lifespan settled
  obtain ⟨same_trace, same_invoker, -⟩ :=
    runMode_inputs h (Mode.programName arguments) mode lifespan (s.settle h arguments).2
  obtain ⟨before, prelude, early, -⟩ := prelude_events arguments mode met.redirects
  obtain ⟨events, trace, agrees⟩ := runInputs_follows h mode lifespan (s.settle h arguments).2
    fun paths batch => by subst batch; exact met.offers paths settled
  have whole : s.world.since ended.2.world = before ++ events := by
    refine World.since_eq ?_
    rw [ran, same_trace, trace, prelude, List.append_assoc]
  have agreed := met.answers
  have unasked : Trace.answers before = [] := view_eq_nil fun e member =>
    (Event.views_of_not_isInput (early e member)).2.1
  have nothing : Trace.payloads before = [] := view_eq_nil fun e member =>
    (Event.views_of_not_isInput (early e member)).1
  rw [whole] at agreed
  simp only [view_append, unasked] at agreed
  refine ⟨((s.settle h arguments).2.runInputs h mode lifespan).1, ?_, ?_⟩
  · rw [whole]
    simp only [view_append, nothing, ran, same_invoker]
    exact agrees decisions agreed
  · rw [ran, same_invoker]
    exact runMode_verdict h (Mode.programName arguments) mode lifespan (s.settle h arguments).2

end RunState

end FuzzHarness
