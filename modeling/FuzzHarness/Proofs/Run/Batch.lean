import FuzzHarness.Proofs.Invoker
import FuzzHarness.Proofs.Kernel.Reading
import FuzzHarness.Proofs.Run.Isolation

/-!
A batch run from its arguments to its end. Shared memory is switched off before the signal; after it
the target is invoked once with every file that can be read and is not empty, in the order of the
arguments, and with nothing else. Standard output tells of each of these files and of no other.
-/

namespace FuzzHarness

def Output.isSpoken (o : Output) : Bool :=
  o.fd = 1 && (o.writer = .harness || o.writer = .target)

def Output.spoken (outs : List Output) : Bytes :=
  (outs.filter (·.isSpoken)).flatMap (·.data)

theorem Output.spoken_append (xs ys : List Output) :
    spoken (xs ++ ys) = spoken xs ++ spoken ys := by
  simp [spoken]

theorem Output.spoken_eq_nil {outs : List Output} (silent : ∀ o ∈ outs, o.isSpoken = false) :
    spoken outs = [] := by
  have none_left : outs.filter (·.isSpoken) = [] := List.filter_eq_nil_iff.mpr fun o member => by
    simp [silent o member]
  rw [spoken, none_left]
  rfl

theorem Output.spoken_eq_collect {outs : List Output}
    (h : ∀ o ∈ outs, o.isSpoken = true ↔ o.fd = 1) :
    spoken outs = collect (· = 1) outs := by
  have same : outs.filter (·.isSpoken) = outs.filter fun o => o.fd = 1 :=
    List.filter_congr fun o member => by simpa using Bool.eq_iff_iff.mpr (by simpa using h o member)
  rw [spoken, same, collect]

/-- What a target writes to standard output when it is invoked. -/
def Target.said {τ : Type} (T : Target τ) (data : Bytes) (state : τ) : Bytes :=
  (T.react data state).1.effects.flatMap fun
    | .write fd out => if fd = 1 then out else []
    | .log _ => []

/-- What standard output says of files that are run: of each its length and its path, then whatever
the target writes, then that it was executed. -/
def Target.transcript {τ : Type} (T : Target τ) : τ → List (Bytes × Bytes) → Bytes
  | _, [] => []
  | state, (path, data) :: rest =>
    Bytes.ofString (readingLine path data) ++ T.said data state ++ Bytes.ofString executedLine ++
      T.transcript (T.react data state).2 rest

def Target.prepared {τ : Type} (T : Target τ) (arguments : List Bytes) (state : τ) : τ :=
  match T.setup with
  | none => state
  | some (.list run) => (run arguments state).2
  | some (.vector run) => (run (ArgVector.ofArguments arguments) state).2

theorem Invoker.setup_eq {τ : Type} (T : Target τ) (arguments : List Bytes) (i : Invoker τ)
    (w : World) :
    (i.setup T arguments w).2.1 = { i with target := T.prepared arguments i.target } := by
  unfold setup Target.prepared
  cases T.setup with
  | none => rfl
  | some hook => cases hook <;> rfl

namespace World

variable {w w' : World} {E : Event → Prop} {P : Output → Prop}

/-- The input that a path gives; none if no file can be opened. -/
def input? (w : World) (path : Bytes) : Option Bytes :=
  if w.kernel.hasRoom then w.kernel.tree.input? path else none

def spoken (w : World) : Bytes :=
  Output.spoken w.output

theorem spoken_write (w : World) (fd : Fd) (data : Bytes) (writer : Writer) :
    (w.write fd data writer).spoken = w.spoken ++ Output.spoken [⟨writer, fd, data⟩] := by
  rw [spoken, output_write, Output.spoken_append]
  rfl

theorem spoken_log (w : World) (n : Notice) : (w.log n).spoken = w.spoken := by
  unfold log diagnose
  split
  · rw [spoken_write, Output.spoken_eq_nil (by simp [Output.isSpoken]), List.append_nil]
  · rfl

theorem spoken_print (w : World) (text : String) :
    (w.print text).spoken = w.spoken ++ Bytes.ofString text := by
  rw [print, spoken_write]
  simp [Output.spoken, Output.isSpoken]

theorem spoken_effects (effects : List Effect) (w : World) :
    (effects.foldl perform w).spoken = w.spoken ++ effects.flatMap fun
      | .write fd out => if fd = 1 then out else []
      | .log _ => [] := by
  induction effects generalizing w with
  | nil => exact (List.append_nil _).symm
  | cons effect effects ih =>
      rw [List.foldl_cons, ih, List.flatMap_cons, ← List.append_assoc]
      congr 1
      cases effect with
      | log notice => exact (spoken_log w notice).trans (List.append_nil _).symm
      | write fd out =>
          refine (spoken_write w fd out .target).trans (congrArg _ ?_)
          by_cases standard : fd = 1 <;> simp [Output.spoken, Output.isSpoken, standard]

namespace Moves

theorem spoken_eq (h : w.Moves E P w') (silent : ∀ o, P o → o.isSpoken = false) :
    w'.spoken = w.spoken := by
  obtain ⟨outs, output, expected⟩ := h.output_eq
  have nothing : Output.spoken outs = [] := by
    refine Output.spoken_eq_nil fun o member => ?_
    rcases expected o member with ⟨diagnostic, -⟩ | allowed
    · simp [Output.isSpoken, diagnostic]
    · exact silent o allowed
  rw [spoken, output, Output.spoken_append, nothing, List.append_nil]
  rfl

theorem limit_eq (h : w.Moves E P w') : w'.kernel.limit = w.kernel.limit := by
  induction h with
  | refl => rfl
  | record _ _ _ ih | setEnvironment _ _ ih => exact ih
  | write _ _ ih => exact (Kernel.limit_write _ _ _).trans ih
  | read path count _ ih => exact (Kernel.limit_readPath _ path count).trans ih

theorem hasRoom_eq (h : w.Moves E P w') : w'.kernel.hasRoom = w.kernel.hasRoom :=
  Kernel.hasRoom_congr h.keeps.table h.limit_eq

end Moves

end World

theorem Redirection.Steps.spoken_eq {w w' : World} (h : Steps w w') : w'.spoken = w.spoken := by
  induction h with
  | refl => rfl
  | openPath _ _ _ ih | duplicate _ _ ih | duplicateOnto _ _ _ ih | close _ _ ih => exact ih
  | log n _ ih => exact (World.spoken_log _ n).trans ih

theorem BatchFiles.readInput_eq (path : Bytes) (w : World) :
    (readInput path w).1 = w.input? path := by
  have read := w.kernel.readPath_eq path maxFile
  have input : w.input? path = ((w.kernel.readPath path maxFile).1.toOption).filter fun data =>
      !data.isEmpty := by
    rw [read, World.input?, FileTree.input?]
    split <;> rfl
  rw [input]
  unfold readInput
  split
  · rename_i outcome
    rw [outcome]
    rfl
  · rename_i data _ not_empty outcome
    rw [outcome]
    cases data with
    | nil => exact absurd rfl not_empty
    | cons x xs => rfl
  · rename_i outcome
    rw [outcome]
    rfl

namespace RunState

variable {β ρ ι τ : Type} {h : Harness β ρ ι τ} {s s' s'' : RunState β ρ ι τ}

/-- What files offer as inputs, each when its turn comes in a batch. A target that aborts ends the
batch. -/
def offered (h : Harness β ρ ι τ) : List Bytes → RunState β ρ ι τ → List (Bytes × Option Bytes)
  | [], _ => []
  | path :: rest, s =>
    (path, s.world.kernel.tree.input? path) ::
      match BatchFiles.readInput path s.world with
      | (none, w) => offered h rest (s.setWorld w)
      | (some data, w) =>
        match ((s.setWorld w).print (readingLine path data)).invoke h data with
        | (.aborted, _) => []
        | (.alive, s) => offered h rest (s.print executedLine)

/-- The files among those offered that are run: those that have an input, if files can be opened. -/
def taken (room : Bool) (offers : List (Bytes × Option Bytes)) : List (Bytes × Bytes) :=
  offers.filterMap fun offer => if room then offer.2.map (offer.1, ·) else none

/-- From one state to another these files were run, and nothing else happened. -/
structure Ran (h : Harness β ρ ι τ) (s s' : RunState β ρ ι τ) (files : List (Bytes × Bytes)) :
    Prop where
  trace : s'.world.trace = s.world.trace ++ files.map fun file => .invoke file.2 (s.area h)
  engine : s'.session.engine = s.session.engine
  deferral : s'.session.deferral = s.session.deferral
  reader : s'.reader = s.reader
  warmedUp : s'.invoker.warmedUp = s.invoker.warmedUp
  hasRoom : s'.world.kernel.hasRoom = s.world.kernel.hasRoom

theorem Ran.trans {files more : List (Bytes × Bytes)} (first : Ran h s s' files)
    (second : Ran h s' s'' more) :
    Ran h s s'' (files ++ more) where
  trace := by
    have same : s'.area h = s.area h := congrArg h.engine.area first.engine
    rw [second.trace, first.trace, same, List.map_append, List.append_assoc]
  engine := second.engine.trans first.engine
  deferral := second.deferral.trans first.deferral
  reader := second.reader.trans first.reader
  warmedUp := second.warmedUp.trans first.warmedUp
  hasRoom := second.hasRoom.trans first.hasRoom

theorem ran_nil {P : Output → Prop} {w : World} (s : RunState β ρ ι τ)
    (moves : s.world.Moves (fun _ => False) P w) : Ran h s (s.setWorld w) [] where
  trace := by
    obtain ⟨events, trace, none⟩ := moves.trace_eq
    obtain rfl : events = [] := List.eq_nil_iff_forall_not_mem.mpr none
    exact trace
  engine := rfl
  deferral := rfl
  reader := rfl
  warmedUp := rfl
  hasRoom := moves.hasRoom_eq

section Reading

variable {path : Bytes} {input : Option Bytes} {w : World}

theorem ran_reading (reads : BatchFiles.readInput path s.world = (input, w)) :
    Ran h s (s.setWorld w) [] := by
  have reading :=
    BatchFiles.moves_readInput (E := fun _ => False) (P := fun _ => False) path s.world
  rw [reads] at reading
  exact ran_nil s reading

theorem spoken_reading (reads : BatchFiles.readInput path s.world = (input, w)) :
    w.spoken = s.world.spoken := by
  have reading :=
    BatchFiles.moves_readInput (E := fun _ => False) (P := fun _ => False) path s.world
  rw [reads] at reading
  exact reading.spoken_eq fun _ => False.elim

end Reading

theorem ran_print (s : RunState β ρ ι τ) (text : String) : Ran h s (s.print text) [] :=
  ran_nil s ((World.Moves.refl (P := Output.Foreground fun _ => True)).print text)

theorem ran_invoke (s : RunState β ρ ι τ) (path data : Bytes) :
    Ran h s (s.invoke h data).2 [(path, data)] where
  trace := (Invoker.invoke_accounts h.target (s.area h) data s.invoker s.world).1
  engine := rfl
  deferral := rfl
  reader := rfl
  warmedUp := by
    have same : (s.invoke h data).2.invoker = s.invoker.invoked h.target data :=
      (Invoker.invoke_eq h.target (s.area h) data s.invoker s.world).2
    rw [same]
    rfl
  hasRoom := by
    have anywhere : h.target.WritesTo fun _ => True := fun _ _ _ _ _ => trivial
    exact (moves_invoke anywhere data s).hasRoom_eq

theorem taken_cons (room : Bool) (path : Bytes) (data? : Option Bytes)
    (offers : List (Bytes × Option Bytes)) :
    taken room ((path, data?) :: offers) =
      ((if room then data? else none).map (path, ·)).toList ++ taken room offers := by
  cases room <;> cases data? <;> rfl

theorem taken_offered (path : Bytes) (rest : List (Bytes × Option Bytes)) (w : World) :
    taken w.kernel.hasRoom ((path, w.kernel.tree.input? path) :: rest) =
      (((BatchFiles.readInput path w).1).map (path, ·)).toList ++ taken w.kernel.hasRoom rest := by
  rw [taken_cons, BatchFiles.readInput_eq]
  rfl

theorem spoken_invoke (h : Harness β ρ ι τ) (data : Bytes) (s : RunState β ρ ι τ) :
    (s.invoke h data).2.world.spoken = s.world.spoken ++ h.target.said data s.invoker.target := by
  have world :
    (s.invoke h data).2.world = (h.target.react data s.invoker.target).1.effects.foldl World.perform
      (s.world.record (.invoke data (s.area h))) := Invoker.invoke_world _ _ _ _ _
  rw [world, World.spoken_effects]
  rfl

theorem invoker_invoke (h : Harness β ρ ι τ) (data : Bytes) (s : RunState β ρ ι τ) :
    (s.invoke h data).1 = h.target.fate data s.invoker.target ∧
      (s.invoke h data).2.invoker = s.invoker.invoked h.target data :=
  Invoker.invoke_eq h.target (s.area h) data s.invoker s.world

/-- The batch goes on after a file in which the target does not abort. -/
structure Executed (h : Harness β ρ ι τ) (path data : Bytes) (s s' : RunState β ρ ι τ) : Prop where
  ran : Ran h s s' [(path, data)]
  executions : s'.invoker.executions = s.invoker.executions + 1
  target : s'.invoker.target = (h.target.react data s.invoker.target).2
  spoken : s'.world.spoken = s.world.spoken ++ h.target.transcript s.invoker.target [(path, data)]

theorem executed {path data : Bytes} {w : World} {t : RunState β ρ ι τ}
    (reads : BatchFiles.readInput path s.world = (some data, w))
    (alive : ((s.setWorld w).print (readingLine path data)).invoke h data = (.alive, t)) :
    Executed h path data s (t.print executedLine) := by
  let told := (s.setWorld w).print (readingLine path data)
  obtain ⟨fate, invoker⟩ := invoker_invoke h data told
  have said := spoken_invoke h data told
  have ran := ran_invoke (h := h) told path data
  rw [alive] at fate invoker said ran
  have fate : h.target.fate data s.invoker.target = .alive := fate.symm
  refine ⟨((ran_reading reads).trans ((ran_print _ _).trans ran)).trans (ran_print _ _), ?_, ?_, ?_⟩
  · refine (congrArg Invoker.executions invoker).trans ?_
    have same : told.invoker = s.invoker := rfl
    rw [same, Invoker.invoked, fate]
  · exact congrArg Invoker.target invoker
  · have first : told.world.spoken = w.spoken ++ Bytes.ofString (readingLine path data) :=
      World.spoken_print _ _
    have last :
        (t.print executedLine).world.spoken = t.world.spoken ++ Bytes.ofString executedLine :=
      World.spoken_print _ _
    rw [last, said, first, spoken_reading reads]
    simp [Target.transcript, told, RunState.print, RunState.setWorld]

/-- What running files up to the end comes to. -/
structure Completed (h : Harness β ρ ι τ) (s s' : RunState β ρ ι τ) (files : List (Bytes × Bytes)) :
    Prop where
  executions : s'.invoker.executions = s.invoker.executions + files.length
  spoken : s'.world.spoken = s.world.spoken ++ h.target.transcript s.invoker.target files

theorem Completed.after {path data : Bytes} {files : List (Bytes × Bytes)}
    (rest : Completed h s' s'' files) (first : Executed h path data s s') :
    Completed h s s'' ((path, data) :: files) where
  executions := by
    rw [rest.executions, first.executions, List.length_cons]
    omega
  spoken := by
    rw [rest.spoken, first.spoken, first.target]
    simp [Target.transcript]

def Ended (h : Harness β ρ ι τ) (paths : List Bytes) (s s' : RunState β ρ ι τ)
    (files : List (Bytes × Bytes)) :
    Survival → Prop
  | .aborted => h.target.Aborts
  | .alive => (s.offered h paths).map (·.1) = paths ∧ Completed h s s' files

section Steps

variable {path data : Bytes} {rest : List Bytes} {files : List (Bytes × Bytes)} {w : World}
  {t : RunState β ρ ι τ} {survival : Survival}

theorem offered_skipped (reads : BatchFiles.readInput path s.world = (none, w)) :
    s.offered h (path :: rest) =
    (path, s.world.kernel.tree.input? path) :: (s.setWorld w).offered h rest := by
  rw [offered, reads]

theorem offered_executed (reads : BatchFiles.readInput path s.world = (some data, w))
    (alive : ((s.setWorld w).print (readingLine path data)).invoke h data = (.alive, t)) :
    s.offered h (path :: rest) =
      (path, s.world.kernel.tree.input? path) :: (t.print executedLine).offered h rest := by
  rw [offered, reads]
  simp only [alive]

theorem offered_aborted (reads : BatchFiles.readInput path s.world = (some data, w))
    (aborted : ((s.setWorld w).print (readingLine path data)).invoke h data = (.aborted, t)) :
    s.offered h (path :: rest) = [(path, s.world.kernel.tree.input? path)] := by
  rw [offered, reads]
  simp only [aborted]

theorem runFiles_skipped (reads : BatchFiles.readInput path s.world = (none, w)) :
    s.runFiles h (path :: rest) = (s.setWorld w).runFiles h rest := by
  rw [runFiles, reads]

theorem runFiles_executed (reads : BatchFiles.readInput path s.world = (some data, w))
    (alive : ((s.setWorld w).print (readingLine path data)).invoke h data = (.alive, t)) :
    s.runFiles h (path :: rest) = (t.print executedLine).runFiles h rest := by
  rw [runFiles, reads]
  simp only [alive]

theorem runFiles_aborted (reads : BatchFiles.readInput path s.world = (some data, w))
    (aborted : ((s.setWorld w).print (readingLine path data)).invoke h data = (.aborted, t)) :
    s.runFiles h (path :: rest) = (.aborted, t) := by
  rw [runFiles, reads]
  simp only [aborted]

theorem Ended.skipped (reads : BatchFiles.readInput path s.world = (none, w))
    (ended : Ended h rest (s.setWorld w) s' files survival) :
    Ended h (path :: rest) s s' files survival := by
  cases survival with
  | aborted => exact ended
  | alive =>
      obtain ⟨whole, executions, spoken⟩ := ended
      refine ⟨?_, executions, spoken.trans ?_⟩
      · rw [offered_skipped reads, List.map_cons, whole]
      · exact congrArg (· ++ _) (spoken_reading reads)

theorem Ended.executed (reads : BatchFiles.readInput path s.world = (some data, w))
    (alive : ((s.setWorld w).print (readingLine path data)).invoke h data = (.alive, t))
    (ended : Ended h rest (t.print executedLine) s' files survival) :
    Ended h (path :: rest) s s' ((path, data) :: files) survival := by
  cases survival with
  | aborted => exact ended
  | alive =>
      obtain ⟨whole, completed⟩ := ended
      refine ⟨?_, completed.after (RunState.executed reads alive)⟩
      rw [offered_executed reads alive, List.map_cons, whole]

end Steps

/-- Files that are not skipped are run, in order, up to the end or until the target aborts in one of
them. -/
theorem runFiles_ran (h : Harness β ρ ι τ) (paths : List Bytes) (s : RunState β ρ ι τ) :
    let files := taken s.world.kernel.hasRoom (s.offered h paths)
    Ran h s (s.runFiles h paths).2 files ∧
    Ended h paths s (s.runFiles h paths).2 files (s.runFiles h paths).1 := by
  simp only
  induction paths generalizing s with
  | nil => exact ⟨ran_nil (P := fun _ => False) s .refl, rfl, rfl, (List.append_nil _).symm⟩
  | cons path rest ih =>
      have first := fun offers => taken_offered path offers s.world
      rcases reads : BatchFiles.readInput path s.world with ⟨input, w⟩
      rw [reads] at first
      have reading := ran_reading (h := h) reads
      cases input with
      | none =>
          obtain ⟨ran, ended⟩ := ih (s.setWorld w)
          rw [runFiles_skipped reads, offered_skipped reads, first, ← reading.hasRoom]
          exact ⟨reading.trans ran, ended.skipped reads⟩
      | some data =>
          rcases invoked : ((s.setWorld w).print (readingLine path data)).invoke h data with
            ⟨survival, t⟩
          cases survival with
          | aborted =>
              have last :=
                ran_invoke (h := h) ((s.setWorld w).print (readingLine path data)) path data
              have aborts :=
                (invoke_accounts h data ((s.setWorld w).print (readingLine path data))).2.1
              rw [invoked] at last aborts
              rw [runFiles_aborted reads invoked, offered_aborted reads invoked, first]
              exact ⟨(reading.trans (ran_print _ _)).trans last, aborts⟩
          | alive =>
              have went := executed reads invoked
              obtain ⟨ran, ended⟩ := ih (t.print executedLine)
              rw [runFiles_executed reads invoked, offered_executed reads invoked, first,
                ← went.ran.hasRoom]
              exact ⟨went.ran.trans ran, ended.executed reads invoked⟩

/-- What a run that came to its inputs made of the parties that these depend on. -/
structure Arrived (h : Harness β ρ ι τ) (arguments : List Bytes) (s s' : RunState β ρ ι τ) :
    Prop where
  invoker : s'.invoker = { s.invoker with target := h.target.prepared arguments s.invoker.target }
  reader : s'.reader = s.reader
  hasRoom : s'.world.kernel.hasRoom = s.world.kernel.hasRoom
  spoken : s'.world.spoken = s.world.spoken ++ Bytes.ofString (banner (Mode.programName arguments))

theorem parties_setUp (arguments : List Bytes) (s : RunState β ρ ι τ) :
    (s.setUp h arguments).2.invoker =
      { s.invoker with target := h.target.prepared arguments s.invoker.target } ∧
      (s.setUp h arguments).2.reader = s.reader := by
  have same := Invoker.setup_eq h.target arguments s.invoker s.world
  simp only [setUp]
  split
  · exact ⟨same, rfl⟩
  · exact ⟨same, rfl⟩

theorem reader_follow (s : RunState β ρ ι τ) (d : DiagnosticStream) :
    (s.follow h d).reader = s.reader := by
  unfold follow
  split <;> rfl

theorem reader_greeted (arguments : List Bytes) : (s.greeted h arguments).reader = s.reader := by
  rw [greeted, startUp_eq]
  rfl

theorem spoken_greeted (h : Harness β ρ ι τ) (arguments : List Bytes) (s : RunState β ρ ι τ) :
    (s.greeted h arguments).world.spoken = s.world.spoken ++
      Bytes.ofString (banner (Mode.programName arguments)) := by
  have started : (s.startUp h).2.world.spoken = s.world.spoken :=
    (moves_startUp (P := fun _ => False) s).spoken_eq fun _ => False.elim
  rw [← started]
  exact World.spoken_print _ _

theorem spoken_reported {fd : Fd} (o : Output) (reported : o.Reported fd) : o.isSpoken = false := by
  simp [Output.isSpoken, reported.1]

theorem arrived_settle (arguments : List Bytes) (redirects : Redirects h arguments s) :
    Arrived h arguments s (s.settle h arguments).2 := by
  rcases settle_cases h arguments s with ⟨e, w, -, refused, -⟩ | ⟨d, w, outcome, -, -, settled⟩
  · exact absurd redirects refused
  · let t := (s.greeted h arguments).setWorld w
    let u := s.equipped h arguments d w
    have greeted := moves_greeted h arguments s
    have redirected :=
      (Redirection.steps_apply h.streams h.settings.policy (s.greeted h arguments).world).spoken_eq
    rw [outcome] at redirected
    have followed := moves_follow (h := h) t d
    have equipped : (t.follow h d).world.Moves (·.isSetup) (fun _ => False) u.world :=
      moves_setUp arguments _
    have resolved := Mode.moves_resolve (E := fun _ => False) (P := fun _ => False)
      (h.target.rewrite arguments s.invoker.target) u.world
    have invoker : (t.follow h d).invoker = s.invoker :=
      (invoker_follow t).trans (invoker_greeted arguments)
    have reader : (t.follow h d).reader = s.reader :=
      (reader_follow t d).trans (reader_greeted arguments)
    obtain ⟨prepared, same⟩ := parties_setUp (h := h) arguments (t.follow h d)
    rw [settled]
    refine ⟨?_, same.trans reader, ?_, ?_⟩
    · rw [← invoker]
      exact prepared
    · calc _ = u.world.kernel.hasRoom := resolved.hasRoom_eq
        _ = (t.follow h d).world.kernel.hasRoom := equipped.hasRoom_eq
        _ = (w.turned d).kernel.hasRoom := followed.hasRoom_eq
        _ = w.kernel.hasRoom := by rw [World.kernel_turned]
        _ = (s.greeted h arguments).world.kernel.hasRoom := Redirection.hasRoom_apply outcome
        _ = s.world.kernel.hasRoom := greeted.hasRoom_eq
    · calc _ = u.world.spoken := resolved.spoken_eq fun _ => False.elim
        _ = (t.follow h d).world.spoken := equipped.spoken_eq fun _ => False.elim
        _ = (w.turned d).spoken := followed.spoken_eq spoken_reported
        _ = w.spoken := by rw [World.spoken, World.output_turned]; rfl
        _ = (s.greeted h arguments).world.spoken := redirected
        _ = _ := spoken_greeted h arguments s

theorem Arrived.handedOver {arguments : List Bytes} (arrived : Arrived h arguments s s')
    (mode : Mode) :
    Arrived h arguments s (s'.handedOver h mode) := by
  have handing := moves_handedOver (h := h) (P := fun _ => False) mode s'
  have parties := parties_handedOver h mode s'
  exact ⟨parties.1.trans arrived.invoker, parties.2.trans arrived.reader,
    handing.hasRoom_eq.trans arrived.hasRoom,
    (handing.spoken_eq fun _ => False.elim).trans arrived.spoken⟩

theorem handedOver_batch (h : Harness β ρ ι τ) (paths : List Bytes) (s : RunState β ρ ι τ)
    (pending : s.session.deferral.signaled = false) :
    ∃ back area switch announced given, (s.handedOver h (.batch paths)).world.trace =
      s.world.trace ++
        .sharedMemory false :: (back ++ .manualInit area switch announced :: given) ∧
      (∀ e ∈ back ++ given, e.isPlaceholderCall) ∧
      (s.handedOver h (.batch paths)).session.deferral.signaled = true := by
  let switched := (s.disableSharedMemory h).session
  obtain ⟨back, area, switch, announced, given, trace, all_back, all_given⟩ :=
    Session.complete_trace h.backend h.engine switched pending
  have off : switched.world.trace = s.world.trace ++ [.sharedMemory false] := World.trace_record _ _
  have signaled := (Session.complete_signals h.backend h.engine switched pending).1
  refine ⟨back, area, switch, announced, given, ?_, ?_, signaled⟩
  · rw [off, List.append_assoc] at trace
    exact trace
  · intro e member
    rcases List.mem_append.mp member with early | late
    · exact Event.isPlaceholderCall_of_isWithdrawal (all_back e early)
    · exact Event.isPlaceholderCall_of_isWithdrawal (all_given e late)

theorem content_stdout {out err : OpenFile} {told : Bytes} (streams : h.streams = .default)
    (kept : h.settings.policy.discardStdout = false)
    (separate : Separate h.settings.policy s.world out err)
    (hT : h.target.WritesTo fun fd => fd = 1 ∨ fd = 2) (arguments : List Bytes) (lifespan : Nat)
    (redirects : Redirects h arguments s)
    (spoken : (s.run h arguments lifespan).2.world.spoken = s.world.spoken ++ told) :
    (s.run h arguments lifespan).2.world.kernel.tree.content? out.node =
      (s.world.kernel.tree.content? out.node).map (out.place · told) := by
  rcases settle_cases h arguments s with ⟨e, w, -, refused, -⟩ | ⟨d, w, outcome, -, -, -⟩
  · exact absurd redirects refused
  obtain ⟨⟨not_one, -⟩, ⟨opening, said, later, isolated⟩, -⟩ :=
    run_isolated streams separate arguments lifespan outcome
    (fun fd known => known.imp_right .inl) hT
  have silent : ∀ o ∈ opening ++ said, o.isSpoken = false := fun o member => by
    simp [Output.isSpoken, (isolated.early o member).1]
  have before := Output.spoken_eq_nil fun o member => silent o (List.mem_append_left said member)
  have between := Output.spoken_eq_nil fun o member =>
    silent o (List.mem_append_right opening member)
  have late : Output.spoken later = Output.collect (· = 1) later :=
    Output.spoken_eq_collect fun o member => by
      rcases isolated.late o member with ⟨diagnostic, at_fd⟩ | foreground | ⟨reported, at_fd⟩
      · simp [Output.isSpoken, diagnostic, at_fd, not_one]
      · cases writer : o.writer <;> simp_all [Output.isSpoken, Output.Foreground]
      · simp [Output.isSpoken, reported, at_fd, not_one]
  have hello : Output.spoken [greeting arguments] = (greeting arguments).data := by
    simp [Output.spoken, Output.isSpoken, greeting]
  have heard : told = (greeting arguments).data ++ Output.collect (· = 1) later := by
    rw [World.spoken, isolated.output] at spoken
    simp only [Output.spoken_append, before, between, hello, late, List.nil_append, List.append_nil]
      at spoken
    exact (List.append_cancel_left spoken).symm
  rw [isolated.stdout, kept, heard]
  rfl

/-- The files of a batch hold at their turn what they held when the run began. -/
def Unchanged (h : Harness β ρ ι τ) (arguments paths : List Bytes) (s : RunState β ρ ι τ) : Prop :=
  ((s.settle h arguments).2.handedOver h (.batch paths)).offered h paths <+:
    paths.map fun path => (path, s.world.kernel.tree.input? path)

theorem run_of_batch (arguments : List Bytes) (lifespan : Nat) {paths : List Bytes}
    (settled : (s.settle h arguments).1 = .ok (.batch paths)) :
    s.run h arguments lifespan =
      match ((s.settle h arguments).2.handedOver h (.batch paths)).runFiles h paths with
      | (.aborted, s) => (.aborted, s)
      | (.alive, s) =>
          (.returned (.ok ⟨.batch paths, s.invoker.executions, s.session.deferral.signaled⟩),
          s.print (closingLine (Mode.programName arguments))) := by
  rw [run_of_ok arguments lifespan settled, runMode, runInputs, runBatch, handedOver]
  rcases (((s.settle h arguments).2.disableSharedMemory h).complete h).runFiles h paths with
    ⟨survival, s'⟩
  cases survival <;> rfl

theorem trace_of_batch (arguments : List Bytes) (lifespan : Nat) {paths : List Bytes}
    (settled : (s.settle h arguments).1 = .ok (.batch paths)) :
    (s.run h arguments lifespan).2.world.trace =
      (((s.settle h arguments).2.handedOver h (.batch paths)).runFiles h paths).2.world.trace := by
  rw [run_of_batch arguments lifespan settled]
  rcases ((s.settle h arguments).2.handedOver h (.batch paths)).runFiles h paths with ⟨survival, s'⟩
  cases survival <;> rfl

theorem taken_paths (w : World) (paths : List Bytes) :
    taken w.kernel.hasRoom (paths.map fun path => (path, w.kernel.tree.input? path)) =
      paths.filterMap fun path => (w.input? path).map (path, ·) := by
  rw [taken, List.filterMap_map]
  refine congrArg (paths.filterMap ·) (funext fun path => ?_)
  simp only [Function.comp, World.input?]
  split <;> rfl

theorem Unchanged.offered_eq {arguments paths : List Bytes}
    (unchanged : Unchanged h arguments paths s) (whole :
      (((s.settle h arguments).2.handedOver h (.batch paths)).offered h paths).map (·.1) = paths) :
    ((s.settle h arguments).2.handedOver h (.batch paths)).offered h paths =
      paths.map fun path => (path, s.world.kernel.tree.input? path) := by
  refine unchanged.eq_of_length ?_
  have length := congrArg List.length whole
  rwa [List.length_map] at length ⊢

/-- The events of a batch run, phase by phase. -/
theorem batch_events {paths : List Bytes} (arguments : List Bytes) (lifespan : Nat)
    (settled : (s.settle h arguments).1 = .ok (.batch paths)) :
    let t := (s.settle h arguments).2.handedOver h (.batch paths)
    ∃ early back area switch announced given,
      (s.run h arguments lifespan).2.world.trace = s.world.trace ++
        (early ++ .sharedMemory false :: (back ++ .manualInit area switch announced ::
          (given ++ (taken t.world.kernel.hasRoom (t.offered h paths)).map
            fun file => .invoke file.2 (t.area h)))) ∧
      (∀ e ∈ early, e.isReservation ∨ e.isArrangement) ∧
      (∀ e ∈ back ++ given, e.isPlaceholderCall) ∧
      t.session.deferral.signaled = true := by
  intro t
  obtain ⟨early, settling, preliminary, -⟩ := settle_events h arguments s
  obtain ⟨back, area, switch, announced, given, handed, placeholder, signaled⟩ :=
    handedOver_batch h paths (s.settle h arguments).2 (pending_settle h arguments s)
  have trace := (runFiles_ran h paths t).1.trace
  rw [handed, settling] at trace
  refine ⟨early, back, area, switch, announced, given, ?_, preliminary, placeholder, signaled⟩
  rw [trace_of_batch arguments lifespan settled, trace]
  simp only [List.append_assoc, List.cons_append]

theorem Arrived.completed {arguments : List Bytes} {t : RunState β ρ ι τ}
    {files : List (Bytes × Bytes)} (arrived : Arrived h arguments s t)
    (fresh : s.invoker = .fresh s.invoker.target) (completed : Completed h t s' files)
    (closing : String) :
    s'.invoker.executions = files.length ∧ (s'.print closing).world.spoken =
      s.world.spoken ++ (Bytes.ofString (banner (Mode.programName arguments)) ++
        h.target.transcript (h.target.prepared arguments s.invoker.target) files ++
          Bytes.ofString closing) := by
  constructor
  · rw [completed.executions, arrived.invoker, fresh]
    exact Nat.zero_add _
  · have closed : (s'.print closing).world.spoken = s'.world.spoken ++ Bytes.ofString closing :=
      World.spoken_print _ _
    rw [closed, completed.spoken, arrived.spoken, arrived.invoker]
    simp only [List.append_assoc]

/-- A batch run switches shared memory off before the signal that set-up is complete. After it, the
target is invoked once with each file that can be read and is not empty, in the order of the
arguments; there is no warm-up, no question for another iteration and no read of the input stream.
Unless the target aborts, the run counts these files and returns, and standard output tells of them
and of no others, between the banner and the closing line. -/
theorem run_batch {paths : List Bytes} (fresh : s.invoker = .fresh s.invoker.target)
    (arguments : List Bytes) (lifespan : Nat) (redirects : Redirects h arguments s)
    (batch : (Mode.read (h.target.rewrite arguments s.invoker.target)).1 = .ok (.batch paths))
    (unchanged : Unchanged h arguments paths s) :
    let final := (s.run h arguments lifespan).2
    let files := paths.filterMap fun path => (s.world.input? path).map (path, ·)
    let told := Bytes.ofString (banner (Mode.programName arguments)) ++
      h.target.transcript (h.target.prepared arguments s.invoker.target) files ++
      Bytes.ofString (closingLine (Mode.programName arguments))
    ∃ early back area switch announced given pointer done,
      final.world.trace = s.world.trace ++ (early ++ .sharedMemory false :: (back ++
        .manualInit area switch announced ::
          (given ++ done.map fun file => .invoke file.2 pointer))) ∧
      (∀ e ∈ early, e.isReservation ∨ e.isArrangement) ∧
      (∀ e ∈ back ++ given, e.isPlaceholderCall) ∧
      done <+: files ∧ final.invoker.warmedUp = false ∧ final.reader = s.reader ∧
      ((s.run h arguments lifespan).1 = .aborted ∧ h.target.Aborts ∨
        (s.run h arguments lifespan).1 = .returned (.ok ⟨.batch paths, files.length, true⟩) ∧
          done = files ∧ final.world.spoken = s.world.spoken ++ told ∧
          ∀ out err, h.streams = .default → h.settings.policy.discardStdout = false →
            Separate h.settings.policy s.world out err →
            h.target.WritesTo (fun fd => fd = 1 ∨ fd = 2) →
            final.world.kernel.tree.content? out.node =
              (s.world.kernel.tree.content? out.node).map (out.place · told)) := by
  intro final files told
  have settled := (settle_ok_iff arguments).mpr ⟨redirects, batch⟩
  let t := (s.settle h arguments).2.handedOver h (.batch paths)
  have arrived : Arrived h arguments s t :=
    (arrived_settle arguments redirects).handedOver (.batch paths)
  obtain ⟨early, back, area, switch, announced, given, trace, preliminary, placeholder, signaled⟩ :=
    batch_events arguments lifespan settled
  obtain ⟨ran, ended⟩ := runFiles_ran h paths t
  have all : files = taken t.world.kernel.hasRoom
      (paths.map fun path => (path, s.world.kernel.tree.input? path)) := by
    rw [arrived.hasRoom, taken_paths]
  have done : taken t.world.kernel.hasRoom (t.offered h paths) <+: files := by
    rw [all]
    exact unchanged.filterMap _
  have cold : (t.runFiles h paths).2.invoker.warmedUp = false := by
    rw [ran.warmedUp, arrived.invoker, fresh]
    rfl
  have unread : (t.runFiles h paths).2.reader = s.reader := ran.reader.trans arrived.reader
  have ends := run_of_batch arguments lifespan settled
  refine ⟨early, back, area, switch, announced, given, t.area h, _, trace, preliminary, placeholder,
    done, ?_⟩
  rcases outcome : t.runFiles h paths with ⟨survival, s'⟩
  rw [outcome] at ends cold unread ended ran
  cases survival with
  | aborted =>
      have last : final = s' := congrArg Prod.snd ends
      rw [last]
      exact ⟨cold, unread, .inl ⟨congrArg Prod.fst ends, ended⟩⟩
  | alive =>
      have last : final = s'.print (closingLine (Mode.programName arguments)) :=
        congrArg Prod.snd ends
      obtain ⟨whole, completed⟩ := ended
      have every : taken t.world.kernel.hasRoom (t.offered h paths) = files :=
        (congrArg _ (unchanged.offered_eq whole)).trans all.symm
      have full : Completed h t s' files := by rwa [every] at completed
      obtain ⟨counted, heard⟩ :=
        arrived.completed fresh full (closingLine (Mode.programName arguments))
      have remembered : s'.session.deferral.signaled = true := by rw [ran.deferral, signaled]
      have spoken : final.world.spoken = s.world.spoken ++ told := last ▸ heard
      refine ⟨last ▸ cold, last ▸ unread,
        .inr ⟨?_, every, spoken, fun out err streams kept separate hT => ?_⟩⟩
      · refine (congrArg Prod.fst ends).trans ?_
        simp only [counted, remembered]
      · exact content_stdout streams kept separate hT arguments lifespan redirects spoken

/-- A file that is named twice is run twice, and one that is missing is not. -/
theorem run_batch_demo :
    let h := Launch.harness Standalone.engine Launch.demoTarget Settings.default
    let boot := World.boot [] none
    let w :=
      { boot with kernel := boot.kernel.install (Bytes.ofString "a") (.file (Bytes.ofString "x")) }
    let s := Launch.start w ⟨[]⟩ (.file []) Standalone.fresh ()
    let paths := [Bytes.ofString "a", Bytes.ofString "b", Bytes.ofString "a"]
    let files := paths.filterMap fun path => (s.world.input? path).map (path, ·)
    files.length = 2 ∧
      (s.run h (Bytes.ofString "demo" :: paths) 0).1 =
        .returned (.ok ⟨.batch paths, files.length, true⟩) := by
  intro h boot w s paths files
  have two : files.length = 2 := by decide +kernel
  have unchanged : Unchanged h (Bytes.ofString "demo" :: paths) paths s := by
    unfold Unchanged
    decide +kernel
  obtain ⟨early, back, area, switch, announced, given, pointer, done, trace, -, -, -, -, -,
      ending⟩ :=
    run_batch (h := h) (s := s) rfl (Bytes.ofString "demo" :: paths) 0 rfl rfl unchanged
  rcases ending with ⟨aborted, -⟩ | ⟨returned, -⟩
  · have lives : (match (s.run h (Bytes.ofString "demo" :: paths) 0).1 with
        | .aborted => true
        | _ => false) = false := by
      decide +kernel
    rw [aborted] at lives
    cases lives
  · exact ⟨two, returned⟩

end RunState

end FuzzHarness
