import FuzzHarness.Proofs.Run.Summary

/-!
The loop, round by round. A round is granted by the engine, pulls one input and invokes the target
with it if there is one. Whatever the pulls give, there are as many rounds as the engine grants; the
engine is asked once more than that, and what lies beyond the last pull stays where it is.
-/

namespace FuzzHarness

namespace Engine

variable {ρ : Type}

def asked (E : Engine ρ) (budget : Nat) : Nat → ρ → ρ
  | 0, e => e
  | n + 1, e => E.asked budget n (E.loop budget e).2

theorem asked_succ (E : Engine ρ) (budget n : Nat) (e : ρ) :
    E.asked budget (n + 1) e = (E.loop budget (E.asked budget n e)).2 := by
  induction n generalizing e with
  | zero => rfl
  | succ n ih => exact ih (E.loop budget e).2

def answer (E : Engine ρ) (budget n : Nat) (e : ρ) : LoopReply :=
  (E.loop budget (E.asked budget n e)).1

/-- An engine grants so many iterations and refuses the next. -/
structure Grants (E : Engine ρ) (budget count : Nat) (e : ρ) : Prop where
  granted : ∀ n < count, (E.answer budget n e).proceeds = true
  refused : (E.answer budget count e).proceeds = false

theorem Grants.le {E : Engine ρ} {budget count n : Nat} {e : ρ} (h : E.Grants budget count e)
    (granted : ∀ m < n, (E.answer budget m e).proceeds = true) : n ≤ count := by
  refine Nat.le_of_not_lt fun more => ?_
  have proceeds := granted count more
  rw [h.refused] at proceeds
  cases proceeds

theorem Grants.ge {E : Engine ρ} {budget count n : Nat} {e : ρ} (h : E.Grants budget count e)
    (refused : (E.answer budget n e).proceeds = false) : count ≤ n := by
  refine Nat.le_of_not_lt fun fewer => ?_
  rw [h.granted n fewer] at refused
  cases refused

end Engine

namespace Standalone

theorem loop_left (budget : Nat) (s : Standalone) :
    (engine.loop budget s).1.proceeds = decide (0 < s.remaining.getD budget) ∧
      (engine.loop budget s).2.remaining = some (s.remaining.getD budget - 1) := by
  cases left : s.remaining.getD budget with
  | zero => simp [engine, loop, left, LoopReply.proceeds_ofBool]
  | succ n => simp [engine, loop, left, LoopReply.proceeds_ofBool]

theorem left_asked (budget count : Nat) (s : Standalone) :
    (engine.asked budget count s).remaining.getD budget = s.remaining.getD budget - count := by
  induction count generalizing s with
  | zero => rfl
  | succ count ih =>
      rw [Engine.asked, ih, (loop_left budget s).2, Option.getD_some, Nat.sub_sub, Nat.add_comm]

theorem grants (budget : Nat) {s : Standalone} (fresh : s.remaining = none) :
    engine.Grants budget budget s := by
  have answers : ∀ count, (engine.answer budget count s).proceeds = decide (count < budget) := by
    intro count
    rw [Engine.answer, (loop_left budget _).1, left_asked, fresh, Option.getD_none]
    exact decide_eq_decide.mpr Nat.sub_pos_iff_lt
  refine ⟨fun n fewer => ?_, ?_⟩
  · rw [answers, decide_eq_true fewer]
  · rw [answers, decide_eq_false (Nat.lt_irrefl budget)]

end Standalone

namespace Reader

variable {ι : Type}

def after (R : Reader ι) (capacity : Nat) : Nat → ι → ι
  | 0, r => r
  | n + 1, r => R.after capacity n (R.read capacity r).2

def result (R : Reader ι) (capacity n : Nat) (r : ι) : Except IoError Bytes :=
  (R.read capacity (R.after capacity n r)).1

end Reader

/-- The input that a read gives; a read that fails is none. -/
def Pull.ofRead : Except IoError Bytes → Pull
  | .ok [] => .empty
  | .ok data => .input data
  | .error _ => .empty

/-- A pull that takes one read, with the call that it makes. -/
def Pull.reading (capacity : Nat) (result : Except IoError Bytes) : Pull × List Event :=
  (.ofRead result, [.read capacity result])

theorem Pull.data?_ofRead {result : Except IoError Bytes} {data : Bytes}
    (h : (ofRead result).data? = some data) :
    result = .ok data := by
  unfold ofRead at h
  split at h
  · cases h
  · exact congrArg Except.ok (Option.some.inj h)
  · cases h

theorem StreamInput.pull_eq {ι : Type} (R : Reader ι) (input : StreamInput ι) (w : World) :
    (input.pull R w).1 = Pull.ofRead (R.read input.capacity input.reader).1 ∧
      (input.pull R w).2.1 = { input with reader := (R.read input.capacity input.reader).2 } ∧
      (input.pull R w).2.2.trace = w.trace ++
        [.read input.capacity (R.read input.capacity input.reader).1] := by
  unfold pull
  rcases outcome : R.read input.capacity input.reader with ⟨result, reader⟩
  have recorded := World.trace_record w (.read input.capacity result)
  cases result with
  | ok data => cases data <;> exact ⟨rfl, rfl, recorded⟩
  | error e =>
      refine ⟨rfl, rfl, ?_⟩
      simp only
      split
      · exact recorded
      · exact (World.trace_log _ _).trans recorded

theorem BatchFiles.firstReadable_split (paths : List Bytes) (w : World) :
    match firstReadable paths w with
    | (some (path, _), left, _) => ∃ skipped, paths = skipped ++ path :: left
    | (none, left, _) => left = [] := by
  induction paths generalizing w with
  | nil => rfl
  | cons path rest ih =>
      unfold firstReadable
      split
      · rename_i found
        split at found
        · cases found
          exact ⟨[], rfl⟩
        · rename_i w' _
          have later := ih w'
          rw [found] at later
          obtain ⟨skipped, rfl⟩ := later
          exact ⟨path :: skipped, rfl⟩
      · rename_i found
        split at found
        · cases found
        · rename_i w' _
          have later := ih w'
          rw [found] at later
          exact later

namespace Dispatcher

variable {ι : Type}

def reads (R : Reader ι) : Dispatcher ι → List Event
  | .batch _ => []
  | .stream input => [.read input.capacity (R.read input.capacity input.reader).1]

theorem next_trace (R : Reader ι) (d : Dispatcher ι) (w : World) :
    (d.next R w).2.2.trace = w.trace ++ d.reads R := by
  cases d with
  | batch files =>
      obtain ⟨events, trace, none⟩ :=
        (BatchFiles.moves_pull (E := fun _ => False) (P := fun _ => False) files w).trace_eq
      obtain rfl : events = [] := List.eq_nil_iff_forall_not_mem.mpr none
      exact trace
  | stream input => exact (input.pull_eq R w).2.2

/-- What pulls give, the calls to the input stream that each takes, and what they leave: a pull of a
stream takes one read, a pull of files those up to the one that it gives. -/
inductive Pulled (R : Reader ι) : Dispatcher ι → List (Pull × List Event) → Dispatcher ι → Prop
  | none (d : Dispatcher ι) : Pulled R d [] d
  | read (input : StreamInput ι) {pulls : List (Pull × List Event)} {d : Dispatcher ι} :
      Pulled R (.stream { input with reader := (R.read input.capacity input.reader).2 }) pulls d →
      Pulled R (.stream input)
      (Pull.reading input.capacity (R.read input.capacity input.reader).1 :: pulls) d
  | file (skipped : List Bytes)
      (path data : Bytes) {left : List Bytes} {pulls : List (Pull × List Event)}
      {d : Dispatcher ι} : Pulled R (.batch ⟨left⟩) pulls d →
      Pulled R (.batch ⟨skipped ++ path :: left⟩) ((.file path data, []) :: pulls) d
  | exhausted (skipped : List Bytes) {pulls : List (Pull × List Event)} {d : Dispatcher ι} :
      Pulled R (.batch ⟨[]⟩) pulls d → Pulled R (.batch ⟨skipped⟩) ((.exhausted, []) :: pulls) d

theorem Pulled.next {R : Reader ι} {pulls : List (Pull × List Event)}
    {d d' : Dispatcher ι} (w : World) (h : Pulled R (d.next R w).2.1 pulls d') :
    Pulled R d (((d.next R w).1, d.reads R) :: pulls) d' := by
  cases d with
  | stream input =>
      obtain ⟨pull, left, -⟩ := input.pull_eq R w
      simp only [Dispatcher.next, pull, left] at h ⊢
      exact .read input h
  | batch files =>
      have split := BatchFiles.firstReadable_split files.remaining w
      rcases found : BatchFiles.firstReadable files.remaining w with ⟨_ | ⟨path, data⟩, left, w'⟩
      · rw [found] at split
        obtain rfl : left = [] := split
        simp only [Dispatcher.next, BatchFiles.pull, BatchFiles.nextFile, found] at h ⊢
        exact .exhausted files.remaining h
      · rw [found] at split
        obtain ⟨skipped, remaining⟩ := split
        simp only [Dispatcher.next, BatchFiles.pull, BatchFiles.nextFile, found] at h ⊢
        have taken := Pulled.file skipped path data h
        rwa [← remaining] at taken

theorem Pulled.of_stream {R : Reader ι} {input : StreamInput ι} {pulls : List (Pull × List Event)}
    {d : Dispatcher ι} (h : Pulled R (.stream input) pulls d) :
    d = .stream { input with reader := R.after input.capacity pulls.length input.reader } ∧
      pulls = (List.range pulls.length).map fun n =>
        Pull.reading input.capacity (R.result input.capacity n input.reader) := by
  induction pulls generalizing input with
  | nil =>
      cases h
      exact ⟨rfl, rfl⟩
  | cons pull pulls ih =>
      cases h with
      | read _ rest =>
          obtain ⟨left, given⟩ := ih rest
          refine ⟨left, ?_⟩
          rw [List.length_cons, List.range_succ_eq_map, List.map_cons, List.map_map]
          exact congrArg (_ :: ·) given

theorem Pulled.trans {R : Reader ι} {pulls more : List (Pull × List Event)}
    {d d' d'' : Dispatcher ι} (h : Pulled R d pulls d') (h' : Pulled R d' more d'') :
    Pulled R d (pulls ++ more) d'' := by
  induction h with
  | none d => exact h'
  | read input _ ih => exact .read input (ih h')
  | file skipped path data _ ih => exact .file skipped path data (ih h')
  | exhausted skipped _ ih => exact .exhausted skipped (ih h')

end Dispatcher

/-- One round of a loop: the answer that grants it, the input that is pulled, the calls to the input
stream that this takes, and the coverage pointer as the target finds it. -/
structure Round where
  reply : LoopReply
  pull : Pull
  reads : List Event
  area : Option Address

namespace Round

def invocation (r : Round) : List Event :=
  (r.pull.data?.map fun data => .invoke data r.area).toList

def events (budget : Nat) (r : Round) : List Event :=
  .loop budget r.reply :: (r.reads ++ r.invocation)

end Round

namespace LoopState

variable {ρ ι τ : Type} {E : Engine ρ} {R : Reader ι} {T : Target τ} {budget : Nat}
  {s s' : LoopState ρ ι τ}

def round (E : Engine ρ) (R : Reader ι) (budget : Nat) (s : LoopState ρ ι τ) : Round :=
  let granted := (s.ask E budget).2
  { reply := (E.loop budget s.engine).1
    pull := (granted.inputs.next R granted.world).1
    reads := granted.inputs.reads R
    area := E.area granted.engine }

/-- Rounds one after the other, each granted and lived through. -/
inductive Rounds (E : Engine ρ) (R : Reader ι) (T : Target τ) (budget : Nat) :
    LoopState ρ ι τ → List Round → LoopState ρ ι τ → Prop
  | none (s : LoopState ρ ι τ) : Rounds E R T budget s [] s
  | more {s s' : LoopState ρ ι τ} {rounds : List Round} : (s.ask E budget).1 = true →
      ((s.ask E budget).2.iterate E R T).1 = .alive →
      Rounds E R T budget ((s.ask E budget).2.iterate E R T).2 rounds s' →
      Rounds E R T budget s (s.round E R budget :: rounds) s'

theorem iterate_round (E : Engine ρ) (R : Reader ι) (T : Target τ) (budget : Nat)
    (s : LoopState ρ ι τ) :
    let granted := (s.ask E budget).2
    let after := (granted.iterate E R T).2
    after.engine = (E.loop budget s.engine).2 ∧
      after.inputs = (granted.inputs.next R granted.world).2.1 ∧
      after.world.trace = s.world.trace ++ (s.round E R budget).events budget ∧
      ((granted.iterate E R T).1 = .alive → after.invoker.executions =
        s.invoker.executions + (s.round E R budget).pull.data?.toList.length) ∧
      ((granted.iterate E R T).1 = .aborted → T.Aborts) := by
  intro granted after
  have asked : granted.world.trace = s.world.trace ++ [.loop budget (E.loop budget s.engine).1] :=
    World.trace_record _ _
  have pulled := Dispatcher.next_trace R granted.inputs granted.world
  unfold after Round.events Round.invocation
  rcases outcome : granted.inputs.next R granted.world with ⟨pull, inputs, world⟩
  rw [outcome] at pulled
  have same : (s.round E R budget).pull = pull := congrArg Prod.fst outcome
  rw [same]
  cases given : pull.data? with
  | none =>
      have passed : granted.iterate E R T = (.alive, { granted with inputs, world }) := by
        simp [iterate, outcome, given]
      rw [passed]
      refine ⟨rfl, rfl, ?_, fun _ => rfl, by simp⟩
      simp only [Option.map_none, Option.toList_none, List.append_nil]
      rw [pulled, asked, List.append_assoc]
      rfl
  | some data =>
      obtain ⟨trace, accounts⟩ :=
        Invoker.invoke_accounts T (E.area granted.engine) data granted.invoker world
      rcases invoked : granted.invoker.invoke T (E.area granted.engine) data world with
        ⟨survival, invoker, world'⟩
      rw [invoked] at trace accounts
      have went : granted.iterate E R T =
          (survival, { granted with inputs, world := world', invoker }) := by
        simp [iterate, outcome, given, invoked]
      rw [went]
      refine ⟨rfl, rfl, ?_, ?_, ?_⟩
      · rw [trace, pulled, asked, List.append_assoc, List.append_assoc]
        rfl
      · intro alive
        obtain rfl : survival = .alive := alive
        exact accounts
      · intro aborted
        obtain rfl : survival = .aborted := aborted
        exact accounts

namespace Rounds

variable {rounds : List Round}

theorem engine_eq (h : Rounds E R T budget s rounds s') :
    s'.engine = E.asked budget rounds.length s.engine := by
  induction h with
  | none s => rfl
  | @more s s' rounds _ _ _ ih =>
      rw [ih, (iterate_round E R T budget s).1]
      rfl

theorem replies (h : Rounds E R T budget s rounds s') {n : Nat} {r : Round}
    (found : rounds[n]? = some r) :
    r.reply = E.answer budget n s.engine ∧ r.reply.proceeds = true := by
  induction h generalizing n with
  | none s => simp at found
  | @more s s' rounds granted _ _ ih =>
      cases n with
      | zero =>
          obtain rfl : s.round E R budget = r := by simpa using found
          exact ⟨rfl, granted⟩
      | succ n =>
          have later := ih (by simpa using found)
          rw [(iterate_round E R T budget s).1] at later
          exact later

theorem reached (h : Rounds E R T budget s rounds s') {n : Nat} {r : Round}
    (found : rounds[n]? = some r) :
    ∃ sₙ, Rounds E R T budget s (rounds.take n) sₙ ∧ r = sₙ.round E R budget := by
  induction h generalizing n with
  | none s => simp at found
  | @more s s' rounds granted alive _ ih =>
      cases n with
      | zero => exact ⟨s, .none s, (Option.some.inj found).symm⟩
      | succ n =>
          obtain ⟨sₙ, before, made⟩ := ih found
          exact ⟨sₙ, .more granted alive before, made⟩

theorem trace_eq (h : Rounds E R T budget s rounds s') :
    s'.world.trace = s.world.trace ++ rounds.flatMap (·.events budget) := by
  induction h with
  | none s => simp
  | @more s s' rounds _ _ _ ih =>
      rw [ih, (iterate_round E R T budget s).2.2.1, List.flatMap_cons, List.append_assoc]

theorem executions_eq (h : Rounds E R T budget s rounds s') :
    s'.invoker.executions = s.invoker.executions + (rounds.filterMap (·.pull.data?)).length := by
  induction h with
  | none s => rfl
  | @more s s' rounds _ alive _ ih =>
      rw [ih, (iterate_round E R T budget s).2.2.2.1 alive, List.filterMap_cons]
      cases (s.round E R budget).pull.data? with
      | none => rfl
      | some data => simp only [Option.toList_some, List.length_cons, List.length_nil]; omega

theorem pulled (h : Rounds E R T budget s rounds s') :
    s.inputs.Pulled R (rounds.map fun r => (r.pull, r.reads)) s'.inputs := by
  induction h with
  | none s => exact .none _
  | @more s s' rounds _ _ _ ih =>
      rw [(iterate_round E R T budget s).2.1] at ih
      exact .next (s.ask E budget).2.world ih

end Rounds

theorem run_of_refused {lifespan : Nat} (refused : (s.ask E budget).1 = false) :
    s.run E R T budget lifespan = (.refused, (s.ask E budget).2) := by
  have asked : s.ask E budget = (false, (s.ask E budget).2) := Prod.ext refused rfl
  rw [run, asked]

theorem run_zero_of_granted (granted : (s.ask E budget).1 = true) :
    s.run E R T budget 0 = (.tornDown, (s.ask E budget).2) := by
  have asked : s.ask E budget = (true, (s.ask E budget).2) := Prod.ext granted rfl
  rw [run, asked]

theorem run_succ_of_aborted {lifespan : Nat} (granted : (s.ask E budget).1 = true)
    (aborted : ((s.ask E budget).2.iterate E R T).1 = .aborted) :
    s.run E R T budget (lifespan + 1) = (.aborted, ((s.ask E budget).2.iterate E R T).2) := by
  rw [run]
  rcases outcome : s.ask E budget with ⟨answer, asked⟩
  rw [outcome] at granted aborted
  obtain rfl : answer = true := granted
  rcases ended : asked.iterate E R T with ⟨survival, after⟩
  rw [ended] at aborted
  obtain rfl : survival = .aborted := aborted
  simp only [ended]

theorem run_succ_of_alive {lifespan : Nat} (granted : (s.ask E budget).1 = true)
    (alive : ((s.ask E budget).2.iterate E R T).1 = .alive) :
    s.run E R T budget (lifespan + 1) =
      ((s.ask E budget).2.iterate E R T).2.run E R T budget lifespan := by
  rw [run]
  rcases outcome : s.ask E budget with ⟨answer, asked⟩
  rw [outcome] at granted alive
  obtain rfl : answer = true := granted
  rcases ended : asked.iterate E R T with ⟨survival, after⟩
  rw [ended] at alive
  obtain rfl : survival = .alive := alive
  simp only [ended]

/-- A loop makes rounds until the engine refuses one, the target aborts in one, or one is granted
that the process does not live to finish. -/
theorem run_rounds (E : Engine ρ) (R : Reader ι) (T : Target τ) (budget lifespan : Nat)
    (s : LoopState ρ ι τ) :
    ∃ rounds s', Rounds E R T budget s rounds s' ∧
      ((s'.ask E budget).1 = false ∧ s.run E R T budget lifespan = (.refused, (s'.ask E budget).2) ∨
        (s'.ask E budget).1 = true ∧ rounds.length = lifespan ∧
          s.run E R T budget lifespan = (.tornDown, (s'.ask E budget).2) ∨
        (s'.ask E budget).1 = true ∧ ((s'.ask E budget).2.iterate E R T).1 = .aborted ∧
          s.run E R T budget lifespan = (.aborted, ((s'.ask E budget).2.iterate E R T).2)) := by
  induction lifespan generalizing s with
  | zero =>
      refine ⟨[], s, .none s, ?_⟩
      cases asked : (s.ask E budget).1 with
      | false => exact .inl ⟨rfl, run_of_refused asked⟩
      | true => exact .inr (.inl ⟨rfl, rfl, run_zero_of_granted asked⟩)
  | succ lifespan ih =>
      cases asked : (s.ask E budget).1 with
      | false => exact ⟨[], s, .none s, .inl ⟨asked, run_of_refused asked⟩⟩
      | true =>
          cases ended : ((s.ask E budget).2.iterate E R T).1 with
          | aborted =>
              exact ⟨[], s, .none s, .inr (.inr ⟨asked, ended, run_succ_of_aborted asked ended⟩)⟩
          | alive =>
              obtain ⟨rounds, s', later, ending⟩ := ih ((s.ask E budget).2.iterate E R T).2
              refine ⟨_, s', .more asked ended later, ?_⟩
              rw [run_succ_of_alive asked ended, List.length_cons]
              rcases ending with refused | ⟨granted, length, torn⟩ | aborted
              · exact .inl refused
              · exact .inr (.inl ⟨granted, congrArg (· + 1) length, torn⟩)
              · exact .inr (.inr aborted)

/-- What a loop did in its rounds: each is granted, pulls one input, and invokes the target with
that alone and only if there is one. -/
structure Made (E : Engine ρ) (R : Reader ι) (T : Target τ) (budget : Nat) (s s' : LoopState ρ ι τ)
    (rounds : List Round) (closing : List Event) : Prop where
  reached : ∀ n r, rounds[n]? = some r → ∃ sₙ, Rounds E R T budget s (rounds.take n) sₙ ∧
    r = sₙ.round E R budget
  granted : ∀ n r, rounds[n]? = some r → r.reply = E.answer budget n s.engine ∧
    r.reply.proceeds = true
  pulled : s.inputs.Pulled R (rounds.map fun r => (r.pull, r.reads)) s'.inputs
  trace : s'.world.trace = s.world.trace ++ (rounds.flatMap (·.events budget) ++ closing)

section Rounds

variable {rounds : List Round}

theorem Rounds.ask_eq (h : Rounds E R T budget s rounds s') :
    (s'.ask E budget).1 = (E.answer budget rounds.length s.engine).proceeds := by
  rw [Engine.answer, ← h.engine_eq]
  rfl

theorem Rounds.granted (h : Rounds E R T budget s rounds s') {n : Nat}
    (inside : n < rounds.length) :
    (E.answer budget n s.engine).proceeds = true := by
  obtain ⟨reply, proceeds⟩ := h.replies (List.getElem?_eq_getElem inside)
  rwa [reply] at proceeds

theorem Rounds.made_asked (h : Rounds E R T budget s rounds s') :
    Made E R T budget s
      (s'.ask E budget).2 rounds [.loop budget (E.answer budget rounds.length s.engine)] where
  reached _ _ found := h.reached found
  granted _ _ found := h.replies found
  pulled := h.pulled
  trace := by
    have asked : (s'.ask E budget).2.world.trace = s'.world.trace ++
        [.loop budget (E.loop budget s'.engine).1] :=
      World.trace_record _ _
    rw [asked, h.trace_eq, h.engine_eq, List.append_assoc]
    rfl

theorem of_getElem?_concat {α : Type} {xs : List α} {x y : α} {n : Nat}
    (found : (xs ++ [x])[n]? = some y) :
    (n < xs.length ∧ xs[n]? = some y) ∨ (n = xs.length ∧ y = x) := by
  rw [List.getElem?_append] at found
  split at found
  · rename_i inside
    exact .inl ⟨inside, found⟩
  · rename_i outside
    rw [List.getElem?_singleton] at found
    split at found
    · rename_i first
      exact .inr ⟨by omega, (Option.some.inj found).symm⟩
    · cases found

theorem Rounds.made_aborted (h : Rounds E R T budget s rounds s')
    (granted : (s'.ask E budget).1 = true) :
    Made E R T budget s ((s'.ask E budget).2.iterate E R T).2
      (rounds ++ [s'.round E R budget]) [] where
  reached n r found := by
    rcases of_getElem?_concat found with ⟨inside, found⟩ | ⟨rfl, rfl⟩
    · rw [List.take_append_of_le_length (Nat.le_of_lt inside)]
      exact h.reached found
    · exact ⟨s', by simpa using h, rfl⟩
  granted n r found := by
    rcases of_getElem?_concat found with ⟨-, found⟩ | ⟨rfl, rfl⟩
    · exact h.replies found
    · refine ⟨?_, granted⟩
      rw [Engine.answer, ← h.engine_eq]
      rfl
  pulled := by
    rw [List.map_append, (iterate_round E R T budget s').2.1]
    exact h.pulled.trans (.next (s'.ask E budget).2.world (.none _))
  trace := by
    rw [(iterate_round E R T budget s').2.2.1, h.trace_eq]
    simp

end Rounds

/-- A loop whose engine grants so many iterations and then refuses asks once more than that, always
with its budget. After each grant it pulls once, and after the refusal not at all. The target is
invoked once for each pull that gives an input, with that input and in that order, and executions
grow by the number of those. A target that aborts only cuts this short. -/
theorem run_of_grants {lifespan count : Nat} (grants : E.Grants budget count s.engine)
    (lives : count ≤ lifespan) :
    let final := (s.run E R T budget lifespan).2
    (∃ rounds, (s.run E R T budget lifespan).1 = .refused ∧ rounds.length = count ∧
        Made E R T budget s final rounds [.loop budget (E.answer budget count s.engine)] ∧
        final.engine = E.asked budget (count + 1) s.engine ∧
        (∀ input, s.inputs = .stream input →
          final.inputs =
            .stream { input with reader := R.after input.capacity count input.reader }) ∧
        final.invoker.executions = s.invoker.executions + (rounds.filterMap (·.pull.data?)).length ∧
        (rounds.filterMap (·.pull.data?)).length ≤ count) ∨
      ∃ rounds, (s.run E R T budget lifespan).1 = .aborted ∧ T.Aborts ∧ rounds.length ≤ count ∧
        Made E R T budget s final rounds [] := by
  intro final
  obtain ⟨rounds, s₁, made, ending⟩ := run_rounds E R T budget lifespan s
  have no_more := grants.le fun n inside => made.granted inside
  have asked := made.ask_eq
  rcases ending with ⟨refused, same⟩ | ⟨granted, length, -⟩ | ⟨granted, aborted, same⟩
  · obtain rfl : rounds.length = count :=
      Nat.le_antisymm no_more (grants.ge (asked.symm.trans refused))
    have ended : final = (s₁.ask E budget).2 := congrArg Prod.snd same
    have closed := made.made_asked
    rw [← ended] at closed
    refine .inl
      ⟨rounds, congrArg Prod.fst same, rfl, closed, ?_, ?_, ?_, List.length_filterMap_le _ _⟩
    · rw [ended, Engine.asked_succ, ← made.engine_eq]
      rfl
    · intro input streaming
      have pulled := closed.pulled
      rw [streaming] at pulled
      simpa using pulled.of_stream.1
    · rw [ended]
      exact made.executions_eq
  · obtain rfl : rounds.length = count := Nat.le_antisymm no_more (length ▸ lives)
    rw [grants.refused, granted] at asked
    cases asked
  · have ended : final = ((s₁.ask E budget).2.iterate E R T).2 := congrArg Prod.snd same
    have closed := made.made_aborted granted
    rw [← ended] at closed
    refine .inr
      ⟨_, congrArg Prod.fst same, (iterate_round E R T budget s₁).2.2.2.2 aborted, ?_, closed⟩
    rw [List.length_append, List.length_singleton]
    refine Nat.lt_of_le_of_ne no_more fun all => ?_
    rw [all, grants.refused, granted] at asked
    cases asked

/-- Of two iterations that the demonstration program is granted, the second finds nothing on its
input. -/
theorem run_of_grants_demo :
    let s : LoopState Standalone StdinSource Unit := {
      world := World.boot [] none
      engine := Standalone.fresh
      inputs := .stream ⟨.file (Bytes.ofString "x"), streamCapacity⟩
      invoker := Invoker.fresh () }
    let final := (s.run Standalone.engine StdinSource.reader Launch.demoTarget 2 5).2
    let last := Standalone.engine.answer 2 2 s.engine
    ∃ rounds, rounds.length = 2 ∧
      Made Standalone.engine StdinSource.reader Launch.demoTarget 2 s final rounds [.loop 2 last] ∧
      final.invoker.executions = (rounds.filterMap (·.pull.data?)).length ∧
      final.invoker.executions = 1 := by
  intro s final last
  have refused :
      (s.run Standalone.engine StdinSource.reader Launch.demoTarget 2 5).1 = .refused := by
    unfold s
    rfl
  have ended := run_of_grants (E := Standalone.engine) (R := StdinSource.reader)
    (T := Launch.demoTarget) (s := s)
    (Standalone.grants 2 rfl) (by decide : 2 ≤ 5)
  rcases ended with ⟨rounds, -, length, made, -, -, executions, -⟩ | ⟨-, aborted, -⟩
  · refine ⟨rounds, length, made, ?_, by unfold final s; rfl⟩
    rw [executions]
    exact Nat.zero_add _
  · rw [refused] at aborted
    cases aborted

end LoopState

end FuzzHarness
