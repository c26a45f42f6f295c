import FuzzHarness.Proofs.Invoker
import FuzzHarness.Proofs.Run.Rounds
import FuzzHarness.Scripted.Stream
import FuzzHarness.Scripted.Target

/-!
The countdown of a standalone engine. The first question for another iteration settles how many
there are, and nothing that is asked or told later changes it. So loops over one standalone engine
come to an end by themselves: the first uses up its budget, and those after it get nothing.
-/

namespace FuzzHarness

namespace Engine

/-- What an engine can be asked or told from outside. -/
inductive Request where
  | publish (area : Address)
  | retract (area : Address)
  | setSharedMemory (on : Bool)
  | storeSwitch (word : Int)
  | manualInit
  | setReportFd (fd : Fd)
  | loop (budget : Nat)

def Request.budget? : Request → Option Nat
  | .loop budget => some budget
  | _ => none

variable {ρ : Type}

def serve (E : Engine ρ) : Request → ρ → ρ
  | .publish area, e => E.publish area e
  | .retract area, e => E.retract area e
  | .setSharedMemory on, e => E.setSharedMemory on e
  | .storeSwitch word, e => E.storeSwitch word e
  | .manualInit, e => E.manualInit e
  | .setReportFd fd, e => (E.setReportFd fd e).2
  | .loop budget, e => (E.loop budget e).2

/-- The answers to the questions for another iteration, of which each says whether the harness goes
on. -/
def answers (E : Engine ρ) : List Request → ρ → List Bool
  | [], _ => []
  | request :: requests, e =>
    (request.budget?.map fun budget => (E.loop budget e).1.proceeds).toList ++
      E.answers requests (E.serve request e)

end Engine

namespace Standalone
open Engine (Request)

theorem remaining_serve {request : Request} (h : request.budget? = none) (s : Standalone) :
    (engine.serve request s).remaining = s.remaining := by
  cases request with
  | loop budget => cases h
  | retract area =>
      simp only [Engine.serve, engine, retract]
      split <;> rfl
  | publish _ | setSharedMemory _ | storeSwitch _ | manualInit | setReportFd _ => rfl

/-- Once settled, the iterations that are left are counted down, whatever the budgets of later
questions say. -/
theorem answers_settled (requests : List Request) {s : Standalone} {left : Nat}
    (settled : s.remaining = some left) :
    engine.answers requests s = (List.range (requests.filterMap Request.budget?).length).map
      fun n => decide (n < left)
    := by
  induction requests generalizing s left with
  | nil => rfl
  | cons request requests ih =>
      cases asked : request.budget? with
      | none =>
          rw [Engine.answers, asked, List.filterMap_cons_none asked]
          exact ih ((remaining_serve asked s).trans settled)
      | some budget =>
          obtain rfl : request = .loop budget := by
            cases request <;> cases asked
            rfl
          obtain ⟨granted, counted⟩ := loop_left budget s
          rw [settled, Option.getD_some] at granted counted
          rw [Engine.answers, asked, Option.map_some, Option.toList_some, granted,
            List.filterMap_cons_some asked, List.length_cons, List.range_succ_eq_map, List.map_cons,
            List.map_map, List.singleton_append]
          refine congrArg (_ :: ·) ((ih counted).trans (List.map_congr_left fun n _ => ?_))
          simp only [Function.comp_apply, decide_eq_decide]
          omega

theorem answers_fresh (requests : List Request) {s : Standalone} (fresh : s.remaining = none) :
    engine.answers requests s =
      (List.range (requests.filterMap Request.budget?).length).map fun n =>
        decide (n < (requests.filterMap Request.budget?).headD 0) := by
  induction requests generalizing s with
  | nil => rfl
  | cons request requests ih =>
      cases asked : request.budget? with
      | none =>
          rw [Engine.answers, asked, List.filterMap_cons_none asked]
          exact ih ((remaining_serve asked s).trans fresh)
      | some budget =>
          have same :=
            answers_settled (request :: requests) (s := { s with remaining := some budget }) rfl
          rw [List.filterMap_cons_some asked] at same ⊢
          rw [List.headD_cons, ← same]
          obtain rfl : request = .loop budget := by
            cases request <;> cases asked
            rfl
          simp only [Engine.answers, Engine.serve, engine, loop, fresh, Option.getD_none,
            Option.getD_some]
          cases budget <;> rfl

end Standalone

namespace LoopState

variable {ρ ι τ : Type} {E : Engine ρ} {R : Reader ι} {T : Target τ} {budget count lifespan : Nat}
  {s s' : LoopState ρ ι τ}

theorem executions_iterate_le (E : Engine ρ) (R : Reader ι) (T : Target τ) (s : LoopState ρ ι τ) :
    (s.iterate E R T).2.invoker.executions ≤ s.invoker.executions + 1 := by
  unfold iterate
  simp only
  split
  · exact Nat.le_succ _
  · rename_i data _
    obtain ⟨-, same⟩ :=
      Invoker.invoke_eq T (E.area s.engine) data s.invoker (s.inputs.next R s.world).2.2
    simp only
    rw [same, Invoker.invoked]
    cases T.fate data s.invoker.target with
    | alive => exact Nat.le_refl _
    | aborted => exact Nat.le_succ _

theorem countP_isGrant_round (h : (s.ask E budget).1 = true) :
    ((s.round E R budget).events budget).countP (·.isGrant) = 1 := by
  have granted : (s.round E R budget).reply.proceeds = true := h
  have reads : (s.round E R budget).reads.countP (·.isGrant) = 0 := by
    unfold round Dispatcher.reads
    simp only
    split <;> rfl
  have invocation : (s.round E R budget).invocation.countP (·.isGrant) = 0 := by
    unfold Round.invocation
    cases (s.round E R budget).pull.data? <;> rfl
  rw [Round.events, List.countP_cons, List.countP_append, reads, invocation]
  simp [granted]

theorem Rounds.countP_isGrant {rounds : List Round} (h : Rounds E R T budget s rounds s') :
    (rounds.flatMap (·.events budget)).countP (·.isGrant) = rounds.length := by
  induction h with
  | none s => rfl
  | more granted _ _ ih =>
      rw [List.flatMap_cons, List.countP_append, countP_isGrant_round granted, ih, List.length_cons,
        Nat.add_comm]

/-- A loop that comes to an end by itself and uses up so many iterations, unless the target aborts
before. -/
structure Spends (E : Engine ρ) (T : Target τ) (budget count : Nat) (s : LoopState ρ ι τ)
    (ended : LoopEnd × LoopState ρ ι τ) : Prop where
  ends : ended.1 = .refused ∨ ended.1 = .aborted ∧ T.Aborts
  engine : ended.1 = .refused → ended.2.engine = E.asked budget (count + 1) s.engine
  grants : ∃ events, ended.2.world.trace = s.world.trace ++ events ∧
    events.countP (·.isGrant) ≤ count ∧
    (ended.1 = .refused → events.countP (·.isGrant) = count)
  executions : ended.2.invoker.executions ≤ s.invoker.executions + count

theorem Spends.not_tornDown {ended : LoopEnd × LoopState ρ ι τ}
    (h : Spends E T budget count s ended) :
    ended.1 ≠ .tornDown := by
  intro torn
  rcases h.ends with refused | ⟨aborted, -⟩
  · rw [torn] at refused
    cases refused
  · rw [torn] at aborted
    cases aborted

theorem run_spends (grants : E.Grants budget count s.engine) (lives : count ≤ lifespan) :
    Spends E T budget count s (s.run E R T budget lifespan) := by
  obtain ⟨rounds, s₁, made, ending⟩ := run_rounds E R T budget lifespan s
  have no_more : rounds.length ≤ count := grants.le fun n inside => made.granted inside
  have asked := made.ask_eq
  have executed : s₁.invoker.executions ≤ s.invoker.executions + rounds.length := by
    rw [made.executions_eq]
    exact Nat.add_le_add_left (List.length_filterMap_le _ _) _
  rcases ending with ⟨refused, ended⟩ | ⟨granted, length, -⟩ | ⟨granted, aborted, ended⟩
  · have all : rounds.length = count :=
      Nat.le_antisymm no_more (grants.ge (asked.symm.trans refused))
    obtain ⟨reply, answer, trace, invoker⟩ := ask_accounts E budget s₁
    have granted : (rounds.flatMap (Round.events budget) ++ [Event.loop budget reply]).countP
        Event.isGrant = count := by
      have refusal : reply.proceeds = false := answer.symm.trans refused
      rw [List.countP_append, made.countP_isGrant, all]
      simp [refusal]
    rw [ended]
    refine ⟨.inl rfl, fun _ => ?_, ⟨_, ?_, Nat.le_of_eq granted, fun _ => granted⟩, ?_⟩
    · rw [Engine.asked_succ, ← all, ← made.engine_eq]
      rfl
    · rw [trace, made.trace_eq, List.append_assoc]
    · rw [invoker]
      exact all ▸ executed
  · obtain rfl : rounds.length = count := Nat.le_antisymm no_more (length ▸ lives)
    rw [grants.refused, granted] at asked
    cases asked
  · have fewer : rounds.length < count := by
      refine Nat.lt_of_le_of_ne no_more fun all => ?_
      rw [all, grants.refused, granted] at asked
      cases asked
    obtain ⟨-, -, trace, -, aborts⟩ := iterate_round E R T budget s₁
    rw [ended]
    refine ⟨.inr ⟨rfl, aborts aborted⟩, nofun,
      ⟨_, by rw [trace, made.trace_eq, List.append_assoc], ?_, nofun⟩, ?_⟩
    · rw [List.countP_append, made.countP_isGrant, countP_isGrant_round granted]
      exact fewer
    · have last := executions_iterate_le E R T (s₁.ask E budget).2
      have invoker : (s₁.ask E budget).2.invoker = s₁.invoker := rfl
      rw [invoker] at last
      simp only
      omega

/-- A loop that does not use up the life of its process ends as it would in any longer life. -/
theorem run_of_le {lifespan' : Nat} (ended : (s.run E R T budget lifespan).1 ≠ .tornDown)
    (longer : lifespan ≤ lifespan') :
    s.run E R T budget lifespan' = s.run E R T budget lifespan := by
  induction lifespan generalizing s lifespan' with
  | zero =>
      cases asked : (s.ask E budget).1 with
      | false => rw [run_of_refused asked, run_of_refused asked]
      | true =>
          rw [run_zero_of_granted asked] at ended
          exact absurd rfl ended
  | succ lifespan ih =>
      obtain ⟨lifespan', rfl⟩ : ∃ n, lifespan' = n + 1 := ⟨lifespan' - 1, by omega⟩
      cases asked : (s.ask E budget).1 with
      | false => rw [run_of_refused asked, run_of_refused asked]
      | true =>
          cases survival : ((s.ask E budget).2.iterate E R T).1 with
          | aborted => rw [run_succ_of_aborted asked survival, run_succ_of_aborted asked survival]
          | alive =>
              rw [run_succ_of_alive asked survival] at ended ⊢
              rw [run_succ_of_alive asked survival]
              exact ih ended (Nat.le_of_succ_le_succ longer)

/-- Loops one after the other over the same parties, each with its own budget. A loop after which
the process does not live on is the last. -/
def runs (E : Engine ρ) (R : Reader ι) (T : Target τ) (lifespan : Nat) :
    List Budget → LoopState ρ ι τ → List (LoopEnd × LoopState ρ ι τ)
  | [], _ => []
  | budget :: budgets, s =>
    let ended := s.run E R T budget.count lifespan
    ended :: match ended.1 with
      | .refused => runs E R T lifespan budgets ended.2
      | .aborted | .tornDown => []

theorem runs_of_refused {budget : Budget} {ended : LoopEnd × LoopState ρ ι τ}
    (run : s.run E R T budget.count lifespan = ended) (refused : ended.1 = .refused)
    (budgets : List Budget) :
    s.runs E R T lifespan (budget :: budgets) = ended :: ended.2.runs E R T lifespan budgets := by
  rw [runs, run, refused]

theorem runs_of_aborted {budget : Budget} {ended : LoopEnd × LoopState ρ ι τ}
    (run : s.run E R T budget.count lifespan = ended) (aborted : ended.1 = .aborted)
    (budgets : List Budget) :
    s.runs E R T lifespan (budget :: budgets) = [ended] := by
  rw [runs, run, aborted]

section Standalone

variable {s : LoopState Standalone ι τ}

theorem run_exhausted (exhausted : s.engine.remaining = some 0) (budget lifespan : Nat) :
    s.run Standalone.engine R T budget lifespan =
      (.refused, { s with world := s.world.record (.loop budget (.ofBool false)) }) := by
  have asked : s.ask Standalone.engine budget =
      (false, { s with world := s.world.record (.loop budget (.ofBool false)) }) := by
    rcases s with ⟨world, ⟨area, remaining, initialized, sharedMemory⟩, inputs, invoker⟩
    obtain rfl : remaining = some 0 := exhausted
    rfl
  rw [run_of_refused (congrArg Prod.fst asked), asked]

theorem runs_exhausted (exhausted : s.engine.remaining = some 0) (budgets : List Budget)
    (lifespan : Nat) :
    (s.runs Standalone.engine R T lifespan budgets).length = budgets.length ∧
      (∀ lifespan', s.runs Standalone.engine R T lifespan' budgets =
        s.runs Standalone.engine R T lifespan budgets) ∧
      ∀ ended ∈ s.runs Standalone.engine R T lifespan budgets,
        ended.1 = .refused ∧ ended.2.inputs = s.inputs ∧ ended.2.invoker = s.invoker ∧
          ∃ events, ended.2.world.trace = s.world.trace ++ events ∧
            events.countP (·.isGrant) = 0 := by
  induction budgets generalizing s with
  | nil => exact ⟨rfl, fun _ => rfl, fun ended member => by cases member⟩
  | cons budget budgets ih =>
      let asked : LoopState Standalone ι τ :=
        { s with world := s.world.record (.loop budget.count (.ofBool false)) }
      have trace : asked.world.trace = s.world.trace ++ [.loop budget.count (.ofBool false)] :=
        World.trace_record _ _
      obtain ⟨length, same, later⟩ := ih (s := asked) exhausted
      have unrolled : ∀ lifespan, s.runs Standalone.engine R T lifespan (budget :: budgets) =
          (.refused, asked) :: asked.runs Standalone.engine R T lifespan budgets := fun lifespan =>
        runs_of_refused (run_exhausted exhausted budget.count lifespan) rfl budgets
      refine ⟨?_, fun lifespan' => ?_, fun ended member => ?_⟩
      · rw [unrolled, List.length_cons, length, List.length_cons]
      · rw [unrolled, unrolled, same]
      · rw [unrolled] at member
        rcases List.mem_cons.mp member with rfl | member
        · exact ⟨rfl, rfl, rfl, _, trace, rfl⟩
        · obtain ⟨refused, inputs, invoker, events, said, none⟩ := later ended member
          refine ⟨refused, inputs, invoker, .loop budget.count (.ofBool false) :: events, ?_, ?_⟩
          · rw [said, trace, List.append_assoc]
            rfl
          · rw [List.countP_cons_of_neg (by simp [LoopReply.proceeds_ofBool]), none]

/-- However a standalone engine is used, its n-th question for another iteration, counted from 0, is
granted exactly if n is less than the budget of the first. So loops over a fresh one all come to an
end, in the same way in every life of the process that is long enough for the first budget: the
first loop uses up its budget, and every later one is refused without pulling an input. Executions
grow by no more than the first budget in all. A target that aborts only cuts this short. -/
theorem countdown_bounds_runs (R : Reader ι) (T : Target τ) :
    (∀ (requests : List Engine.Request) (e : Standalone), e.remaining = none →
      Standalone.engine.answers requests e =
        (List.range (requests.filterMap Engine.Request.budget?).length).map fun n =>
          decide (n < (requests.filterMap Engine.Request.budget?).headD 0)) ∧
    ∀ (budget : Budget) (budgets : List Budget) (s : LoopState Standalone ι τ) (lifespan : Nat),
      s.engine.remaining = none → budget.count ≤ lifespan →
      let first := s.run Standalone.engine R T budget.count lifespan
      ∃ later, s.runs Standalone.engine R T lifespan (budget :: budgets) = first :: later ∧
        s.runs Standalone.engine R T lifespan (budget :: budgets) =
          s.runs Standalone.engine R T budget.count (budget :: budgets) ∧
        Spends Standalone.engine T budget.count budget.count s first ∧
        (first.1 = .refused → later.length = budgets.length) ∧
        (∀ ended ∈ later, ended.1 = .refused ∧ ended.2.inputs = first.2.inputs ∧
          ended.2.invoker = first.2.invoker ∧
          ∃ events, ended.2.world.trace = first.2.world.trace ++ events ∧
            events.countP (·.isGrant) = 0) ∧
        ∀ ended ∈ first :: later, ended.2.invoker.executions ≤
          s.invoker.executions + budget.count := by
  refine ⟨fun requests e fresh => Standalone.answers_fresh requests fresh, ?_⟩
  intro budget budgets s lifespan fresh lives first
  have grants : Standalone.engine.Grants budget.count budget.count s.engine :=
    Standalone.grants budget.count fresh
  have spends : Spends Standalone.engine T budget.count budget.count s first :=
    run_spends grants lives
  have shortest : s.run Standalone.engine R T budget.count budget.count = first :=
    (run_of_le (run_spends grants (Nat.le_refl _)).not_tornDown lives).symm
  rcases spends.ends with refused | ⟨aborted, -⟩
  · have exhausted : first.2.engine.remaining = some 0 := by
      rw [spends.engine refused, Engine.asked_succ, (Standalone.loop_left _ _).2,
        Standalone.left_asked, fresh]
      simp
    obtain ⟨length, lasting, later⟩ := runs_exhausted (R := R) (T := T) exhausted budgets lifespan
    refine ⟨_, runs_of_refused rfl refused budgets, ?_, spends, fun _ => length, later,
      fun ended member => ?_⟩
    · exact (runs_of_refused rfl refused budgets).trans
        ((congrArg (first :: ·) (lasting budget.count).symm).trans
          (runs_of_refused shortest refused budgets).symm)
    · rcases List.mem_cons.mp member with rfl | member
      · exact spends.executions
      · rw [(later ended member).2.2.1]
        exact spends.executions
  · refine ⟨[], runs_of_aborted rfl aborted budgets, ?_, spends, fun refused => ?_,
      fun ended member => ?_,
      fun ended member => ?_⟩
    · exact (runs_of_aborted rfl aborted budgets).trans
        (runs_of_aborted shortest aborted budgets).symm
    · rw [aborted] at refused
      cases refused
    · cases member
    · rw [List.mem_singleton.mp member]
      exact spends.executions

/-- Of two loops over an endless stream, asked for two iterations and then for five, the first makes
two and the second none. -/
theorem countdown_bounds_runs_endless :
    let requests : List Engine.Request := [.loop 1, .manualInit, .loop 9]
    let s : LoopState Standalone (List Scripted.StreamItem) Nat := {
      world := World.boot [] none
      engine := Standalone.fresh
      inputs := .stream ⟨[.endless 0x39], 4⟩
      invoker := Invoker.fresh 0 }
    let all :=
      s.runs Standalone.engine Scripted.StreamItem.reader Scripted.TargetScript.silent.plain 7
      [⟨2, by decide, by decide⟩, ⟨5, by decide, by decide⟩]
    Standalone.engine.answers requests Standalone.fresh = [true, false] ∧ all.length = 2 ∧
      ∀ ended ∈ all, ended.2.invoker.executions ≤ 2 := by
  intro requests s all
  obtain ⟨answered, bounds⟩ :=
    countdown_bounds_runs Scripted.StreamItem.reader Scripted.TargetScript.silent.plain
  obtain ⟨later, same, -, spends, length, -, executions⟩ := bounds ⟨2, by decide, by decide⟩
    [⟨5, by decide, by decide⟩] s 7 rfl (by decide)
  have lives : ¬Scripted.TargetScript.silent.plain.Aborts := by
    rintro ⟨data, state, ⟨⟩⟩
  have refused := spends.ends.resolve_right fun ended => lives ended.2
  have made : all = _ := same
  refine ⟨(answered requests Standalone.fresh rfl).trans (by decide), ?_, ?_⟩
  · rw [made, List.length_cons, length refused]
    rfl
  · rw [made]
    exact executions

end Standalone

end LoopState

end FuzzHarness
