import FuzzHarness.Proofs.Run.Summary

/-!
The invoker under calls in any order. It warms the target up once, however often it is asked to, and
counts the invocations and nothing else.
-/

namespace FuzzHarness

def Target.fate {τ : Type} (T : Target τ) (data : Bytes) (state : τ) : Survival :=
  if (T.react data state).1.aborts then .aborted else .alive

namespace Invoker

variable {τ : Type}

def invoked (T : Target τ) (data : Bytes) (i : Invoker τ) : Invoker τ :=
  let executions := match T.fate data i.target with
    | .alive => i.executions + 1
    | .aborted => i.executions
  { i with target := (T.react data i.target).2, executions }

theorem invoke_eq (T : Target τ) (area : Option Address) (data : Bytes) (i : Invoker τ)
    (w : World) :
    (i.invoke T area data w).1 = T.fate data i.target ∧
    (i.invoke T area data w).2.1 = i.invoked T data := by
  have called :
    i.call T area data w = (T.fate data i.target, { i with target := (T.react data i.target).2 },
      (i.call T area data w).2.2) := rfl
  unfold invoke invoked
  rw [called]
  cases T.fate data i.target <;> exact ⟨rfl, rfl⟩

def fed (T : Target τ) (i : Invoker τ) : Option Bytes → Survival × Invoker τ
  | none => (.alive, i)
  | some data => (T.fate data i.target, i.invoked T data)

theorem invoke_world (T : Target τ) (area : Option Address) (data : Bytes) (i : Invoker τ)
    (w : World) :
    (i.invoke T area data w).2.2 =
      (T.react data i.target).1.effects.foldl World.perform (w.record (.invoke data area)) := by
  have called :
    i.call T area data w = (T.fate data i.target, { i with target := (T.react data i.target).2 },
      (i.call T area data w).2.2) := rfl
  unfold invoke
  rw [called]
  cases T.fate data i.target <;> rfl

/-- A call to an invoker. One that can reach the target in the middle of a run comes with the
coverage pointer. -/
inductive Call where
  | setup (arguments : List Bytes)
  | warmUp (area : Option Address)
  | invoke (area : Option Address) (data : Bytes)

namespace Call

def isWarmUp : Call → Bool
  | .warmUp _ => true
  | _ => false

def isInvoke : Call → Bool
  | .invoke .. => true
  | _ => false

/-- What reaches the target of a call to an invoker that is warmed up or not. -/
def events (T : Target τ) (warm : Bool) : Call → List Event
  | .setup arguments => T.setupEvents arguments
  | .warmUp area => if warm then [] else [.invoke warmUpInput area]
  | .invoke area data => [.invoke data area]

/-- What reaches the target of calls one after the other. -/
def history (T : Target τ) : Bool → List Call → List Event
  | _, [] => []
  | warm, call :: calls => call.events T warm ++ history T (warm || call.isWarmUp) calls

end Call

def serve (T : Target τ) (i : Invoker τ) (w : World) : Call → Survival × Invoker τ × World
  | .setup arguments => (.alive, (i.setup T arguments w).2)
  | .warmUp area => (i.warmUp T area w).2
  | .invoke area data => i.invoke T area data w

/-- Serves calls one after the other, until the target aborts the process. -/
def serveAll (T : Target τ) : List Call → Invoker τ → World → Survival × Invoker τ × World
  | [], i, w => (.alive, i, w)
  | call :: calls, i, w =>
    match i.serve T w call with
    | (.aborted, i, w) => (.aborted, i, w)
    | (.alive, i, w) => serveAll T calls i w

theorem warmUp_answers (T : Target τ) (area : Option Address) (i : Invoker τ) (w : World) :
    (i.warmUp T area w).1 = !i.warmedUp ∧
      (i.warmUp T area w).2.2.1.executions = i.executions ∧
      (i.warmUp T area w).2.2.1.warmedUp = true ∧
      (i.warmUp T area w).2.2.2.trace = w.trace ++
        (if i.warmedUp then [] else [.invoke warmUpInput area]) ∧
      (i.warmedUp = true → (i.warmUp T area w).2 = (.alive, i, w)) := by
  unfold warmUp
  cases warm : i.warmedUp with
  | true => simp [warm]
  | false =>
      refine ⟨rfl, rfl, rfl, call_trace T area warmUpInput _ w, ?_⟩
      intro unreached
      cases unreached

def warmUpInput? (i : Invoker τ) : Option Bytes :=
  if i.warmedUp then none else some warmUpInput

def warmed (T : Target τ) (i : Invoker τ) : Survival × Invoker τ :=
  if i.warmedUp then (.alive, i)
  else (T.fate warmUpInput i.target,
    { i with warmedUp := true, target := (T.react warmUpInput i.target).2 })

theorem warmUp_eq (T : Target τ) (area : Option Address) (i : Invoker τ) (w : World) :
    ((i.warmUp T area w).2.1, (i.warmUp T area w).2.2.1) = i.warmed T ∧
      ∃ events, (i.warmUp T area w).2.2.2.trace = w.trace ++ events ∧
        Trace.payloads events = i.warmUpInput?.toList ∧ Trace.answers events = [] := by
  obtain ⟨-, -, -, trace, -⟩ := warmUp_answers T area i w
  refine ⟨?_, _, trace, ?_⟩
  · unfold warmUp warmed
    split <;> rfl
  · unfold warmUpInput?
    split <;> exact ⟨rfl, rfl⟩

theorem serve_step (T : Target τ) (call : Call) (i : Invoker τ) (w : World) :
    (i.serve T w call).2.2.trace = w.trace ++ call.events T i.warmedUp ∧
      (i.serve T w call).2.1.warmedUp = (i.warmedUp || call.isWarmUp) ∧
      ((i.serve T w call).1 = .alive →
        (i.serve T w call).2.1.executions = i.executions + if call.isInvoke then 1 else 0) := by
  cases call with
  | setup arguments =>
      obtain ⟨executions, warmedUp⟩ := counters_setup T arguments i w
      exact ⟨setup_trace T arguments i w, warmedUp.trans (Bool.or_false _).symm,
        fun _ => executions⟩
  | warmUp area =>
      obtain ⟨-, executions, warmedUp, trace, -⟩ := warmUp_answers T area i w
      exact ⟨trace, warmedUp.trans (Bool.or_true _).symm, fun _ => executions⟩
  | invoke area data =>
      obtain ⟨trace, -⟩ := invoke_accounts T area data i w
      obtain ⟨fate, same⟩ := invoke_eq T area data i w
      refine ⟨trace, (congrArg warmedUp same).trans (Bool.or_false _).symm, fun alive => ?_⟩
      have alive : T.fate data i.target = .alive := fate.symm.trans alive
      refine (congrArg executions same).trans ?_
      rw [invoked, alive]
      rfl

/-- However calls follow one another, the first warm-up alone reaches the target, and executions
count the invocations. -/
theorem serveAll_accounts (T : Target τ) (calls : List Call) (i : Invoker τ) (w : World) :
    (∃ made, made <+: calls ∧
      (serveAll T calls i w).2.2.trace = w.trace ++ Call.history T i.warmedUp made ∧
        ((serveAll T calls i w).1 = .alive → made = calls)) ∧
      ((serveAll T calls i w).1 = .alive →
        (serveAll T calls i w).2.1.executions = i.executions + calls.countP (·.isInvoke) ∧
          (serveAll T calls i w).2.1.warmedUp = (i.warmedUp || calls.any (·.isWarmUp))) := by
  induction calls generalizing i w with
  | nil =>
      refine ⟨⟨[], List.nil_prefix, (List.append_nil _).symm, fun _ => rfl⟩, fun _ => ⟨rfl, ?_⟩⟩
      exact (Bool.or_false _).symm
  | cons call calls ih =>
      obtain ⟨trace, warmedUp, executions⟩ := serve_step T call i w
      unfold serveAll
      split
      · rename_i outcome
        rw [outcome] at trace
        refine ⟨⟨[call], by simp, by simpa [Call.history] using trace, ?_⟩, ?_⟩
        · intro alive
          cases alive
        · intro alive
          cases alive
      · rename_i i₁ w₁ outcome
        rw [outcome] at trace warmedUp executions
        have counted : i₁.executions = i.executions + if call.isInvoke then 1 else 0 :=
          executions rfl
        obtain ⟨⟨made, early, later, all⟩, rest⟩ := ih i₁ w₁
        refine ⟨⟨call :: made, by simpa using early, ?_, fun alive => congrArg _ (all alive)⟩,
          fun alive => ?_⟩
        · rw [later, trace, warmedUp, List.append_assoc]
          rfl
        · obtain ⟨executions', warmedUp'⟩ := rest alive
          refine ⟨?_, by rw [warmedUp', warmedUp, List.any_cons, Bool.or_assoc]⟩
          rw [executions', counted, List.countP_cons]
          omega

end Invoker

end FuzzHarness
