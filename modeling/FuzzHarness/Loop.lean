import FuzzHarness.Engine
import FuzzHarness.Input
import FuzzHarness.Mode
import FuzzHarness.Target

/-!
The persistent loop. The engine is asked before every iteration and alone decides whether there is
one; an iteration pulls one input and invokes the target with it, if there is one.

An engine may also end the process from outside, at any time. `lifespan` bounds the iterations that
the process lives to finish; a loop that the engine has not ended by then is torn down.
-/

namespace FuzzHarness

inductive LoopEnd where
  | refused
  | aborted
  | tornDown
  deriving DecidableEq, Repr

structure LoopState (ρ ι τ : Type) where
  world : World
  engine : ρ
  inputs : Dispatcher ι
  invoker : Invoker τ

namespace LoopState

variable {ρ ι τ : Type}

def ask (E : Engine ρ) (budget : Nat) (s : LoopState ρ ι τ) : Bool × LoopState ρ ι τ :=
  let (reply, engine) := E.loop budget s.engine
  (reply.proceeds, { s with engine, world := s.world.record (.loop budget reply) })

/-- Pulls one input and invokes the target with it, if there is one. -/
def iterate (E : Engine ρ) (R : Reader ι) (T : Target τ) (s : LoopState ρ ι τ) :
    Survival × LoopState ρ ι τ :=
  let (pull, inputs, world) := s.inputs.next R s.world
  match pull.data? with
  | none => (.alive, { s with inputs, world })
  | some data =>
    let (survival, invoker, world) := s.invoker.invoke T (E.area s.engine) data world
    (survival, { s with inputs, world, invoker })

/-- Runs the loop for at most so many iterations. -/
def run (E : Engine ρ) (R : Reader ι) (T : Target τ) (budget : Nat) :
    Nat → LoopState ρ ι τ → LoopEnd × LoopState ρ ι τ
  | lifespan, s =>
    match s.ask E budget with
    | (false, s) => (.refused, s)
    | (true, s) =>
      match lifespan with
      | 0 => (.tornDown, s)
      | lifespan + 1 =>
        match s.iterate E R T with
        | (.aborted, s) => (.aborted, s)
        | (.alive, s) => run E R T budget lifespan s

end LoopState

end FuzzHarness
