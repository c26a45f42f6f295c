import FuzzHarness.CoverageMap.Backend
import FuzzHarness.CoverageMap.Placeholder
import FuzzHarness.Engine
import FuzzHarness.Handshake

/-!
The placeholder map between harness and engine. The harness reserves memory and seeds the engine's
coverage pointer with it; it clears the pointer of it before it signals that set-up is complete, so
that the engine attaches its own map over a null pointer, and unmaps the memory only after that
signal. Memory that was unmapped belongs to the engine from then on.
-/

namespace FuzzHarness

structure Session (β ρ : Type) where
  world : World
  backend : β
  engine : ρ
  map : CoverageMap
  deferral : Deferral

namespace Session

variable {β ρ : Type}

def tryStrategies (B : MapBackend β) (size : Nat) :
    List MapStrategy → β → World → Option Address × β × World
  | [], b, w => (none, b, w.log .mapUnavailable)
  | strategy :: rest, b, w =>
    match B.map strategy size b with
    | (.ok region, b) =>
      (some region, b,
        (w.record (.map strategy size (some region))).log (.mapReserved strategy region))
    | (.error e, b) =>
      tryStrategies B size rest b
        ((w.record (.map strategy size none)).log (.mapStrategyFailed strategy e))

def publish (E : Engine ρ) (area : Address) (s : Session β ρ) : Session β ρ :=
  { s with world := s.world.record (.publish area), engine := E.publish area s.engine }

/-- Makes sure that the placeholder is mapped, and answers with its address. Without one, the
pointer stays as it is. -/
def reserve (B : MapBackend β) (E : Engine ρ) (s : Session β ρ) : Option Address × Session β ρ :=
  match s.map.ownership, s.map.region with
  | .engine, _ => (none, { s with world := s.world.log .mapAlreadyReleased })
  | .harness, some region => (some region, s)
  | .harness, none =>
    match tryStrategies B s.map.layout.size (MapStrategy.preferences s.map.layout.base)
      s.backend s.world with
    | (none, backend, world) => (none, { s with backend, world })
    | (some region, backend, world) =>
      let s := publish E region { s with backend, world }
      (some region, { s with map := { s.map with region := some region, published := true } })

/-- Clears the engine's pointer of the placeholder, which stays mapped. -/
def retract (E : Engine ρ) (s : Session β ρ) : Session β ρ :=
  if s.map.published then
    let s := match s.map.region with
      | some region =>
        { s with world := s.world.record (.retract region), engine := E.retract region s.engine }
      | none => s
    { s with map := { s.map with published := false } }
  else s

/-- Unmaps the placeholder after clearing the pointer of it. Memory that cannot be unmapped counts
as given away too. -/
def release (B : MapBackend β) (E : Engine ρ) (s : Session β ρ) : Session β ρ :=
  let s := s.retract E
  match s.map.region with
  | none => s
  | some region =>
    let size := s.map.layout.size
    let (result, backend) := B.unmap region size s.backend
    let world := s.world.record (.unmap region size result.isOk)
    let world := match result with
      | .ok () => world
      | .error e => world.log (.unmapFailed region e)
    { s with world, backend, map := { s.map with region := none, ownership := .engine } }

/-- What the engine is told when set-up is complete. -/
def signal (E : Engine ρ) (s : Session β ρ) : Session β ρ :=
  let announced := s.world.kernel.environment.get? (Bytes.ofString Deferral.forkServerVariable)
  let event := Event.manualInit (E.area s.engine) (E.sharedSwitch s.engine) announced
  { s with world := s.world.record event, engine := E.manualInit s.engine }

/-- Signals that set-up is complete and hands the address range over; only the first time. -/
def complete (B : MapBackend β) (E : Engine ρ) (s : Session β ρ) : Session β ρ :=
  if s.deferral.signaled then s
  else
    let s := (s.retract E).signal E
    { s with deferral := { s.deferral with signaled := true } }.release B E

def prepare (s : Session β ρ) : Except HarnessError Unit × Session β ρ :=
  let (result, world) := s.deferral.prepare s.world
  (result, { s with world })

end Session

end FuzzHarness
