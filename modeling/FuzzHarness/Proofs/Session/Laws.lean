import FuzzHarness.Proofs.Trace
import FuzzHarness.Session

/-!
What each operation on a placeholder map does, in the states it can be in: to the map, to the
engine, to the deferral and to the trace.
-/

namespace FuzzHarness

/-- A mapper grants no region at the null address when it is asked for one at another. -/
def MapBackend.NeverNull {β : Type} (B : MapBackend β) : Prop :=
  ∀ {base size b region b'}, 0 < base → ∀ strategy ∈ MapStrategy.preferences base,
    B.map strategy size b = (.ok region, b') → region ≠ 0

namespace CoverageMap

/-- A map without a region that the harness may still reserve. -/
def awaiting (layout : Layout) : CoverageMap :=
  ⟨layout, none, false, .harness⟩

def held (layout : Layout) (region : Address) (published : Bool) : CoverageMap :=
  ⟨layout, some region, published, .harness⟩

def released (layout : Layout) : CoverageMap :=
  ⟨layout, none, false, .engine⟩

end CoverageMap

namespace Session
open CoverageMap

variable {β ρ : Type}

/-- From one state to another the harness left this map, this engine and this deferral, and these
events. -/
structure Change (s s' : Session β ρ) (map : CoverageMap) (engine : ρ) (deferral : Deferral)
    (events : List Event) : Prop where
  map : s'.map = map
  engine : s'.engine = engine
  deferral : s'.deferral = deferral
  trace : s'.world.trace = s.world.trace ++ events

theorem Change.refl (s : Session β ρ) : Change s s s.map s.engine s.deferral [] :=
  ⟨rfl, rfl, rfl, by simp⟩

theorem Change.trace_same {s s' : Session β ρ} {map : CoverageMap} {engine : ρ}
    {deferral : Deferral} (change : Change s s' map engine deferral []) :
    s'.world.trace = s.world.trace := by
  simpa using change.trace

theorem prepare_change (s : Session β ρ) : Change s s.prepare.2 s.map s.engine s.deferral [] := by
  refine ⟨rfl, rfl, rfl, ?_⟩
  simp only [prepare, Deferral.prepare]
  split
  · simp [World.trace_log]
    rfl
  · simp

/-- The requests of one reservation: each is refused, save perhaps the last one made, and they end
with a grant or with the last strategy. -/
inductive Attempts (size : Nat) : List MapStrategy → Option Address → List Event → Prop
  | exhausted : Attempts size [] none []
  | granted (strategy : MapStrategy) (rest : List MapStrategy) (region : Address) :
      Attempts size (strategy :: rest) (some region) [.map strategy size (some region)]
  | refused {rest : List MapStrategy} {result : Option Address} {events : List Event}
      (strategy : MapStrategy) :
      Attempts size rest result events →
      Attempts size (strategy :: rest) result (.map strategy size none :: events)

namespace Attempts
variable {size : Nat} {strategies : List MapStrategy} {result : Option Address}
  {events : List Event}

theorem granted_eq (h : Attempts size strategies result events) :
    Trace.granted events = (result.map fun region => (region, size)).toList := by
  induction h with
  | exhausted => rfl
  | granted strategy rest region => rfl
  | refused strategy h ih => simpa using ih

theorem mem_isMap (h : Attempts size strategies result events) : ∀ e ∈ events, e.isMap := by
  induction h with
  | exhausted => simp
  | granted strategy rest region => simp [Event.isMap]
  | refused strategy h ih => simpa [Event.isMap] using ih

theorem returned_eq (h : Attempts size strategies result events) : Trace.returned events = [] :=
  Trace.view_eq_nil fun e he => (Event.views_of_isMap (h.mem_isMap e he)).1

theorem signals_eq (h : Attempts size strategies result events) : Trace.signals events = [] :=
  Trace.view_eq_nil fun e he => (Event.views_of_isMap (h.mem_isMap e he)).2.1

theorem ne_nil (h : Attempts size strategies result events) (hs : strategies ≠ []) :
    events ≠ [] := by
  cases h with
  | exhausted => exact absurd rfl hs
  | granted strategy rest region => simp
  | refused strategy h => simp

end Attempts

theorem tryStrategies_attempts (B : MapBackend β) (size : Nat) (strategies : List MapStrategy)
    (b : β) (w : World) :
    ∃ events, Attempts size strategies (tryStrategies B size strategies b w).1 events ∧
      (tryStrategies B size strategies b w).2.2.trace = w.trace ++ events := by
  induction strategies generalizing b w with
  | nil => exact ⟨[], .exhausted, by simp [tryStrategies]⟩
  | cons strategy rest ih =>
      simp only [tryStrategies]
      split
      · rename_i region b' _
        exact ⟨_, .granted strategy rest region, by simp⟩
      · rename_i e b' _
        obtain ⟨events, attempts, trace⟩ :=
          ih b' ((w.record (.map strategy size none)).log (.mapStrategyFailed strategy e))
        exact ⟨_, .refused strategy attempts, by rw [trace]; simp⟩

theorem tryStrategies_ne_null {B : MapBackend β} {size : Nat} {strategies : List MapStrategy}
    {b : β} {w : World}
    {region : Address} (hB : ∀ strategy ∈ strategies, ∀ {b region b'},
      B.map strategy size b = (.ok region, b') → region ≠ 0)
    (h : (tryStrategies B size strategies b w).1 = some region) : region ≠ 0 := by
  induction strategies generalizing b w with
  | nil => simp [tryStrategies] at h
  | cons strategy rest ih =>
      simp only [tryStrategies] at h
      split at h
      · rename_i granted b' hmap
        have same : granted = region := by simpa using h
        exact same ▸ hB strategy (by simp) hmap
      · exact ih (fun other member => hB other (List.mem_cons_of_mem _ member)) h

theorem reserve_awaiting (B : MapBackend β) (E : Engine ρ) {s : Session β ρ} {layout : Layout}
    (hm : s.map = awaiting layout) :
    ∃ attempts, Attempts layout.size (MapStrategy.preferences layout.base)
      (s.reserve B E).1 attempts ∧
      (∀ region, (s.reserve B E).1 = some region →
        Change s (s.reserve B E).2 (held layout region true) (E.publish region s.engine) s.deferral
          (attempts ++ [.publish region])) ∧
      ((s.reserve B E).1 = none →
        Change s (s.reserve B E).2 (awaiting layout) s.engine s.deferral attempts) := by
  obtain ⟨world, backend, engine, map, deferral⟩ := s
  subst hm
  obtain ⟨attempts, tried, trace⟩ :=
    tryStrategies_attempts B layout.size (MapStrategy.preferences layout.base) backend world
  refine ⟨attempts, ?_⟩
  simp only [reserve, awaiting]
  split
  · rename_i after world' outcome
    rw [outcome] at tried trace
    exact ⟨tried, by simp, fun _ => ⟨rfl, rfl, rfl, trace⟩⟩
  · rename_i region after world' outcome
    rw [outcome] at tried trace
    refine ⟨tried, ?_, by simp⟩
    intro r same
    obtain rfl : region = r := by simpa using same
    exact ⟨rfl, rfl, rfl, by simp [publish, trace]⟩

theorem reserve_held (B : MapBackend β) (E : Engine ρ) {s : Session β ρ} {layout : Layout}
    {region : Address} {published : Bool} (hm : s.map = held layout region published) :
    s.reserve B E = (some region, s) := by
  simp [reserve, hm, held]

theorem reserve_released (B : MapBackend β) (E : Engine ρ) {s : Session β ρ} {layout : Layout}
    (hm : s.map = released layout) :
    s.reserve B E = (none, { s with world := s.world.log .mapAlreadyReleased }) := by
  simp [reserve, hm, released]

theorem reserve_ne_null {B : MapBackend β} (hB : B.NeverNull) {E : Engine ρ}
    {s : Session β ρ} {layout : Layout} {region : Address} (hm : s.map = awaiting layout)
    (h : (s.reserve B E).1 = some region) : region ≠ 0 := by
  have never_null : ∀ strategy ∈ MapStrategy.preferences layout.base, ∀ {b region b'},
      B.map strategy layout.size b = (.ok region, b') → region ≠ 0 :=
    fun strategy member => hB layout.base_pos strategy member
  simp only [reserve, hm, awaiting] at h
  split at h
  · simp at h
  · rename_i granted backend world outcome
    have same : granted = region := by simpa using h
    exact same ▸ tryStrategies_ne_null never_null (congrArg Prod.fst outcome)

/-- What retracting a held placeholder leaves of the engine. -/
def withdrawn (E : Engine ρ) (region : Address) (published : Bool) (engine : ρ) : ρ :=
  if published then E.retract region engine else engine

def withdrawal (region : Address) (published : Bool) : List Event :=
  if published then [.retract region] else []

theorem retract_held (E : Engine ρ) {s : Session β ρ} {layout : Layout} {region : Address}
    {published : Bool} (hm : s.map = held layout region published) :
    Change s (s.retract E) (held layout region false)
    (withdrawn E region published s.engine) s.deferral
      (withdrawal region published) := by
  cases published with
  | false =>
      have same : s.retract E = s := by simp [retract, hm, held]
      simpa [same, withdrawn, withdrawal, ← hm] using Change.refl s
  | true => constructor <;> simp [retract, hm, held, withdrawn, withdrawal]

theorem retract_of_not_published (E : Engine ρ) {s : Session β ρ} (hp : s.map.published = false) :
    s.retract E = s := by
  simp [retract, hp]

theorem release_of_no_region (B : MapBackend β) (E : Engine ρ) {s : Session β ρ}
    (hp : s.map.published = false) (hr : s.map.region = none) : s.release B E = s := by
  simp [release, retract_of_not_published E hp, hr]

theorem release_held (B : MapBackend β) (E : Engine ρ) {s : Session β ρ} {layout : Layout}
    {region : Address} {published : Bool} (hm : s.map = held layout region published) :
    ∃ ok, Change s (s.release B E) (released layout)
      (withdrawn E region published s.engine) s.deferral
      (withdrawal region published ++ [.unmap region layout.size ok]) := by
  obtain ⟨map, engine, deferral, trace⟩ := retract_held E hm
  refine ⟨(B.unmap region layout.size (s.retract E).backend).1.isOk, ?_⟩
  simp only [release, map, held]
  constructor
  · rfl
  · exact engine
  · exact deferral
  · simp only
    split <;> simp [trace]

theorem retract_trace (E : Engine ρ) (s : Session β ρ) :
    ∃ back, (s.retract E).world.trace = s.world.trace ++ back ∧ ∀ e ∈ back, e.isWithdrawal := by
  unfold retract
  split
  · split
    · rename_i region _
      exact ⟨[.retract region], World.trace_record _ _, by simp⟩
    · exact ⟨[], (List.append_nil _).symm, by simp⟩
  · exact ⟨[], (List.append_nil _).symm, by simp⟩

theorem release_trace (B : MapBackend β) (E : Engine ρ) (s : Session β ρ) :
    ∃ given, (s.release B E).world.trace = s.world.trace ++ given ∧
      ∀ e ∈ given, e.isWithdrawal := by
  obtain ⟨back, retracted, all_back⟩ := retract_trace E s
  simp only [release]
  split
  · exact ⟨back, retracted, all_back⟩
  · rename_i region _
    let result := (B.unmap region (s.retract E).map.layout.size (s.retract E).backend).1
    refine ⟨back ++ [.unmap region (s.retract E).map.layout.size result.isOk], ?_, ?_⟩
    · rw [← List.append_assoc, ← retracted]
      split
      · exact World.trace_record _ _
      · exact (World.trace_log _ _).trans (World.trace_record _ _)
    · intro e member
      rcases List.mem_append.mp member with early | last
      · exact all_back e early
      · rw [List.mem_singleton.mp last]
        rfl

theorem region_retract (E : Engine ρ) (s : Session β ρ) :
    (s.retract E).map.region = s.map.region := by
  unfold retract
  split
  · split <;> rfl
  · rfl

theorem region_release (B : MapBackend β) (E : Engine ρ) (s : Session β ρ) :
    (s.release B E).map.region = none := by
  simp only [release]
  split
  · assumption
  · rfl

theorem region_complete (B : MapBackend β) (E : Engine ρ) (s : Session β ρ) :
    (s.complete B E).map.region = if s.deferral.signaled then s.map.region else none := by
  unfold complete
  split
  · rfl
  · exact region_release B E _

theorem deferral_reserve (B : MapBackend β) (E : Engine ρ) (s : Session β ρ) :
    (s.reserve B E).2.deferral = s.deferral := by
  unfold reserve
  split
  · rfl
  · rfl
  · split <;> rfl

theorem deferral_retract (E : Engine ρ) (s : Session β ρ) :
    (s.retract E).deferral = s.deferral := by
  unfold retract
  split
  · split <;> rfl
  · rfl

theorem deferral_release (B : MapBackend β) (E : Engine ρ) (s : Session β ρ) :
    (s.release B E).deferral = s.deferral := by
  simp only [release]
  split
  · exact deferral_retract E s
  · exact deferral_retract E s

def announced (s : Session β ρ) : Option Bytes :=
  s.world.kernel.environment.get? (Bytes.ofString Deferral.forkServerVariable)

theorem complete_of_signaled (B : MapBackend β) (E : Engine ρ) {s : Session β ρ}
    (hd : s.deferral.signaled = true) : s.complete B E = s := by
  simp [complete, hd]

/-- A signal for the first time, with what is taken back before it and what is given back after
it. -/
theorem complete_trace (B : MapBackend β) (E : Engine ρ) (s : Session β ρ)
    (pending : s.deferral.signaled = false) :
    ∃ back area switch announced given,
      (s.complete B E).world.trace = s.world.trace ++
        (back ++ .manualInit area switch announced :: given) ∧
        (∀ e ∈ back, e.isWithdrawal) ∧ ∀ e ∈ given, e.isWithdrawal := by
  let t : Session β ρ := { (s.retract E).signal E with
    deferral := { ((s.retract E).signal E).deferral with signaled := true } }
  have same : s.complete B E = t.release B E := by simp [complete, pending, t]
  obtain ⟨back, retracted, all_back⟩ := retract_trace E s
  obtain ⟨given, released, all_given⟩ := release_trace B E t
  let r := s.retract E
  have signaled : t.world.trace =
      s.world.trace ++
        (back ++ [.manualInit (E.area r.engine) (E.sharedSwitch r.engine) r.announced]) := by
    rw [← List.append_assoc, ← retracted]
    exact World.trace_record _ _
  refine ⟨back, E.area r.engine, E.sharedSwitch r.engine, r.announced, given, ?_, all_back,
    all_given⟩
  rw [same, released, signaled]
  simp only [List.append_assoc, List.singleton_append]

theorem complete_of_no_region (B : MapBackend β) (E : Engine ρ) {s : Session β ρ}
    (hp : s.map.published = false) (hr : s.map.region = none) (hd : s.deferral.signaled = false) :
    ∃ switch announced, Change s (s.complete B E) s.map
      (E.manualInit s.engine) { s.deferral with signaled := true }
      [.manualInit (E.area s.engine) switch announced] := by
  refine ⟨E.sharedSwitch s.engine, s.announced, ?_⟩
  simp only [complete, hd, retract_of_not_published E hp]
  rw [if_neg (by simp), release_of_no_region B E (by exact hp) (by exact hr)]
  constructor <;> simp [signal, announced]

theorem complete_held (B : MapBackend β) (E : Engine ρ) {s : Session β ρ} {layout : Layout}
    {region : Address} {published : Bool} (hm : s.map = held layout region published)
    (hd : s.deferral.signaled = false) :
    ∃ switch announced ok, Change s (s.complete B E) (released layout)
      (E.manualInit (withdrawn E region published s.engine)) { s.deferral with signaled := true }
      (withdrawal region published ++
        [.manualInit (E.area (withdrawn E region published s.engine)) switch announced,
        .unmap region layout.size ok]) := by
  obtain ⟨map, engine, deferral, trace⟩ := retract_held E hm
  let t : Session β ρ :=
    { (s.retract E).signal E with deferral := { s.deferral with signaled := true } }
  have ht : t.map = held layout region false := map
  obtain ⟨ok, map', engine', deferral', trace'⟩ := release_held B E ht
  have same : s.complete B E = t.release B E := by
    simp [complete, hd, t, signal, deferral]
  refine ⟨E.sharedSwitch (s.retract E).engine, (s.retract E).announced, ok, ?_⟩
  rw [same]
  refine ⟨map', ?_, deferral', ?_⟩
  · rw [engine']
    simp [withdrawn, t, signal, engine]
  · rw [trace']
    simp [withdrawal, t, signal, trace, engine, announced]

end Session

end FuzzHarness
