import FuzzHarness.Proofs.CoverageMap.AddressSpace
import FuzzHarness.Proofs.Session.Custody

/-!
The memory behind a placeholder, when its mapper asks a system for it. All that a session does to
the memory of its process is to ask for memory, at addresses that may be taken, and to give back
what it holds; so whatever it did, it can go back to the memory there was at the start.
-/

namespace FuzzHarness.Session
open CoverageMap Memory

variable {β μ κ : Type} {B : MapBackend β} {M : Memory μ} {view : μ → Nat → Option κ} {limit : Nat}

def holding (s : Session β Standalone) : Holding β :=
  ⟨s.backend, (s.map.region.map fun region => (region, s.map.layout.size)).toList⟩

/-- What a session does to the memory of its process is to make calls to its mapper. -/
def Calls (B : MapBackend β) (s s' : Session β Standalone) : Prop :=
  ∃ calls, s'.holding = s.holding.run B calls

theorem Calls.of_same {s s' : Session β Standalone} (same : s'.holding = s.holding) :
    Calls B s s' :=
  ⟨[], same⟩

theorem Calls.trans {s s' s'' : Session β Standalone} (h : Calls B s s') (h' : Calls B s' s'') :
    Calls B s s'' := by
  obtain ⟨calls, reached⟩ := h
  obtain ⟨more, finished⟩ := h'
  refine ⟨calls ++ more, ?_⟩
  rw [finished, reached]
  exact List.foldl_append.symm

theorem tryStrategies_calls (B : MapBackend β) {size : Nat} (sized : 0 < size)
    (strategies : List MapStrategy) (b : β) (w : World) :
    ∃ calls, (⟨b, []⟩ : Holding β).run B calls =
      ⟨(tryStrategies B size strategies b w).2.1,
        ((tryStrategies B size strategies b w).1.map fun region => (region, size)).toList⟩ := by
  induction strategies generalizing b w with
  | nil => exact ⟨[], rfl⟩
  | cons strategy rest ih =>
      rcases outcome : B.map strategy size b with ⟨e | region, b'⟩
      · obtain ⟨calls, reached⟩ :=
          ih b' ((w.record (.map strategy size none)).log (.mapStrategyFailed strategy e))
        refine ⟨.map strategy size sized :: calls, ?_⟩
        simp only [tryStrategies, outcome]
        rw [← reached]
        simp [Holding.run, Holding.call, outcome]
      · refine ⟨[.map strategy size sized], ?_⟩
        simp [tryStrategies, Holding.run, Holding.call, outcome]

theorem reserve_calls (B : MapBackend β) (s : Session β Standalone) :
    Calls B s (s.reserve B Standalone.engine).2 := by
  obtain ⟨world, backend, engine, ⟨layout, region, published, ownership⟩, deferral⟩ := s
  cases ownership with
  | engine => exact .of_same rfl
  | harness =>
      cases region with
      | some region => exact .of_same rfl
      | none =>
          obtain ⟨calls, reached⟩ :=
            tryStrategies_calls B layout.size_pos
              (MapStrategy.preferences layout.base) backend world
          refine ⟨calls, ?_⟩
          simp only [reserve]
          rcases outcome :
            tryStrategies B layout.size (MapStrategy.preferences layout.base) backend world with
            ⟨none | region, b', w'⟩
          · rw [outcome] at reached
            exact reached.symm
          · rw [outcome] at reached
            exact reached.symm

theorem retract_holding (E : Engine Standalone) (s : Session β Standalone) :
    (s.retract E).holding = s.holding := by
  unfold retract
  split
  · split <;> rfl
  · rfl

theorem release_calls (hM : M.Lawful view limit) {start : μ} {s : Session μ Standalone}
    (E : Engine Standalone) (owns : Holding.Owns view limit start s.holding) :
    Calls M.backend s (s.release M.backend E) := by
  refine Calls.trans (.of_same (retract_holding E s)) ?_
  rw [← retract_holding E s] at owns
  simp only [release]
  generalize s.retract E = r at owns
  split
  · exact .of_same rfl
  · rename_i region there
    have live : r.holding = ⟨r.backend, [(region, r.map.layout.size)]⟩ := by simp [holding, there]
    rw [live] at owns
    obtain ⟨m', done, -⟩ := owns.unmap hM (List.mem_singleton_self _)
    refine ⟨[.unmap (region, r.map.layout.size)], ?_⟩
    rw [live]
    simp [holding, Holding.run, Holding.call, done]

theorem complete_calls (hM : M.Lawful view limit) {start : μ} {s : Session μ Standalone}
    (E : Engine Standalone) (owns : Holding.Owns view limit start s.holding) :
    Calls M.backend s (s.complete M.backend E) := by
  cases pending : s.deferral.signaled with
  | true =>
      rw [complete_of_signaled M.backend E pending]
      exact .of_same rfl
  | false =>
      let t : Session μ Standalone := { (s.retract E).signal E with
        deferral := { ((s.retract E).signal E).deferral with signaled := true } }
      have same : s.complete M.backend E = t.release M.backend E := by simp [complete, pending, t]
      have held : t.holding = s.holding := retract_holding E s
      rw [same]
      exact Calls.trans (.of_same held) (release_calls hM E (held ▸ owns))

theorem act_calls (hM : M.Lawful view limit) {start : μ} {s : Session μ Standalone}
    (owns : Holding.Owns view limit start s.holding) (a : Act) :
    Calls M.backend s (s.act M.backend a) := by
  cases a with
  | reserve => exact reserve_calls M.backend s
  | retract => exact .of_same (retract_holding Standalone.engine s)
  | release => exact release_calls hM Standalone.engine owns
  | complete attached => exact complete_calls hM (Standalone.attaching attached) owns
  | prepare | renew | foreignPublish | foreignRetract => exact .of_same rfl

theorem Calls.owns (hM : M.Lawful view limit) {start : μ} {s s' : Session μ Standalone}
    (h : Calls M.backend s s') (owns : Holding.Owns view limit start s.holding) :
    Holding.Owns view limit start s'.holding := by
  obtain ⟨calls, reached⟩ := h
  exact reached ▸ owns.run hM calls

theorem replay_calls (hM : M.Lawful view limit) {start : μ} {s : Session μ Standalone}
    (owns : Holding.Owns view limit start s.holding) (acts : List Act) :
    Calls M.backend s (s.replay M.backend acts) := by
  induction acts generalizing s with
  | nil => exact .of_same rfl
  | cons a acts ih =>
      have first := act_calls hM owns a
      exact first.trans (ih (first.owns hM owns))

theorem view_release (hM : M.Lawful view limit) {start : μ} {s : Session μ Standalone}
    (owns : Holding.Owns view limit start s.holding) :
    view (s.release M.backend Standalone.engine).backend = view start := by
  have owned := (release_calls hM Standalone.engine owns).owns hM owns
  exact owned.restored (by simp [holding, region_release])

theorem Fresh.holding_eq {layout : Layout} {s : Session β Standalone} (h : Fresh layout s) :
    s.holding = ⟨s.backend, []⟩ := by
  simp [holding, h.map, awaiting]

/-- The mapper of anonymous memory disturbs nothing, in any history of requests and returns and so
in any history of a session: memory is only placed on free pages, a fixed address is kept or
refused, a refusal leaves no trace, the live regions are apart, giving one back takes exactly its
pages, and a release restores what there was at the start. -/
theorem memory_undisturbed (hM : M.Lawful view limit) :
    (∀ (start : μ) (calls : List Holding.Call),
      let h := (⟨start, []⟩ : Holding μ).run M.backend calls
      Holding.Owns view limit start h ∧
        (∀ strategy size, 0 < size → Answer view limit strategy size h.backend
          (M.backend.map strategy size h.backend).1 (M.backend.map strategy size h.backend).2) ∧
        ∀ grant ∈ h.live, ∃ m', M.backend.unmap grant.1 grant.2 h.backend = (.ok (), m') ∧
          Removed view (Holding.pagesOf grant) h.backend m') ∧
      ∀ (layout : Layout) (s : Session μ Standalone), Fresh layout s → ∀ acts : List Act,
        let t := s.replay M.backend acts
        (∃ calls, t.holding = (⟨s.backend, []⟩ : Holding μ).run M.backend calls) ∧
          Holding.Owns view limit s.backend t.holding ∧
          view (t.act M.backend .release).backend = view s.backend := by
  constructor
  · intro start calls h
    have owns := (Holding.Owns.nothing view limit start).run hM calls
    exact ⟨owns, fun strategy size sized => hM.answer strategy sized h.backend,
      fun grant live => owns.unmap hM live⟩
  · intro layout s fresh acts t
    have start : Holding.Owns view limit s.backend s.holding := by
      rw [fresh.holding_eq]
      exact .nothing view limit s.backend
    have reached := replay_calls hM start acts
    have owns := reached.owns hM start
    exact ⟨fresh.holding_eq ▸ reached, owns, view_release hM owns⟩

/-- Requests where the wanted address is taken, of lengths that end inside a page. -/
theorem memory_undisturbed_occupied :
    let start : AddressSpace := ⟨[⟨16, 1⟩]⟩
    let calls := [.map (.fixed 0x10000) 5000 (by decide), .map (.fixed 0x11000) 5000 (by decide),
      .map (.hint 0x12000) 1 (by decide), .unmap (0x11000, 5000)]
    let h := (⟨start, []⟩ : Holding AddressSpace).run AddressSpace.backend calls
    let t := ({ ofBoot with backend := start } :
      Session AddressSpace Standalone).replay AddressSpace.backend [.reserve]
    (h.live = [(0x7fffffffe000, 1)] ∧ Holding.Owns AddressSpace.view AddressSpace.top start h) ∧
      t.map.region = some 0x7ffffffc0000 ∧
      AddressSpace.view (t.act AddressSpace.backend .release).backend =
        AddressSpace.view start := by
  intro start calls h t
  have undisturbed := memory_undisturbed AddressSpace.memory_lawful
  exact ⟨⟨by decide, (undisturbed.1 start calls).1⟩, by decide,
    (undisturbed.2 Layout.default { ofBoot with backend := start } ⟨rfl, rfl, rfl⟩ [.reserve]).2.2⟩

end FuzzHarness.Session
