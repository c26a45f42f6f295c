import FuzzHarness.Proofs.Session.Custody

/-!
The harness after the handshake. Memory that was granted before the handshake is never asked for
again, and the map that the engine attached stays in the coverage pointer. A harness that had no
memory to give away still counts as the owner of it: its next reservation asks the mapper, and what
it is granted takes the place of the engine's map.
-/

namespace FuzzHarness.Session
open CoverageMap Trace

variable {β : Type} {B : MapBackend β} {layout : Layout} {s : Session β Standalone}

/-- Whatever the harness does from here, it asks for no memory and leaves the coverage pointer as it
is. -/
def HandedOver (B : MapBackend β) (s : Session β Standalone) : Prop :=
  ∀ later : List Act, (∀ a ∈ later, a.isOwn) →
    (∃ more, (s.replay B later).world.trace = s.world.trace ++ more ∧ ∀ e ∈ more, e.isMap = false) ∧
      (s.replay B later).engine.area = s.engine.area

theorem act_of_released {a : Act} (hm : s.map = released layout) (hd : s.deferral.signaled = true)
    (own : a.isOwn) : Change s (s.act B a) (released layout) s.engine s.deferral [] := by
  have unpublished : s.map.published = false := by simp [hm, released]
  have no_region : s.map.region = none := by simp [hm, released]
  have unchanged : Change s s (released layout) s.engine s.deferral [] := by
    simpa [hm] using Change.refl s
  cases a with
  | reserve =>
      simp only [act, reserve_released B _ hm]
      exact ⟨hm, rfl, rfl, by simp⟩
  | retract => simpa only [act, retract_of_not_published _ unpublished] using unchanged
  | release => simpa only [act, release_of_no_region B _ unpublished no_region] using unchanged
  | complete attached => simpa only [act, complete_of_signaled B _ hd] using unchanged
  | prepare | renew | foreignPublish | foreignRetract => cases own

theorem replay_of_released {later : List Act} (hm : s.map = released layout)
    (hd : s.deferral.signaled = true) (own : ∀ a ∈ later, a.isOwn) :
    Change s (s.replay B later) (released layout) s.engine s.deferral [] := by
  induction later generalizing s with
  | nil => simpa [replay, hm] using Change.refl s
  | cons a later ih =>
      have first := act_of_released (B := B) hm hd (own a (by simp))
      have rest := ih first.map (by rw [first.deferral, hd]) fun b member =>
        own b (List.mem_cons_of_mem a member)
      refine ⟨rest.map, rest.engine.trans first.engine, rest.deferral.trans first.deferral, ?_⟩
      rw [replay, rest.trace, first.trace]
      simp

theorem handedOver_of_released (hm : s.map = released layout) (hd : s.deferral.signaled = true) :
    HandedOver B s := by
  intro later own
  have change := replay_of_released (B := B) hm hd own
  exact ⟨⟨[], change.trace, by simp⟩, by rw [change.engine]⟩

theorem not_handedOver_of_awaiting (hm : s.map = awaiting layout) : ¬HandedOver B s := by
  intro handed
  obtain ⟨⟨more, trace, no_map⟩, -⟩ := handed [.reserve] (by simp [Act.isOwn])
  obtain ⟨attempts, tried, found, failed⟩ := reserve_awaiting B Standalone.engine hm
  obtain ⟨rest, asked⟩ : ∃ rest, (s.reserve B Standalone.engine).2.world.trace =
      s.world.trace ++ (attempts ++ rest) := by
    cases outcome : (s.reserve B Standalone.engine).1 with
    | none => exact ⟨[], by rw [(failed outcome).trace]; simp⟩
    | some region => exact ⟨_, (found region outcome).trace⟩
  have same : more = attempts ++ rest := List.append_cancel_left (trace.symm.trans asked)
  obtain ⟨e, attempts', rfl⟩ :=
    List.exists_cons_of_ne_nil (tried.ne_nil (by simp [MapStrategy.preferences]))
  have is_map : e.isMap := tried.mem_isMap e (by simp)
  exact Bool.false_ne_true ((no_map e (by simp [same])).symm.trans is_map)

theorem complete_attached (hd : s.deferral.signaled = false)
    (h : Custody layout s.map s.world.trace) (attached : Option Address) :
    let t := s.act B (.complete attached)
    (∀ area, attached = some area → t.engine.area = some area) ∧ t.deferral.signaled = true ∧
      t.map = if granted s.world.trace = [] then awaiting layout else released layout := by
  intro t
  generalize hm : s.map = map at h
  cases h with
  | awaiting g r =>
      obtain ⟨switch, announced, change⟩ := complete_of_no_region B (Standalone.attaching attached)
        (by simp [hm, awaiting]) (by simp [hm, awaiting]) hd
      refine ⟨?_, congrArg Deferral.signaled change.deferral, ?_⟩
      · rintro area rfl
        exact congrArg Standalone.area change.engine
      · rw [if_pos g]
        exact change.map.trans hm
  | held region published g r =>
      obtain ⟨switch, announced, ok, change⟩ :=
        complete_held B (Standalone.attaching attached) hm hd
      refine ⟨?_, congrArg Deferral.signaled change.deferral, ?_⟩
      · rintro area rfl
        exact congrArg Standalone.area change.engine
      · rw [if_neg (by simp [g])]
        exact change.map
  | released region g r =>
      obtain ⟨switch, announced, change⟩ := complete_of_no_region B (Standalone.attaching attached)
        (by simp [hm, released]) (by simp [hm, released]) hd
      refine ⟨?_, congrArg Deferral.signaled change.deferral, ?_⟩
      · rintro area rfl
        exact congrArg Standalone.area change.engine
      · rw [if_neg (by simp [g])]
        exact change.map.trans hm

/-- After the handshake the map that the engine attached is in the pointer, and the harness asks for
no memory and leaves the pointer alone exactly if it was granted memory at some time before the
handshake. -/
theorem handedOver_iff_granted (hs : Fresh layout s) (before : List Act) (attached : Option Address)
    (pending : (s.replay B before).deferral.signaled = false) :
    let t := (s.replay B before).act B (.complete attached)
    (∀ area, attached = some area → t.engine.area = some area) ∧
      (HandedOver B t ↔ granted (s.replay B before).world.trace ≠ []) := by
  intro t
  obtain ⟨area, signaled, map⟩ :=
    complete_attached (B := B) pending (custody_of_fresh hs before) attached
  refine ⟨area, ?_⟩
  by_cases none_granted : granted (s.replay B before).world.trace = []
  · rw [if_pos none_granted] at map
    exact ⟨fun handed => absurd handed (not_handedOver_of_awaiting map),
      fun some_granted => absurd none_granted some_granted⟩
  · rw [if_neg none_granted] at map
    exact ⟨fun _ => none_granted, fun _ => handedOver_of_released map signaled⟩

/-- A reservation before the handshake makes the difference. -/
theorem handedOver_ofBoot :
    HandedOver AddressSpace.backend
        ((ofBoot.replay AddressSpace.backend [.reserve]).act AddressSpace.backend
          (.complete (some 0x20000))) ∧
      ¬HandedOver AddressSpace.backend
        ((ofBoot.replay AddressSpace.backend []).act AddressSpace.backend
          (.complete (some 0x20000))) := by
  refine ⟨(handedOver_iff_granted fresh_ofBoot [.reserve] _ (by decide)).2.mpr (by decide), ?_⟩
  intro handed
  exact (handedOver_iff_granted fresh_ofBoot [] _ (by decide)).2.mp handed (by decide)

end FuzzHarness.Session
