import FuzzHarness.Proofs.Session.Custody
import FuzzHarness.Scripted.Mapper

/-!
Completing the handshake, from every state that a placeholder map can be in. The pointer is cleared
of a published placeholder before the signal and never after it, so the map that the engine attaches
stays in it, even one at the address of the placeholder; and a deferral is completed once.
-/

namespace FuzzHarness.Session
open CoverageMap Trace

variable {β : Type} {B : MapBackend β} {layout : Layout} {s : Session β Standalone}

/-- What the engine finds in the coverage pointer when it is signalled: nothing where that refers to
a published placeholder, and else what was there before. -/
def found (s : Session β Standalone) : Option Address :=
  if s.map.published ∧ s.engine.area = s.map.region then none else s.engine.area

/-- The calls that complete a handshake: a published placeholder is taken out of the pointer, the
engine is signalled, and memory that is held is given back. -/
def handover (map : CoverageMap) (area : Option Address) (switch : Int) (announced : Option Bytes)
    (ok : Bool) :
    List Event :=
  (if map.published then map.region.toList.map .retract else []) ++
    .manualInit area switch announced :: map.region.toList.map fun region =>
      .unmap region map.layout.size ok

theorem area_withdrawn (region : Address) (published : Bool) (engine : Standalone) :
    (withdrawn Standalone.engine region published engine).area =
      if published ∧ engine.area = some region then none else engine.area := by
  cases published with
  | false => simp [withdrawn]
  | true =>
      simp only [withdrawn, if_true, true_and, Standalone.engine, Standalone.retract]
      split <;> rfl

/-- What the first completion of a deferral does, whatever there is to hand over. -/
theorem complete_pending {events : List Event} (h : Custody layout s.map events)
    (pending : s.deferral.signaled = false) (attached : Option Address) :
    let u := s.act B (.complete attached)
    (∃ switch announced ok, u.world.trace = s.world.trace ++
      handover s.map s.found switch announced ok) ∧
      u.engine.area = attached.or s.found ∧ u.deferral.signaled = true ∧ u.map.region = none := by
  intro u
  have no_region : u.map.region = none := by
    refine (region_complete B (Standalone.attaching attached) s).trans ?_
    rw [pending]
    rfl
  generalize hm : s.map = map at h
  cases h with
  | held region published g r =>
      obtain ⟨switch, announced, ok, change⟩ :=
        complete_held B (Standalone.attaching attached) hm pending
      have seen : (withdrawn Standalone.engine region published s.engine).area = s.found := by
        rw [found, hm]
        exact area_withdrawn region published s.engine
      refine ⟨⟨switch, announced, ok, ?_⟩, ?_, congrArg Deferral.signaled change.deferral,
        no_region⟩
      · rw [← seen]
        refine change.trace.trans (congrArg (s.world.trace ++ ·) ?_)
        cases published <;> rfl
      · rw [← seen, ← area_attaching]
        exact congrArg Standalone.area change.engine
  | awaiting | released =>
      obtain ⟨switch, announced, change⟩ := complete_of_no_region B (Standalone.attaching attached)
        (by simp [hm, awaiting, released]) (by simp [hm, awaiting, released]) pending
      have seen : s.engine.area = s.found := by simp [found, hm, awaiting, released]
      refine ⟨⟨switch, announced, true, ?_⟩, ?_, congrArg Deferral.signaled change.deferral,
        no_region⟩
      · rw [← seen]
        exact change.trace
      · rw [← seen, ← area_attaching]
        exact congrArg Standalone.area change.engine

theorem deferral_act {a : Act} (signaled : s.deferral.signaled = true) (same : ∀ d, a ≠ .renew d) :
    (s.act B a).deferral = s.deferral := by
  cases a with
  | reserve => exact deferral_reserve B Standalone.engine s
  | retract => exact deferral_retract Standalone.engine s
  | release => exact deferral_release B Standalone.engine s
  | complete attached => exact congrArg Session.deferral (complete_of_signaled B _ signaled)
  | renew d => exact absurd rfl (same d)
  | prepare | foreignPublish | foreignRetract => rfl

theorem deferral_replay {acts : List Act} (signaled : s.deferral.signaled = true)
    (same : ∀ d, .renew d ∉ acts) :
    (s.replay B acts).deferral = s.deferral := by
  induction acts generalizing s with
  | nil => rfl
  | cons a acts ih =>
      have first : (s.act B a).deferral = s.deferral :=
        deferral_act signaled fun d renewed => same d (renewed ▸ List.mem_cons_self ..)
      rw [replay,
        ih (first ▸ signaled) fun d member => same d (List.mem_cons_of_mem a member), first]

theorem region_of_published {events : List Event} (h : Custody layout s.map events)
    (published : s.map.published) :
    ∃ region, s.map.region = some region := by
  generalize s.map = map at h published
  cases h with
  | held region _ g r => exact ⟨region, rfl⟩
  | awaiting | released => cases published

/-- Completing the handshake never takes out the map that the engine attached. Whatever state the
placeholder is in and whatever the pointer holds, the first completion takes a published placeholder
out of the pointer, signals the engine once, gives back the memory that is held, and makes no other
call. The pointer ends with what the engine attached, or else with what it found. The deferral is
signalled from then on, and completing it once more, whatever happened in between, changes
nothing. -/
theorem complete_spares_attached (hs : Fresh layout s) (acts : List Act) (engine : Standalone)
    (deferral : Deferral) (pending : deferral.signaled = false) (attached : Option Address) :
    let t : Session β Standalone := { s.replay B acts with engine, deferral }
    let u := t.act B (.complete attached)
    (∃ switch announced ok, u.world.trace = t.world.trace ++
      handover t.map t.found switch announced ok) ∧
      (t.map.published → ∃ region, t.map.region = some region) ∧
      u.engine.area = attached.or t.found ∧ u.deferral.signaled = true ∧ u.map.pointer = 0 ∧
      ∀ later, let v := u.replay B later
        ((∀ d, .renew d ∉ later) → v.deferral = u.deferral) ∧
          ∀ attached', { v with deferral := u.deferral }.act B (.complete attached') =
            { v with deferral := u.deferral } := by
  intro t u
  have custody : Custody layout t.map (s.replay B acts).world.trace := custody_of_fresh hs acts
  obtain ⟨trace, area, signaled, no_region⟩ := complete_pending (B := B) custody pending attached
  refine ⟨trace, region_of_published custody, area, signaled, ?_, fun later => ⟨?_, ?_⟩⟩
  · rw [pointer, no_region]
    rfl
  · exact deferral_replay signaled
  · intro attached'
    exact complete_of_signaled B _ signaled

/-- An engine may attach its map where the placeholder is, and the memory of that may not be taken
back. -/
theorem complete_spares_attached_same_address :
    let s : Session Scripted.Mapper Standalone := {
      world := World.boot [] none
      backend := ⟨[.ok 0x10000], [.error (.map .invalidArgument)]⟩
      engine := Standalone.fresh
      map := CoverageMap.fresh Layout.default
      deferral := Deferral.of false }
    let t := s.replay Scripted.Mapper.backend [.reserve]
    let u := t.act Scripted.Mapper.backend (.complete (some 0x10000))
    t.engine.area = some 0x10000 ∧ t.found = none ∧ u.engine.area = some 0x10000 ∧
      u.map.pointer = 0 ∧
      ∃ switch announced, u.world.trace = t.world.trace ++
        [.retract 0x10000, .manualInit none switch announced, .unmap 0x10000 256000 false] := by
  intro s t u
  have fresh : Fresh Layout.default s := ⟨rfl, rfl, rfl⟩
  have pending : t.deferral.signaled = false := rfl
  obtain ⟨⟨switch, announced, ok, trace⟩, -, area, -, pointer, -⟩ := complete_spares_attached
    (B := Scripted.Mapper.backend) fresh [.reserve] t.engine t.deferral pending (some 0x10000)
  have calls : handover t.map t.found switch announced ok =
      [.retract 0x10000, .manualInit none switch announced, .unmap 0x10000 256000 ok] := rfl
  have refused : u.world.trace.getLast? = some (.unmap 0x10000 256000 false) := rfl
  have last : u.world.trace = t.world.trace ++ _ := calls ▸ trace
  rw [last] at refused
  obtain rfl : ok = false := by simpa using refused
  exact ⟨rfl, rfl, area, pointer, switch, announced, last⟩

end FuzzHarness.Session
