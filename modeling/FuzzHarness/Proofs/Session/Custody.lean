import FuzzHarness.Boot
import FuzzHarness.Proofs.CoverageMap.AddressSpace

/-!
Histories of one placeholder map beside an engine without a fork server. Anybody may write the
coverage pointer in between, and the engine may attach a map whenever it is signalled. The memory is
granted once and given back once, the pointer never refers to it outside of that time, and what was
given to the engine is never touched again.
-/

namespace FuzzHarness

/-- An engine without a fork server that attaches a map, or none, when it is signalled. -/
def Standalone.attaching (attached : Option Address) : Engine Standalone :=
  { Standalone.engine with
    manualInit := fun s => match attached with
      | some area => s.manualInit.publish area
      | none => s.manualInit }

namespace Session
open CoverageMap Trace

variable {β : Type} {B : MapBackend β} {layout : Layout} {events : List Event}
  {s : Session β Standalone}

/-- What can happen to a session: a step of the harness, where an engine that is signalled attaches
a map; a change of the deferral; or a change of the coverage pointer by somebody else. -/
inductive Act where
  | reserve
  | retract
  | release
  | complete (attached : Option Address)
  | prepare
  | renew (deferral : Deferral)
  | foreignPublish (area : Address)
  | foreignRetract (area : Address)

/-- The steps that are the harness's own, on one deferral. -/
def Act.isOwn : Act → Bool
  | .reserve | .retract | .release | .complete _ => true
  | _ => false

/-- Whether a step leaves it to the placeholder to put an address into the coverage pointer. -/
def Act.Avoids (address : Address) : Act → Prop
  | .complete attached => attached ≠ some address
  | .foreignPublish area => area ≠ address
  | _ => True

def act (B : MapBackend β) (s : Session β Standalone) : Act → Session β Standalone
  | .reserve => (s.reserve B Standalone.engine).2
  | .retract => s.retract Standalone.engine
  | .release => s.release B Standalone.engine
  | .complete attached => s.complete B (Standalone.attaching attached)
  | .prepare => s.prepare.2
  | .renew deferral => { s with deferral }
  | .foreignPublish area => { s with engine := s.engine.publish area }
  | .foreignRetract area => { s with engine := s.engine.retract area }

def replay (B : MapBackend β) : Session β Standalone → List Act → Session β Standalone
  | s, [] => s
  | s, a :: rest => replay B (s.act B a) rest

/-- A session before its first step: nothing reserved, nothing in the coverage pointer, nothing
recorded. -/
structure Fresh (layout : Layout) (s : Session β Standalone) : Prop where
  map : s.map = awaiting layout
  area : s.engine.area = none
  trace : s.world.trace = []

def ofBoot : Session AddressSpace Standalone where
  world := World.boot [] none
  backend := ⟨[]⟩
  engine := Standalone.fresh
  map := CoverageMap.fresh Layout.default
  deferral := Deferral.of false

theorem fresh_ofBoot : Fresh Layout.default ofBoot :=
  ⟨rfl, rfl, rfl⟩

/-- What the events so far say about the state of the map. -/
inductive Custody (layout : Layout) : CoverageMap → List Event → Prop
  | awaiting {events : List Event} : granted events = [] → returned events = [] →
      Custody layout (awaiting layout) events
  | held {events : List Event} (region : Address) (published : Bool) :
      granted events = [(region, layout.size)] →
      returned events = [] → Custody layout (held layout region published) events
  | released {events : List Event} (region : Address) : granted events = [(region, layout.size)] →
      returned events = [(region, layout.size)] → Custody layout (released layout) events

theorem Custody.append {map : CoverageMap} {more : List Event} (h : Custody layout map events)
    (hg : granted more = []) (hr : returned more = []) : Custody layout map (events ++ more) := by
  cases h with
  | awaiting g r => exact .awaiting (by simp [g, hg]) (by simp [r, hr])
  | held region published g r => exact .held region published (by simp [g, hg]) (by simp [r, hr])
  | released region g r => exact .released region (by simp [g, hg]) (by simp [r, hr])

theorem withdrawal_granted (region : Address) (published : Bool) :
    granted (withdrawal region published) = [] := by
  cases published <;> rfl

theorem withdrawal_returned (region : Address) (published : Bool) :
    returned (withdrawal region published) = [] := by
  cases published <;> rfl

/-- Keeping a record of the custody from a state to the next. -/
def Tracks (layout : Layout) (events : List Event) (s s' : Session β Standalone) : Prop :=
  ∃ more, s'.world.trace = s.world.trace ++ more ∧ Custody layout s'.map (events ++ more)

theorem Tracks.of_same {s' : Session β Standalone} (h : Custody layout s.map events)
    (ht : s'.world.trace = s.world.trace) (hm : s'.map = s.map) : Tracks layout events s s' :=
  ⟨[], by simp [ht], by simpa [hm] using h⟩

theorem reserve_custody (h : Custody layout s.map events) :
    Tracks layout events s (s.reserve B Standalone.engine).2 := by
  generalize hm : s.map = map at h
  cases h with
  | awaiting g r =>
      obtain ⟨attempts, tried, found, failed⟩ := reserve_awaiting B Standalone.engine hm
      cases outcome : (s.reserve B Standalone.engine).1 with
      | none =>
          have change := failed outcome
          have none_granted : granted attempts = [] := by simpa [outcome] using tried.granted_eq
          refine ⟨attempts, change.trace, ?_⟩
          rw [change.map]
          exact (Custody.awaiting g r).append none_granted tried.returned_eq
      | some region =>
          have change := found region outcome
          have one_granted : granted attempts = [(region, layout.size)] := by
            simpa [outcome] using tried.granted_eq
          refine ⟨_, change.trace, ?_⟩
          rw [change.map]
          refine .held region true ?_ ?_
          · simp [g, one_granted]
          · simp [r, tried.returned_eq]
  | held region published g r =>
      rw [reserve_held B _ hm]
      exact .of_same (by rw [hm]; exact .held region published g r) rfl rfl
  | released region g r =>
      rw [reserve_released B _ hm]
      exact .of_same (by rw [hm]; exact .released region g r) (by simp) rfl

theorem retract_custody (h : Custody layout s.map events) :
    Tracks layout events s (s.retract Standalone.engine) := by
  have kept := h
  generalize hm : s.map = map at h
  cases h with
  | awaiting g r =>
      rw [retract_of_not_published _ (by simp [hm, awaiting])]
      exact .of_same kept rfl rfl
  | held region published g r =>
      have change := retract_held Standalone.engine hm
      refine ⟨_, change.trace, ?_⟩
      rw [change.map]
      exact (Custody.held region false g r).append (withdrawal_granted _ _)
        (withdrawal_returned _ _)
  | released region g r =>
      rw [retract_of_not_published _ (by simp [hm, released])]
      exact .of_same kept rfl rfl

theorem release_custody (h : Custody layout s.map events) :
    Tracks layout events s (s.release B Standalone.engine) := by
  have kept := h
  generalize hm : s.map = map at h
  cases h with
  | awaiting g r =>
      rw [release_of_no_region B _ (by simp [hm, awaiting]) (by simp [hm, awaiting])]
      exact .of_same kept rfl rfl
  | held region published g r =>
      obtain ⟨ok, change⟩ := release_held B Standalone.engine hm
      refine ⟨_, change.trace, ?_⟩
      rw [change.map]
      refine .released region ?_ ?_
      · simp [g, withdrawal_granted]
      · simp [r, withdrawal_returned]
  | released region g r =>
      rw [release_of_no_region B _ (by simp [hm, released]) (by simp [hm, released])]
      exact .of_same kept rfl rfl

theorem complete_custody (E : Engine Standalone) (h : Custody layout s.map events) :
    Tracks layout events s (s.complete B E) := by
  have kept := h
  cases hd : s.deferral.signaled with
  | true =>
      rw [complete_of_signaled B E hd]
      exact .of_same kept rfl rfl
  | false =>
      generalize hm : s.map = map at h
      cases h with
      | awaiting g r =>
          obtain ⟨switch, announced, change⟩ :=
            complete_of_no_region B E (by simp [hm, awaiting]) (by simp [hm, awaiting]) hd
          refine ⟨_, change.trace, ?_⟩
          rw [change.map]
          exact kept.append rfl rfl
      | held region published g r =>
          obtain ⟨switch, announced, ok, change⟩ := complete_held B E hm hd
          refine ⟨_, change.trace, ?_⟩
          rw [change.map]
          refine .released region ?_ ?_
          · simp [g, withdrawal_granted]
          · simp [r, withdrawal_returned]
      | released region g r =>
          obtain ⟨switch, announced, change⟩ :=
            complete_of_no_region B E (by simp [hm, released]) (by simp [hm, released]) hd
          refine ⟨_, change.trace, ?_⟩
          rw [change.map]
          exact kept.append rfl rfl

theorem act_custody (h : Custody layout s.map events) (a : Act) :
    Tracks layout events s (s.act B a) := by
  cases a with
  | reserve => exact reserve_custody h
  | retract => exact retract_custody h
  | release => exact release_custody h
  | complete attached => exact complete_custody _ h
  | prepare => exact .of_same h (prepare_change s).trace_same (prepare_change s).map
  | renew deferral => exact .of_same h rfl rfl
  | foreignPublish area => exact .of_same h rfl rfl
  | foreignRetract area => exact .of_same h rfl rfl

theorem replay_custody (h : Custody layout s.map events) (acts : List Act) :
    Tracks layout events s (s.replay B acts) := by
  induction acts generalizing s events with
  | nil => exact .of_same h rfl rfl
  | cons a acts ih =>
      obtain ⟨first, trace, custody⟩ := act_custody (B := B) h a
      obtain ⟨rest, trace', custody'⟩ := ih custody
      refine ⟨first ++ rest, ?_, by simpa [replay] using custody'⟩
      simp only [replay, trace', trace, List.append_assoc]

theorem custody_of_fresh (hs : Fresh layout s) (acts : List Act) :
    Custody layout (s.replay B acts).map (s.replay B acts).world.trace := by
  have start : Custody layout s.map [] := by
    rw [hs.map]
    exact .awaiting rfl rfl
  obtain ⟨more, trace, custody⟩ := replay_custody (B := B) start acts
  rw [trace, hs.trace]
  exact custody

/-- The pointer holds an address only as the address of a placeholder that is published. -/
def Guarded (address : Address) (s : Session β Standalone) : Prop :=
  s.engine.area = some address → s.map.region = some address ∧ s.map.published = true

theorem area_withdrawn_ne {address region : Address} {published : Bool}
    (hm : s.map = held layout region published) (hg : Guarded address s) :
    (withdrawn Standalone.engine region published s.engine).area ≠ some address := by
  intro held_address
  cases published with
  | false =>
      have := (hg held_address).2
      simp [hm, held] at this
  | true =>
      simp only [withdrawn, if_true, Standalone.engine, Standalone.retract] at held_address
      split at held_address
      · simp at held_address
      · rename_i other
        have same := (hg held_address).1
        simp only [hm, held, Option.some.injEq] at same
        exact other (same ▸ held_address)

theorem area_attaching (attached : Option Address) (e : Standalone) :
    ((Standalone.attaching attached).manualInit e).area = attached.or e.area := by
  cases attached <;> rfl

theorem reserve_guarded {address : Address} (h : Custody layout s.map events)
    (hg : Guarded address s) :
    Guarded address (s.reserve B Standalone.engine).2 := by
  generalize hm : s.map = map at h
  cases h with
  | awaiting g r =>
      obtain ⟨attempts, -, found, failed⟩ := reserve_awaiting B Standalone.engine hm
      cases outcome : (s.reserve B Standalone.engine).1 with
      | none =>
          have change := failed outcome
          simpa only [Guarded, change.map, change.engine, hm] using hg
      | some region =>
          have change := found region outcome
          intro area
          rw [change.engine] at area
          obtain rfl : region = address := Option.some.inj area
          simp [change.map, held]
  | held region published g r =>
      rw [reserve_held B _ hm]
      exact hg
  | released region g r =>
      rw [reserve_released B _ hm]
      exact hg

theorem retract_guarded {address : Address} (h : Custody layout s.map events)
    (hg : Guarded address s) :
    Guarded address (s.retract Standalone.engine) := by
  generalize hm : s.map = map at h
  cases h with
  | held region published g r =>
      intro area
      rw [(retract_held Standalone.engine hm).engine] at area
      exact absurd area (area_withdrawn_ne hm hg)
  | awaiting | released =>
      rw [retract_of_not_published _ (by simp [hm, awaiting, released])]
      exact hg

theorem release_guarded {address : Address} (h : Custody layout s.map events)
    (hg : Guarded address s) :
    Guarded address (s.release B Standalone.engine) := by
  generalize hm : s.map = map at h
  cases h with
  | held region published g r =>
      obtain ⟨ok, change⟩ := release_held B Standalone.engine hm
      intro area
      rw [change.engine] at area
      exact absurd area (area_withdrawn_ne hm hg)
  | awaiting | released =>
      rw [release_of_no_region B _ (by simp [hm, awaiting, released])
        (by simp [hm, awaiting, released])]
      exact hg

theorem complete_guarded {address : Address} {attached : Option Address}
    (h : Custody layout s.map events) (ha : attached ≠ some address) (hg : Guarded address s) :
    Guarded address (s.complete B (Standalone.attaching attached)) := by
  cases hd : s.deferral.signaled with
  | true =>
      rw [complete_of_signaled B _ hd]
      exact hg
  | false =>
      generalize hm : s.map = map at h
      cases h with
      | held region published g r =>
          obtain ⟨switch, announced, ok, change⟩ :=
            complete_held B (Standalone.attaching attached) hm hd
          intro area
          rw [change.engine, area_attaching] at area
          rcases Option.or_eq_some_iff.mp area with now | ⟨-, before⟩
          · exact absurd now ha
          · exact absurd before (area_withdrawn_ne hm hg)
      | awaiting | released =>
          obtain ⟨switch, announced, change⟩ :=
            complete_of_no_region B (Standalone.attaching attached)
            (by simp [hm, awaiting, released]) (by simp [hm, awaiting, released]) hd
          intro area
          rw [change.engine, area_attaching] at area
          rcases Option.or_eq_some_iff.mp area with now | ⟨-, before⟩
          · exact absurd now ha
          · rw [change.map]
            exact hg before

theorem act_guarded {address : Address} {a : Act} (h : Custody layout s.map events)
    (ha : a.Avoids address) (hg : Guarded address s) : Guarded address (s.act B a) := by
  cases a with
  | reserve => exact reserve_guarded h hg
  | retract => exact retract_guarded h hg
  | release => exact release_guarded h hg
  | complete attached => exact complete_guarded h ha hg
  | prepare => exact hg
  | renew deferral => exact hg
  | foreignPublish area => exact fun same => absurd (Option.some.inj same) ha
  | foreignRetract area =>
      intro same
      refine hg ?_
      simp only [act, Standalone.retract] at same
      split at same
      · simp at same
      · exact same

theorem replay_guarded {address : Address} {acts : List Act} (h : Custody layout s.map events)
    (ha : ∀ a ∈ acts, a.Avoids address) (hg : Guarded address s) :
    Guarded address (s.replay B acts) := by
  induction acts generalizing s events with
  | nil => exact hg
  | cons a acts ih =>
      obtain ⟨more, -, custody⟩ := act_custody (B := B) h a
      exact ih custody
        (fun b member => ha b (List.mem_cons_of_mem a member)) (act_guarded h (ha a (by simp)) hg)

theorem region_act {region : Address} (a : Act) (now : (s.act B a).map.region = some region) :
    s.map.region = some region ∨ (s.reserve B Standalone.engine).2.map.region = some region := by
  cases a with
  | reserve => exact .inr now
  | retract => exact .inl (region_retract Standalone.engine s ▸ now)
  | release =>
      simp [act, region_release] at now
  | complete attached =>
      simp only [act, region_complete] at now
      split at now
      · exact .inl now
      · cases now
  | prepare | renew | foreignPublish | foreignRetract => exact .inl now

theorem act_region_ne_null (hB : B.NeverNull) (h : Custody layout s.map events)
    (hn : ∀ region, s.map.region = some region → region ≠ 0) (a : Act) :
    ∀ region, (s.act B a).map.region = some region → region ≠ 0 := by
  intro region now
  rcases region_act a now with before | granted
  · exact hn region before
  · generalize hm : s.map = map at h
    cases h with
    | awaiting g r =>
        obtain ⟨attempts, -, found, failed⟩ := reserve_awaiting B Standalone.engine hm
        cases outcome : (s.reserve B Standalone.engine).1 with
        | none => simp [(failed outcome).map, awaiting] at granted
        | some address =>
            have same : address = region := by
              simpa [(found address outcome).map, held] using granted
            exact same ▸ reserve_ne_null hB hm outcome
    | held address published g r =>
        rw [reserve_held B _ hm] at granted
        exact hn region granted
    | released address g r => simp [reserve_released B _ hm, hm, released] at granted

theorem replay_region_ne_null (hB : B.NeverNull) (h : Custody layout s.map events)
    (hn : ∀ region, s.map.region = some region → region ≠ 0) (acts : List Act) :
    ∀ region, (s.replay B acts).map.region = some region → region ≠ 0 := by
  induction acts generalizing s events with
  | nil => exact hn
  | cons a acts ih =>
      obtain ⟨more, -, custody⟩ := act_custody (B := B) h a
      exact ih custody (act_region_ne_null hB h hn a)

/-- A step that leaves what was given to the engine alone. -/
def LeavesAlone (layout : Layout) (s s' : Session β Standalone) : Prop :=
  s'.map = released layout ∧
    ∃ more, s'.world.trace = s.world.trace ++ more ∧ ∀ e ∈ more, e.isPlaceholderCall = false

theorem LeavesAlone.of_same {s' : Session β Standalone} (hm : s.map = released layout)
    (ht : s'.world.trace = s.world.trace) (same : s'.map = s.map) : LeavesAlone layout s s' :=
  ⟨same.trans hm, [], by simp [ht], by simp⟩

theorem act_leavesAlone (hm : s.map = released layout) (a : Act) :
    LeavesAlone layout s (s.act B a) := by
  have unpublished : s.map.published = false := by simp [hm, released]
  have no_region : s.map.region = none := by simp [hm, released]
  cases a with
  | reserve =>
      simp only [act, reserve_released B _ hm]
      exact .of_same hm (by simp) rfl
  | retract =>
      simp only [act, retract_of_not_published _ unpublished]
      exact .of_same hm rfl rfl
  | release =>
      simp only [act, release_of_no_region B _ unpublished no_region]
      exact .of_same hm rfl rfl
  | complete attached =>
      simp only [act]
      cases hd : s.deferral.signaled with
      | true =>
          rw [complete_of_signaled B _ hd]
          exact .of_same hm rfl rfl
      | false =>
          obtain ⟨switch, announced, change⟩ :=
            complete_of_no_region B (Standalone.attaching attached) unpublished no_region hd
          exact ⟨change.map.trans hm, _, change.trace, by simp⟩
  | prepare => exact .of_same hm (prepare_change s).trace_same (prepare_change s).map
  | renew | foreignPublish | foreignRetract => exact .of_same hm rfl rfl

theorem replay_leavesAlone (hm : s.map = released layout) (acts : List Act) :
    LeavesAlone layout s (s.replay B acts) := by
  induction acts generalizing s with
  | nil => exact .of_same hm rfl rfl
  | cons a acts ih =>
      obtain ⟨map, first, trace, quiet⟩ := act_leavesAlone (B := B) hm a
      obtain ⟨map', rest, trace', quiet'⟩ := ih map
      refine ⟨map', first ++ rest, ?_, ?_⟩
      · simp only [replay, trace', trace, List.append_assoc]
      · intro e member
        rcases List.mem_append.mp member with early | late
        · exact quiet e early
        · exact quiet' e late

theorem Custody.map_of_engine {map : CoverageMap} (h : Custody layout map events)
    (ho : map.ownership = .engine) :
    map = CoverageMap.released layout := by
  cases h with
  | released region g r => rfl
  | awaiting | held => cases ho

theorem Custody.granted_le_one {map : CoverageMap} (h : Custody layout map events) :
    (granted events).length ≤ 1 := by
  cases h with
  | awaiting g r => simp [g]
  | held region published g r => simp [g]
  | released region g r => simp [g]

theorem Custody.returned_eq {map : CoverageMap} (h : Custody layout map events) :
    returned events = [] ∨ returned events = granted events := by
  cases h with
  | awaiting g r => exact .inl r
  | held region published g r => exact .inl r
  | released region g r => exact .inr (r.trans g.symm)

theorem Custody.size_eq {map : CoverageMap} (h : Custody layout map events) :
    ∀ grant ∈ granted events, grant.2 = layout.size := by
  cases h with
  | awaiting g r => simp [g]
  | held region published g r => simp [g]
  | released region g r => simp [g]

/-- A region is held exactly from its grant until it is given back. -/
theorem Custody.pointer_ne_null {map : CoverageMap} (h : Custody layout map events)
    (hn : ∀ region, map.region = some region → region ≠ 0) :
    (map.pointer ≠ 0 ↔ granted events ≠ [] ∧ returned events = []) ∧
      (map.pointer ≠ 0 → granted events = [(map.pointer, layout.size)]) := by
  cases h with
  | awaiting g r => simp [g, CoverageMap.awaiting, pointer]
  | held region published g r =>
      have := hn region rfl
      simp [g, r, CoverageMap.held, pointer, this]
  | released region g r => simp [r, CoverageMap.released, pointer]

theorem Custody.of_region {map : CoverageMap} {region : Address} (h : Custody layout map events)
    (hr : map.region = some region) : granted events = [(region, layout.size)] ∧
    returned events = [] := by
  cases h with
  | awaiting | released => cases hr
  | held address published g r =>
      cases hr
      exact ⟨g, r⟩

/-- The placeholder never dangles: the mapper grants it at most once and takes exactly that back at
most once, the harness holds it in between and only then, the coverage pointer refers to it only in
between, and once the engine has the memory the harness calls nobody about it again. -/
theorem placeholder_custody (hB : B.NeverNull) (hs : Fresh layout s) (acts later : List Act) :
    let t := s.replay B acts
    let gained := granted t.world.trace
    let lost := returned t.world.trace
    (gained.length ≤ 1 ∧ (∀ grant ∈ gained, grant.2 = layout.size) ∧ (lost = [] ∨ lost = gained)) ∧
      ((t.map.pointer ≠ 0 ↔ gained ≠ [] ∧ lost = []) ∧
        (t.map.pointer ≠ 0 → gained = [(t.map.pointer, layout.size)])) ∧
      (∀ address, (∀ a ∈ acts, a.Avoids address) → t.engine.area = some address →
        gained = [(address, layout.size)] ∧ lost = []) ∧
      (t.map.ownership = .engine →
        (t.replay B later).map.ownership = .engine ∧ (t.replay B later).map.pointer = 0 ∧
          ∃ more, (t.replay B later).world.trace = t.world.trace ++ more ∧
            ∀ e ∈ more, e.isPlaceholderCall = false) := by
  intro t gained lost
  have custody : Custody layout t.map t.world.trace := custody_of_fresh hs acts
  have start : Custody layout s.map [] := by
    rw [hs.map]
    exact .awaiting rfl rfl
  have never_null : ∀ region, t.map.region = some region → region ≠ 0 :=
    replay_region_ne_null hB start (by simp [hs.map, awaiting]) acts
  refine ⟨⟨custody.granted_le_one, custody.size_eq, custody.returned_eq⟩,
    custody.pointer_ne_null never_null, ?_, ?_⟩
  · intro address avoids area
    have guarded : Guarded address t :=
      replay_guarded start avoids (by simp [Guarded, hs.area])
    exact custody.of_region (guarded area).1
  · intro owned
    obtain ⟨map, more, trace, quiet⟩ :=
      replay_leavesAlone (B := B) (custody.map_of_engine owned) later
    exact ⟨by simp [map, released], by simp [map, released, pointer], more, trace, quiet⟩

/-- The memory of a process that has just started is granted, and then stays with the engine. -/
theorem placeholder_custody_ofBoot :
    let acts := [.prepare, .reserve, .foreignPublish 0x20000, .complete (some 0x30000)]
    let t := ofBoot.replay AddressSpace.backend acts
    (granted t.world.trace = [(0x10000, 256000)] ∧ returned t.world.trace = granted t.world.trace) ∧
      t.map.ownership = .engine ∧
      (t.replay AddressSpace.backend [.reserve, .release]).map.ownership = .engine := by
  intro acts t
  have owned : t.map.ownership = .engine := by decide
  exact ⟨by decide, owned,
    (placeholder_custody AddressSpace.backend_neverNull fresh_ofBoot acts _).2.2.2 owned |>.1⟩

end Session

end FuzzHarness
