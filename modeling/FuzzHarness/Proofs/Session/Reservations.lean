import FuzzHarness.Proofs.Session.Custody
import FuzzHarness.Scripted.Mapper

/-!
The requests for memory of a whole history. They come in blocks, one for each reservation that has
something to reserve. A block goes through the strategies in the order of preference and ends with
the first that is granted, whatever the mapper bases its answers on; what is granted is put into the
coverage pointer at once. A reservation that was refused leaves nothing behind, so that the next one
starts over.
-/

namespace FuzzHarness.Session
open CoverageMap Trace

variable {β : Type} {B : MapBackend β} {layout : Layout} {events : List Event}
  {s : Session β Standalone}

/-- The requests of a reservation that has something to reserve. -/
structure RequestBlock (size : Nat) (strategies : List MapStrategy) (answer : Option Address)
    (block : List MapRequest) : Prop where
  preferred : block.map MapRequest.strategy <+: strategies
  sized : ∀ r ∈ block, r.size = size
  refused : ∀ r ∈ block.dropLast, r.region = none
  short : block.length < strategies.length → ∃ r, block.getLast? = some r ∧ r.region.isSome
  answered : block.getLast?.bind MapRequest.region = answer

theorem RequestBlock.granted (strategy : MapStrategy) (rest : List MapStrategy) (size : Nat)
    (region : Address) :
    RequestBlock size (strategy :: rest) (some region) [⟨strategy, size, some region⟩] where
  preferred := ⟨rest, rfl⟩
  sized := by simp
  refused := by simp
  short := fun _ => ⟨_, rfl, rfl⟩
  answered := rfl

theorem RequestBlock.after_refusal {size : Nat} {rest : List MapStrategy} {answer : Option Address}
    {block : List MapRequest} (h : RequestBlock size rest answer block) (strategy : MapStrategy) :
    RequestBlock size (strategy :: rest) answer (⟨strategy, size, none⟩ :: block) := by
  cases block with
  | nil =>
      have none_left : rest.length = 0 := by
        refine Nat.eq_zero_of_not_pos fun some_left => ?_
        obtain ⟨r, last, -⟩ := h.short some_left
        cases last
      have unanswered := h.answered
      refine ⟨⟨rest, rfl⟩, by simp, by simp, fun short => ?_, unanswered⟩
      simp [none_left] at short
  | cons r block =>
      have last : (⟨strategy, size, none⟩ :: r :: block : List MapRequest).getLast? =
          (r :: block).getLast? :=
        List.getLast?_cons_cons
      refine ⟨List.cons_prefix_cons.mpr ⟨rfl, h.preferred⟩, ?_, ?_, fun short => ?_, ?_⟩
      · exact List.forall_mem_cons.mpr ⟨rfl, h.sized⟩
      · exact List.forall_mem_cons.mpr ⟨rfl, h.refused⟩
      · rw [last]
        exact h.short (Nat.lt_of_succ_lt_succ short)
      · rw [last]
        exact h.answered

theorem RequestBlock.regions {size : Nat} {strategies : List MapStrategy} {answer : Option Address}
    {block : List MapRequest} (h : RequestBlock size strategies answer block) :
    block.filterMap MapRequest.region = answer.toList := by
  rw [← h.answered]
  rcases List.eq_nil_or_concat block with rfl | ⟨front, last, rfl⟩
  · rfl
  · have refused : front.filterMap MapRequest.region = [] :=
      List.filterMap_eq_nil_iff.mpr fun r member => h.refused r (by simpa using member)
    cases granted : last.region <;> simp [refused, granted]

theorem tryStrategies_block (B : MapBackend β) (size : Nat) (strategies : List MapStrategy)
    (b : β) :
    ∃ answer b' block, RequestBlock size strategies answer block ∧ ∀ w : World,
      (tryStrategies B size strategies b w).1 = answer ∧
      (tryStrategies B size strategies b w).2.1 = b' ∧
      (tryStrategies B size strategies b w).2.2.trace =
        w.trace ++ block.map MapRequest.event := by
  induction strategies generalizing b with
  | nil =>
      refine ⟨none, b, [], ⟨⟨[], rfl⟩, by simp, by simp, by simp, rfl⟩, fun w => ⟨rfl, rfl, ?_⟩⟩
      simp [tryStrategies]
  | cons strategy rest ih =>
      rcases outcome : B.map strategy size b with ⟨e | region, b'⟩
      · obtain ⟨answer, last, block, asked, alike⟩ := ih b'
        refine ⟨answer, last, _, asked.after_refusal strategy, fun w => ?_⟩
        obtain ⟨same_answer, same_mapper, trace⟩ :=
          alike ((w.record (.map strategy size none)).log (.mapStrategyFailed strategy e))
        simp only [tryStrategies, outcome]
        refine ⟨same_answer, same_mapper, ?_⟩
        rw [trace]
        simp [MapRequest.event]
      · refine ⟨some region, b', _, .granted strategy rest size region, fun w => ?_⟩
        simp [tryStrategies, outcome, MapRequest.event]

/-- What a reservation does that makes these requests: its answer, the mapper and the map it leaves,
and its calls. What is granted is put into the coverage pointer right behind the grant, and nothing
but a grant changes the session. -/
structure Reserves (B : MapBackend β) (layout : Layout) (answer : Option Address) (after : β)
    (block : List MapRequest) (t : Session β Standalone) : Prop where
  answered : (t.reserve B Standalone.engine).1 = answer
  mapper : (t.reserve B Standalone.engine).2.backend = after
  map : (t.reserve B Standalone.engine).2.map = answer.elim (awaiting layout) (held layout · true)
  engine : (t.reserve B Standalone.engine).2.engine = answer.elim t.engine fun region =>
    t.engine.publish region
  deferral : (t.reserve B Standalone.engine).2.deferral = t.deferral
  calls : (t.reserve B Standalone.engine).2.world.trace =
    t.world.trace ++ (block.map MapRequest.event ++ answer.toList.map .publish)

theorem reserve_block (B : MapBackend β) (layout : Layout) (b : β) :
    ∃ answer after block, RequestBlock layout.size
      (MapStrategy.preferences layout.base) answer block ∧
      ∀ t : Session β Standalone, t.map = awaiting layout → t.backend = b →
        Reserves B layout answer after block t := by
  obtain ⟨answer, after, block, asked, alike⟩ :=
    tryStrategies_block B layout.size (MapStrategy.preferences layout.base) b
  refine ⟨answer, after, block, asked, fun t awaits mapper => ?_⟩
  obtain ⟨world, backend, engine, map, deferral⟩ := t
  obtain rfl : map = awaiting layout := awaits
  obtain rfl : backend = b := mapper
  obtain ⟨same_answer, same_mapper, trace⟩ := alike world
  obtain ⟨world', tried⟩ :
    ∃ world', tryStrategies B layout.size (MapStrategy.preferences layout.base) backend world =
      (answer, after, world') := ⟨_, Prod.ext same_answer (Prod.ext same_mapper rfl)⟩
  rw [tried] at trace
  cases answer with
  | none => constructor <;> simp [reserve, awaiting, tried, trace]
  | some region =>
      constructor <;> simp [reserve, awaiting, tried, trace, publish, held, Standalone.engine]

def requested (B : MapBackend β) (t : Session β Standalone) : List MapRequest :=
  requests ((t.reserve B Standalone.engine).2.world.trace.drop t.world.trace.length)

theorem requested_eq {t : Session β Standalone} {block : List MapRequest} {areas : List Address}
    (h : (t.reserve B Standalone.engine).2.world.trace =
      t.world.trace ++ (block.map MapRequest.event ++ areas.map .publish)) :
        requested B t = block := by
  rw [requested, h, List.drop_left]
  simp

/-- What a session does that is asked for a reservation, and the requests it makes. It starts over
like the first one on the same mapper, whatever was refused before, and answers with memory that it
holds as that stands. -/
structure Reservation (B : MapBackend β) (layout : Layout) (t : Session β Standalone)
    (block : List MapRequest) :
    Prop where
  idle : block = [] ↔ t.map.region ≠ none ∨ t.map.ownership = .engine
  asked : block ≠ [] → t.map = awaiting layout ∧
    ∃ answer after, RequestBlock layout.size (MapStrategy.preferences layout.base) answer block ∧
      ∀ first : Session β Standalone, first.map = awaiting layout → first.backend = t.backend →
        Reserves B layout answer after block first
  held : ∀ region, t.map.region = some region → t.reserve B Standalone.engine = (some region, t) ∧
    (t.retract Standalone.engine).reserve B Standalone.engine =
      (some region, t.retract Standalone.engine)
  released : t.map.ownership = .engine →
    t.reserve B Standalone.engine = (none, { t with world := t.world.log .mapAlreadyReleased })

theorem reservation_of_custody (h : Custody layout s.map events) :
    Reservation B layout s (requested B s) ∧ (s.act B .reserve).world.trace = s.world.trace ++
      ((requested B s).map MapRequest.event ++
        ((requested B s).filterMap MapRequest.region).map .publish) := by
  generalize hm : s.map = map at h
  cases h with
  | awaiting g r =>
      obtain ⟨answer, after, block, asked, alike⟩ := reserve_block B layout s.backend
      have calls := (alike s hm rfl).calls
      have some_requests : block ≠ [] := by
        rintro rfl
        obtain ⟨r, last, -⟩ := asked.short (by decide : 0 < 3)
        cases last
      rw [requested_eq calls, asked.regions]
      refine ⟨⟨?_, fun _ => ⟨hm, answer, after, asked, alike⟩, ?_, ?_⟩, calls⟩
      · simp [some_requests, hm, awaiting]
      · simp [hm, awaiting]
      · simp [hm, awaiting]
  | held region published g r =>
      have again := reserve_held B Standalone.engine hm
      have retracted := (retract_held Standalone.engine hm).map
      have none_requested : requested B s = [] := by simp [requested, again, requests]
      rw [none_requested]
      refine ⟨⟨?_, by simp, fun region' same => ?_, ?_⟩, ?_⟩
      · simp [hm, CoverageMap.held]
      · obtain rfl : region = region' := by simpa [hm, CoverageMap.held] using same
        exact ⟨again, reserve_held B _ retracted⟩
      · simp [hm, CoverageMap.held]
      · simp [act, again]
  | released region g r =>
      have refused := reserve_released B Standalone.engine hm
      have none_requested : requested B s = [] := by simp [requested, refused, requests]
      rw [none_requested]
      refine ⟨⟨?_, by simp, ?_, fun _ => refused⟩, ?_⟩
      · simp [hm, CoverageMap.released]
      · simp [hm, CoverageMap.released]
      · simp [act, refused]

/-- Only a reservation requests memory or seeds the coverage pointer. -/
theorem act_requests_nothing {a : Act} (other : a ≠ .reserve) :
    ∃ more, (s.act B a).world.trace = s.world.trace ++ more ∧ requests more = [] ∧
      seeds more = [] := by
  have quiet : ∀ more : List Event, (∀ e ∈ more, e.isWithdrawal) → requests more = [] ∧
      seeds more = [] :=
    fun more all => ⟨view_eq_nil fun e member => (Event.views_of_isWithdrawal (all e member)).1,
      view_eq_nil fun e member => (Event.views_of_isWithdrawal (all e member)).2⟩
  have nothing : ∀ {s' : Session β Standalone}, s'.world.trace = s.world.trace →
      ∃ more, s'.world.trace = s.world.trace ++ more ∧ requests more = [] ∧ seeds more = [] :=
    fun same => ⟨[], by simp [same], rfl, rfl⟩
  cases a with
  | reserve => exact absurd rfl other
  | retract =>
      obtain ⟨more, trace, all⟩ := retract_trace Standalone.engine s
      exact ⟨more, trace, quiet more all⟩
  | release =>
      obtain ⟨more, trace, all⟩ := release_trace B Standalone.engine s
      exact ⟨more, trace, quiet more all⟩
  | complete attached =>
      cases pending : s.deferral.signaled with
      | true => exact nothing (by rw [act, complete_of_signaled B _ pending])
      | false =>
          obtain ⟨back, area, switch, announced, given, trace, all_back, all_given⟩ :=
            complete_trace B (Standalone.attaching attached) s pending
          refine ⟨_, trace, ?_, ?_⟩
          · simp only [view_append, (quiet back all_back).1]
            exact (quiet given all_given).1
          · simp only [view_append, (quiet back all_back).2]
            exact (quiet given all_given).2
  | prepare => exact nothing (prepare_change s).trace_same
  | renew | foreignPublish | foreignRetract => exact nothing rfl

/-- The states of a history in which a session is asked for a reservation. -/
def reserving (B : MapBackend β) : Session β Standalone → List Act → List (Session β Standalone)
  | _, [] => []
  | s, .reserve :: rest => s :: reserving B (s.act B .reserve) rest
  | s, a :: rest => reserving B (s.act B a) rest

theorem reserving_of_other {a : Act} (other : a ≠ .reserve) (rest : List Act) :
    s.reserving B (a :: rest) = (s.act B a).reserving B rest := by
  cases a with
  | reserve => exact absurd rfl other
  | _ => rfl

theorem replay_reservations (h : Custody layout s.map events) (acts : List Act) :
    (∀ t ∈ s.reserving B acts, Reservation B layout t (requested B t)) ∧
      ∃ more, (s.replay B acts).world.trace = s.world.trace ++ more ∧
        requests more = (s.reserving B acts).flatMap (requested B) ∧
        seeds more = ((s.reserving B acts).flatMap (requested B)).filterMap MapRequest.region := by
  induction acts generalizing s events with
  | nil => exact ⟨by simp [reserving], [], by simp [replay], rfl, rfl⟩
  | cons a acts ih =>
      obtain ⟨noted, -, custody⟩ := act_custody (B := B) h a
      obtain ⟨all, rest, trace, asked, seeded⟩ := ih custody
      by_cases reserve : a = .reserve
      · subst reserve
        obtain ⟨reservation, calls⟩ := reservation_of_custody (B := B) h
        let block := requested B s
        refine ⟨List.forall_mem_cons.mpr ⟨reservation, all⟩,
          block.map MapRequest.event ++ (block.filterMap MapRequest.region).map .publish ++ rest,
          ?_, ?_, ?_⟩
        · rw [replay, trace, calls, List.append_assoc]
        · simp [block, reserving, asked]
        · simp [block, reserving, seeded]
      · obtain ⟨first, calls, none_asked, none_seeded⟩ :=
          act_requests_nothing (B := B) (s := s) reserve
        rw [reserving_of_other reserve]
        refine ⟨all, first ++ rest, ?_, ?_, ?_⟩
        · rw [replay, trace, calls, List.append_assoc]
        · simp only [view_append, none_asked, asked]
          rfl
        · simp only [view_append, none_seeded, seeded]
          rfl

/-- Over a whole history memory is requested by the reservations, one after another, each going
through the strategies until one is granted; and the coverage pointer is seeded with what they are
granted, and by nothing else. -/
theorem reservations_in_order (hs : Fresh layout s) (acts : List Act) :
    let t := s.replay B acts
    let asked := s.reserving B acts
    (∀ r ∈ asked, Reservation B layout r (requested B r)) ∧
      requests t.world.trace = asked.flatMap (requested B) ∧
      seeds t.world.trace = (asked.flatMap (requested B)).filterMap MapRequest.region := by
  have start : Custody layout s.map [] := by
    rw [hs.map]
    exact .awaiting rfl rfl
  obtain ⟨all, more, trace, asked, seeded⟩ := replay_reservations (B := B) start acts
  rw [hs.trace, List.nil_append] at trace
  intro t reservations
  rw [trace]
  exact ⟨all, asked, seeded⟩

/-- A mapper that grants nothing at first, and the second reservation its hint. -/
theorem reservations_in_order_refused :
    let no : Except HarnessError Address := .error (.map .noMemory)
    let s : Session Scripted.Mapper Standalone :=
      { ofBoot with backend := ⟨[no, no, no, no, .ok 0x20000], []⟩ }
    let acts := [.reserve, .reserve, .retract, .reserve, .release, .reserve]
    let t := s.replay Scripted.Mapper.backend acts
    requests t.world.trace =
        [⟨.fixed 0x10000, 256000, none⟩, ⟨.hint 0x10000, 256000, none⟩, ⟨.anywhere, 256000, none⟩,
          ⟨.fixed 0x10000, 256000, none⟩, ⟨.hint 0x10000, 256000, some 0x20000⟩] ∧
      (s.reserving Scripted.Mapper.backend acts).map
        (fun r => (requested Scripted.Mapper.backend r).length) =
        [3, 2, 0, 0] ∧
      requests t.world.trace =
        (s.reserving Scripted.Mapper.backend acts).flatMap (requested Scripted.Mapper.backend) := by
  intro no s acts t
  have fresh : Fresh Layout.default s := ⟨rfl, rfl, rfl⟩
  exact ⟨by decide, by decide, (reservations_in_order fresh acts).2.1⟩

end FuzzHarness.Session
