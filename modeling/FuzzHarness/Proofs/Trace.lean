import FuzzHarness.World

/-!
Views of a trace: the requests for memory, the memory that was granted and given back, what the
coverage pointer was seeded with, the signals that set-up is complete, what the target is invoked
with, how questions for another iteration are answered, and the kinds of events that the phases of a
run are told apart by.
-/

namespace FuzzHarness

/-- A request for memory: how and how much of it was asked for, and the region that was granted. -/
structure MapRequest where
  strategy : MapStrategy
  size : Nat
  region : Option Address
  deriving DecidableEq, Repr

def MapRequest.event (r : MapRequest) : Event :=
  .map r.strategy r.size r.region

end FuzzHarness

namespace FuzzHarness.Event

@[simp] def request? : Event → Option MapRequest
  | .map strategy size region => some ⟨strategy, size, region⟩
  | _ => none

@[simp] def seed? : Event → Option Address
  | .publish area => some area
  | _ => none

@[simp] def grant? : Event → Option (Address × Nat)
  | .map _ size (some region) => some (region, size)
  | _ => none

@[simp] def return? : Event → Option (Address × Nat)
  | .unmap region size _ => some (region, size)
  | _ => none

/-- What the coverage pointer holds when an event is the signal that set-up is complete. -/
@[simp] def signal? : Event → Option (Option Address)
  | .manualInit area _ _ => some area
  | _ => none

@[simp] def payload? : Event → Option Bytes
  | .invoke data _ => some data
  | _ => none

@[simp] def answer? : Event → Option Bool
  | .loop _ reply => some reply.proceeds
  | _ => none

/-- Calls about the placeholder: to the mapper, or to the engine's coverage pointer. -/
@[simp] def isPlaceholderCall : Event → Bool
  | .map .. | .unmap .. | .publish _ | .retract _ => true
  | _ => false

/-- What gives the placeholder up: clearing the coverage pointer of it, and giving its memory
back. -/
@[simp] def isWithdrawal : Event → Bool
  | .unmap .. | .retract _ => true
  | _ => false

/-- What hands the address range over: calls about the placeholder, and the signal that set-up is
complete. -/
@[simp] def isHandover : Event → Bool
  | .manualInit .. => true
  | e => e.isPlaceholderCall

@[simp] def isMap : Event → Bool
  | .map .. => true
  | _ => false

@[simp] def isReportFd : Event → Bool
  | .reportFd .. => true
  | _ => false

@[simp] def isSetup : Event → Bool
  | .setup .. => true
  | _ => false

/-- What puts the placeholder in place: requests for memory, and seeding the coverage pointer. -/
@[simp] def isReservation : Event → Bool
  | .map .. | .publish _ => true
  | _ => false

/-- What happens between the placeholder's being put in place and the choice of a mode: the
diagnostics subsystem is pointed somewhere, and the target is set up. -/
@[simp] def isArrangement : Event → Bool
  | .reportFd .. | .setup .. => true
  | _ => false

@[simp] def isInvocation : Event → Bool
  | .invoke .. => true
  | _ => false

@[simp] def isRead : Event → Bool
  | .read .. => true
  | _ => false

@[simp] def isGrant : Event → Bool
  | .loop _ reply => reply.proceeds
  | _ => false

/-- What happens once the inputs run. -/
@[simp] def isInput : Event → Bool
  | .invoke .. | .loop .. | .read .. => true
  | _ => false

theorem apart_of_isHandover {e : Event} (h : e.isHandover) :
    e.isReportFd = false ∧ e.isSetup = false := by
  cases e <;> first | exact ⟨rfl, rfl⟩ | cases h

theorem isReportFd_of_isSetup {e : Event} (h : e.isSetup) : e.isReportFd = false := by
  cases e <;> first | rfl | cases h

theorem isReportFd_of_isInput {e : Event} (h : e.isInput) : e.isReportFd = false := by
  cases e <;> first | rfl | cases h

theorem isReservation_of_isMap {e : Event} (h : e.isMap) : e.isReservation := by
  cases e <;> first | rfl | cases h

theorem isHandover_of_isReservation {e : Event} (h : e.isReservation) : e.isHandover := by
  cases e <;> first | rfl | cases h

theorem isPlaceholderCall_of_isWithdrawal {e : Event} (h : e.isWithdrawal) :
    e.isPlaceholderCall := by
  cases e <;> first | rfl | cases h

theorem isHandover_of_isWithdrawal {e : Event} (h : e.isWithdrawal) : e.isHandover := by
  cases e <;> first | rfl | cases h

theorem views_of_isWithdrawal {e : Event} (h : e.isWithdrawal) :
    e.request? = none ∧ e.seed? = none := by
  cases e <;> first | exact ⟨rfl, rfl⟩ | cases h

theorem isArrangement_of_isSetup {e : Event} (h : e.isSetup) : e.isArrangement := by
  cases e <;> first | rfl | cases h

theorem isInput_of_isRead {e : Event} (h : e.isRead) : e.isInput := by
  cases e <;> first | rfl | cases h

theorem views_of_isReservation_or_isArrangement {e : Event}
    (h : e.isReservation ∨ e.isArrangement) :
    e.signal? = none ∧ e.isInput = false := by
  rcases h with reservation | arrangement
  · cases e <;> first | exact ⟨rfl, rfl⟩ | cases reservation
  · cases e <;> first | exact ⟨rfl, rfl⟩ | cases arrangement

theorem not_isInvocation_of_isRead {e : Event} (h : e.isRead) : e.isInvocation = false := by
  cases e <;> first | rfl | cases h

theorem not_isInput_of_isHandover {e : Event} (h : e.isHandover) : e.isInput = false := by
  cases e <;> first | rfl | cases h

theorem countP_none {p : Event → Bool} {events : List Event} (h : ∀ e ∈ events, p e = false) :
    events.countP p = 0 :=
  List.countP_eq_zero.mpr fun e member => Bool.eq_false_iff.mp (h e member)

theorem views_of_not_isInput {e : Event} (h : e.isInput = false) :
    e.payload? = none ∧ e.answer? = none ∧ e.isInvocation = false := by
  cases e <;> first | exact ⟨rfl, rfl, rfl⟩ | cases h

theorem views_of_isMap {e : Event} (h : e.isMap) :
    e.return? = none ∧ e.signal? = none ∧ e.isInvocation = false := by
  cases e <;> first | exact ⟨rfl, rfl, rfl⟩ | cases h

theorem views_of_isSetup {e : Event} (h : e.isSetup) :
    e.grant? = none ∧ e.return? = none ∧ e.signal? = none ∧ e.isInvocation = false := by
  cases e <;> first | exact ⟨rfl, rfl, rfl, rfl⟩ | cases h

theorem views_of_isInput {e : Event} (h : e.isInput) :
    e.grant? = none ∧ e.return? = none ∧ e.signal? = none := by
  cases e <;> first | exact ⟨rfl, rfl, rfl⟩ | cases h

end FuzzHarness.Event

namespace FuzzHarness.Trace

variable {α : Type} {f : Event → Option α}

/-- What is seen of a trace when each event shows at most one thing. -/
def view (f : Event → Option α) (events : List Event) : List α :=
  events.filterMap f

@[simp] theorem view_nil : view f [] = [] := rfl

@[simp] theorem view_cons (e : Event) (events : List Event) :
    view f (e :: events) = (f e).toList ++ view f events := by
  simp only [view, List.filterMap_cons]
  cases f e <;> rfl

@[simp] theorem view_append (xs ys : List Event) : view f (xs ++ ys) = view f xs ++ view f ys :=
  List.filterMap_append

theorem view_eq_nil {events : List Event} (h : ∀ e ∈ events, f e = none) : view f events = [] :=
  List.filterMap_eq_nil_iff.mpr h

theorem view_map {β : Type} (g : β → Event) (xs : List β) :
    view f (xs.map g) = xs.filterMap (f ∘ g) :=
  List.filterMap_map

abbrev requests (events : List Event) : List MapRequest :=
  view Event.request? events

abbrev seeds (events : List Event) : List Address :=
  view Event.seed? events

abbrev granted (events : List Event) : List (Address × Nat) :=
  view Event.grant? events

abbrev returned (events : List Event) : List (Address × Nat) :=
  view Event.return? events

abbrev signals (events : List Event) : List (Option Address) :=
  view Event.signal? events

abbrev payloads (events : List Event) : List Bytes :=
  view Event.payload? events

abbrev answers (events : List Event) : List Bool :=
  view Event.answer? events

@[simp] theorem requests_map_event (block : List MapRequest) :
    requests (block.map MapRequest.event) = block :=
  (view_map _ _).trans List.filterMap_some

@[simp] theorem seeds_map_event (block : List MapRequest) :
    seeds (block.map MapRequest.event) = [] :=
  (view_map _ _).trans (List.filterMap_eq_nil_iff.mpr fun _ _ => rfl)

@[simp] theorem requests_map_publish (areas : List Address) :
    requests (areas.map .publish) = [] :=
  (view_map _ _).trans (List.filterMap_eq_nil_iff.mpr fun _ _ => rfl)

@[simp] theorem seeds_map_publish (areas : List Address) : seeds (areas.map .publish) = areas :=
  (view_map _ _).trans List.filterMap_some

end FuzzHarness.Trace
