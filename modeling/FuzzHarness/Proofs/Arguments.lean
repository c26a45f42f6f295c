import FuzzHarness.Launch
import FuzzHarness.Proofs.Run.Batch
import FuzzHarness.Scripted.Target

/-!
Arguments on their way through the vector of a C program. A list without NUL bytes comes back as it
went, and whatever a set-up hook leaves is read up to its first null pointer and no further than its
count. A linked target reads the vector that its process starts with in the same way.
-/

namespace FuzzHarness

namespace ArgVector

variable {v : ArgVector} {xs : List Bytes} {beyond : List (Option Bytes)} {count place : Nat}

/-- The entries of a vector where it lies in memory. Nothing may be there at all, neither a pointer
nor a null. -/
abbrev Cells := Nat → Option (Option Bytes)

/-- Reads so many entries one after the other, but none behind a null pointer. To read where nothing
is would be a fault, and then there is no result. -/
def readFrom (cells : Cells) : Nat → Nat → Option (List Bytes)
  | 0, _ => some []
  | count + 1, place =>
    match cells place with
    | none => none
    | some none => some []
    | some (some a) => (readFrom cells count (place + 1)).map (a.beforeNul :: ·)

/-- A vector is read as these arguments: those before its first null pointer, cut down to its count,
each up to its first NUL byte. Only the entries that are read need to be there, and the null pointer
if it is reached. -/
def ReadAs (v : ArgVector) (arguments : List Bytes) : Prop :=
  ∃ (xs : List Bytes) (beyond : List (Option Bytes)), v.entries = xs.map some ++ none :: beyond ∧
    arguments = (xs.take v.count.toNat).map Bytes.beforeNul ∧
    ∀ cells : Cells, (∀ n, n ≤ xs.length → n < v.count.toNat → cells n = v.entries[n]?) →
      readFrom cells v.count.toNat 0 = some arguments

theorem readFrom_eq {cells : Cells} (held : ∀ n, n ≤ xs.length → n < count →
    cells (place + n) = (xs.map some ++ none :: beyond)[n]?) :
    readFrom cells count place = some ((xs.take count).map Bytes.beforeNul) := by
  induction count generalizing xs place with
  | zero => rfl
  | succ count ih =>
      have here := held 0 (Nat.zero_le _) (Nat.zero_lt_succ count)
      cases xs with
      | nil =>
          simp only [Nat.add_zero, List.map_nil, List.nil_append, List.getElem?_cons_zero] at here
          simp only [readFrom, here, List.take_nil, List.map_nil]
      | cons x xs =>
          simp only [Nat.add_zero, List.map_cons, List.cons_append, List.getElem?_cons_zero] at here
          have rest :
              readFrom cells count (place + 1) = some ((xs.take count).map Bytes.beforeNul) := by
            refine ih fun n inside fewer => ?_
            have next := held (n + 1) (Nat.succ_le_succ inside) (Nat.succ_lt_succ fewer)
            rw [List.map_cons, List.cons_append, List.getElem?_cons_succ] at next
            rw [Nat.add_right_comm]
            exact next
          simp only [readFrom, here, rest, Option.map_some, List.take_succ_cons, List.map_cons]

theorem beforeNull_take (xs : List Bytes) (beyond : List (Option Bytes)) (count : Nat) :
    beforeNull ((xs.map some ++ none :: beyond).take count) = xs.take count := by
  induction xs generalizing count with
  | nil => cases count <;> rfl
  | cons x xs ih =>
      cases count with
      | zero => rfl
      | succ count => exact congrArg (x :: ·) (ih count)

theorem beforeNull_of_closed (xs : List Bytes) : beforeNull (xs.map some ++ [none]) = xs := by
  have all := beforeNull_take xs [] (xs.map some ++ [none]).length
  rwa [List.take_length, List.take_of_length_le (by simp)] at all

theorem arguments_eq (held : v.entries = xs.map some ++ none :: beyond) :
    v.arguments = (xs.take v.count.toNat).map Bytes.beforeNul := by
  rw [arguments, held, beforeNull_take]

theorem entries_of_closed {entries : List (Option Bytes)} (closed : none ∈ entries) :
    ∃ beyond, entries = (beforeNull entries).map some ++ none :: beyond := by
  induction entries with
  | nil => cases closed
  | cons entry entries ih =>
      cases entry with
      | none => exact ⟨entries, rfl⟩
      | some a =>
          obtain ⟨beyond, same⟩ := ih (by simpa using closed)
          exact ⟨beyond, congrArg (some a :: ·) same⟩

theorem readAs_arguments (closed : none ∈ v.entries) : v.ReadAs v.arguments := by
  obtain ⟨beyond, held⟩ := entries_of_closed closed
  refine ⟨beforeNull v.entries, beyond, held, arguments_eq held, fun cells found => ?_⟩
  have there : ∀ n, n ≤ (beforeNull v.entries).length → n < v.count.toNat →
      cells (0 + n) = ((beforeNull v.entries).map some ++ none :: beyond)[n]? := by
    intro n inside fewer
    rw [Nat.zero_add, found n inside fewer, ← held]
  rw [arguments_eq held]
  exact readFrom_eq there

theorem hasNul_of_mem_arguments {a : Bytes} (member : a ∈ v.arguments) : a.hasNul = false := by
  obtain ⟨x, -, rfl⟩ := List.mem_map.mp member
  exact Bytes.hasNul_beforeNul x

theorem length_beforeNull_le (entries : List (Option Bytes)) :
    (beforeNull entries).length ≤ entries.length := by
  induction entries with
  | nil => exact Nat.le_refl 0
  | cons entry entries ih =>
      cases entry with
      | none => exact Nat.zero_le _
      | some a => exact Nat.succ_le_succ ih

theorem length_arguments_le (v : ArgVector) : v.arguments.length ≤ v.count.toNat := by
  rw [arguments, List.length_map]
  exact Nat.le_trans (length_beforeNull_le _) (List.length_take_le _ _)

theorem ofArguments_eq {arguments : List Bytes} (short : arguments.length ≤ maxCount) :
    let kept := arguments.filter fun a => !a.hasNul
    ofArguments arguments = ⟨kept.length, kept.map some ++ [none]⟩ := by
  intro kept
  have fits : kept.length ≤ maxCount := Nat.le_trans (List.length_filter_le _ _) short
  rw [ofArguments, Nat.min_eq_left fits]

theorem filter_of_representable {arguments : List Bytes}
    (representable : ∀ a ∈ arguments, a.hasNul = false) :
    (arguments.filter fun a => !a.hasNul) = arguments :=
  List.filter_eq_self.mpr fun a member => by rw [representable a member]; rfl

theorem arguments_ofArguments {arguments : List Bytes} (short : arguments.length ≤ maxCount) :
    (ofArguments arguments).arguments = arguments.filter fun a => !a.hasNul := by
  rw [ofArguments_eq short, arguments_eq rfl, Int.toNat_natCast, List.take_length]
  refine (List.map_congr_left fun a member => ?_).trans (List.map_id _)
  have kept : a.hasNul = false := by simpa using (List.mem_filter.mp member).2
  exact Bytes.beforeNul_of_not_hasNul kept

end ArgVector

/-- A process of a linked target as its run begins: the log is open, and says so if there is no
set-up hook. -/
def Launch.opened {ρ τ : Type} (T : Target τ) (s : Launch.State ρ τ) : Launch.State ρ τ :=
  let s := s.setWorld s.world.startLog
  if T.setup.isNone then s.log .noSetupHook else s

namespace Invoker
open ArgVector

variable {τ : Type} {T : Target τ} {arguments : List Bytes}

theorem setup_vector {run : ArgVector → τ → HookReply × τ} (short : arguments.length ≤ maxCount)
    (i : Invoker τ) (w : World) (hook : T.setup = some (.vector run)) :
    let after := i.setup T arguments w
    let kept := arguments.filter fun a => !a.hasNul
    let reply := run ⟨kept.length, kept.map some ++ [none]⟩ i.target
    after.1.arguments = reply.1.vector.arguments ∧ after.2.1.target = reply.2 ∧
      after.2.2.trace = w.trace ++ [.setup kept.length kept] := by
  intro after kept reply
  have offered : ofArguments arguments = ⟨kept.length, kept.map some ++ [none]⟩ :=
    ofArguments_eq short
  refine ⟨?_, ?_, ?_⟩
  · rw [setup_arguments, Target.rewrite, hook]
    simp only [offered]
    rfl
  · have prepared : after.2.1.target = T.prepared arguments i.target :=
      congrArg Invoker.target (setup_eq T arguments i w)
    rw [prepared, Target.prepared, hook]
    simp only [offered]
    rfl
  · rw [setup_trace, Target.setupEvents, hook]
    simp only [offered, beforeNull_of_closed]

theorem setup_unchanged {run : ArgVector → τ → HookReply × τ} (short : arguments.length ≤ maxCount)
    (i : Invoker τ) (w : World) (hook : T.setup = some (.vector run)) :
    let kept := arguments.filter fun a => !a.hasNul
    let given : ArgVector := ⟨kept.length, kept.map some ++ [none]⟩
    (run given i.target).1.vector = given → (i.setup T arguments w).1.arguments = kept := by
  intro kept given same
  have back := arguments_ofArguments short
  rw [ofArguments_eq short] at back
  rw [(setup_vector short i w hook).1, same]
  exact back

/-- Arguments survive the vector of a C program. A set-up hook is given those that can be
represented, counted and closed by a null pointer, and what it leaves is read up to the first null
pointer and the count, so that no NUL byte gets in. A hook that changes nothing takes out only what
cannot be represented, and nothing when it is called again; without a hook nothing is taken out. A
linked target reads the vector of its process by the same rule. -/
theorem setup_round_trip {ρ : Type} (T : Target τ) (short : arguments.length ≤ maxCount)
    (i : Invoker τ) (w : World) :
    let after := i.setup T arguments w
    (T.setup = none → after.1.arguments = arguments) ∧
      (∀ run, T.setup = some (.vector run) →
        let kept := arguments.filter fun a => !a.hasNul
        let given : ArgVector := ⟨kept.length, kept.map some ++ [none]⟩
        let (reply, target) := run given i.target
        (after.2.1.target = target ∧ after.2.2.trace = w.trace ++ [.setup kept.length kept]) ∧
          (none ∈ reply.vector.entries → reply.vector.ReadAs after.1.arguments) ∧
          (∀ a ∈ after.1.arguments, a.hasNul = false) ∧
          (reply.vector = given → after.1.arguments = kept ∧
            ((∀ a ∈ arguments, a.hasNul = false) → after.1.arguments = arguments)) ∧
          (reply.vector.count ≤ maxCount → ∀ (T' : Target τ) (i' : Invoker τ) (w' : World) run',
            T'.setup = some (.vector run') → (∀ v state, (run' v state).1.vector = v) →
              (i'.setup T' after.1.arguments w').1.arguments = after.1.arguments)) ∧
      ∀ v : ArgVector, none ∈ v.entries → ∃ read, v.ReadAs read ∧
        ∀ (E : Engine ρ) (lifespan : Nat) (s : Launch.State ρ τ),
          Launch.linked E T v lifespan s = Launch.run E T read lifespan (Launch.opened T s) := by
  intro after
  refine ⟨fun no_hook => ?_, fun run hook => ?_,
    fun v closed => ⟨v.arguments, readAs_arguments closed, ?_⟩⟩
  · have rewritten : after.1.arguments = T.rewrite arguments i.target :=
      setup_arguments T arguments i w
    rw [rewritten, Target.rewrite, no_hook]
  · intro kept given
    obtain ⟨left, target, trace⟩ := setup_vector short i w hook
    have representable : ∀ a ∈ after.1.arguments, a.hasNul = false := by
      rw [left]
      exact fun a => hasNul_of_mem_arguments
    refine ⟨⟨target, trace⟩, fun closed => ?_, representable, fun same => ?_,
      fun word T' i' w' run' hook' idle => ?_⟩
    · rw [left]
      exact readAs_arguments closed
    · have unchanged : after.1.arguments = kept := setup_unchanged short i w hook same
      exact ⟨unchanged, fun whole => unchanged.trans (filter_of_representable whole)⟩
    · have again : after.1.arguments.length ≤ maxCount := by
        rw [left]
        exact Nat.le_trans (length_arguments_le _) (Int.toNat_le.mpr word)
      rw [setup_unchanged again i' w' hook' (idle _ _)]
      exact filter_of_representable representable
  · intro E lifespan s
    unfold Launch.linked Launch.opened
    rfl

/-- A hook may hand back another vector, with a null pointer before its count is reached. -/
theorem setup_round_trip_early_null :
    let hook : Scripted.HookScript := { Scripted.HookScript.idle with
      entries := some [some (Bytes.ofString "x"), none, some (Bytes.ofString "y")]
      count := some 7 }
    let T := Scripted.TargetScript.silent.withVector hook
    let arguments := [Bytes.ofString "prog", [0x61, 0, 0x62]]
    let after := (Invoker.fresh 0).setup T arguments (World.boot [] none)
    after.2.2.trace = [.setup 1 [Bytes.ofString "prog"]] ∧
      after.1.arguments = [Bytes.ofString "x"] ∧
      ∃ v : ArgVector, v.count = 7 ∧ v.ReadAs after.1.arguments := by
  intro hook T arguments after
  have short : arguments.length ≤ maxCount := by decide
  obtain ⟨-, vector, -⟩ :=
    setup_round_trip (ρ := Standalone) T short (Invoker.fresh 0) (World.boot [] none)
  obtain ⟨⟨-, trace⟩, read, -⟩ := vector _ rfl
  exact ⟨trace, by decide, _, rfl, read (by decide)⟩

end Invoker

end FuzzHarness
