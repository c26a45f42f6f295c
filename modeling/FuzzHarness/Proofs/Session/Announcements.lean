import FuzzHarness.Proofs.Announcement
import FuzzHarness.Proofs.Session.Custody

/-!
The environment of a session. Nothing in it touches the environment but the announcements of its
deferrals, so whatever else happens in between, each variable is as the last announcement under its
name left it.
-/

namespace FuzzHarness.Session
open Deferral

section Operations

variable {β ρ : Type}

theorem environment_tryStrategies (B : MapBackend β) (size : Nat) (strategies : List MapStrategy)
    (b : β) (w : World) :
    (tryStrategies B size strategies b w).2.2.kernel.environment = w.kernel.environment := by
  induction strategies generalizing b w with
  | nil => exact World.environment_log w _
  | cons strategy rest ih =>
      simp only [tryStrategies]
      split
      · exact World.environment_log _ _
      · exact (ih _ _).trans (World.environment_log _ _)

theorem environment_reserve (B : MapBackend β) (E : Engine ρ) (s : Session β ρ) :
    (s.reserve B E).2.world.kernel.environment = s.world.kernel.environment := by
  have tried := environment_tryStrategies B s.map.layout.size
    (MapStrategy.preferences s.map.layout.base) s.backend
    s.world
  unfold reserve
  split
  · exact World.environment_log _ _
  · rfl
  · split
    · rename_i outcome
      rwa [outcome] at tried
    · rename_i outcome
      rwa [outcome] at tried

theorem environment_retract (E : Engine ρ) (s : Session β ρ) :
    (s.retract E).world.kernel.environment = s.world.kernel.environment := by
  unfold retract
  split
  · split <;> rfl
  · rfl

theorem environment_release (B : MapBackend β) (E : Engine ρ) (s : Session β ρ) :
    (s.release B E).world.kernel.environment = s.world.kernel.environment := by
  rw [← environment_retract E s]
  simp only [release]
  split
  · rfl
  · split
    · rfl
    · exact World.environment_log _ _

theorem environment_complete (B : MapBackend β) (E : Engine ρ) (s : Session β ρ) :
    (s.complete B E).world.kernel.environment = s.world.kernel.environment := by
  unfold complete
  split
  · rfl
  · exact (environment_release B E _).trans (environment_retract E s)

end Operations

variable {β : Type} {B : MapBackend β} {s : Session β Standalone}

/-- The deferrals that a history announces, in order. -/
def announcements (B : MapBackend β) : Session β Standalone → List Act → List Deferral
  | _, [] => []
  | s, .prepare :: rest => s.deferral :: announcements B (s.act B .prepare) rest
  | s, a :: rest => announcements B (s.act B a) rest

theorem announcements_of_other {a : Act} (other : a ≠ .prepare) (rest : List Act) :
    s.announcements B (a :: rest) = (s.act B a).announcements B rest := by
  cases a with
  | prepare => exact absurd rfl other
  | _ => rfl

theorem environment_act {a : Act} (other : a ≠ .prepare) :
    (s.act B a).world.kernel.environment = s.world.kernel.environment := by
  cases a with
  | reserve => exact environment_reserve B Standalone.engine s
  | retract => exact environment_retract Standalone.engine s
  | release => exact environment_release B Standalone.engine s
  | complete attached => exact environment_complete B (Standalone.attaching attached) s
  | prepare => exact absurd rfl other
  | renew | foreignPublish | foreignRetract => rfl

theorem replay_reflects (s : Session β Standalone) (acts : List Act) :
    Reflects (s.announcements B acts) s.world.kernel.environment
      (s.replay B acts).world.kernel.environment := by
  induction acts generalizing s with
  | nil => exact .refl _
  | cons a acts ih =>
      by_cases prepare : a = .prepare
      · subst prepare
        have first : Reflects [s.deferral] s.world.kernel.environment
            (s.act B .prepare).world.kernel.environment :=
          (announced_prepare s.deferral s.world).reflects
        exact first.append (ih (s.act B .prepare))
      · rw [announcements_of_other prepare, ← environment_act (B := B) (s := s) prepare]
        exact ih (s.act B a)

/-- The environment reflects the last announcement under each name, and a malformed name changes
nothing. An announcement is refused exactly if its name is malformed, which is when the
environment's own call would panic; so no call panics, neither in one announcement nor in many.
After many of them, by any deferrals in any order, a variable has the value that the last one under
its name gave it, and without any the value it had before; and so it has in a session, whatever else
happens there. -/
theorem last_announcement_counts (ds : List Deferral) (w : World) :
    (∀ (d : Deferral) (w : World), Announced d w (d.prepare w) ∧ d.prepare? w = some (d.prepare w) ∧
      (d.announce? w.kernel.environment = none ↔ Malformed d.variableName)) ∧
      (prepareAll ds w).1 = ds.map answer ∧
      prepareAll? ds w = some (prepareAll ds w) ∧
      Reflects ds w.kernel.environment (prepareAll ds w).2.kernel.environment ∧
      ∀ {β : Type} (B : MapBackend β) (s : Session β Standalone) (acts : List Act),
        Reflects (s.announcements B acts) s.world.kernel.environment
          (s.replay B acts).world.kernel.environment := by
  refine ⟨fun d w => ⟨announced_prepare d w, prepare?_eq d w, ?_⟩, answers_prepareAll ds w,
    prepareAll?_eq ds w,
    prepareAll_reflects ds w, fun B s acts => replay_reflects s acts⟩
  rw [announce?_eq]
  split <;> simp [*]

/-- Announcements under two names in turn, with refused ones among them. -/
theorem last_announcement_counts_in_turn :
    let kept := Bytes.ofString "0"
    let w := World.boot (["A", "é", "C"].map fun name => (Bytes.ofString name, kept)) none
    let ds := [forVariable "A" true, forVariable "é" false, forVariable "A=" true,
      forVariable "A" false, forVariable "é" true, forVariable "" false, forVariable "A\x00" true]
    let found := fun name => (prepareAll ds w).2.kernel.environment.get? (Bytes.ofString name)
    (prepareAll ds w).1.map Except.isOk = [true, true, false, true, true, false, false] ∧
      found "A" = some (Bytes.ofString "1") ∧ found "é" = none ∧ found "C" = some kept := by
  intro kept w ds found
  obtain ⟨-, answers, -, reflects, -⟩ := last_announcement_counts ds w
  refine ⟨?_, ?_, ?_, ?_⟩
  · rw [answers]
    decide
  · exact reflects.last (ds.take 3) (forVariable "A" false) (ds.drop 4) rfl (by decide) (by decide)
  · exact reflects.last (ds.take 4) (forVariable "é" true) (ds.drop 5) rfl (by decide) (by decide)
  · exact reflects.others (Bytes.ofString "C") (by decide)

end FuzzHarness.Session
