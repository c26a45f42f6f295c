import FuzzHarness.Proofs.Kernel.Sealing
import FuzzHarness.Proofs.Run.Batch

/-!
The files of a batch do not change while it runs if nobody could write to them when the run began:
without a file to append standard error to, a run opens nothing for writing but the null sink.
-/

namespace FuzzHarness

open Kernel

theorem World.Moves.spares {w w' : World} {E : Event → Prop} {P : Output → Prop} {path : Bytes}
    (h : w.Moves E P w') (start : w.kernel.Sealed path) : Spares path w.kernel w'.kernel := by
  induction h with
  | refl => exact start.refl
  | record _ _ _ ih => exact ih
  | write _ _ ih => exact ih.trans (spares_write ih.still _ _)
  | read other count _ ih => exact ih.trans (spares_readPath ih.still other count)
  | setEnvironment environment _ ih =>
      exact ih.trans
        (ih.still.spares_same rfl fun f found writable => .inl ⟨f, found, writable, rfl⟩)

namespace RunState

variable {β ρ ι τ : Type} {h : Harness β ρ ι τ} {s : RunState β ρ ι τ} {path : Bytes}

theorem spares_settle (h : Harness β ρ ι τ) (arguments : List Bytes) (s : RunState β ρ ι τ)
    (no_duplicate : h.settings.stderrDuplicate = none) (start : s.world.kernel.Sealed path) :
    Spares path s.world.kernel (s.settle h arguments).2.world.kernel := by
  have greeted := (moves_greeted h arguments s).spares start
  have redirected :=
    greeted.trans (Redirection.spares_apply greeted.still h.streams h.settings.policy no_duplicate)
  rcases settle_cases h arguments s with
    ⟨e, w, outcome, -, settled⟩ | ⟨d, w, outcome, -, -, settled⟩
  · rw [outcome] at redirected
    rw [settled]
    exact redirected
  · rw [outcome] at redirected
    rw [settled]
    let t := (s.greeted h arguments).setWorld w
    have turned : Spares path s.world.kernel (w.turned d).kernel := by rwa [World.kernel_turned]
    have followed := turned.trans ((moves_follow (h := h) t d).spares turned.still)
    have equipped := followed.trans
      ((moves_setUp (h := h) (P := fun _ => False) arguments _).spares followed.still)
    exact equipped.trans
      ((Mode.moves_resolve (E := fun _ => False) (P := fun _ => False) _ _).spares equipped.still)

theorem spares_print (text : String) (start : s.world.kernel.Sealed path) :
    Spares path s.world.kernel (s.print text).world.kernel :=
  (World.Moves.refl (E := fun _ => False)
    (P := Output.Foreground fun _ => True) |>.print text).spares start

theorem spares_told {other data : Bytes} {input : Option Bytes} {w : World}
    {survival : Survival} {t : RunState β ρ ι τ} (start : s.world.kernel.Sealed path)
    (reads : BatchFiles.readInput other s.world = (input, w))
    (invoked : ((s.setWorld w).print (readingLine other data)).invoke h data = (survival, t)) :
    Spares path s.world.kernel (t.print executedLine).world.kernel := by
  have anywhere : h.target.WritesTo fun _ => True := fun _ _ _ _ _ => trivial
  have reading := (BatchFiles.moves_readInput (E := fun _ => False)
    (P := fun _ => False) other s.world).spares start
  rw [reads] at reading
  have told :=
    reading.trans (spares_print (s := s.setWorld w) (readingLine other data) reading.still)
  have ran := told.trans ((moves_invoke anywhere data _).spares told.still)
  rw [invoked] at ran
  exact ran.trans (spares_print executedLine ran.still)

theorem offered_of_spared {k : Kernel} (paths : List Bytes) (s : RunState β ρ ι τ)
    (spared : ∀ path ∈ paths, Spares path k s.world.kernel) :
    s.offered h paths <+: paths.map fun path => (path, k.tree.input? path) := by
  induction paths generalizing s with
  | nil => exact List.nil_prefix
  | cons path rest ih =>
      rw [List.map_cons, ← (spared path (List.mem_cons_self ..)).input?_eq]
      have later := fun other member => spared other (List.mem_cons_of_mem path member)
      rcases reads : BatchFiles.readInput path s.world with ⟨data?, w⟩
      cases data? with
      | none =>
          rw [offered_skipped reads]
          refine List.cons_prefix_cons.mpr ⟨rfl, ih (s.setWorld w) fun other member => ?_⟩
          have reading := (BatchFiles.moves_readInput (E := fun _ => False)
            (P := fun _ => False) path s.world).spares
            (later other member).still
          rw [reads] at reading
          exact (later other member).trans reading
      | some data =>
          rcases invoked : ((s.setWorld w).print (readingLine path data)).invoke h data with
            ⟨survival, t⟩
          cases survival with
          | aborted =>
              rw [offered_aborted reads invoked]
              exact List.cons_prefix_cons.mpr ⟨rfl, List.nil_prefix⟩
          | alive =>
              rw [offered_executed reads invoked]
              refine List.cons_prefix_cons.mpr ⟨rfl, ih _ fun other member => ?_⟩
              exact (later other member).trans
                (spares_told (later other member).still reads invoked)

theorem unchanged_of_sealed {arguments paths : List Bytes}
    (no_duplicate : h.settings.stderrDuplicate = none)
    (start : ∀ path ∈ paths, s.world.kernel.Sealed path) : Unchanged h arguments paths s := by
  refine offered_of_spared paths _ fun path member => ?_
  have settled := spares_settle h arguments s no_duplicate (start path member)
  exact settled.trans ((moves_handedOver (h := h) (P := fun _ => False) _ _).spares settled.still)

end RunState

end FuzzHarness
