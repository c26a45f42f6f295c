import FuzzHarness.Proofs.Run.Delivery
import FuzzHarness.Proofs.Run.Settling

/-!
Where diagnostics go once the streams are redirected. They follow a descriptor that was made for
them. Otherwise they stay where they were, and reach what standard error refers to only if that is
the same.
-/

namespace FuzzHarness

/-- An output written on the way from one state to another, where its descriptor referred to this
open file, or to none. -/
def Output.Through (o : Output) (start final : World) (slot : Option Nat) : Prop :=
  ∃ w : World, start.Moves (fun _ => True) (fun _ => True) w ∧ w.kernel.slot? o.fd = slot ∧
    (w.write o.fd o.data o.writer).Moves (fun _ => True) (fun _ => True) final

namespace World.Moves

variable {E : Event → Prop} {P : Output → Prop} {w w' : World} {o : Output} {later : List Output}

theorem moment (h : Moves E P w w') (output : w'.output = w.output ++ later) (member : o ∈ later) :
    ∃ v, Moves E P w v ∧ Moves E P (v.write o.fd o.data o.writer) w' := by
  induction h generalizing later with
  | refl =>
      obtain rfl : later = [] := by simpa using output
      cases member
  | record _ e allowed ih =>
      obtain ⟨v, before, after⟩ := ih output member
      exact ⟨v, before, after.record e allowed⟩
  | @write w' writer fd data before expected ih =>
      obtain ⟨early, output', -⟩ := before.output_eq
      obtain rfl : early ++ [⟨writer, fd, data⟩] = later := by
        rw [output_write, output', List.append_assoc] at output
        exact List.append_cancel_left output
      rcases List.mem_append.mp member with first | last
      · obtain ⟨v, before', after⟩ := ih output' first
        exact ⟨v, before', after.write expected⟩
      · obtain rfl : o = ⟨writer, fd, data⟩ := List.mem_singleton.mp last
        exact ⟨w', before, .refl⟩
  | read path count _ ih =>
      obtain ⟨v, before, after⟩ := ih output member
      exact ⟨v, before, after.read path count⟩
  | setEnvironment environment _ ih =>
      obtain ⟨v, before, after⟩ := ih output member
      exact ⟨v, before, after.setEnvironment environment⟩

/-- Descriptors keep their open files, so every output goes through the open file that its
descriptor refers to at the start. -/
theorem through (h : Moves E P w w') (output : w'.output = w.output ++ later) (member : o ∈ later) :
    o.Through w w' (w.kernel.slot? o.fd) := by
  obtain ⟨v, before, after⟩ := h.moment output member
  refine ⟨v, before.mono (fun _ _ => trivial) (fun _ _ => trivial), before.keeps.slot? o.fd, ?_⟩
  exact after.mono (fun _ _ => trivial) (fun _ _ => trivial)

end World.Moves

namespace RunState

variable {β ρ ι τ : Type} {h : Harness β ρ ι τ} {s : RunState β ρ ι τ} {d : DiagnosticStream}
  {w : World} {slot : Nat}

/-- After a redirection that succeeds, every diagnostic goes to the open file behind the descriptor
that the redirection answers with, if standard error is discarded or that is where diagnostics went
before. If neither is so, none does. -/
theorem diagnostics_follow_iff (apart : h.streams.stderr ≠ h.streams.stdout)
    (busy : s.world.kernel.slot? h.streams.stderr = some slot) (arguments : List Bytes)
    (lifespan : Nat)
    (redirected :
      Redirection.apply h.streams h.settings.policy (s.greeted h arguments).world = (.ok d, w)) :
    let final := (s.run h arguments lifespan).2.world
    ∃ object later, w.kernel.slot? d.fd = some object ∧ final.output = w.output ++ later ∧
      ∀ o ∈ later, o.writer = .diagnostics → ∃ reached, o.Through (w.turned d) final reached ∧
        (reached = some object ↔
          h.settings.policy.discardStderr = true ∨
          w.kernel.slot? s.world.diagnostic = some object) := by
  intro final
  have beginning := moves_greeted h arguments s
  have unmoved := (Redirection.steps_apply h.streams h.settings.policy
    (s.greeted h arguments).world).diagnostic_eq
  rw [redirected, beginning.diagnostic_eq] at unmoved
  obtain ⟨object, appended⟩ :=
    Redirection.slot?_appending h.settings.policy
      ((beginning.keeps.slot? h.streams.stderr).trans busy)
  obtain ⟨stands, -, answered⟩ := Redirection.apply_stands apart appended redirected
  have moves := moves_redirected arguments lifespan redirected
  obtain ⟨later, output, expected⟩ := moves.output_eq
  have written := output
  rw [World.output_turned] at written
  refine ⟨object, later, stands, written, ?_⟩
  intro o member diagnostic
  have through := moves.through output member
  have at_diagnostic : o.fd = (w.turned d).diagnostic :=
    ((expected o member).resolve_right fun other => other diagnostic).2
  rw [at_diagnostic, World.kernel_turned] at through
  refine ⟨_, through, ?_⟩
  cases duplicated : d.duplicated with
  | true =>
      have discards : h.settings.policy.discardStderr = true :=
        (answered d rfl).1.symm.trans duplicated
      have turned : (w.turned d).diagnostic = d.fd := World.diagnostic_turned (by simp [duplicated])
      rw [turned]
      exact iff_of_true stands (.inl discards)
  | false =>
      have keeps : h.settings.policy.discardStderr = false :=
        (answered d rfl).1.symm.trans duplicated
      have turned : (w.turned d).diagnostic = s.world.diagnostic := by
        rw [World.turned, duplicated]
        exact unmoved
      rw [turned, keeps]
      simp

/-- Two files that stand for the streams of a process, and diagnostics that are told from the level
of information on. -/
def scratchWorld : World :=
  { World.boot [] (some ⟨[⟨none, Log.Level.info.rank⟩], none⟩) with
    kernel := (Kernel.boot []).openUnnamed.2.openUnnamed.2 }

/-- With streams of its own and nothing discarded, the demonstration program says things that do not
go where the redirection answers. -/
theorem diagnostics_astray :
    let h :=
      { Launch.harness Standalone.engine Launch.demoTarget Settings.default with streams := ⟨3, 4⟩ }
    let s := Launch.start scratchWorld ⟨[]⟩ (.file []) Standalone.fresh ()
    let arguments := [Bytes.ofString "demo", Bytes.ofString "-1"]
    let final := (s.run h arguments 5).2.world
    ∃ w object later o reached,
      Redirection.apply h.streams h.settings.policy (s.greeted h arguments).world =
          (.ok ⟨4, false⟩, w) ∧
        w.kernel.slot? 4 = some object ∧ final.output = w.output ++ later ∧ o ∈ later ∧
        o.writer = .diagnostics ∧
        o.Through (w.turned ⟨4, false⟩) final reached ∧ reached ≠ some object := by
  intro h s arguments final
  have busy : s.world.kernel.slot? h.streams.stderr = some 4 := by decide +kernel
  obtain ⟨result, w, redirected⟩ : ∃ result w, Redirection.apply h.streams h.settings.policy
      (s.greeted h arguments).world = (result, w) := ⟨_, _, rfl⟩
  have succeeds :
    (Redirection.apply h.streams h.settings.policy (s.greeted h arguments).world).1.toOption =
      some ⟨4, false⟩ := by decide +kernel
  have apart : (Redirection.apply h.streams h.settings.policy
    (s.greeted h arguments).world).2.kernel.slot? 2 = some 2 ∧
      (Redirection.apply h.streams h.settings.policy (s.greeted h arguments).world).2.kernel.slot?
        4 = some 4 := by
    decide +kernel
  have said : (final.output.drop (Redirection.apply h.streams h.settings.policy
      (s.greeted h arguments).world).2.output.length).any (fun o => o.writer = .diagnostics) =
        true := by
    decide +kernel
  rw [redirected] at succeeds apart said
  cases result with
  | error e => cases succeeds
  | ok d =>
      obtain rfl : d = ⟨4, false⟩ := Option.some.inj succeeds
      obtain ⟨object, later, at_object, output, follow⟩ :=
        diagnostics_follow_iff (h := h) (s := s) (by decide) busy arguments 5 redirected
      obtain rfl : 4 = object := Option.some.inj (apart.2.symm.trans at_object)
      rw [output, List.drop_left] at said
      obtain ⟨o, member, diagnostic⟩ := List.any_eq_true.mp said
      obtain ⟨reached, through, reached_iff⟩ := follow o member (by simpa using diagnostic)
      refine ⟨w, 4, later, o, reached, redirected, apart.2, output, member,
        by simpa using diagnostic, through, ?_⟩
      intro same
      rcases reached_iff.mp same with discards | there
      · cases discards
      · cases apart.1.symm.trans there

end RunState

end FuzzHarness
