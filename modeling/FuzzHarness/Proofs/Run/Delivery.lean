import FuzzHarness.Proofs.Kernel.Content
import FuzzHarness.Proofs.Run.Moves

/-!
Where the output of a run arrives. As long as descriptors refer to the same open files, the file
behind an open file receives what is written to its descriptors, in order, and a file behind none of
them stays as it is.
-/

namespace FuzzHarness

def Output.collect (p : Fd → Prop) [DecidablePred p] (outs : List Output) : Bytes :=
  (outs.filter fun o => p o.fd).flatMap (·.data)

namespace Output
variable {p q : Fd → Prop} [DecidablePred p] [DecidablePred q]

theorem collect_concat (outs : List Output) (o : Output) :
    collect p (outs ++ [o]) = collect p outs ++ if p o.fd then o.data else [] := by
  by_cases h : p o.fd
  · simp [collect, h]
  · simp [collect, h]

theorem collect_congr {outs : List Output} (h : ∀ o ∈ outs, p o.fd ↔ q o.fd) :
    collect p outs = collect q outs := by
  have same : (outs.filter fun o => p o.fd) = outs.filter fun o => q o.fd :=
    List.filter_congr fun o member => by simp [h o member]
  rw [collect, same, collect]

theorem collect_eq_nil {outs : List Output} (h : ∀ o ∈ outs, ¬p o.fd) : collect p outs = [] := by
  have none_left : (outs.filter fun o => p o.fd) = [] :=
      List.filter_eq_nil_iff.mpr fun o member => by
    simpa using h o member
  rw [collect, none_left]
  rfl

end Output

namespace World.Moves
open Kernel

variable {E : Event → Prop} {P : Output → Prop} {w w' : World}

theorem keeps (h : Moves E P w w') : w.kernel.Keeps w'.kernel := by
  induction h with
  | refl => exact .refl _
  | record _ _ _ ih => exact ih
  | write _ _ ih => exact ih.trans (keeps_write _ _ _)
  | @read w' path count _ ih =>
      obtain ⟨table, tree, opened⟩ := readPath_frame w'.kernel path count
      refine ih.trans ⟨table, fun found => ⟨_, opened found, rfl, rfl⟩, ?_⟩
      rw [tree]
      exact .refl _
  | setEnvironment _ _ ih => exact ih.trans ⟨rfl, fun found => ⟨_, found, rfl, rfl⟩, .refl _⟩

theorem output_eq (h : Moves E P w w') :
    ∃ outs, w'.output = w.output ++ outs ∧ ∀ o ∈ outs, o.Expected w.diagnostic P := by
  induction h with
  | refl => exact ⟨[], by simp, by simp⟩
  | record _ _ _ ih => exact ih
  | @write w' writer fd data before expected ih =>
      obtain ⟨outs, output, all⟩ := ih
      refine ⟨outs ++ [⟨writer, fd, data⟩], by simp [output], ?_⟩
      intro o member
      rcases List.mem_append.mp member with early | last
      · exact all o early
      · rw [List.mem_singleton.mp last, ← before.diagnostic_eq]
        exact expected
  | read _ _ _ ih => exact ih
  | setEnvironment _ _ ih => exact ih

theorem undisturbed (h : Moves E P w w') (node : NodeId)
    (apart : ∀ o : Output, o.Expected w.diagnostic P →
      ∃ other at_node, Wired w.kernel o.fd other at_node ∧ at_node ≠ node) :
    w'.kernel.tree.content? node = w.kernel.tree.content? node := by
  induction h with
  | refl => rfl
  | record _ _ _ ih => exact ih
  | @write w' writer fd data before expected ih =>
      rw [before.diagnostic_eq] at expected
      obtain ⟨other, at_node, wired, elsewhere⟩ := apart _ expected
      exact (content?_write (before.keeps.wired wired) (Ne.symm elsewhere) data).trans ih
  | @read w' path count _ ih =>
      obtain ⟨-, tree, -⟩ := readPath_frame w'.kernel path count
      exact (congrArg (·.content? node) tree).trans ih
  | setEnvironment _ _ ih => exact ih

theorem carries (h : Moves E P w w') (slot : Nat) (node : NodeId)
    (routes : ∀ o : Output, o.Expected w.diagnostic P → w.kernel.slot? o.fd = some slot ∨
      ∃ other at_node, Wired w.kernel o.fd other at_node ∧ at_node ≠ node) {outs : List Output}
    (output : w'.output = w.output ++ outs) :
    Carries slot node
      (Output.collect (fun fd => w.kernel.slot? fd = some slot) outs) w.kernel w'.kernel := by
  rintro f found rfl writable
  induction h generalizing outs with
  | refl =>
      obtain rfl : outs = [] := by simpa using output
      exact .refl found
  | record _ _ _ ih => exact ih output
  | @write w' writer fd data before expected ih =>
      obtain ⟨early, output', -⟩ := before.output_eq
      obtain rfl : early ++ [⟨writer, fd, data⟩] = outs := by
        rw [output_write, output', List.append_assoc] at output
        exact List.append_cancel_left output
      have d := ih output'
      rw [before.diagnostic_eq] at expected
      have slots := before.keeps.slot? fd
      rw [Output.collect_concat]
      by_cases here : w.kernel.slot? fd = some slot
      · rw [if_pos here]
        exact d.write (slots.trans here) writable data
      · rw [if_neg here, List.append_nil]
        obtain ⟨other, at_node, wired, elsewhere⟩ := (routes _ expected).resolve_left here
        exact d.write_elsewhere (before.keeps.wired wired) elsewhere data
  | @read w' path count _ ih =>
      obtain ⟨-, tree, opened⟩ := readPath_frame w'.kernel path count
      exact (ih output).of_same opened (congrArg (·.content? f.node) tree)
  | setEnvironment _ _ ih => exact (ih output).of_same (fun same => same) rfl

theorem carries_nil (h : Moves E P w w') {slot : Nat} {node : NodeId}
    (apart : ∀ o : Output, o.Expected w.diagnostic P →
      ∃ other at_node, Wired w.kernel o.fd other at_node ∧ at_node ≠ node) :
    Carries slot node [] w.kernel w'.kernel := by
  rintro f found rfl writable
  obtain ⟨outs, output, expected⟩ := h.output_eq
  have nothing : Output.collect (fun fd => w.kernel.slot? fd = some slot) outs = [] := by
    refine Output.collect_eq_nil fun o member same => ?_
    obtain ⟨other, at_node, wired, elsewhere⟩ := apart o (expected o member)
    obtain ⟨g, found', rfl, -⟩ := wired.opened
    obtain rfl : other = slot := Option.some.inj (wired.slot_eq.symm.trans same)
    obtain rfl : f = g := Option.some.inj (found.symm.trans found')
    exact elsewhere rfl
  rw [← nothing]
  exact h.carries slot f.node (fun o reaches => .inr (apart o reaches)) output f found rfl writable

end World.Moves

end FuzzHarness
