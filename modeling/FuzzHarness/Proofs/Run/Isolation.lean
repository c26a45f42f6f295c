import FuzzHarness.Boot
import FuzzHarness.Launch
import FuzzHarness.Proofs.Redirection
import FuzzHarness.Proofs.Run.Delivery
import FuzzHarness.Proofs.Run.Settling

/-!
Isolation of a whole run. The target's output reaches the original standard streams exactly where
the policy lets it, the banner reaches standard output, and diagnostics and reports reach the file
that standard error is appended to, or the original standard error, whatever is discarded.
-/

namespace FuzzHarness

open Kernel Redirection

/-- Standard output and standard error as a run with a policy finds them: open on two different
nodes that are not the one standard error is to be appended to, with diagnostics on standard error
and a null sink in its place. -/
structure Separate (policy : RedirectionPolicy) (w : World) (out err : OpenFile) : Prop where
  diagnostic : w.diagnostic = 2
  stdout : w.kernel.openFile? 1 = some out ∧ out.writable = true
  stderr : w.kernel.openFile? 2 = some err ∧ err.writable = true
  apart : out.node ≠ err.node
  duplicate : ∀ path file tree, policy.stderrDuplicate = some path →
    w.kernel.locate path .append = .ok (file, tree) →
    file ≠ out.node ∧ file ≠ err.node
  sink : ∃ sink, SinkAt w.kernel.tree sink

/-- What is written once the streams are redirected, with diagnostics at this descriptor. -/
def Output.Late (d : Fd) (F : Fd → Prop) (o : Output) : Prop :=
  o.Foreground F ∨ o.Reported d

theorem Output.fd_of_expected_late {d : Fd} {F : Fd → Prop} {o : Output}
    (hF : ∀ fd, F fd → fd = 1 ∨ fd = 2 ∨ fd = d) (expected : o.Expected d (Output.Late d F)) :
    o.fd = 1 ∨ o.fd = 2 ∨ o.fd = d := by
  rcases expected with ⟨-, diagnostic⟩ | foreground | ⟨-, reported⟩
  · exact .inr (.inr diagnostic)
  · cases writer : o.writer with
    | harness => exact .inl (by simpa [Output.Foreground, writer] using foreground)
    | target => exact hF _ (by simpa [Output.Foreground, writer] using foreground)
    | diagnostics | reports => simp [Output.Foreground, writer] at foreground
  · exact .inr (.inr reported)

namespace Kernel

theorem Carries.content {k k' : Kernel} {slot : Nat} {f : OpenFile} {data : Bytes}
    (h : Carries slot f.node data k k') (found : k.opened[slot]? = some f)
    (writable : f.writable = true) :
    k'.tree.content? f.node = (k.tree.content? f.node).map (f.place · data) :=
  (h f found rfl writable).content

theorem Wired.slot_ne {k : Kernel} {fd fd' : Fd} {slot slot' : Nat} {node node' : NodeId}
    (h : Wired k fd slot node) (h' : Wired k fd' slot' node') (apart : node ≠ node') :
    slot ≠ slot' := by
  rintro rfl
  obtain ⟨f, found, at_node, -⟩ := h.opened
  obtain ⟨f', found', at_node', -⟩ := h'.opened
  obtain rfl : f = f' := Option.some.inj (found.symm.trans found')
  exact apart (at_node.symm.trans at_node')

end Kernel

/-- The streams after a redirection: what standard error goes to was open in a state in between, and
received what was said since. -/
structure Arranged (policy : RedirectionPolicy) (before between : Kernel) (w : World)
    (d : DiagnosticStream) (outSlot errSlot : Nat) (out sink : NodeId) (file : OpenFile)
    (said : List Output) : Prop where
  opened : between.opened[errSlot]? = some file
  writable : file.writable = true
  arrives : Carries errSlot file.node (Output.collect (· = 2) said) between w.kernel
  said : ∀ o ∈ said, o.writer = .diagnostics ∧ o.fd = 2
  stdout : Carries outSlot out [] before w.kernel
  others : ∀ node, node ≠ file.node → w.kernel.tree.content? node = before.tree.content? node
  wiring : Wiring policy w.kernel d outSlot errSlot out file.node sink
  sink : SinkAt w.kernel.tree sink

/-- A run after its redirection: it goes on in the state that that left, and writes to the
descriptors it should. -/
structure Resumed (w base final : World) (d : DiagnosticStream) (F : Fd → Prop)
    (later : List Output) : Prop where
  kernel : base.kernel = w.kernel
  output : base.output = w.output
  diagnostic : base.diagnostic = d.fd
  moves : base.Moves (fun _ => True) (Output.Late d.fd F) final
  within : ∀ fd, F fd → fd = 1 ∨ fd = 2 ∨ fd = d.fd
  later : final.output = base.output ++ later

theorem Resumed.expected {w base final : World} {d : DiagnosticStream}
    {F : Fd → Prop} {later : List Output} (resumed : Resumed w base final d F later) :
    ∀ o ∈ later, o.Expected d.fd (Output.Late d.fd F) := by
  obtain ⟨outs, output, expected⟩ := resumed.moves.output_eq
  obtain rfl : later = outs := List.append_cancel_left (resumed.later.symm.trans output)
  exact fun o member => resumed.diagnostic ▸ expected o member

section Redirect

variable {policy : RedirectionPolicy} {w w' : World} {d : DiagnosticStream} {outSlot errSlot : Nat}
  {out sink : NodeId} {err : OpenFile}

theorem arranged_of_none (no_duplicate : policy.stderrDuplicate = none)
    (h : Redirection.apply .default policy w = (.ok d, w')) (stdout : Wired w.kernel 1 outSlot out)
    (stderr : Wired w.kernel 2 errSlot err.node) (opened : w.kernel.opened[errSlot]? = some err)
    (writable : err.writable = true) (at_sink : SinkAt w.kernel.tree sink) :
    w'.output = w.output ∧ w'.diagnostic = w.diagnostic ∧
      Arranged policy w.kernel w.kernel w' d outSlot errSlot out sink err [] := by
  unfold Redirection.apply at h
  rw [no_duplicate] at h
  obtain ⟨rewired, wiring⟩ := silence_wired h stdout stderr at_sink
  refine ⟨rewired.output, rewired.diagnostic, opened, writable, rewired.carries _ _, by simp,
    rewired.carries _ _, ?_,
    wiring, by rwa [rewired.tree]⟩
  intro node _
  rw [rewired.tree]

theorem arranged_of_some {path : Bytes} (duplicate : policy.stderrDuplicate = some path)
    (h : Redirection.apply .default policy w = (.ok d, w')) (diagnostic : w.diagnostic = 2)
    (stdout : Wired w.kernel 1 outSlot out) (stderr : Wired w.kernel 2 errSlot err.node)
    (at_sink : SinkAt w.kernel.tree sink)
    (apart : ∀ file tree, w.kernel.locate path .append = .ok (file, tree) → file ≠ out) :
    ∃ file tree said, w.kernel.locate path .append = .ok (file, tree) ∧
      w'.output = w.output ++ said ∧
      w'.diagnostic = w.diagnostic ∧
      Arranged policy w.kernel (w.kernel.refit 2 (OpenMode.openFile .append file) tree) w' d outSlot
        w.kernel.opened.length out sink (OpenMode.openFile .append file) said := by
  unfold Redirection.apply at h
  rw [duplicate] at h
  simp only at h
  split at h
  · cases h
  · rename_i v outcome
    obtain ⟨file, tree, located, same⟩ :=
      appendTo_ok (m := 2) outcome (busy_of_wired (m := 2) stderr) diagnostic
    let refitted : World :=
      { w with kernel := w.kernel.refit 2 (OpenMode.openFile .append file) tree }
    have logged : refitted.Moves (fun _ => False) (fun _ => False) v := by
      rw [same]
      exact World.Moves.refl.log _
    obtain ⟨grown, others⟩ := locate_append located
    obtain ⟨said, output, said_diagnostics⟩ := logged.output_eq
    have said_two : ∀ o : Output, o.Expected refitted.diagnostic (fun _ => False) →
        o.writer = .diagnostics ∧ o.fd = 2 := fun o expected => by
      obtain ⟨writer, fd⟩ := expected.resolve_right id
      exact ⟨writer, fd.trans diagnostic⟩
    have on_two : Wired refitted.kernel 2 w.kernel.opened.length file := wired_refit_self _ 2 _ rfl
    have on_one : Wired refitted.kernel 1 outSlot out := stdout.refit (by decide) _ _
    obtain ⟨rewired, wiring⟩ :=
      silence_wired h (logged.keeps.wired on_one) (logged.keeps.wired on_two)
      ((at_sink.grows grown).grows logged.keeps.shape.grows)
    have elsewhere : out ≠ file := Ne.symm (apart file tree located)
    refine ⟨file, tree, said, located, ?_, ?_, ?_, rfl, ?_, ?_, ?_, ?_, wiring, ?_⟩
    · rw [rewired.output, output]
      rfl
    · rw [rewired.diagnostic, logged.diagnostic_eq]
    · simp [Kernel.refit, Kernel.assign]
    · have delivered := logged.carries w.kernel.opened.length file (fun o expected => .inl <| by
        rw [(said_two o expected).2]
        exact on_two.slot_eq) output
      have collected :
        Output.collect (fun fd => refitted.kernel.slot? fd = some w.kernel.opened.length) said =
          Output.collect (· = 2) said := Output.collect_congr fun o member => by
        have two := (said_two o (said_diagnostics o member)).2
        simp [two, on_two.slot_eq]
      have arrived := delivered.trans (rewired.carries w.kernel.opened.length file)
      rwa [collected, List.append_nil] at arrived
    · exact fun o member => said_two o (said_diagnostics o member)
    · have refitting : Carries outSlot out [] w.kernel refitted.kernel :=
        carries_refit _ _ _ (others out elsewhere)
      have nothing : Carries outSlot out [] refitted.kernel v.kernel :=
          logged.carries_nil fun o expected =>
        ⟨_, _, (said_two o expected).2 ▸ on_two, Ne.symm elsewhere⟩
      exact (refitting.trans nothing).trans (rewired.carries _ _)
    · intro node other
      rw [rewired.tree, logged.undisturbed node fun o expected =>
        ⟨_, _, (said_two o expected).2 ▸ on_two, Ne.symm other⟩]
      exact others node other
    · rw [rewired.tree]
      exact (at_sink.grows grown).grows logged.keeps.shape.grows

variable {before between : Kernel} {file : OpenFile} {said later : List Output} {F : Fd → Prop}
  {base final : World}

/-- After the redirection the file that standard error goes to receives what is written to the
diagnostic descriptor, the original standard output what is written to standard output unless that
is discarded, and no other file anything. -/
theorem Arranged.delivers
    (arranged : Arranged policy before between w d outSlot errSlot out sink file said)
    (apart : out ≠ file.node) (resumed : Resumed w base final d F later) :
    (file.node ≠ sink →
      Carries errSlot file.node (Output.collect (· = d.fd) later) w.kernel final.kernel) ∧
      (out ≠ sink →
        Carries outSlot out (if policy.discardStdout then [] else Output.collect (· = 1) later)
          w.kernel final.kernel) ∧
      ∀ node, node ≠ file.node → node ≠ out → node ≠ sink →
        final.kernel.tree.content? node = w.kernel.tree.content? node := by
  have wiring := arranged.wiring
  rw [← resumed.kernel] at wiring ⊢
  have moves := resumed.moves
  have known : ∀ o : Output, o.Expected base.diagnostic (Output.Late d.fd F) → o.fd = 1 ∨ o.fd = 2 ∨
      o.fd = d.fd :=
    fun o expected => Output.fd_of_expected_late resumed.within (resumed.diagnostic ▸ expected)
  have expected : ∀ o ∈ later, o.Expected base.diagnostic (Output.Late d.fd F) :=
    resumed.diagnostic ▸ resumed.expected
  refine ⟨fun not_sink => ?_, fun not_sink => ?_, fun node not_err not_out not_sink => ?_⟩
  · have delivered := moves.carries errSlot file.node (fun o reaches => ?_) resumed.later
    · have collected : Output.collect (fun fd => base.kernel.slot? fd = some errSlot) later =
          Output.collect (· = d.fd) later := Output.collect_congr fun o member => by
        rcases wiring.cases (known o (expected o member)) with
          ⟨other, -, fresh, wired⟩ | ⟨one, -, wired⟩ | ⟨same, wired⟩
        · simp [other, wired.slot_eq, wired.slot_ne wiring.diagnostics (Ne.symm not_sink)]
        · simp [one, one ▸ wired.slot_eq, (one ▸ wired).slot_ne wiring.diagnostics apart,
            Ne.symm wiring.fd_ne_one]
        · simp [same, wiring.diagnostics.slot_eq]
      rwa [collected] at delivered
    · rcases wiring.cases (known o reaches) with ⟨-, -, fresh, wired⟩ | ⟨-, -, wired⟩ | ⟨-, wired⟩
      · exact .inr ⟨_, _, wired, Ne.symm not_sink⟩
      · exact .inr ⟨_, _, wired, apart⟩
      · exact .inl wired.slot_eq
  · cases discards : policy.discardStdout with
    | true =>
        refine moves.carries_nil fun o reaches => ?_
        rcases wiring.cases (known o reaches) with ⟨-, -, fresh, wired⟩ | ⟨-, kept, -⟩ | ⟨-, wired⟩
        · exact ⟨_, _, wired, Ne.symm not_sink⟩
        · simp [discards] at kept
        · exact ⟨_, _, wired, Ne.symm apart⟩
    | false =>
        have stdout : Wired base.kernel 1 outSlot out := by simpa [discards] using wiring.stdout
        have delivered := moves.carries outSlot out (fun o reaches => ?_) resumed.later
        · have collected : Output.collect (fun fd => base.kernel.slot? fd = some outSlot) later =
              Output.collect (· = 1) later := Output.collect_congr fun o member => by
            rcases wiring.cases (known o (expected o member)) with
              ⟨-, kept, fresh, wired⟩ | ⟨one, -, -⟩ | ⟨same, wired⟩
            · have other : o.fd ≠ 1 := fun one => by simp [discards] at kept; exact kept one
              simp [other, wired.slot_eq, wired.slot_ne stdout (Ne.symm not_sink)]
            · simp [one, stdout.slot_eq]
            · simp [same, wiring.fd_ne_one, wiring.diagnostics.slot_eq,
                wiring.diagnostics.slot_ne stdout (Ne.symm apart)]
          rw [collected] at delivered
          simpa using delivered
        · rcases wiring.cases (known o reaches) with
            ⟨-, -, fresh, wired⟩ | ⟨-, -, wired⟩ | ⟨-, wired⟩
          · exact .inr ⟨_, _, wired, Ne.symm not_sink⟩
          · exact .inl wired.slot_eq
          · exact .inr ⟨_, _, wired, Ne.symm apart⟩
  · refine moves.undisturbed node fun o reaches => ?_
    rcases wiring.cases (known o reaches) with ⟨-, -, fresh, wired⟩ | ⟨-, -, wired⟩ | ⟨-, wired⟩
    · exact ⟨_, _, wired, Ne.symm not_sink⟩
    · exact ⟨_, _, wired, Ne.symm not_out⟩
    · exact ⟨_, _, wired, Ne.symm not_err⟩

end Redirect

namespace RunState
variable {β ρ ι τ : Type} {h : Harness β ρ ι τ} {F : Fd → Prop}

def greeting (arguments : List Bytes) : Output :=
  ⟨.harness, 1, Bytes.ofString (banner (Mode.programName arguments))⟩

theorem opening_moves (s : RunState β ρ ι τ) (arguments : List Bytes)
    (diagnostic : s.world.diagnostic = 2) :
    let w := ((s.startUp h).2.print (banner (Mode.programName arguments))).world
    s.world.Moves (·.isHandover) (· = greeting arguments) w ∧
      ∃ opening, w.output = s.world.output ++ (opening ++ [greeting arguments]) ∧
        ∀ o ∈ opening, o.writer = .diagnostics ∧ o.fd = 2 := by
  intro w
  have started : s.world.Moves (·.isHandover) (fun _ => False) (s.startUp h).2.world :=
    (moves_startUp s).mono (fun e reservation => Event.isHandover_of_isReservation reservation)
      fun _ allowed => allowed
  obtain ⟨opening, output, diagnostics⟩ := started.output_eq
  refine ⟨?_, opening, ?_, fun o member => ?_⟩
  · exact (started.mono (fun _ event => event) (fun _ => False.elim)).write (.inr rfl)
  · rw [← List.append_assoc, ← output]
    exact World.output_write _ _ _ _
  · obtain ⟨writer, fd⟩ := (diagnostics o member).resolve_right id
    exact ⟨writer, fd.trans diagnostic⟩

theorem redirect_moves {s : RunState β ρ ι τ} {d : DiagnosticStream} {w : World}
    (redirected : Redirection.apply h.streams h.settings.policy s.world = (.ok d, w))
    (kept : d.duplicated = false → w.diagnostic = d.fd) :
    ∃ (u : RunState β ρ ι τ) (base : World), s.redirect h = (.ok (), u) ∧
      base.kernel = w.kernel ∧ base.output = w.output ∧ base.diagnostic = d.fd ∧
      base.Moves (·.isReportFd) (Output.Reported d.fd) u.world ∧
      ∃ linked, u.world.trace = w.trace ++
        if d.duplicated then [.reportFd d.fd linked] else [] := by
  obtain ⟨linked, trace⟩ := follow_trace h d (s.setWorld w)
  exact ⟨(s.setWorld w).follow h d, w.turned d, redirect_of_ok redirected, World.kernel_turned,
    World.output_turned,
    World.diagnostic_turned kept, moves_follow (s.setWorld w) d, linked, trace⟩

end RunState

theorem opening_delivers {E : Event → Prop} {w w' : World} {outSlot errSlot : Nat}
    {out err : NodeId} {hello : Output} {opening : List Output} (moves : w.Moves E (· = hello) w')
    (diagnostic : w.diagnostic = 2) (on_one : hello.fd = 1) (stdout : Wired w.kernel 1 outSlot out)
    (stderr : Wired w.kernel 2 errSlot err) (apart : out ≠ err)
    (output : w'.output = w.output ++ (opening ++ [hello])) (on_two : ∀ o ∈ opening, o.fd = 2) :
    Carries outSlot out hello.data w.kernel w'.kernel ∧
      Carries errSlot err (Output.collect (· = 2) opening) w.kernel w'.kernel ∧
      ∀ node, node ≠ out → node ≠ err →
        w'.kernel.tree.content? node = w.kernel.tree.content? node := by
  have known : ∀ o : Output, o.Expected w.diagnostic (· = hello) → o.fd = 1 ∨ o.fd = 2 := by
    rintro o (⟨-, two⟩ | rfl)
    · exact .inr (two.trans diagnostic)
    · exact .inl on_one
  have different := stdout.slot_ne stderr apart
  refine ⟨?_, ?_, fun node not_out not_err => moves.undisturbed node fun o reaches => ?_⟩
  · have delivered := moves.carries outSlot out (fun o reaches => ?_) output
    · have nothing : Output.collect (fun fd => w.kernel.slot? fd = some outSlot) opening = [] :=
        Output.collect_eq_nil fun o member => by
          simp [on_two o member, stderr.slot_eq, Ne.symm different]
      rw [Output.collect_concat, nothing, if_pos (by rw [on_one, stdout.slot_eq])] at delivered
      exact delivered
    · rcases known o reaches with one | two
      · exact .inl (one ▸ stdout.slot_eq)
      · exact .inr ⟨_, _, two ▸ stderr, Ne.symm apart⟩
  · have delivered := moves.carries errSlot err (fun o reaches => ?_) output
    · have all : Output.collect (fun fd => w.kernel.slot? fd = some errSlot) opening =
          Output.collect (· = 2) opening := Output.collect_congr fun o member => by
        simp [on_two o member, stderr.slot_eq]
      rw [Output.collect_concat, all, if_neg (by simp [on_one, stdout.slot_eq, different]),
        List.append_nil]
        at delivered
      exact delivered
    · rcases known o reaches with one | two
      · exact .inr ⟨_, _, one ▸ stdout, apart⟩
      · exact .inl (two ▸ stderr.slot_eq)
  · rcases known o reaches with one | two
    · exact ⟨_, _, one ▸ stdout, Ne.symm not_out⟩
    · exact ⟨_, _, two ▸ stderr, Ne.symm not_err⟩

/-- What the parties of a run wrote, in order, and what the files hold at its end. -/
structure Isolated (policy : RedirectionPolicy) (start final : World) (d : Fd) (F : Fd → Prop)
    (out err : OpenFile) (hello : Output) (opening said later : List Output) : Prop where
  output : final.output = start.output ++ (opening ++ [hello] ++ said ++ later)
  early : ∀ o ∈ opening ++ said, o.writer = .diagnostics ∧ o.fd = 2
  late : ∀ o ∈ later, o.Expected d (Output.Late d F)
  stdout : final.kernel.tree.content? out.node = (start.kernel.tree.content? out.node).map
    (out.place · (hello.data ++ if policy.discardStdout then [] else Output.collect (· = 1) later))
  stderr : match policy.stderrDuplicate with
    | none => final.kernel.tree.content? err.node = (start.kernel.tree.content? err.node).map
        (err.place · (Output.collect (· = 2) (opening ++ said) ++ Output.collect (· = d) later))
    | some path =>
      (∃ file tree, start.kernel.locate path .append = .ok (file, tree) ∧
        final.kernel.tree.content? file =
        (tree.content? file).map
          (· ++ (Output.collect (· = 2) said ++ Output.collect (· = d) later))) ∧
      final.kernel.tree.content? err.node = (start.kernel.tree.content? err.node).map
        (err.place · (Output.collect (· = 2) opening))
  others : ∀ node, node ≠ out.node → node ≠ err.node →
    (∀ path file tree, policy.stderrDuplicate = some path →
      start.kernel.locate path .append = .ok (file, tree) →
      node ≠ file) → final.kernel.tree.content? node = start.kernel.tree.content? node

theorem content_of_carries {k k' : Kernel} {slot : Nat} {f : OpenFile} {data : Bytes}
    {sink : NodeId} (at_start : SinkAt k.tree sink) (at_end : SinkAt k'.tree sink)
    (found : k.opened[slot]? = some f) (writable : f.writable = true)
    (carried : f.node ≠ sink → Carries slot f.node data k k') :
    k'.tree.content? f.node = (k.tree.content? f.node).map (f.place · data) := by
  by_cases is_sink : f.node = sink
  · rw [is_sink, at_start.content?_eq, at_end.content?_eq]
    rfl
  · exact (carried is_sink).content found writable

theorem content_of_others {k k' : Kernel} {node sink : NodeId} (at_start : SinkAt k.tree sink)
    (at_end : SinkAt k'.tree sink)
    (same : node ≠ sink → k'.tree.content? node = k.tree.content? node) :
    k'.tree.content? node = k.tree.content? node := by
  by_cases is_sink : node = sink
  · rw [is_sink, at_start.content?_eq, at_end.content?_eq]
  · exact same is_sink

theorem OpenFile.place_append (node : NodeId) (content data : Bytes) :
    (OpenMode.openFile .append node).place content data = content ++ data := by
  cases data with
  | nil => simp [place]
  | cons x xs => simp [place, position, OpenMode.openFile, overwrite_at_end]

/-- A run before its redirection: where its streams lead, and what start-up and the banner wrote. -/
structure Opened (policy : RedirectionPolicy) (start w : World) (out err : OpenFile)
    (hello : Output) (opening : List Output) (outSlot errSlot : Nat) (sink : NodeId) : Prop where
  separate : Separate policy start out err
  out_found : start.kernel.opened[outSlot]? = some out
  err_found : start.kernel.opened[errSlot]? = some err
  start_sink : SinkAt start.kernel.tree sink
  keeps : start.kernel.Keeps w.kernel
  diagnostic : w.diagnostic = 2
  stdout : Wired w.kernel 1 outSlot out.node
  stderr : Wired w.kernel 2 errSlot err.node
  output : w.output = start.output ++ (opening ++ [hello])
  diagnostics : ∀ o ∈ opening, o.writer = .diagnostics ∧ o.fd = 2
  greeted : Carries outSlot out.node hello.data start.kernel w.kernel
  warned : Carries errSlot err.node (Output.collect (· = 2) opening) start.kernel w.kernel
  untouched : ∀ node, node ≠ out.node → node ≠ err.node →
    w.kernel.tree.content? node = start.kernel.tree.content? node

section Outcome

variable {policy : RedirectionPolicy} {start w₁ w₂ base final : World} {d : DiagnosticStream}
  {F : Fd → Prop} {E : Event → Prop} {out err : OpenFile} {hello : Output}
  {opening said later : List Output} {outSlot errSlot : Nat} {sink : NodeId}

theorem opened_of_moves (separate : Separate policy start out err)
    (first : start.Moves E (· = hello) w₁)
    (output : w₁.output = start.output ++ (opening ++ [hello])) (on_one : hello.fd = 1)
    (diagnostics : ∀ o ∈ opening, o.writer = .diagnostics ∧ o.fd = 2) :
    ∃ outSlot errSlot sink, Opened policy start w₁ out err hello opening outSlot errSlot sink := by
  obtain ⟨sink, start_sink⟩ := separate.sink
  obtain ⟨outSlot, out_found, stdout⟩ := wired_of_openFile separate.stdout.1 separate.stdout.2
  obtain ⟨errSlot, err_found, stderr⟩ := wired_of_openFile separate.stderr.1 separate.stderr.2
  obtain ⟨greeted, warned, untouched⟩ :=
    opening_delivers first separate.diagnostic on_one stdout stderr separate.apart
    output fun o member => (diagnostics o member).2
  refine ⟨outSlot, errSlot, sink, ?_⟩
  exact { separate, out_found, err_found, start_sink, output, diagnostics, greeted, warned
          untouched
          keeps := first.keeps
          diagnostic := first.diagnostic_eq.trans separate.diagnostic
          stdout := first.keeps.wired stdout
          stderr := first.keeps.wired stderr }

theorem Opened.at_sink
    (opened : Opened policy start w₁ out err hello opening outSlot errSlot sink) :
    SinkAt w₁.kernel.tree sink :=
  opened.start_sink.grows opened.keeps.shape.grows

theorem Opened.located (opened : Opened policy start w₁ out err hello opening outSlot errSlot sink)
    {path : Bytes} (duplicate : policy.stderrDuplicate = some path) {file : NodeId}
    {tree : FileTree} (located : w₁.kernel.locate path .append = .ok (file, tree)) :
    (file ≠ out.node ∧ file ≠ err.node) ∧
    ∃ tree', start.kernel.locate path .append = .ok (file, tree') ∧
      (start.kernel.tree.content? file = w₁.kernel.tree.content? file →
        tree'.content? file = tree.content? file) := by
  obtain ⟨tree', located', same⟩ := locate_append_sameShape opened.keeps.shape.symm located
  exact ⟨opened.separate.duplicate path file tree' duplicate located', tree', located', same⟩

theorem Opened.redirected
    (opened : Opened policy start w₁ out err hello opening outSlot errSlot sink)
    (redirected : Redirection.apply .default policy w₁ = (.ok d, w₂)) :
    w₂.diagnostic = 2 ∧ d.fd ≠ 1 ∧ (d.fd = 2 ↔ policy.discardStderr = false) ∧
    d.duplicated = policy.discardStderr := by
  cases duplicate : policy.stderrDuplicate with
  | none =>
      have stderr := opened.stderr
      obtain ⟨err₁, err_found, err_node, writable⟩ := stderr.opened
      rw [← err_node] at stderr
      obtain ⟨-, diagnostic, arranged⟩ :=
        arranged_of_none duplicate redirected opened.stdout stderr err_found writable opened.at_sink
      exact ⟨diagnostic.trans opened.diagnostic, arranged.wiring.fd_ne_one,
        arranged.wiring.fd_eq_two,
        arranged.wiring.duplicated⟩
  | some path =>
      obtain ⟨file, tree, said, -, -, diagnostic, arranged⟩ :=
        arranged_of_some duplicate redirected opened.diagnostic
        opened.stdout opened.stderr opened.at_sink fun file tree located =>
          (opened.located duplicate located).1.1
      exact ⟨diagnostic.trans opened.diagnostic, arranged.wiring.fd_ne_one,
        arranged.wiring.fd_eq_two,
        arranged.wiring.duplicated⟩

theorem Arranged.outcome {between : Kernel} {slot : Nat} {file : OpenFile}
    (arranged : Arranged policy w₁.kernel between w₂ d outSlot slot out.node sink file said)
    (apart : out.node ≠ file.node)
    (opened : Opened policy start w₁ out err hello opening outSlot errSlot sink)
    (resumed : Resumed w₂ base final d F later) :
    SinkAt final.kernel.tree sink ∧
      final.kernel.tree.content? out.node = (start.kernel.tree.content? out.node).map
        (out.place · (hello.data ++
          if policy.discardStdout then [] else Output.collect (· = 1) later)) ∧
      (file.node ≠ sink → Carries slot file.node
        (Output.collect (· = 2) said ++ Output.collect (· = d.fd) later) between final.kernel) ∧
      ∀ node, node ≠ out.node → node ≠ file.node → node ≠ sink →
        final.kernel.tree.content? node = w₁.kernel.tree.content? node := by
  obtain ⟨to_file, to_out, to_others⟩ := arranged.delivers apart resumed
  have at_end : SinkAt final.kernel.tree sink := by
    refine arranged.sink.grows ?_
    rw [← resumed.kernel]
    exact resumed.moves.keeps.shape.grows
  refine ⟨at_end, ?_, fun not_sink => arranged.arrives.trans (to_file not_sink), ?_⟩
  · refine content_of_carries opened.start_sink at_end opened.out_found opened.separate.stdout.2
      fun not_sink => ?_
    have carried := (opened.greeted.trans arranged.stdout).trans (to_out not_sink)
    rwa [List.append_nil] at carried
  · intro node not_out not_file not_sink
    rw [to_others node not_file not_out not_sink, arranged.others node not_file]

theorem isolated_of_none
    (opened : Opened policy start w₁ out err hello opening outSlot errSlot sink)
    (no_duplicate : policy.stderrDuplicate = none)
    (redirected : Redirection.apply .default policy w₁ = (.ok d, w₂))
    (resumed : Resumed w₂ base final d F later) :
    Isolated policy start final d.fd F out err hello opening [] later := by
  have separate := opened.separate
  have stderr := opened.stderr
  obtain ⟨err₁, err_found, err_node, writable⟩ := stderr.opened
  rw [← err_node] at stderr
  obtain ⟨output, -, arranged⟩ :=
    arranged_of_none no_duplicate redirected opened.stdout stderr err_found writable opened.at_sink
  have apart : out.node ≠ err₁.node := by
    rw [err_node]
    exact separate.apart
  obtain ⟨at_end, out_content, to_err, to_others⟩ := arranged.outcome apart opened resumed
  refine ⟨?_, ?_, resumed.expected, out_content, ?_, ?_⟩
  · simp [resumed.later, resumed.output, output, opened.output]
  · simpa using opened.diagnostics
  · rw [no_duplicate, List.append_nil]
    refine content_of_carries opened.start_sink at_end opened.err_found separate.stderr.2
      fun not_sink => ?_
    rw [err_node] at to_err
    exact opened.warned.trans (to_err not_sink)
  · intro node not_out not_err _
    refine content_of_others opened.start_sink at_end fun not_sink => ?_
    rw [to_others node not_out (by rwa [err_node]) not_sink, opened.untouched node not_out not_err]

theorem isolated_of_some
    (opened : Opened policy start w₁ out err hello opening outSlot errSlot sink)
    {path : Bytes} (duplicate : policy.stderrDuplicate = some path)
    (redirected : Redirection.apply .default policy w₁ = (.ok d, w₂))
    (resumed : Resumed w₂ base final d F later) :
    ∃ said, Isolated policy start final d.fd F out err hello opening said later := by
  have separate := opened.separate
  obtain ⟨file, tree, said, located, output, -, arranged⟩ :=
    arranged_of_some duplicate redirected opened.diagnostic
    opened.stdout opened.stderr opened.at_sink fun file tree located =>
      (opened.located duplicate located).1.1
  obtain ⟨⟨not_out, not_err⟩, tree', located', same_content⟩ := opened.located duplicate located
  obtain ⟨at_end, out_content, to_file, to_others⟩ :=
    arranged.outcome (Ne.symm not_out) opened resumed
  refine ⟨said, ?_, ?_, resumed.expected, out_content, ?_, ?_⟩
  · simp [resumed.later, resumed.output, output, opened.output]
  · intro o member
    rcases List.mem_append.mp member with early | late
    · exact opened.diagnostics o early
    · exact arranged.said o late
  · rw [duplicate]
    refine ⟨⟨file, tree', located', ?_⟩, ?_⟩
    · rw [same_content (opened.untouched file not_out not_err).symm]
      let received := Output.collect (· = 2) said ++ Output.collect (· = d.fd) later
      have content : final.kernel.tree.content? file = (tree.content? file).map
          ((OpenMode.openFile .append file).place · received) :=
        content_of_carries (opened.at_sink.grows (locate_append located).1) at_end arranged.opened
          rfl to_file
      simpa only [OpenFile.place_append] using content
    · by_cases is_sink : err.node = sink
      · rw [is_sink, opened.start_sink.content?_eq, at_end.content?_eq]
        rfl
      · rw [to_others err.node (Ne.symm separate.apart) (Ne.symm not_err) is_sink]
        exact opened.warned.content opened.err_found separate.stderr.2
  · intro node not_out' not_err' not_duplicate
    refine content_of_others opened.start_sink at_end fun not_sink => ?_
    have not_file : node ≠ file := not_duplicate path file tree' duplicate located'
    rw [to_others node not_out' not_file not_sink, opened.untouched node not_out' not_err']

theorem isolated_of_phases
    (opened : Opened policy start w₁ out err hello opening outSlot errSlot sink)
    (redirected : Redirection.apply .default policy w₁ = (.ok d, w₂))
    (resumed : Resumed w₂ base final d F later) :
    ∃ said, Isolated policy start final d.fd F out err hello opening said later := by
  cases duplicate : policy.stderrDuplicate with
  | none => exact ⟨[], isolated_of_none opened duplicate redirected resumed⟩
  | some path => exact isolated_of_some opened duplicate redirected resumed

end Outcome

namespace RunState
variable {β ρ ι τ : Type} {h : Harness β ρ ι τ} {F : Fd → Prop}

/-- In every run with the default streams that are redirected, the original standard output receives
the banner and, unless it is discarded, everything written to standard output after it; everything
written to the diagnostic descriptor reaches the file that standard error is appended to, or the
original standard error; and no other file receives anything. The diagnostics subsystem is pointed
to the diagnostic descriptor, once and before set-up, exactly if standard error is discarded. -/
theorem run_isolated {s : RunState β ρ ι τ} {out err : OpenFile} {d : DiagnosticStream} {w : World}
    (streams : h.streams = .default) (separate : Separate h.settings.policy s.world out err)
    (arguments : List Bytes) (lifespan : Nat)
    (redirected : Redirection.apply h.streams h.settings.policy
      ((s.startUp h).2.print (banner (Mode.programName arguments))).world = (.ok d, w))
    (hF : ∀ fd, F fd → fd = 1 ∨ fd = 2 ∨ fd = d.fd) (hT : h.target.WritesTo F) :
    let final := (s.run h arguments lifespan).2.world
    (d.fd ≠ 1 ∧ (d.fd = 2 ↔ h.settings.policy.discardStderr = false)) ∧
      (∃ opening said later,
        Isolated h.settings.policy s.world final d.fd F out err
          (greeting arguments) opening said later) ∧
      ∃ before linked after, final.trace = s.world.trace ++
          (before ++ (if h.settings.policy.discardStderr then [.reportFd d.fd linked] else []) ++
            after) ∧
        (∀ e ∈ before, e.isReportFd = false ∧ e.isSetup = false) ∧
        ∀ e ∈ after, e.isReportFd = false := by
  intro final
  obtain ⟨first, opening, output, diagnostics⟩ :=
    opening_moves (h := h) s arguments separate.diagnostic
  obtain ⟨outSlot, errSlot, sink, opened⟩ := opened_of_moves separate first output rfl diagnostics
  have redirected_default := streams ▸ redirected
  obtain ⟨diagnostic, not_one, is_two, duplicated⟩ := opened.redirected redirected_default
  obtain ⟨u, base, reached, kernel, base_output, base_diagnostic, reporting, linked, reported⟩ :=
    redirect_moves redirected fun kept => by
      rw [diagnostic, is_two.mpr (duplicated.symm.trans kept)]
  have running := moves_run hT s arguments lifespan reached
  have reporting_late : base.Moves (fun _ => True) (Output.Late d.fd F) u.world :=
    reporting.mono (fun _ _ => trivial) fun o report => .inr report
  have running_late : u.world.Moves (fun _ => True) (Output.Late d.fd F) final :=
    running.mono (fun _ _ => trivial) fun o foreground => .inl foreground
  have last := reporting_late.trans running_late
  obtain ⟨later, written, -⟩ := last.output_eq
  have resumed : Resumed w base final d F later :=
    ⟨kernel, base_output, base_diagnostic, last, hF, written⟩
  obtain ⟨said, isolated⟩ := isolated_of_phases opened redirected_default resumed
  refine ⟨⟨not_one, is_two⟩, ⟨opening, said, later, isolated⟩, ?_⟩
  obtain ⟨before, trace₁, handover⟩ := first.trace_eq
  obtain ⟨after, trace₃, no_report⟩ := running.trace_eq
  have trace₂ := Redirection.trace_apply h.streams h.settings.policy
    ((s.startUp h).2.print (banner (Mode.programName arguments))).world
  rw [redirected, trace₁] at trace₂
  refine ⟨before, linked, after, ?_, fun e member => Event.apart_of_isHandover (handover e member),
    no_report⟩
  rw [trace₃, reported, trace₂, duplicated]
  simp only [List.append_assoc]

end RunState

def echoTarget : Target Unit where
  setup := none
  react data _ := (⟨[.write 1 data, .write 2 data], false, 0⟩, ())

theorem echoTarget_writesTo : echoTarget.WritesTo fun fd => fd = 1 ∨ fd = 2 := by
  intro data state fd out member
  simp only [echoTarget, List.mem_cons, Effect.write.injEq, List.not_mem_nil, or_false] at member
  exact member.imp And.left And.left

def Settings.silenced : Settings :=
  { Settings.default with stderrDuplicate := some (Bytes.ofString "log"), closeFdMask := some "3" }

theorem separate_boot :
    Separate Settings.silenced.policy (World.boot [] none) (streamFile FileTree.stdoutNode true)
    (streamFile FileTree.stderrNode true) where
  diagnostic := rfl
  stdout := ⟨rfl, rfl⟩
  stderr := ⟨rfl, rfl⟩
  apart := by decide
  duplicate := by
    rintro path file tree same located
    obtain rfl : Bytes.ofString "log" = path := Option.some.inj same
    have created : ((World.boot [] none).kernel.locate (Bytes.ofString "log") .append).toOption.map
        (·.1) = some 9 := by
      decide +kernel
    rw [located] at created
    obtain rfl : file = 9 := Option.some.inj created
    decide
  sink := ⟨4, by rfl, rfl⟩

namespace RunState

/-- A target that speaks on both streams is isolated where both are discarded. -/
theorem run_isolated_echo :
    let h := Launch.harness Standalone.engine echoTarget Settings.silenced
    let s := Launch.start (World.boot [] none) ⟨[]⟩ (.file []) Standalone.fresh ()
    ∃ opening said later, Isolated h.settings.policy s.world (s.run h [] 5).2.world 3
      (fun fd => fd = 1 ∨ fd = 2)
      (streamFile FileTree.stdoutNode true) (streamFile FileTree.stderrNode true)
      (greeting []) opening said later := by
  intro h s
  have succeeds : (Redirection.apply h.streams h.settings.policy
      ((s.startUp h).2.print (banner (Mode.programName []))).world).1.toOption =
        some ⟨3, true⟩ := by decide +kernel
  obtain ⟨result, w, redirected⟩ : ∃ result w, Redirection.apply h.streams h.settings.policy
      ((s.startUp h).2.print (banner (Mode.programName []))).world = (result, w) := ⟨_, _, rfl⟩
  rw [redirected] at succeeds
  cases result with
  | error e => cases succeeds
  | ok d =>
      obtain rfl : d = ⟨3, true⟩ := Option.some.inj succeeds
      exact (run_isolated rfl separate_boot [] 5 redirected (fun fd known => known.imp_right .inl)
        echoTarget_writesTo).2.1

end RunState

end FuzzHarness
