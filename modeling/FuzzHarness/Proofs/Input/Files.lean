import FuzzHarness.Boot
import FuzzHarness.Proofs.Input.Buffers
import FuzzHarness.Proofs.Run.Unchanged

/-!
Inputs from a batch of files, which may change whenever nobody pulls. Each pull passes over the
paths that give no input when their turn comes and gives the next one that does, as far as a file is
read; no path has a second turn, and once none is left there are no more inputs.
-/

namespace FuzzHarness

theorem World.input?_eq_none (w : World) (path : Bytes) :
    w.input? path = none ↔
      (∃ e, (w.kernel.readPath path maxFile).1 = .error e) ∨
        (w.kernel.readPath path maxFile).1 = .ok [] := by
  rw [← BatchFiles.readInput_eq]
  unfold BatchFiles.readInput
  split
  · rename_i outcome
    simp [outcome]
  · rename_i not_empty outcome
    simpa [outcome] using not_empty
  · rename_i outcome
    simp [outcome]

theorem World.input?_file {w : World} {path : Bytes} {id : NodeId} {content : Bytes}
    (room : w.kernel.hasRoom = true) (no_nul : path.hasNul = false)
    (leads : w.kernel.tree.resolve false path = .ok (.node id))
    (holds : w.kernel.tree.node? id = some (.file content)) :
    w.input? path = if content = [] then none else some (content.take maxFile) := by
  have start : w.kernel.tree.start? path maxFile = some (content.take maxFile) := by
    rw [FileTree.start?, no_nul, leads]
    simp only [holds, Bool.false_eq_true, if_false]
    rfl
  rw [input?, room, if_pos rfl, FileTree.input?, start]
  cases content with
  | nil => rfl
  | cons x xs => rfl

def Pull.ofFile : Option (Bytes × Bytes) → Pull
  | some (path, data) => .file path data
  | none => .exhausted

def Pull.file? : Pull → Option (Bytes × Bytes)
  | .file path data => some (path, data)
  | _ => none

def Pull.files (pulls : List Pull) : List (Bytes × Bytes) :=
  pulls.filterMap Pull.file?

namespace BatchFiles

variable {ι : Type} {w w' : World} {f : Bytes → Option Bytes} {paths skipped : List Bytes}

/-- A batch is asked for its next file, or, as the source of a run, for its next input. -/
inductive Request where
  | file
  | input
  deriving DecidableEq, Repr

/-- Serves a request in a world of its own. -/
def serve (R : Reader ι) (files : BatchFiles) : Request × World → Pull × BatchFiles
  | (.file, w) =>
    let (found, files, _) := files.nextFile w
    (.ofFile found, files)
  | (.input, w) =>
    match (Dispatcher.batch files).next R w with
    | (pull, .batch files, _) => (pull, files)
    | (pull, .stream _, _) => (pull, files)

theorem serve_eq (R : Reader ι) (files : BatchFiles) (moment : Request × World) :
    files.serve R moment = (.ofFile (firstReadable files.remaining moment.2).1,
      ⟨(firstReadable files.remaining moment.2).2.1⟩) := by
  obtain ⟨request, w⟩ := moment
  cases request with
  | file => rfl
  | input =>
      simp only [serve, Dispatcher.next, pull, nextFile]
      rcases firstReadable files.remaining w with ⟨_ | ⟨path, data⟩, left, w'⟩ <;> rfl

/-- These paths are passed over, one after the other: each gives no input when its turn comes. -/
inductive Passes : World → List Bytes → World → Prop
  | none (w : World) : Passes w [] w
  | skip {w w' : World} {path : Bytes} {rest : List Bytes} : w.input? path = .none →
      Passes (readInput path w).2 rest w' → Passes w (path :: rest) w'

/-- What one pull consumes of the paths, and what it gives. -/
structure Turn where
  world : World
  consumed : List Bytes
  given : Pull

/-- A turn ends with the first path that gives an input, as it does then; without one, there is no
input any more. -/
def Turn.Valid (t : Turn) : Prop :=
  match t.given with
  | .file path data => ∃ skipped w', t.consumed = skipped ++ [path] ∧ Passes t.world skipped w' ∧
      w'.input? path = some data
  | .exhausted => ∃ w', Passes t.world t.consumed w'
  | .input _ | .empty => False

theorem firstReadable_cases (paths : List Bytes) (w : World) :
    match firstReadable paths w with
    | (some (path, data), left, _) =>
        ∃ skipped w', paths = skipped ++ path :: left ∧ Passes w skipped w' ∧
        w'.input? path = some data
    | (none, left, _) => left = [] ∧ ∃ w', Passes w paths w' := by
  induction paths generalizing w with
  | nil => exact ⟨rfl, w, .none w⟩
  | cons path rest ih =>
      have input := readInput_eq path w
      have later := ih (readInput path w).2
      rcases reads : readInput path w with ⟨_ | data, w₁⟩
      · rw [reads] at input later
        have same : firstReadable (path :: rest) w = firstReadable rest w₁ := by
          rw [firstReadable, reads]
        have skip {skipped : List Bytes} {w' : World} (passes : Passes w₁ skipped w') :
            Passes w (path :: skipped) w' := .skip input.symm (by rwa [reads])
        rw [same]
        split at later
        · rename_i found
          obtain ⟨skipped, w', rfl, passes, holds⟩ := later
          rw [found]
          exact ⟨path :: skipped, w', rfl, skip passes, holds⟩
        · rename_i found
          obtain ⟨rfl, w', passes⟩ := later
          rw [found]
          exact ⟨rfl, w', skip passes⟩
      · rw [reads] at input
        have same : firstReadable (path :: rest) w = (some (path, data), rest, w₁) := by
          rw [firstReadable, reads]
        rw [same]
        exact ⟨[], w, rfl, .none w, input.symm⟩

/-- One pull takes one turn. -/
theorem serve_turn (R : Reader ι) (files : BatchFiles) (moment : Request × World) :
    ∃ consumed, files.remaining = consumed ++ (files.serve R moment).2.remaining ∧
      Turn.Valid ⟨moment.2, consumed, (files.serve R moment).1⟩ ∧
      ((files.serve R moment).1 = .exhausted → (files.serve R moment).2.remaining = []) := by
  have ways := firstReadable_cases files.remaining moment.2
  rw [serve_eq]
  rcases found : firstReadable files.remaining moment.2 with ⟨_ | ⟨path, data⟩, left, after⟩
  · rw [found] at ways
    obtain ⟨rfl, w', passes⟩ := ways
    exact ⟨files.remaining, (List.append_nil _).symm, ⟨w', passes⟩, fun _ => rfl⟩
  · rw [found] at ways
    obtain ⟨skipped, w', split, passes, holds⟩ := ways
    refine ⟨skipped ++ [path], ?_, ⟨skipped, w', rfl, passes, holds⟩, fun none_left => ?_⟩
    · rw [split, List.append_assoc]
      rfl
    · cases none_left

theorem series_exhausted (R : Reader ι) (moments : List (Request × World)) :
    Pull.series (serve R) ⟨[]⟩ moments = (List.replicate moments.length .exhausted, ⟨[]⟩) := by
  induction moments with
  | nil => rfl
  | cons moment moments ih =>
      simp only [Pull.series, serve_eq, firstReadable, ih]
      rfl

/-- A series of pulls takes a turn for each, and these consume the paths from the front. -/
theorem series_turns (R : Reader ι) (paths : List Bytes) (moments : List (Request × World)) :
    let (pulls, left) := Pull.series (serve R) ⟨paths⟩ moments
    (∃ turns : List Turn, turns.map (·.world) = moments.map (·.2) ∧ turns.map (·.given) = pulls ∧
        turns.flatMap (·.consumed) ++ left.remaining = paths ∧ ∀ turn ∈ turns, turn.Valid) ∧
      (.exhausted ∈ pulls → left.remaining = []) := by
  induction moments generalizing paths with
  | nil => exact ⟨⟨[], rfl, rfl, rfl, by simp⟩, by simp⟩
  | cons moment moments ih =>
      obtain ⟨consumed, split, valid, last⟩ := serve_turn R ⟨paths⟩ moment
      simp only [Pull.series]
      rcases served : serve R ⟨paths⟩ moment with ⟨given, ⟨rest⟩⟩
      rw [served] at split valid last
      obtain ⟨⟨turns, worlds, gave, whole, all⟩, ended⟩ := ih rest
      refine ⟨⟨⟨moment.2, consumed, given⟩ :: turns, ?_, ?_, ?_, ?_⟩, fun member => ?_⟩
      · rw [List.map_cons, worlds, List.map_cons]
      · rw [List.map_cons, gave]
      · rw [List.flatMap_cons, List.append_assoc, whole]
        exact split.symm
      · intro turn member
        rcases List.mem_cons.mp member with rfl | later
        · exact valid
        · exact all turn later
      · rcases List.mem_cons.mp member with now | later
        · obtain rfl : rest = [] := last now.symm
          rw [series_exhausted]
        · exact ended later

/-- Files give these inputs, and go on giving them while a pull passes over some of them. -/
def Steady (f : Bytes → Option Bytes) (paths : List Bytes) (w : World) : Prop :=
  ∀ skipped w', skipped ⊆ paths → Passes w skipped w' → ∀ path ∈ paths, w'.input? path = f path

theorem Passes.spares {path : Bytes} (passes : Passes w skipped w') (start : w.kernel.Sealed path) :
    Kernel.Spares path w.kernel w'.kernel ∧ w'.kernel.hasRoom = w.kernel.hasRoom := by
  induction passes with
  | none w => exact ⟨start.refl, rfl⟩
  | @skip w w' other rest _ _ ih =>
      have moves := moves_readInput (E := fun _ => False) (P := fun _ => False) other w
      have reading := moves.spares start
      obtain ⟨later, room⟩ := ih reading.still
      exact ⟨reading.trans later, room.trans moves.hasRoom_eq⟩

theorem steady_of_sealed (start : ∀ path ∈ paths, w.kernel.Sealed path) :
    Steady w.input? paths w := by
  intro skipped w' _ passes path member
  obtain ⟨spared, room⟩ := passes.spares (start path member)
  rw [World.input?, World.input?, room, spared.input?_eq]

/-- The first of some paths with an input, and the paths after it. -/
def firstOf (f : Bytes → Option Bytes) (paths : List Bytes) : Pull × BatchFiles :=
  match paths.dropWhile fun path => (f path).isNone with
  | [] => (.exhausted, ⟨[]⟩)
  | path :: left => (.file path ((f path).getD []), ⟨left⟩)

theorem Steady.mono {some_paths : List Bytes} (steady : Steady f paths w)
    (sub : some_paths ⊆ paths) :
    Steady f some_paths w :=
  fun skipped w' inside passes path member =>
    steady skipped w' (List.Subset.trans inside sub) passes path (sub member)

theorem Steady.input?_eq {path : Bytes} (steady : Steady f paths w) (member : path ∈ paths) :
    w.input? path = f path :=
  steady [] w (List.nil_subset _) (.none w) path member

theorem Steady.pass {path : Bytes} {rest : List Bytes} (steady : Steady f (path :: rest) w)
    (no_input : w.input? path = none) : Steady f rest (readInput path w).2 := by
  intro skipped w' inside passes other member
  refine steady (path :: skipped) w' ?_ (.skip no_input passes) other (.tail path member)
  exact List.cons_subset_cons path inside

/-- Over steady paths a pull passes over the longest run that gives no input. -/
theorem firstReadable_steady (steady : Steady f paths w) :
    (Pull.ofFile (firstReadable paths w).1, (⟨(firstReadable paths w).2.1⟩ : BatchFiles)) =
      firstOf f paths := by
  induction paths generalizing w with
  | nil => rfl
  | cons path rest ih =>
      have input := readInput_eq path w
      have same := steady.input?_eq (.head rest)
      rcases reads : readInput path w with ⟨_ | data, w₁⟩
      · rw [reads] at input
        have none_there : f path = none := same.symm.trans input.symm
        have later := steady.pass input.symm
        rw [reads] at later
        have skipped : firstOf f (path :: rest) = firstOf f rest := by
          rw [firstOf, List.dropWhile_cons_of_pos (by rw [none_there]; rfl)]
          rfl
        rw [firstReadable, reads, skipped]
        exact ih later
      · rw [reads] at input
        have there : f path = some data := same.symm.trans input.symm
        rw [firstReadable, reads, firstOf, List.dropWhile_cons_of_neg (by simp [there])]
        simp only [there, Option.getD_some]
        rfl

/-- The files that steady paths give. -/
def held (f : Bytes → Option Bytes) (paths : List Bytes) : List (Bytes × Bytes) :=
  paths.filterMap fun path => (f path).map (path, ·)

theorem length_held_le (f : Bytes → Option Bytes) (paths : List Bytes) :
    (held f paths).length ≤ paths.length :=
  List.length_filterMap_le _ _

theorem held_append (f : Bytes → Option Bytes) (ps qs : List Bytes) :
    held f (ps ++ qs) = held f ps ++ held f qs :=
  List.filterMap_append

theorem firstOf_cases (f : Bytes → Option Bytes) (paths : List Bytes) :
    (held f paths = [] ∧ firstOf f paths = (.exhausted, ⟨[]⟩)) ∨
      ∃ path data left, held f paths = (path, data) :: held f left ∧ left ⊆ paths ∧
        firstOf f paths = (.file path data, ⟨left⟩) := by
  induction paths with
  | nil => exact .inl ⟨rfl, rfl⟩
  | cons path rest ih =>
      cases there : f path with
      | none =>
          have same : held f (path :: rest) = held f rest := by
            rw [held, List.filterMap_cons_none (by rw [there]; rfl)]
            rfl
          have skipped : firstOf f (path :: rest) = firstOf f rest := by
            rw [firstOf, List.dropWhile_cons_of_pos (by rw [there]; rfl)]
            rfl
          rw [same, skipped]
          refine ih.imp_right fun ⟨other, data, left, first, sub, given⟩ => ?_
          exact ⟨other, data, left, first, List.subset_cons_of_subset path sub, given⟩
      | some data =>
          refine .inr ⟨path, data, rest, ?_, List.subset_cons_self path rest, ?_⟩
          · rw [held, List.filterMap_cons_some (by rw [there]; rfl)]
            rfl
          · rw [firstOf, List.dropWhile_cons_of_neg (by simp [there])]
            simp only [there, Option.getD_some]

theorem files_series (R : Reader ι) (paths : List Bytes) (moments : List (Request × World))
    (steady : ∀ moment ∈ moments, Steady f paths moment.2) :
    Pull.files (Pull.series (serve R) ⟨paths⟩ moments).1 = (held f paths).take moments.length := by
  induction moments generalizing paths with
  | nil => rfl
  | cons moment moments ih =>
      have now : serve R ⟨paths⟩ moment = firstOf f paths := by
        rw [serve_eq]
        exact firstReadable_steady (steady moment (.head moments))
      simp only [Pull.series, now]
      rcases firstOf_cases f paths with ⟨no_files, given⟩ | ⟨path, data, left, first, sub, given⟩
      · rw [given, no_files, series_exhausted]
        simp [Pull.files, Pull.file?]
      · rw [given, first]
        have later := ih left fun other member => (steady other (.tail moment member)).mono sub
        exact congrArg ((path, data) :: ·) later

def serveThrough (residue : FileBuffer.Residue) (files : FileBuffer) (moment : Request × World) :
    Pull × FileBuffer :=
  (.ofFile (files.nextFile residue moment.2).1, (files.nextFile residue moment.2).2.1)

theorem series_buffer (R : Reader ι) (residue : FileBuffer.Residue) (files : FileBuffer)
    (moments : List (Request × World)) :
    (Pull.series (serveThrough residue) files moments).1 =
      (Pull.series (serve R) ⟨files.remaining⟩ moments).1 := by
  refine (Pull.series_view (fun files : FileBuffer => (⟨files.remaining⟩ : BatchFiles))
    (fun files moment => ?_) files
    moments).1
  have same := FileBuffer.nextFile_eq residue files moment.2
  rw [serve_eq]
  exact ⟨congrArg (fun found : Option (Bytes × Bytes) × BatchFiles × World =>
    Pull.ofFile found.1) same,
    congrArg (fun found : Option (Bytes × Bytes) × BatchFiles × World => found.2.1) same⟩

/-- Iterating over a batch is exact, whatever becomes of the files between the pulls. Each pull
takes a turn in the world that it happens in, and the turns use up the paths from the front, each
path once. If files stay as they are during a pull, it passes over the longest run of paths without
an input and gives the next one. After the last path every pull is exhausted. The buffer that serves
all files makes no difference. Where the files stay as they are all the time, two lists of paths in
a row give the files of the one and then those of the other. -/
theorem batch_exact (R : Reader ι) (paths : List Bytes)
    (moments : List (Request × World)) {pulls : List Pull} {left : BatchFiles}
    (series : Pull.series (serve R) ⟨paths⟩ moments = (pulls, left)) :
    (∃ turns : List Turn, turns.map (·.world) = moments.map (·.2) ∧ turns.map (·.given) = pulls ∧
        turns.flatMap (·.consumed) ++ left.remaining = paths ∧ ∀ turn ∈ turns, turn.Valid) ∧
      (∀ moment f, Steady f left.remaining moment.2 →
        serve R left moment = firstOf f left.remaining) ∧
      (.exhausted ∈ pulls → left.remaining = []) ∧
      (left.remaining = [] → ∀ later,
        Pull.series (serve R) left later = (List.replicate later.length .exhausted, left)) ∧
      (∀ residue buffer, (Pull.series (serveThrough residue) ⟨paths, buffer⟩ moments).1 = pulls) ∧
      (∀ ps qs f alone behind, paths = ps ++ qs →
        (∀ moment ∈ moments ++ alone ++ behind, Steady f paths moment.2) →
        ps.length ≤ alone.length → qs.length ≤ behind.length →
        Pull.files pulls = (Pull.files (Pull.series (serve R) ⟨ps⟩ alone).1 ++
          Pull.files (Pull.series (serve R) ⟨qs⟩ behind).1).take moments.length) ∧
      ∀ (w : World) path,
        (w.input? path = none ↔
          (∃ e, (w.kernel.readPath path 1048576).1 = .error e) ∨
            (w.kernel.readPath path 1048576).1 = .ok []) ∧
        ∀ id content, w.kernel.hasRoom = true → path.hasNul = false →
          w.kernel.tree.resolve false path = .ok (.node id) →
          w.kernel.tree.node? id = some (.file content) →
          w.input? path = if content = [] then none else some (content.take 1048576) := by
  have counted := series_turns R paths moments
  rw [series] at counted
  obtain ⟨turns, ended⟩ := counted
  refine ⟨turns, fun moment f steady => ?_, ended, fun none_left later => ?_,
    fun residue buffer => ?_, ?_, ?_⟩
  · rw [serve_eq]
    exact firstReadable_steady steady
  · obtain rfl : left = ⟨[]⟩ := congrArg BatchFiles.mk none_left
    exact series_exhausted R later
  · exact (series_buffer R residue ⟨paths, buffer⟩ moments).trans (congrArg Prod.fst series)
  · rintro ps qs f alone behind rfl steady enough enough'
    have whole := files_series R (ps ++ qs) moments fun moment member =>
      steady moment (by simp [member])
    have front := files_series R ps alone fun moment member =>
      (steady moment (by simp [member])).mono (List.subset_append_left ps qs)
    have back := files_series R qs behind fun moment member =>
      (steady moment (by simp [member])).mono (List.subset_append_right ps qs)
    rw [List.take_of_length_le (Nat.le_trans (length_held_le f ps) enough)] at front
    rw [List.take_of_length_le (Nat.le_trans (length_held_le f qs) enough')] at back
    rw [series] at whole
    rw [whole, front, back, held_append]
  · exact fun w path => ⟨World.input?_eq_none w path, fun _ _ => World.input?_file⟩

/-- A file that is empty when its turn comes is not given later, when it is not empty any more. -/
theorem batch_exact_filled_file :
    let a := Bytes.ofString "a"
    let b := Bytes.ofString "b"
    let x := Bytes.ofString "x"
    let holding := fun content : Bytes =>
      let boot := World.boot [] none
      { boot with kernel := (boot.kernel.install a (.file content)).install b (.file x) }
    let before := holding []
    let after := holding x
    let pulls := fun paths moments => Pull.series (serve StdinSource.reader) ⟨paths⟩ moments
    pulls [a, b] [(.file, before), (.input, after)] = ([.file b x, .exhausted], ⟨[]⟩) ∧
      (∀ later, pulls [] later = (List.replicate later.length .exhausted, ⟨[]⟩)) ∧
      serve StdinSource.reader ⟨[a, b]⟩ (.input, before) = firstOf before.input? [a, b] ∧
      [(a, x), (b, x)] = (Pull.files (pulls [a] [(.file, after)]).1 ++
        Pull.files (pulls [b] [(.input, after)]).1).take 2 ∧
      before.input? a = none ∧ after.input? a = some x := by
  intro a b x holding before after pulls
  have steady : ∀ content, Steady (holding content).input? [a, b] (holding content) := by
    intro content
    have closed : ∀ f ∈ (holding content).kernel.opened, f.node ≠ 9 ∧ f.node ≠ 10 := by
      change ∀ f ∈ (World.boot [] none).kernel.opened, f.node ≠ 9 ∧ f.node ≠ 10
      decide
    have sink :
      (holding content).kernel.tree.resolve false Redirection.nullSink = .ok (.node 4) := rfl
    refine steady_of_sealed fun path member => ?_
    simp only [List.mem_cons, List.not_mem_nil, or_false] at member
    rcases member with rfl | rfl
    · have leads : (holding content).kernel.tree.resolve false a = .ok (.node 9) := rfl
      exact Kernel.Sealed.of_leads leads (fun f member => (closed f member).1) sink (by decide)
    · have leads : (holding content).kernel.tree.resolve false b = .ok (.node 10) := rfl
      exact Kernel.Sealed.of_leads leads (fun f member => (closed f member).2) sink (by decide)
  have changed :
    Pull.series (serve StdinSource.reader) ⟨[a, b]⟩ [(.file, before), (.input, after)] =
      ([.file b x, .exhausted], ⟨[]⟩) := by
    decide +kernel
  have unchanged :
    Pull.series (serve StdinSource.reader) ⟨[a, b]⟩ [(.input, after), (.file, after)] =
      ([.file a x, .file b x], ⟨[]⟩) := by
    decide +kernel
  obtain ⟨-, -, last, absorbing, -⟩ := batch_exact _ _ _ changed
  obtain ⟨-, -, -, -, -, joined, given⟩ := batch_exact _ _ _ unchanged
  obtain ⟨-, run, -⟩ := batch_exact StdinSource.reader [a, b] [] rfl
  have all_steady :
    ∀ moment ∈ [(Request.input, after), (.file, after)] ++ [(.file, after)] ++ [(.input, after)],
      Steady after.input? ([a] ++ [b]) moment.2 := by
    simpa using steady x
  refine ⟨changed, absorbing (last (.tail _ (.head _))), run _ _ (steady []), ?_, ?_, ?_⟩
  · exact joined [a] [b] _ _ _ rfl all_steady (Nat.le_refl 1) (Nat.le_refl 1)
  · exact (given before a).2 9 [] (by decide +kernel) rfl rfl rfl
  · exact (given after a).2 9 x (by decide +kernel) rfl rfl rfl

end BatchFiles

end FuzzHarness
