import FuzzHarness.Input

/-!
The buffers that inputs are read into. One buffer serves all reads of a stream and one all files of
a batch. Whatever earlier inputs and failed reads left in a buffer, the inputs are those that come
without one.
-/

namespace FuzzHarness

namespace Pull

variable {σ σ' α : Type} {pull : σ → α → Pull × σ} {pull' : σ' → α → Pull × σ'}

/-- Pulls from a source one after the other, each at a moment of its own. -/
def series (pull : σ → α → Pull × σ) : σ → List α → List Pull × σ
  | s, [] => ([], s)
  | s, a :: rest =>
    let (given, s) := pull s a
    let (more, s) := series pull s rest
    (given :: more, s)

theorem series_view (view : σ → σ')
    (same : ∀ s a, (pull s a).1 = (pull' (view s) a).1 ∧ view (pull s a).2 = (pull' (view s) a).2)
    (s : σ)
    (moments : List α) :
    (series pull s moments).1 = (series pull' (view s) moments).1 ∧
      view (series pull s moments).2 = (series pull' (view s) moments).2 := by
  induction moments generalizing s with
  | nil => exact ⟨rfl, rfl⟩
  | cons a moments ih =>
      obtain ⟨given, left⟩ := same s a
      obtain ⟨more, last⟩ := ih (pull s a).2
      simp only [series]
      rw [given, more, last, left]
      exact ⟨rfl, rfl⟩

end Pull

/-- A stream and the buffer that it is read into. -/
structure StreamBuffer (ι : Type) where
  reader : ι
  buffer : Bytes

namespace StreamBuffer

variable {ι : Type}

def stream (s : StreamBuffer ι) : StreamInput ι :=
  ⟨s.reader, s.buffer.length⟩

/-- A read overwrites the front of the buffer and leaves the rest. -/
def fill (buffer data : Bytes) : Bytes :=
  data ++ buffer.drop data.length

theorem length_fill {buffer data : Bytes} (fits : data.length ≤ buffer.length) :
    (fill buffer data).length = buffer.length := by
  simp only [fill, List.length_append, List.length_drop]
  omega

theorem take_fill (buffer data : Bytes) : (fill buffer data).take data.length = data := by
  simp [fill]

/-- One read into the buffer. The input is the part of the buffer that was filled. -/
def pull (R : Reader ι) (s : StreamBuffer ι) (w : World) : Pull × StreamBuffer ι × World :=
  let (result, reader) := R.read s.buffer.length s.reader
  let w := w.record (.read s.buffer.length result)
  match result with
  | .ok data =>
    let buffer := fill s.buffer data
    (if data.length = 0 then .empty else .input (buffer.take data.length), ⟨reader, buffer⟩, w)
  | .error e =>
      (.empty, ⟨reader, s.buffer⟩, if e.isInterruption then w else w.log (.streamReadFailed e))

/-- The buffer makes no difference to what is pulled. -/
theorem pull_eq (R : Reader ι) (s : StreamBuffer ι) (w : World) :
    (s.pull R w).1 = (s.stream.pull R w).1 ∧ (s.pull R w).2.1.stream = (s.stream.pull R w).2.1 ∧
      (s.pull R w).2.2 = (s.stream.pull R w).2.2 := by
  unfold pull StreamInput.pull
  rcases outcome : R.read s.buffer.length s.reader with ⟨result, reader⟩
  have asked : R.read s.stream.capacity s.stream.reader = (result, reader) := outcome
  simp only [asked]
  cases result with
  | error e => exact ⟨rfl, rfl, rfl⟩
  | ok data =>
      have kept := length_fill (R.length_le outcome)
      cases data with
      | nil => exact ⟨rfl, by simp only [stream, kept], rfl⟩
      | cons x xs =>
          have given := take_fill s.buffer (x :: xs)
          exact ⟨congrArg Pull.input given, by simp only [stream, kept], rfl⟩

end StreamBuffer

/-- The files of a batch that are left, and the buffer that they are read into. -/
structure FileBuffer where
  remaining : List Bytes
  buffer : Bytes

namespace FileBuffer

/-- What a read that fails may have put into the buffer before. -/
abbrev Residue := Bytes → World → Bytes

/-- Reads a file into a buffer, behind what is there. -/
def load (residue : Residue) (path buffer : Bytes) (w : World) :
    Except IoError Nat × Bytes × Kernel :=
  match w.kernel.readPath path maxFile with
  | (.ok data, kernel) => (.ok data.length, buffer ++ data, kernel)
  | (.error e, kernel) => (.error e, buffer ++ residue path w, kernel)

/-- The first of some paths that is not skipped, the paths after it, and the buffer. That is cleared
before each file. -/
def firstReadable (residue : Residue) : List Bytes → Bytes → World →
    Option Bytes × FileBuffer × World
  | [], buffer, w => (none, ⟨[], buffer⟩, w)
  | path :: rest, buffer, w =>
    match load residue path (buffer.take 0) w with
    | (.ok 0, buffer, kernel) =>
        firstReadable residue rest buffer ({ w with kernel }.log (.emptyInput path))
    | (.ok (_ + 1), buffer, kernel) => (some path, ⟨rest, buffer⟩, { w with kernel })
    | (.error e, buffer, kernel) =>
        firstReadable residue rest buffer ({ w with kernel }.log (.unreadableInput path e))

def nextFile (residue : Residue) (f : FileBuffer) (w : World) :
    Option (Bytes × Bytes) × FileBuffer × World :=
  match firstReadable residue f.remaining f.buffer w with
  | (some path, f, w) => (some (path, f.buffer), f, w)
  | (none, f, w) => (none, f, w)

theorem firstReadable_eq (residue : Residue) (paths : List Bytes) (buffer : Bytes) (w : World) :
    let after := firstReadable residue paths buffer w
    (after.1.map (·, after.2.1.buffer), after.2.1.remaining, after.2.2) =
      BatchFiles.firstReadable paths w := by
  induction paths generalizing buffer w with
  | nil => rfl
  | cons path rest ih =>
      simp only [firstReadable, load, BatchFiles.firstReadable, BatchFiles.readInput,
        List.take_zero, List.nil_append]
      rcases w.kernel.readPath path maxFile with ⟨result, kernel⟩
      cases result with
      | error e => exact ih (residue path w) _
      | ok data =>
          cases data with
          | nil => exact ih [] _
          | cons x xs => rfl

/-- Nothing that was in the buffer before is part of a file. -/
theorem nextFile_eq (residue : Residue) (f : FileBuffer) (w : World) :
    ((f.nextFile residue w).1, ⟨(f.nextFile residue w).2.1.remaining⟩, (f.nextFile residue w).2.2) =
      BatchFiles.nextFile ⟨f.remaining⟩ w := by
  have found := firstReadable_eq residue f.remaining f.buffer w
  unfold nextFile BatchFiles.nextFile
  rcases outcome : firstReadable residue f.remaining f.buffer w with ⟨_ | path, left, w'⟩
  · rw [outcome] at found
    rw [← found]
    rfl
  · rw [outcome] at found
    rw [← found]
    rfl

end FileBuffer

end FuzzHarness
