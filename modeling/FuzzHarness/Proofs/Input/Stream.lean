import FuzzHarness.Boot
import FuzzHarness.Proofs.Input.Buffers
import FuzzHarness.Proofs.Run.Rounds
import FuzzHarness.Scripted.Stream

/-!
Inputs from a stream. Every pull takes one read and gives what that read gives. Over a stream of
items nothing is lost, repeated or run together: the pulls are the shares of the items, one item
after the other, and then empty.
-/

namespace FuzzHarness

def Pull.bytes (pulls : List Pull) : Bytes :=
  (pulls.filterMap Pull.data?).flatten

theorem Pull.bytes_append (pulls more : List Pull) :
    bytes (pulls ++ more) = bytes pulls ++ bytes more := by
  rw [bytes, List.filterMap_append, List.flatten_append]
  rfl

theorem Pull.bytes_empty (n : Nat) : bytes (List.replicate n .empty) = [] := by
  induction n with
  | zero => rfl
  | succ n ih => exact ih

/-- A pull of a stream: it is empty, or an input that is not, but no longer than one read. -/
def Pull.Streamed (capacity : Nat) (pull : Pull) : Prop :=
  pull = .empty ∨ ∃ data, pull = .input data ∧ 0 < data.length ∧ data.length ≤ capacity

namespace Scripted.StreamItem

variable {capacity : Nat} {items : List StreamItem}

def content : StreamItem → Bytes
  | .bytes s => s
  | .fail _ | .endless _ => []

def isEndless : StreamItem → Bool
  | .endless _ => true
  | _ => false

/-- These pulls are the share of one item: together they give its bytes, in not more pulls than
needed. -/
structure Share (capacity : Nat) (item : StreamItem) (share : List Pull) : Prop where
  whole : Pull.bytes share = item.content
  streamed : ∀ pull ∈ share, pull.Streamed capacity
  length_le : share.length ≤ 1 + item.content.length

/-- Bytes cut into pieces of one length; the last of them may be shorter. -/
def pieces (capacity : Nat) (s : Bytes) : List Bytes :=
  if _h : 0 < capacity ∧ s ≠ [] then s.take capacity :: pieces capacity (s.drop capacity) else []
termination_by s.length
decreasing_by
  have some_left := List.length_pos_iff.mpr _h.2
  rw [List.length_drop]
  omega

theorem pieces_nil (capacity : Nat) : pieces capacity [] = [] := by
  rw [pieces, dif_neg (by simp)]

theorem pieces_of_ne_nil {s : Bytes} (positive : 0 < capacity) (some_left : s ≠ []) :
    pieces capacity s = s.take capacity :: pieces capacity (s.drop capacity) := by
  rw [pieces, dif_pos ⟨positive, some_left⟩]

theorem flatten_pieces (positive : 0 < capacity) (s : Bytes) : (pieces capacity s).flatten = s := by
  fun_induction pieces capacity s with
  | case1 s h ih => rw [List.flatten_cons, ih, List.take_append_drop]
  | case2 s h =>
      have none_left : s = [] := by simpa [positive] using h
      rw [none_left]
      rfl

theorem length_of_mem_pieces {s piece : Bytes} (member : piece ∈ pieces capacity s) :
    0 < piece.length ∧ piece.length ≤ capacity := by
  fun_induction pieces capacity s with
  | case1 s h ih =>
      rcases List.mem_cons.mp member with rfl | later
      · have some_left := List.length_pos_iff.mpr h.2
        rw [List.length_take]
        omega
      · exact ih later
  | case2 s h => cases member

theorem length_pieces_le (s : Bytes) : (pieces capacity s).length ≤ s.length := by
  fun_induction pieces capacity s with
  | case1 s h ih =>
      have some_left := List.length_pos_iff.mpr h.2
      rw [List.length_drop] at ih
      rw [List.length_cons]
      omega
  | case2 s h => exact Nat.zero_le _

/-- The pulls that an item gives. One without bytes still takes one. -/
def pulls (capacity : Nat) : StreamItem → List Pull
  | .bytes s => if s.isEmpty then [.empty] else (pieces capacity s).map .input
  | .fail _ | .endless _ => [.empty]

theorem bytes_inputs (inputs : List Bytes) : Pull.bytes (inputs.map .input) = inputs.flatten := by
  have data : Pull.data? ∘ Pull.input = some := rfl
  rw [Pull.bytes, List.filterMap_map, data, List.filterMap_some]

theorem share_pulls (positive : 0 < capacity) (item : StreamItem) :
    Share capacity item (item.pulls capacity) := by
  have of_none {item : StreamItem} (same : item.pulls capacity = [.empty])
    (no_bytes : item.content = []) :
      Share capacity item (item.pulls capacity) := by
    rw [same]
    exact ⟨no_bytes.symm, fun pull member => .inl (List.mem_singleton.mp member),
      Nat.le_add_right _ _⟩
  cases item with
  | fail | endless => exact of_none rfl rfl
  | bytes s =>
      cases s with
      | nil => exact of_none rfl rfl
      | cons x xs =>
          have same : (StreamItem.bytes (x :: xs)).pulls capacity =
            (pieces capacity (x :: xs)).map .input := rfl
          rw [same]
          refine ⟨(bytes_inputs _).trans (flatten_pieces positive _), fun pull member => ?_, ?_⟩
          · obtain ⟨piece, cut, rfl⟩ := List.mem_map.mp member
            exact .inr ⟨piece, rfl, length_of_mem_pieces cut⟩
          · rw [List.length_map]
            exact Nat.le_trans (length_pieces_le _) (Nat.le_add_left _ _)

theorem flatMap_afterBytes (left : Bytes) (rest : List StreamItem) :
    (afterBytes left rest).flatMap (pulls capacity) =
      (pieces capacity left).map .input ++ rest.flatMap (pulls capacity) := by
  cases left with
  | nil =>
      rw [pieces_nil]
      rfl
  | cons x xs => rfl

theorem flatMap_pulls (positive : 0 < capacity) {item : StreamItem} (rest : List StreamItem)
    (finite : item.isEndless = false) : (item :: rest).flatMap (pulls capacity) =
      .ofRead (read capacity (item :: rest)).1 ::
        (read capacity (item :: rest)).2.flatMap (pulls capacity) := by
  cases item with
  | fail cause => rfl
  | endless byte => cases finite
  | bytes s =>
      simp only [read, flatMap_afterBytes]
      cases s with
      | nil =>
          rw [List.drop_nil, pieces_nil, List.take_nil]
          rfl
      | cons x xs =>
          obtain ⟨n, rfl⟩ : ∃ n, capacity = n + 1 := ⟨capacity - 1, by omega⟩
          have first :
            Pull.ofRead (.ok ((x :: xs).take (n + 1))) = .input ((x :: xs).take (n + 1)) := rfl
          have cut := pieces_of_ne_nil positive (List.cons_ne_nil x xs)
          rw [first, List.flatMap_cons]
          have same : (StreamItem.bytes (x :: xs)).pulls (n + 1) =
            (pieces (n + 1) (x :: xs)).map .input := rfl
          rw [same, cut]
          rfl

theorem finite_read (capacity : Nat) (finite : ∀ item ∈ items, item.isEndless = false) :
    ∀ item ∈ (read capacity items).2, item.isEndless = false := by
  cases items with
  | nil => exact finite
  | cons first rest =>
      have later : ∀ item ∈ rest, item.isEndless = false := fun item member =>
        finite item (.tail first member)
      cases first with
      | fail cause => exact later
      | endless byte => exact finite
      | bytes s =>
          simp only [read, afterBytes]
          split
          · exact later
          · intro item member
            rcases List.mem_cons.mp member with rfl | behind
            · rfl
            · exact later item behind

theorem bytes_flatMap_pulls (positive : 0 < capacity) (items : List StreamItem) :
    Pull.bytes (items.flatMap (pulls capacity)) = items.flatMap content := by
  induction items with
  | nil => rfl
  | cons item items ih =>
      rw [List.flatMap_cons, Pull.bytes_append, ih, (share_pulls positive item).whole,
        List.flatMap_cons]

theorem length_flatMap_pulls_le (positive : 0 < capacity) (items : List StreamItem) :
    (items.flatMap (pulls capacity)).length ≤ items.length + (items.flatMap content).length := by
  induction items with
  | nil => exact Nat.le_refl 0
  | cons item items ih =>
      have first := (share_pulls positive item).length_le
      simp only [List.flatMap_cons, List.length_append, List.length_cons]
      omega

end Scripted.StreamItem

namespace Dispatcher
open Scripted (StreamItem)

variable {ι : Type}

def pullIn (R : Reader ι) (d : Dispatcher ι) (w : World) : Pull × Dispatcher ι :=
  ((d.next R w).1, (d.next R w).2.1)

theorem pullIn_stream (R : Reader ι) (input : StreamInput ι) (w : World) :
    pullIn R (.stream input) w = (.ofRead (R.read input.capacity input.reader).1,
      .stream { input with reader := (R.read input.capacity input.reader).2 }) := by
  obtain ⟨given, left, -⟩ := input.pull_eq R w
  simp only [pullIn, next, given, left]

theorem series_left (R : Reader ι) (input : StreamInput ι) (worlds : List World) :
    ∃ reader, (Pull.series (pullIn R) (.stream input) worlds).2 =
      .stream { input with reader } := by
  induction worlds generalizing input with
  | nil => exact ⟨input.reader, rfl⟩
  | cons w worlds ih =>
      obtain ⟨reader, left⟩ := ih { input with reader := (R.read input.capacity input.reader).2 }
      refine ⟨reader, ?_⟩
      simp only [Pull.series, pullIn_stream]
      exact left

/-- The pulls are the shares of the items in order, and then empty. -/
theorem series_items {capacity : Nat} (positive : 0 < capacity) {items : List StreamItem}
    (finite : ∀ item ∈ items, item.isEndless = false) (worlds : List World) :
    let shares := items.flatMap (StreamItem.pulls capacity)
    (Pull.series (pullIn StreamItem.reader) (.stream ⟨items, capacity⟩) worlds).1 =
      shares.take worlds.length ++ List.replicate (worlds.length - shares.length) .empty := by
  intro shares
  induction worlds generalizing items with
  | nil => simp [Pull.series]
  | cons w worlds ih =>
      have later := ih (StreamItem.finite_read capacity finite)
      simp only [Pull.series, pullIn_stream]
      refine (congrArg (_ :: ·) later).trans ?_
      cases items with
      | nil =>
          have none_left :
            (StreamItem.reader.read capacity ([] : List StreamItem)) = (.ok [], []) := rfl
          simp [none_left, shares, Pull.ofRead, StreamItem.read, List.replicate_succ]
      | cons item rest =>
          have split := StreamItem.flatMap_pulls positive rest (finite item (.head rest))
          simp only [shares, split, List.length_cons, List.take_succ_cons, Nat.add_sub_add_right]
          rfl

def pullThrough (R : Reader ι) (s : StreamBuffer ι) (w : World) : Pull × StreamBuffer ι :=
  ((s.pull R w).1, (s.pull R w).2.1)

theorem series_buffer (R : Reader ι) (s : StreamBuffer ι) (worlds : List World) :
    (Pull.series (pullThrough R) s worlds).1 =
      (Pull.series (pullIn R) (.stream s.stream) worlds).1 := by
  refine (Pull.series_view (fun s : StreamBuffer ι => stream s.stream) (fun s w => ?_) s worlds).1
  obtain ⟨given, left, -⟩ := s.pull_eq R w
  exact ⟨given, congrArg stream left⟩

/-- Pulls of a stream neither lose nor repeat bytes, and run none together. However often it was
pulled, a pull takes one read for a whole buffer and gives just what that read gives. The pulls are
the shares of the items one after the other, and empty once there are no items left; so they give a
beginning of all the bytes, and after enough pulls all of them, whatever is empty or fails in
between. The buffer that serves all pulls makes no difference. -/
theorem stream_lossless {capacity : Nat} (positive : 0 < capacity) {items : List StreamItem}
    (finite : ∀ item ∈ items, item.isEndless = false) (worlds : List World) :
    let (pulls, left) := Pull.series (pullIn StreamItem.reader) (.stream ⟨items, capacity⟩) worlds
    (∃ rest, left = .stream ⟨rest, capacity⟩ ∧ ∀ w : World,
        let (result, rest') := StreamItem.read capacity rest
        (left.next StreamItem.reader w).1 = .ofRead result ∧
          (left.next StreamItem.reader w).2.1 = .stream ⟨rest', capacity⟩ ∧
          (left.next StreamItem.reader w).2.2.trace = w.trace ++ [.read capacity result]) ∧
      (∀ pull ∈ pulls, pull.Streamed capacity) ∧
      (∃ share : StreamItem → List Pull,
        (∀ item ∈ items, StreamItem.Share capacity item (share item)) ∧
        pulls = (items.flatMap share).take worlds.length ++
          List.replicate (worlds.length - (items.flatMap share).length) .empty) ∧
      Pull.bytes pulls <+: items.flatMap StreamItem.content ∧
      (items.length + (items.flatMap StreamItem.content).length ≤ worlds.length →
        Pull.bytes pulls = items.flatMap StreamItem.content) ∧
      ∀ buffer : Bytes, buffer.length = capacity →
        (Pull.series (pullThrough StreamItem.reader) ⟨items, buffer⟩ worlds).1 = pulls := by
  let shares := items.flatMap (StreamItem.pulls capacity)
  have given := series_items positive finite worlds
  obtain ⟨rest, stays⟩ := series_left StreamItem.reader ⟨items, capacity⟩ worlds
  have cut : Pull.bytes
    (shares.take worlds.length ++ List.replicate (worlds.length - shares.length) .empty) =
      Pull.bytes (shares.take worlds.length) := by
    rw [Pull.bytes_append, Pull.bytes_empty, List.append_nil]
  have all : Pull.bytes shares = items.flatMap StreamItem.content :=
    StreamItem.bytes_flatMap_pulls positive items
  refine ⟨⟨rest, stays, fun w => ?_⟩, fun pull member => ?_,
      ⟨StreamItem.pulls capacity, fun item _ =>
    StreamItem.share_pulls positive item, given⟩, ?_, fun enough => ?_, fun buffer length => ?_⟩
  · obtain ⟨pulled, after, trace⟩ := StreamInput.pull_eq StreamItem.reader ⟨rest, capacity⟩ w
    rw [stays]
    exact ⟨pulled, congrArg stream after, trace⟩
  · rw [given] at member
    rcases List.mem_append.mp member with share | padding
    · obtain ⟨item, -, shared⟩ := List.mem_flatMap.mp (List.mem_of_mem_take share)
      exact (StreamItem.share_pulls positive item).streamed pull shared
    · exact .inl (List.eq_of_mem_replicate padding)
  · rw [given, cut, ← all]
    refine ⟨Pull.bytes (shares.drop worlds.length), ?_⟩
    rw [← Pull.bytes_append, List.take_append_drop]
  · have fewer : shares.length ≤ worlds.length :=
      Nat.le_trans (StreamItem.length_flatMap_pulls_le positive items) enough
    rw [given, cut, List.take_of_length_le fewer, all]
  · rw [series_buffer, StreamBuffer.stream, length]

/-- An item longer than the buffer, then a failure, then an item without bytes: what comes after
them still arrives. -/
theorem stream_lossless_interrupted :
    let items : List StreamItem :=
      [.bytes [1, 2, 3], .fail (.bare .brokenPipe), .bytes [], .bytes [4]]
    let w := World.boot [] none
    let pulls :=
      (Pull.series (pullIn StreamItem.reader) (.stream ⟨items, 2⟩) (List.replicate 8 w)).1
    pulls = [.input [1, 2], .input [3], .empty, .empty, .input [4], .empty, .empty, .empty] ∧
      Pull.bytes pulls = [1, 2, 3, 4] ∧
      (Pull.series (pullThrough StreamItem.reader) ⟨items, [9, 9]⟩ (List.replicate 8 w)).1 =
        pulls := by
  intro items w pulls
  have finite : ∀ item ∈ items, item.isEndless = false := by decide
  obtain ⟨-, -, -, -, all, buffered⟩ :=
    stream_lossless (by decide : 0 < 2) finite (List.replicate 8 w)
  exact ⟨rfl, all (by decide), buffered [9, 9] rfl⟩

end Dispatcher

end FuzzHarness
