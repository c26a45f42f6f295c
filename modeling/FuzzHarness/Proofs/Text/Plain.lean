import FuzzHarness.Text.Lossy

/-!
Plain characters in lossy text: those of ASCII, without NUL. A plain character stands for its byte
and for nothing else, so a text of plain characters is a spelling of its bytes.
-/

namespace FuzzHarness

namespace Bytes

/-- The bytes of some text, well-formed UTF-8. -/
def IsText (s : Bytes) : Prop :=
  ∃ text : String, ofString text = s

def toChar (b : UInt8) : Char :=
  Char.ofNat b.toNat

theorem toNat_toChar (b : UInt8) : (toChar b).toNat = b.toNat := by
  have small : b.toNat < 256 := b.toNat_lt
  have valid : b.toNat.isValidChar := .inl (by omega)
  rw [toChar, Char.ofNat, dif_pos valid]
  rfl

theorem toChar_injective {b b' : UInt8} (h : toChar b = toChar b') : b = b' := by
  apply UInt8.toNat_inj.mp
  rw [← toNat_toChar, h, toNat_toChar]

theorem ofString_ofList (cs : List Char) :
    ofString (String.ofList cs) = cs.flatMap String.utf8EncodeChar := by
  simp [ofString, List.utf8Encode]

theorem utf8EncodeChar_toChar {b : UInt8} (h : b.toNat < 0x80) :
    String.utf8EncodeChar (toChar b) = [b] := by
  have value : (toChar b).val.toNat = b.toNat := toNat_toChar b
  have ascii : b.toNat ≤ 127 := by omega
  simp [String.utf8EncodeChar, value, ascii]

theorem isText_of_ascii {s : Bytes} (h : ∀ b ∈ s, b.toNat < 0x80) : s.IsText := by
  refine ⟨String.ofList (s.map toChar), ?_⟩
  rw [ofString_ofList, List.flatMap_map]
  induction s with
  | nil => rfl
  | cons b s ih =>
      rw [List.flatMap_cons, utf8EncodeChar_toChar (h b (by simp)),
        ih fun x member => h x (by simp [member])]
      rfl

theorem exists_toChar {c : Char} (ascii : c.toNat < 0x80) :
    ∃ b : UInt8, b.toNat < 0x80 ∧ toChar b = c := by
  have same : (UInt8.ofNat c.toNat).toNat = c.toNat := by
    rw [UInt8.toNat_ofNat']
    omega
  refine ⟨UInt8.ofNat c.toNat, by omega, ?_⟩
  rw [toChar, same, Char.ofNat_toNat]

theorem bounds_of_mem_utf8EncodeChar {c : Char} {b : UInt8} (member : b ∈ String.utf8EncodeChar c) :
    b.toNat < 0xFF ∧ (0x80 ≤ c.toNat → 0x80 ≤ b.toNat) := by
  have value : c.val.toNat = c.toNat := rfl
  rw [← value]
  unfold String.utf8EncodeChar at member
  generalize c.val.toNat = v at member ⊢
  simp only at member
  split at member
  · obtain rfl := List.mem_singleton.mp member
    rw [UInt8.toNat_ofNat']
    omega
  · split at member
    · simp only [List.mem_cons, List.not_mem_nil, or_false] at member
      rcases member with rfl | rfl <;> rw [UInt8.toNat_ofNat'] <;> omega
    · split at member
      · simp only [List.mem_cons, List.not_mem_nil, or_false] at member
        rcases member with rfl | rfl | rfl <;> rw [UInt8.toNat_ofNat'] <;> omega
      · simp only [List.mem_cons, List.not_mem_nil, or_false] at member
        rcases member with rfl | rfl | rfl | rfl <;> rw [UInt8.toNat_ofNat'] <;> omega

theorem mem_utf8EncodeChar {c : Char} {b : UInt8} (ascii : b.toNat < 0x80) :
    b ∈ String.utf8EncodeChar c ↔ toChar b = c := by
  constructor
  · intro member
    have within : c.toNat < 0x80 := by
      have beyond := (bounds_of_mem_utf8EncodeChar member).2
      omega
    obtain ⟨x, small, rfl⟩ := exists_toChar within
    rw [utf8EncodeChar_toChar small] at member
    rw [List.mem_singleton.mp member]
  · rintro rfl
    rw [utf8EncodeChar_toChar ascii]
    exact List.mem_singleton_self b

theorem mem_ofString {b : UInt8} (ascii : b.toNat < 0x80) (s : String) :
    b ∈ ofString s ↔ toChar b ∈ s.toList := by
  rw [← String.ofList_toList (s := s), ofString_ofList, List.mem_flatMap, String.toList_ofList]
  simp [mem_utf8EncodeChar ascii]

theorem ofString_injective : Function.Injective ofString := by
  intro s t same
  apply String.toByteArray_inj.mp
  exact ByteArray.ext (Array.toList_inj.mp same)

theorem not_isText_of_mem {s : Bytes} (h : 0xFF ∈ s) : ¬s.IsText := by
  rintro ⟨text, rfl⟩
  rw [← String.ofList_toList (s := text), ofString_ofList] at h
  obtain ⟨c, -, inside⟩ := List.mem_flatMap.mp h
  exact absurd (bounds_of_mem_utf8EncodeChar inside).1 (by decide)

end Bytes

namespace Text

/-- A character of ASCII other than NUL. -/
def Plain (c : Char) : Prop :=
  0 < c.toNat ∧ c.toNat < 0x80

/-- The characters of a byte string behind a character that is pending. -/
def charsFrom : Option Pending → Bytes → List Char
  | pending, [] => leftover pending
  | pending, b :: s => (step pending b).1 ++ charsFrom (step pending b).2 s

theorem lossyChars_eq (s : Bytes) : lossyChars s = charsFrom none s := by
  have scanned : ∀ (s : Bytes) (done : List Char) (pending : Option Pending),
      let ended := s.foldl (fun so_far b =>
        ((step so_far.2 b).1.reverse ++ so_far.1, (step so_far.2 b).2)) (done, pending)
      ended.1.reverse ++ leftover ended.2 = done.reverse ++ charsFrom pending s := by
    intro s
    induction s with
    | nil =>
        intro done pending
        rfl
    | cons b s ih =>
        intro done pending
        have rest := ih ((step pending b).1.reverse ++ done) (step pending b).2
        simpa [charsFrom] using rest
  exact scanned s [] none

theorem lossyChars_cons_ascii {b : UInt8} (h : b.toNat < 0x80) (s : Bytes) :
    lossyChars (b :: s) = Bytes.toChar b :: lossyChars s := by
  have ascii : b < 0x80 := UInt8.lt_iff_toNat_lt.mpr h
  rw [lossyChars_eq, lossyChars_eq, charsFrom]
  simp [step, begin, ascii, Bytes.toChar]

/-- A character that is pending will not be one of ASCII: what has been read of it is too great, or
will be with the next byte. -/
structure Pending.Large (p : Pending) : Prop where
  low : 0x80 ≤ p.low
  value : 2 ≤ p.value ∨ 2 ≤ p.owed ∧ (0 < p.value ∨ 0x82 ≤ p.low)

theorem Pending.large_ofLead {b : UInt8} {p : Pending} (h : ofLead b = some p) : p.Large := by
  unfold ofLead at h
  constructor
  · grind
  · grind [UInt8.le_iff_toNat_le]

theorem Pending.Large.next {b : UInt8} {p : Pending} (large : p.Large) (within : p.low ≤ b) :
    let value := p.value * 64 + (b.toNat - 0x80)
    (p.owed ≤ 1 → 0x80 ≤ value) ∧
      (¬p.owed ≤ 1 → (⟨p.owed - 1, 0x80, 0xBF, value⟩ : Pending).Large) := by
  have low : 128 ≤ p.low.toNat := UInt8.le_iff_toNat_le.mp large.low
  have within : p.low.toNat ≤ b.toNat := UInt8.le_iff_toNat_le.mp within
  have reached := large.value
  have start : (0x82 : UInt8) ≤ p.low ↔ 130 ≤ p.low.toNat := UInt8.le_iff_toNat_le
  rw [start] at reached
  refine ⟨fun last => by omega, fun more => ⟨UInt8.le_refl _, .inl ?_⟩⟩
  simp only
  omega

theorem not_plain_replacement : ¬Plain replacement := by
  unfold Plain
  decide

theorem not_plain_ofNat {n : Nat} (h : 0x80 ≤ n) : ¬Plain (Char.ofNat n) := by
  unfold Plain
  by_cases valid : n.isValidChar
  · have same : (Char.ofNat n).toNat = n := by
      rw [Char.ofNat, dif_pos valid]
      rfl
    omega
  · have null : Char.ofNat n = Char.ofNat 0 := dif_neg valid
    rw [null]
    decide

theorem charsFrom_pending {p : Pending} (large : p.Large) (s : Bytes) :
    ∃ c rest, charsFrom (some p) s = c :: rest ∧ ¬Plain c := by
  induction s generalizing p with
  | nil => exact ⟨replacement, [], rfl, not_plain_replacement⟩
  | cons b s ih =>
      simp only [charsFrom, step]
      split
      · rename_i within
        obtain ⟨last, more⟩ := large.next within.1
        split
        · rename_i done
          exact ⟨_, _, rfl, not_plain_ofNat (last done)⟩
        · rename_i owes
          exact ih (more owes)
      · exact ⟨replacement, _, rfl, not_plain_replacement⟩

theorem lossyChars_cons_foreign {b : UInt8} (h : ¬b.toNat < 0x80) (s : Bytes) :
    ∃ c rest, lossyChars (b :: s) = c :: rest ∧ ¬Plain c := by
  have foreign : ¬b < 0x80 := fun ascii => h (UInt8.lt_iff_toNat_lt.mp ascii)
  rw [lossyChars_eq, charsFrom]
  simp only [step, begin, foreign, if_false]
  split
  · rename_i p lead
    exact charsFrom_pending (Pending.large_ofLead lead) s
  · exact ⟨replacement, _, rfl, not_plain_replacement⟩

theorem lossyChars_eq_cons {c : Char} {rest : List Char} (plain : Plain c) {s : Bytes} :
    lossyChars s = c :: rest ↔ ∃ b s', s = b :: s' ∧ Bytes.toChar b = c ∧ lossyChars s' = rest := by
  constructor
  · intro h
    cases s with
    | nil => cases h
    | cons b s =>
        by_cases ascii : b.toNat < 0x80
        · rw [lossyChars_cons_ascii ascii] at h
          obtain ⟨same, later⟩ := List.cons.inj h
          exact ⟨b, s, rfl, same, later⟩
        · obtain ⟨c', rest', first, not_plain⟩ := lossyChars_cons_foreign ascii s
          rw [first] at h
          exact absurd ((List.cons.inj h).1 ▸ plain) not_plain
  · rintro ⟨b, s', rfl, rfl, rfl⟩
    have ascii : b.toNat < 0x80 := Bytes.toNat_toChar b ▸ plain.2
    exact lossyChars_cons_ascii ascii s'

/-- A text of plain characters is a spelling of its bytes. -/
theorem lossyChars_eq_iff {cs : List Char} (plain : ∀ c ∈ cs, Plain c) {s : Bytes} :
    lossyChars s = cs ↔ s.map Bytes.toChar = cs := by
  induction cs generalizing s with
  | nil =>
      cases s with
      | nil => exact ⟨fun _ => rfl, fun _ => rfl⟩
      | cons b s =>
          refine ⟨fun h => ?_, fun h => by cases h⟩
          by_cases ascii : b.toNat < 0x80
          · rw [lossyChars_cons_ascii ascii] at h
            cases h
          · obtain ⟨c, rest, first, -⟩ := lossyChars_cons_foreign ascii s
            rw [first] at h
            cases h
  | cons c cs ih =>
      have later := fun s' => @ih (fun x member => plain x (by simp [member])) s'
      rw [lossyChars_eq_cons (plain c (by simp))]
      constructor
      · rintro ⟨b, s', rfl, rfl, rest⟩
        rw [List.map_cons, (later s').mp rest]
      · intro h
        obtain ⟨b, s', rfl, first, rest⟩ := List.map_eq_cons_iff.mp h
        exact ⟨b, s', rfl, first, (later s').mpr rest⟩

end Text

end FuzzHarness
