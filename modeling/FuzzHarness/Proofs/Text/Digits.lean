import Mathlib.Data.List.Induction
import Mathlib.Data.List.TakeWhile
import Mathlib.Data.Nat.Digits.Defs
import FuzzHarness.Proofs.Text.Plain
import FuzzHarness.Text.Numeral

/-!
Decimal digits in text and in bytes, and the number that they spell. A digit is a plain character,
so a lossy text begins with the digits that its bytes begin with.
-/

namespace FuzzHarness

namespace Text

theorem plain_of_isDigit {c : Char} (h : c.isDigit = true) : Plain c := by
  have range : 48 ≤ c.toNat ∧ c.toNat ≤ 57 := by
    simpa [Char.isDigit, UInt32.le_iff_toNat_le] using h
  exact ⟨by omega, by omega⟩

theorem digitsValue_append_singleton (ds : List Char) (c : Char) :
    digitsValue (ds ++ [c]) = digitsValue ds * 10 + digitValue c := by
  simp [digitsValue]

theorem digitsValue_eq (ds : List Char) :
    digitsValue ds = Nat.ofDigits 10 (ds.reverse.map digitValue) := by
  induction ds using List.reverseRecOn with
  | nil => rfl
  | append_singleton ds c ih =>
      rw [digitsValue_append_singleton, ih, List.reverse_append]
      simp only [List.reverse_singleton, List.singleton_append, List.map_cons, Nat.ofDigits_cons]
      omega

end Text

namespace Bytes

def plus : UInt8 := 0x2B

def dash : UInt8 := 0x2D

def IsDigit (b : UInt8) : Prop :=
  0x30 ≤ b.toNat ∧ b.toNat ≤ 0x39

instance : DecidablePred IsDigit :=
  fun _ => inferInstanceAs (Decidable (_ ∧ _))

def leadingDigits (s : Bytes) : Bytes :=
  s.takeWhile fun b => decide (IsDigit b)

def decimal (digits : Bytes) : Nat :=
  Nat.ofDigits 10 (digits.reverse.map fun b => b.toNat - 0x30)

theorem isDigit_toChar (b : UInt8) : (toChar b).isDigit = true ↔ IsDigit b := by
  have value : (toChar b).val.toNat = b.toNat := toNat_toChar b
  simp [Char.isDigit, IsDigit, UInt32.le_iff_toNat_le, value]

theorem digitValue_toChar (b : UInt8) : Text.digitValue (toChar b) = b.toNat - 0x30 := by
  rw [Text.digitValue, toNat_toChar]
  rfl

theorem digitsValue_map_toChar (ds : Bytes) : Text.digitsValue (ds.map toChar) = decimal ds := by
  rw [Text.digitsValue_eq, decimal, ← List.map_reverse, List.map_map]
  simp only [Function.comp_def, digitValue_toChar]

theorem leadingDigits_cons_of_isDigit {b : UInt8} (digit : IsDigit b) (s : Bytes) :
    leadingDigits (b :: s) = b :: leadingDigits s :=
  List.takeWhile_cons_of_pos (by simpa using digit)

theorem leadingDigits_cons_of_not_isDigit {b : UInt8} (other : ¬IsDigit b) (s : Bytes) :
    leadingDigits (b :: s) = [] :=
  List.takeWhile_cons_of_neg (by simpa using other)

theorem isDigit_of_mem_leadingDigits {s : Bytes} : ∀ b ∈ leadingDigits s, IsDigit b := by
  intro b member
  simpa using List.mem_takeWhile_imp member

end Bytes

namespace Text

/-- A lossy text begins with the digits that its bytes begin with. -/
theorem takeWhile_isDigit_lossyChars (s : Bytes) :
    (lossyChars s).takeWhile Char.isDigit = (Bytes.leadingDigits s).map Bytes.toChar := by
  induction s with
  | nil => rfl
  | cons b s ih =>
      by_cases ascii : b.toNat < 0x80
      · rw [lossyChars_cons_ascii ascii]
        by_cases digit : Bytes.IsDigit b
        · rw [List.takeWhile_cons_of_pos ((Bytes.isDigit_toChar b).mpr digit), ih,
            Bytes.leadingDigits_cons_of_isDigit digit, List.map_cons]
        · rw [List.takeWhile_cons_of_neg fun h => digit ((Bytes.isDigit_toChar b).mp h),
            Bytes.leadingDigits_cons_of_not_isDigit digit, List.map_nil]
      · obtain ⟨c, rest, shown, foreign⟩ := lossyChars_cons_foreign ascii s
        have other : ¬Bytes.IsDigit b := fun digit => ascii (Nat.lt_of_le_of_lt digit.2 (by decide))
        rw [shown, List.takeWhile_cons_of_neg fun h => foreign (plain_of_isDigit h),
          Bytes.leadingDigits_cons_of_not_isDigit other, List.map_nil]

end Text

end FuzzHarness
