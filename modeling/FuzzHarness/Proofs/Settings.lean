import Mathlib.Algebra.Ring.Int.Parity
import FuzzHarness.Proofs.Text.LeadingInteger
import FuzzHarness.Settings

/-!
The mask that says which streams are silenced. It is exact for every number that a word holds, and
its bits are those of two's complement. Beside it stands the reading that `strtol` makes of the same
bytes. The two part in two ways only: blanks that the C locale does not know are skipped all the
same, and the least word is never reached.
-/

namespace FuzzHarness

namespace Settings

theorem maskBit_zero (mask : Int) : maskBit mask 0 = true ↔ mask % 2 = 1 := by
  simp [maskBit]

theorem maskBit_one (mask : Int) : maskBit mask 1 = true ↔ mask % 4 = 2 ∨ mask % 4 = 3 := by
  simp only [maskBit, decide_eq_true_eq, Int.shiftRight_eq_div_pow]
  omega

/-- A bit of the mask is the bit of the word that holds it. -/
theorem maskBit_eq_getLsbD (mask : Int) {i : Nat} (h : i < 64) :
    maskBit mask i = (BitVec.ofInt 64 mask).getLsbD i := by
  have halves : (2 : Int) ^ 64 = 2 ^ i * (2 * 2 ^ (63 - i)) := by
    rw [← pow_succ', ← pow_add]
    congr 1
    omega
  have word : mask / 2 ^ i % 2 = mask % 2 ^ 64 / 2 ^ i % 2 := by
    have whole : mask % 2 ^ 64 + 2 ^ i * (2 * (2 ^ (63 - i) * (mask / 2 ^ 64))) = mask := by
      calc
        _ = mask % 2 ^ 64 + 2 ^ i * (2 * 2 ^ (63 - i)) * (mask / 2 ^ 64) := by ring
        _ = mask := by rw [← halves, Int.emod_add_mul_ediv]
    calc
      mask / 2 ^ i % 2 = (mask % 2 ^ 64 + 2 ^ i * (2 * (2 ^ (63 - i) * (mask / 2 ^ 64)))) / 2 ^ i %
        2 := by rw [whole]
      _ = mask % 2 ^ 64 / 2 ^ i % 2 := by
        rw [Int.add_mul_ediv_left _ _ (by positivity), Int.add_mul_emod_self_left]
  have natural : ((mask % 2 ^ 64).toNat : Int) = mask % 2 ^ 64 :=
    Int.toNat_of_nonneg (Int.emod_nonneg _ (by decide))
  rw [← BitVec.testBit_toNat, Nat.testBit_eq_decide_div_mod_eq, BitVec.toNat_ofInt, maskBit,
    Int.shiftRight_eq_div_pow]
  refine decide_eq_decide.mpr ?_
  push_cast
  rw [word, ← natural]
  norm_cast

/-- The mask is the number that the digits at the head of the text spell, however many there are, as
far as a word goes, and negative behind a minus sign. No operation fails on the way to it. A number
that fits a word silences standard output if it is odd, and standard error if its remainder modulo
4, taken with the sign, is 2 or 3. -/
theorem mask_exact (text : String) (others : Settings) :
    let s := { others with closeFdMask := some text }
    ∃ negative rest, Text.Signed (text.toList.dropWhile Text.isBlank) negative rest ∧
      let value : Nat := Nat.ofDigits 10 ((rest.takeWhile Char.isDigit).reverse.map Text.digitValue)
      let signed : Int → Int := fun n => if negative then -n else n
      s.mask = signed (min value (2 ^ 63 - 1)) ∧
        (∃ word, Text.leadingWord? text = some word ∧ word.toInt = s.mask) ∧
        (value < 2 ^ 63 →
          (s.policy.discardStdout = true ↔ Odd value) ∧
            (s.policy.discardStderr = true ↔ signed value % 4 = 2 ∨ signed value % 4 = 3)) := by
  intro s
  have behind := Text.signed_splitSign (text.toList.dropWhile Text.isBlank)
  refine ⟨_, _, behind, ?_⟩
  generalize (Text.splitSign (text.toList.dropWhile Text.isBlank)).1 = negative at behind ⊢
  generalize (Text.splitSign (text.toList.dropWhile Text.isBlank)).2 = rest at behind ⊢
  intro value signed
  have mask : s.mask = signed (min value (2 ^ 63 - 1)) := by
    have read := Text.leadingInteger_of_signed behind
    rw [Text.signedValue, Text.digitsValue_eq, Text.capped] at read
    exact read
  refine ⟨mask, Text.leadingWord?_eq text, ?_⟩
  intro fits
  have exactly : s.mask = signed value := by
    rw [mask]
    congr 1
    omega
  have parity : Odd (signed value) ↔ Odd value := by
    cases negative with
    | false => exact Int.odd_coe_nat value
    | true => exact odd_neg.trans (Int.odd_coe_nat value)
  refine ⟨?_, ?_⟩
  · rw [policy, maskBit_zero, exactly, ← Int.odd_iff]
    exact parity
  · rw [policy, maskBit_one, exactly]

/-- Zeros in front and what follows the digits do not count, and an even negative number silences
standard error only as its remainder says. -/
theorem mask_exact_negative :
    let s := { default with closeFdMask := some "\u3000-06é9" }
    (6 : Nat) < 2 ^ 63 ∧ s.mask = -6 ∧ s.policy.discardStdout = false ∧
    s.policy.discardStderr = true := by
  intro s
  have fits : (6 : Nat) < 2 ^ 63 := by decide
  obtain ⟨negative, rest, behind, mask, -, streams⟩ := mask_exact "\u3000-06é9" default
  have text : "\u3000-06é9".toList.dropWhile Text.isBlank = '-' :: ['0', '6', 'é', '9'] := by decide
  rw [text] at behind
  cases behind with
  | minus =>
      have value : Nat.ofDigits 10
          ((['0', '6', 'é', '9'].takeWhile Char.isDigit).reverse.map Text.digitValue) = 6 := by
        decide
      rw [value] at streams
      obtain ⟨stdout, stderr⟩ := streams fits
      refine ⟨fits, mask, ?_, stderr.mpr (by decide)⟩
      exact Bool.eq_false_iff.mpr fun discarded => absurd (stdout.mp discarded) (by decide)
  | bare no_minus => exact absurd rfl no_minus

end Settings

namespace Bytes

def isSpace (b : UInt8) : Bool :=
  b = 0x20 || (0x09 ≤ b && b ≤ 0x0D)

/-- Whether a minus sign stands in front, and what follows at most one sign. -/
def splitSign : Bytes → Bool × Bytes
  | [] => (false, [])
  | b :: s => if b = dash then (true, s) else if b = plus then (false, s) else (false, b :: s)

/-- What `strtol` reads in base ten, in the C locale and with a long of 64 bits: behind white space
and at most one sign the number that the digits spell, 0 without digits, and the nearest long where
the number is none. -/
def strtol (s : Bytes) : Int :=
  let (negative, rest) := splitSign (s.dropWhile isSpace)
  let value : Int := decimal (leadingDigits rest)
  max (-2 ^ 63) (min (if negative then -value else value) (2 ^ 63 - 1))

/-- Behind the white space of the C locale stands a blank that is none there, and behind all blanks
and at most one sign stand digits that spell another number than zero. -/
def HidesNumber (s : Bytes) : Prop :=
  (Text.lossyChars (s.dropWhile isSpace)).head?.any Text.isBlank = true ∧
    let behind := Text.splitSign ((Text.lossyChars s).dropWhile Text.isBlank)
    Text.digitsValue (behind.2.takeWhile Char.isDigit) ≠ 0

/-- A minus sign stands before a number that is at least the negative of the least long. -/
def ReachesLeast (s : Bytes) : Prop :=
  (splitSign (s.dropWhile isSpace)).1 = true ∧
    2 ^ 63 ≤ decimal (leadingDigits (splitSign (s.dropWhile isSpace)).2)

theorem isBlank_toChar {b : UInt8} (ascii : b.toNat < 0x80) :
    Text.isBlank (toChar b) = isSpace b := by
  have space : b = 0x20 ↔ b.toNat = 32 := UInt8.toNat_inj.symm
  rw [Bool.eq_iff_iff]
  simp only [Text.isBlank, Text.blankRanges, List.any_cons, List.any_nil, toNat_toChar,
    isSpace, space, Bool.or_eq_true, Bool.and_eq_true, decide_eq_true_eq, UInt8.le_iff_toNat_le,
    UInt8.reduceToNat, Bool.false_eq_true, or_false]
  omega

theorem ascii_of_isSpace {b : UInt8} (h : isSpace b = true) : b.toNat < 0x80 := by
  have space : b = 0x20 ↔ b.toNat = 32 := UInt8.toNat_inj.symm
  simp only [isSpace, space, Bool.or_eq_true, Bool.and_eq_true, decide_eq_true_eq,
    UInt8.le_iff_toNat_le, UInt8.reduceToNat] at h
  omega

theorem dropWhile_isBlank_lossyChars (s : Bytes) :
    (Text.lossyChars s).dropWhile Text.isBlank =
      (Text.lossyChars (s.dropWhile isSpace)).dropWhile Text.isBlank := by
  induction s with
  | nil => rfl
  | cons b s ih =>
      by_cases space : isSpace b = true
      · have ascii := ascii_of_isSpace space
        rw [Text.lossyChars_cons_ascii ascii, List.dropWhile_cons_of_pos
          (isBlank_toChar ascii ▸ space), List.dropWhile_cons_of_pos space, ih]
      · rw [List.dropWhile_cons_of_neg space]

theorem signed_lossyChars (s : Bytes) :
    Text.Signed (Text.lossyChars s) (splitSign s).1 (Text.lossyChars (splitSign s).2) := by
  have front : ∀ x : UInt8, Text.Plain (toChar x) → s.head? ≠ some x →
      (Text.lossyChars s).head? ≠ some (toChar x) := by
    intro x plain other same
    obtain ⟨rest, shown⟩ := List.head?_eq_some_iff.mp same
    obtain ⟨y, s', rfl, first, -⟩ := (Text.lossyChars_eq_cons plain).mp shown
    exact other (congrArg some (toChar_injective first))
  have bare : s.head? ≠ some dash → s.head? ≠ some plus →
      Text.Signed (Text.lossyChars s) false (Text.lossyChars s) :=
    fun no_dash no_plus => .bare (front dash (by unfold Text.Plain; decide) no_dash)
      (front plus (by unfold Text.Plain; decide) no_plus)
  cases s with
  | nil => exact bare (by simp) (by simp)
  | cons b rest =>
      by_cases minus : b = dash
      · rw [splitSign, if_pos minus, minus, Text.lossyChars_cons_ascii (by decide)]
        exact .minus _
      · by_cases sign : b = plus
        · rw [splitSign, if_neg minus, if_pos sign, sign, Text.lossyChars_cons_ascii (by decide)]
          exact .plus _
        · rw [splitSign, if_neg minus, if_neg sign]
          exact bare (by simpa using minus) (by simpa using sign)

theorem leadingInteger_lossyChars {s : Bytes}
    (known : (Text.lossyChars (s.dropWhile isSpace)).head?.any Text.isBlank = false) :
    let behind := splitSign (s.dropWhile isSpace)
    let value := Text.capped (decimal (leadingDigits behind.2))
    Text.leadingInteger (Text.lossyChars s) = if behind.1 then -value else value := by
  intro behind value
  have none_skipped : (Text.lossyChars (s.dropWhile isSpace)).dropWhile Text.isBlank =
      Text.lossyChars (s.dropWhile isSpace) := by
    cases shown : Text.lossyChars (s.dropWhile isSpace) with
    | nil => rfl
    | cons c rest =>
        rw [shown] at known
        exact List.dropWhile_cons_of_neg (by simpa using known)
  have signed : Text.Signed ((Text.lossyChars s).dropWhile Text.isBlank) behind.1
      (Text.lossyChars behind.2) := by
    rw [dropWhile_isBlank_lossyChars, none_skipped]
    exact signed_lossyChars _
  rw [Text.leadingInteger_of_signed signed, Text.signedValue, Text.takeWhile_isDigit_lossyChars,
    digitsValue_map_toChar]

theorem splitSign_of_foreign {s : Bytes}
    (foreign : (Text.lossyChars (s.dropWhile isSpace)).head?.any Text.isBlank = true) :
    splitSign (s.dropWhile isSpace) = (false, s.dropWhile isSpace) ∧
    leadingDigits (s.dropWhile isSpace) = [] := by
  have behind := List.head?_dropWhile_not isSpace s
  cases rest : s.dropWhile isSpace with
  | nil => exact ⟨rfl, rfl⟩
  | cons b rest' =>
      rw [rest] at foreign behind
      have beyond : ¬b.toNat < 0x80 := by
        intro ascii
        rw [Text.lossyChars_cons_ascii ascii] at foreign
        have blank : Text.isBlank (toChar b) = true := by simpa using foreign
        rw [isBlank_toChar ascii] at blank
        exact absurd blank (Bool.eq_false_iff.mp behind)
      have no_dash : b ≠ dash := by
        rintro rfl
        exact beyond (by decide)
      have no_plus : b ≠ plus := by
        rintro rfl
        exact beyond (by decide)
      refine ⟨?_, ?_⟩
      · rw [splitSign, if_neg no_dash, if_neg no_plus]
      · exact leadingDigits_cons_of_not_isDigit
          (fun digit => beyond (Nat.lt_of_le_of_lt digit.2 (by decide))) rest'

theorem strtol_of_foreign {s : Bytes}
    (foreign : (Text.lossyChars (s.dropWhile isSpace)).head?.any Text.isBlank = true) :
    strtol s = 0 ∧ ¬ReachesLeast s := by
  obtain ⟨no_sign, no_digits⟩ := splitSign_of_foreign foreign
  refine ⟨?_, ?_⟩
  · simp only [strtol, no_sign, no_digits]
    decide
  · rw [ReachesLeast, no_sign]
    exact fun reaches => Bool.false_ne_true reaches.1

/-- Without a foreign blank only the least long is read in another way. -/
theorem strtol_of_known {s : Bytes}
    (known : (Text.lossyChars (s.dropWhile isSpace)).head?.any Text.isBlank = false) :
    (¬ReachesLeast s → Text.leadingInteger (Text.lossyChars s) = strtol s) ∧
      (ReachesLeast s → Text.leadingInteger (Text.lossyChars s) = -(2 ^ 63 - 1) ∧
        strtol s = -2 ^ 63) := by
  rw [leadingInteger_lossyChars known]
  simp only [strtol, ReachesLeast, Text.capped, Text.maxWord]
  generalize decimal (leadingDigits (splitSign (s.dropWhile isSpace)).2) = value
  cases (splitSign (s.dropWhile isSpace)).1 with
  | false =>
      simp only [Bool.false_eq_true, if_false, false_and, not_false_eq_true, true_implies,
        false_implies, and_true]
      omega
  | true =>
      simp only [if_true, true_and]
      omega

end Bytes

namespace Settings
open Bytes

/-- The mask is what `strtol` reads from the bytes of the variable, and its bits say which streams
are silenced, unless a blank that the C locale does not know hides a number, which the mask takes
and `strtol` does not, or a number reaches the least long, which the mask misses by one. -/
theorem mask_eq_strtol_iff {lookup : String → Option Bytes} {v : Bytes}
    (given : lookup closeFdMaskVariable = some v) :
    let s := ofLookup lookup
    (s.mask = strtol v ↔ ¬HidesNumber v ∧ ¬ReachesLeast v) ∧
      (¬HidesNumber v → ¬ReachesLeast v →
        s.policy.discardStdout = (BitVec.ofInt 64 (strtol v)).getLsbD 0 ∧
          s.policy.discardStderr = (BitVec.ofInt 64 (strtol v)).getLsbD 1) ∧
      (HidesNumber v → s.mask ≠ 0 ∧ strtol v = 0) ∧
      (ReachesLeast v → s.mask = -(2 ^ 63 - 1) ∧ strtol v = -2 ^ 63) := by
  intro s
  have mask : s.mask = Text.leadingInteger (Text.lossyChars v) := by
    simp only [s, Settings.mask, ofLookup, given, Option.map_some, Text.lossy, String.toList_ofList]
  have same : ¬HidesNumber v → ¬ReachesLeast v → s.mask = strtol v := by
    intro nothing_hidden in_reach
    rw [mask]
    cases foreign : (Text.lossyChars (v.dropWhile isSpace)).head?.any Text.isBlank with
    | false => exact (strtol_of_known foreign).1 in_reach
    | true =>
        rw [(strtol_of_foreign foreign).1]
        exact not_not.mp fun number =>
          nothing_hidden ⟨foreign, (Text.leadingInteger_ne_zero_iff _).mp number⟩
  have hidden : HidesNumber v → s.mask ≠ 0 ∧ strtol v = 0 := by
    rintro ⟨foreign, number⟩
    exact ⟨mask ▸ (Text.leadingInteger_ne_zero_iff _).mpr number, (strtol_of_foreign foreign).1⟩
  have least : ReachesLeast v → s.mask = -(2 ^ 63 - 1) ∧ strtol v = -2 ^ 63 := by
    intro reaches
    rw [mask]
    refine (strtol_of_known (Bool.eq_false_iff.mpr ?_)).2 reaches
    exact fun foreign => (strtol_of_foreign foreign).2 reaches
  refine ⟨⟨?_, fun ⟨nothing_hidden, in_reach⟩ => same nothing_hidden in_reach⟩, ?_, hidden, least⟩
  · intro equal
    refine ⟨fun h => (hidden h).1 (equal.trans (hidden h).2), fun h => ?_⟩
    obtain ⟨greater, lesser⟩ := least h
    omega
  · intro nothing_hidden in_reach
    rw [policy, ← same nothing_hidden in_reach]
    exact ⟨maskBit_eq_getLsbD _ (by decide), maskBit_eq_getLsbD _ (by decide)⟩

/-- A number behind a tab and a space is read alike. One behind a no-break space is not. -/
theorem mask_eq_strtol_iff_blanks :
    let lookup (v : Bytes) : String → Option Bytes := fun name =>
      if name = closeFdMaskVariable then some v else none
    let known : Bytes := [0x09, 0x20, dash, 0x36]
    let foreign : Bytes := [0xC2, 0xA0, 0x33]
    lookup known closeFdMaskVariable = some known ∧ (ofLookup (lookup known)).mask = strtol known ∧
      lookup foreign closeFdMaskVariable = some foreign ∧
      (ofLookup (lookup foreign)).mask ≠ strtol foreign := by
  intro lookup known foreign
  have plain : ¬HidesNumber known ∧ ¬ReachesLeast known := by
    unfold HidesNumber ReachesLeast
    decide
  have hidden : HidesNumber foreign := by
    unfold HidesNumber
    decide
  have given : lookup known closeFdMaskVariable = some known := rfl
  have given' : lookup foreign closeFdMaskVariable = some foreign := rfl
  refine ⟨given, (mask_eq_strtol_iff given).1.mpr plain, given', ?_⟩
  intro equal
  exact ((mask_eq_strtol_iff given').1.mp equal).1 hidden

end Settings

end FuzzHarness
