import FuzzHarness.Proofs.Text.Digits

/-!
The integer at the head of a text. Whatever the number of its digits, it is the number that they
spell as far as a word goes, with the sign put in front of it afterwards. Read from the bytes of the
text one machine word at a time, with a check of every operation that could fail, it comes out the
same, and no check fails.
-/

namespace FuzzHarness

namespace Text

def capped (n : Nat) : Int :=
  min n maxWord

theorem capped_nonneg (n : Nat) : 0 ≤ capped n := by
  unfold capped maxWord
  omega

theorem saturate_of_nonneg {n : Int} (h : 0 ≤ n) : saturate n = min n maxWord := by
  unfold saturate maxWord minWord
  omega

theorem appendDigit_capped (n : Nat) (c : Char) :
    appendDigit (capped n) c = capped (n * 10 + digitValue c) := by
  have positive : 0 ≤ maxWord := by decide
  have tenfold : saturate (capped n * 10) = capped (n * 10) := by
    have nonneg := capped_nonneg n
    rw [saturate_of_nonneg (by omega), capped, capped]
    omega
  have nonneg := capped_nonneg (n * 10)
  rw [appendDigit, tenfold, saturate_of_nonneg (by omega), capped, capped]
  omega

theorem foldl_appendDigit (ds : List Char) : ds.foldl appendDigit 0 = capped (digitsValue ds) := by
  induction ds using List.reverseRecOn with
  | nil => rfl
  | append_singleton ds c ih =>
      rw [List.foldl_append, ih, List.foldl_cons, List.foldl_nil, appendDigit_capped,
        digitsValue_append_singleton]

/-- A text with at most one sign in front, whether that is a minus, and what follows. -/
inductive Signed : List Char → Bool → List Char → Prop
  | minus (rest : List Char) : Signed ('-' :: rest) true rest
  | plus (rest : List Char) : Signed ('+' :: rest) false rest
  | bare {rest : List Char} : rest.head? ≠ some '-' → rest.head? ≠ some '+' → Signed rest false rest

theorem signed_splitSign (t : List Char) : Signed t (splitSign t).1 (splitSign t).2 := by
  unfold splitSign
  split
  · exact .minus _
  · exact .plus _
  · rename_i no_minus no_plus
    refine .bare ?_ ?_
    · intro minus
      obtain ⟨rest, rfl⟩ := List.head?_eq_some_iff.mp minus
      exact no_minus rest rfl
    · intro plus
      obtain ⟨rest, rfl⟩ := List.head?_eq_some_iff.mp plus
      exact no_plus rest rfl

theorem splitSign_of_signed {t rest : List Char} {negative : Bool} (h : Signed t negative rest) :
    splitSign t = (negative, rest) := by
  cases h with
  | minus | plus => rfl
  | bare no_minus no_plus =>
      unfold splitSign
      split
      · exact absurd rfl no_minus
      · exact absurd rfl no_plus
      · rfl

def signedValue (negative : Bool) (rest : List Char) : Int :=
  let value := capped (digitsValue (rest.takeWhile Char.isDigit))
  if negative then -value else value

theorem leadingInteger_of_signed {s rest : List Char} {negative : Bool}
    (h : Signed (s.dropWhile isBlank) negative rest) :
    leadingInteger s = signedValue negative rest := by
  simp only [leadingInteger, splitSign_of_signed h, foldl_appendDigit, signedValue]

theorem leadingInteger_ne_zero_iff (s : List Char) :
    leadingInteger s ≠ 0 ↔
    digitsValue ((splitSign (s.dropWhile isBlank)).2.takeWhile Char.isDigit) ≠ 0 := by
  rw [leadingInteger_of_signed (signed_splitSign _), signedValue]
  generalize digitsValue _ = value
  have zero : capped value ≠ 0 ↔ value ≠ 0 := by
    unfold capped maxWord
    omega
  cases (splitSign (s.dropWhile isBlank)).1 with
  | false => exact zero
  | true => exact Int.neg_ne_zero.trans zero

end Text

namespace Bytes

/-- The bytes from a place on; nothing where that is beyond the end or inside a character. -/
def from? (s : Bytes) (place : Nat) : Option Bytes :=
  match s[place]? with
  | some b => if 0x80 ≤ b.toNat ∧ b.toNat < 0xC0 then none else some (s.drop place)
  | none => if place = s.length then some [] else none

theorem utf8EncodeChar_cases (c : Char) :
    (∃ b, toChar b = c ∧ b.toNat < 0x80 ∧ String.utf8EncodeChar c = [b]) ∨
      (¬c.toNat < 0x80 ∧ ∃ b rest, String.utf8EncodeChar c = b :: rest ∧ 0xC0 ≤ b.toNat) := by
  have value : c.val.toNat = c.toNat := rfl
  by_cases ascii : c.toNat < 0x80
  · obtain ⟨b, small, char⟩ := exists_toChar ascii
    refine .inl ⟨b, char, small, ?_⟩
    rw [← char, utf8EncodeChar_toChar small]
  · refine .inr ⟨ascii, ?_⟩
    have beyond : ¬c.toNat ≤ 127 := by omega
    simp only [String.utf8EncodeChar, value, beyond, if_false]
    split
    · refine ⟨_, _, rfl, ?_⟩
      rw [UInt8.toNat_ofNat']
      omega
    · split
      · refine ⟨_, _, rfl, ?_⟩
        rw [UInt8.toNat_ofNat']
        omega
      · refine ⟨_, _, rfl, ?_⟩
        rw [UInt8.toNat_ofNat']
        omega

theorem ofString_cons (c : Char) (cs : List Char) :
    ofString (String.ofList (c :: cs)) = String.utf8EncodeChar c ++
      ofString (String.ofList cs) := by
  rw [ofString_ofList, ofString_ofList, List.flatMap_cons]

theorem from?_one (b : UInt8) (cs : List Char) :
    from? (b :: ofString (String.ofList cs)) 1 = some (ofString (String.ofList cs)) := by
  cases cs with
  | nil => rfl
  | cons c cs =>
      rw [ofString_cons]
      rcases utf8EncodeChar_cases c with ⟨x, -, ascii, encoded⟩ | ⟨-, x, rest, encoded, first⟩
      · have boundary : ¬(0x80 ≤ x.toNat ∧ x.toNat < 0xC0) := by omega
        simp [from?, encoded, boundary]
      · have boundary : ¬(0x80 ≤ x.toNat ∧ x.toNat < 0xC0) := by omega
        simp [from?, encoded, boundary]

theorem leadingDigits_ofString (cs : List Char) :
    (leadingDigits (ofString (String.ofList cs))).map toChar = cs.takeWhile Char.isDigit := by
  induction cs with
  | nil => rfl
  | cons c cs ih =>
      rw [ofString_cons]
      rcases utf8EncodeChar_cases c with
        ⟨x, rfl, ascii, encoded⟩ | ⟨foreign, x, rest, encoded, first⟩
      · rw [encoded, List.singleton_append]
        by_cases digit : IsDigit x
        · rw [leadingDigits_cons_of_isDigit digit, List.map_cons, ih,
            List.takeWhile_cons_of_pos ((isDigit_toChar x).mpr digit)]
        · rw [leadingDigits_cons_of_not_isDigit digit, List.map_nil,
            List.takeWhile_cons_of_neg fun h => digit ((isDigit_toChar x).mp h)]
      · have other : ¬IsDigit x := fun digit => by
          have := digit.2
          omega
        rw [encoded, List.cons_append, leadingDigits_cons_of_not_isDigit other, List.map_nil,
          List.takeWhile_cons_of_neg fun h => foreign (Text.plain_of_isDigit h).2]

/-- What follows the sign of a text, cut out of its bytes, with whether the sign is a minus. -/
def splitSign? (s : Bytes) : Option (Bool × Bytes) :=
  if s.head? = some dash then (s.from? 1).map (true, ·)
  else if s.head? = some plus then (s.from? 1).map (false, ·)
  else some (false, s)

theorem splitSign?_ofString {t rest : List Char} {negative : Bool}
    (h : Text.Signed t negative rest) :
    splitSign? (ofString (String.ofList t)) = some (negative, ofString (String.ofList rest)) := by
  cases h with
  | minus =>
      have encoded :
          ofString (String.ofList ('-' :: rest)) = dash :: ofString (String.ofList rest) :=
        ofString_cons '-' rest
      rw [encoded, splitSign?, List.head?_cons, if_pos rfl, dash, from?_one]
      rfl
  | plus =>
      have encoded :
          ofString (String.ofList ('+' :: rest)) = plus :: ofString (String.ofList rest) :=
        ofString_cons '+' rest
      rw [encoded, splitSign?, List.head?_cons, if_neg (by decide), if_pos rfl, plus, from?_one]
      rfl
  | bare no_minus no_plus =>
      cases t with
      | nil => rfl
      | cons c cs =>
          have head_ne : ∀ x : UInt8, x.toNat < 0x80 → (c :: cs).head? ≠ some (toChar x) →
              (ofString (String.ofList (c :: cs))).head? ≠ some x := by
            intro x ascii other same
            rw [ofString_cons] at same
            rcases utf8EncodeChar_cases c with ⟨y, rfl, -, encoded⟩ | ⟨-, y, rest, encoded, first⟩
            · rw [encoded] at same
              obtain rfl : y = x := Option.some.inj same
              exact other rfl
            · rw [encoded] at same
              obtain rfl : y = x := Option.some.inj same
              omega
          rw [splitSign?, if_neg (head_ne dash (by decide) no_minus),
            if_neg (head_ne plus (by decide) no_plus)]

end Bytes

namespace Text

def nearestWord (n : Int) : Int64 :=
  Int64.ofInt (saturate n)

theorem toInt_nearestWord (n : Int) : (nearestWord n).toInt = saturate n := by
  have lower : -2 ^ 63 ≤ saturate n := by
    unfold saturate maxWord minWord
    omega
  have upper : saturate n < 2 ^ 63 := by
    unfold saturate maxWord minWord
    omega
  exact Int64.toInt_ofInt_of_le lower upper

/-- One more byte as a digit; nothing where the difference to the digit zero is negative. -/
def appendByte? (w : Int64) (b : UInt8) : Option Int64 :=
  if b < 0x30 then none
  else some (nearestWord ((nearestWord (w.toInt * 10)).toInt + (b - 0x30).toNat))

/-- The negative of a word; nothing where that is no word. -/
def negate? (w : Int64) : Option Int64 :=
  if w = Int64.minValue then none else some (-w)

/-- The integer at the head of a text, read from its bytes in machine words; nothing where an
operation fails. -/
def leadingWord? (s : String) : Option Int64 := do
  let (negative, rest) ← Bytes.splitSign?
    (Bytes.ofString (String.ofList (s.toList.dropWhile isBlank)))
  let value ← (Bytes.leadingDigits rest).foldlM appendByte? 0
  if negative then negate? value else some value

theorem appendByte?_digit {b : UInt8} (digit : Bytes.IsDigit b) (w : Int64) :
    ∃ w', appendByte? w b = some w' ∧ w'.toInt = appendDigit w.toInt (Bytes.toChar b) := by
  have least : (0x30 : UInt8) ≤ b := UInt8.le_iff_toNat_le.mpr digit.1
  have no_less : ¬b < 0x30 := UInt8.not_lt.mpr least
  have difference : (b - 0x30).toNat = digitValue (Bytes.toChar b) := by
    rw [UInt8.toNat_sub_of_le _ _ least, Bytes.digitValue_toChar]
    rfl
  refine ⟨_, if_neg no_less, ?_⟩
  rw [toInt_nearestWord, toInt_nearestWord, difference, appendDigit]

theorem foldlM_appendByte? {ds : Bytes} (digits : ∀ b ∈ ds, Bytes.IsDigit b) (w : Int64) :
    ∃ w', ds.foldlM appendByte? w = some w' ∧
      w'.toInt = (ds.map Bytes.toChar).foldl appendDigit w.toInt := by
  induction ds generalizing w with
  | nil => exact ⟨w, rfl, rfl⟩
  | cons b ds ih =>
      obtain ⟨first, appended, value⟩ := appendByte?_digit (digits b (by simp)) w
      obtain ⟨last, folded, value'⟩ :=
        ih (fun x member => digits x (List.mem_cons_of_mem b member)) first
      refine ⟨last, ?_, ?_⟩
      · rw [List.foldlM_cons, appended]
        exact folded
      · rw [List.map_cons, List.foldl_cons, ← value]
        exact value'

theorem negate?_of_nonneg {w : Int64} (h : 0 ≤ w.toInt) :
    ∃ w', negate? w = some w' ∧ w'.toInt = -w.toInt := by
  have least : w ≠ Int64.minValue := by
    rintro rfl
    exact absurd h (by decide)
  have upper : w.toInt < 2 ^ 63 := Int64.toInt_lt w
  refine ⟨-w, if_neg least, ?_⟩
  rw [Int64.toInt_neg, Int.bmod_eq_of_le (by omega) (by omega)]

/-- No operation fails, and the word that is read is the integer at the head of the text. -/
theorem leadingWord?_eq (s : String) : ∃ w, leadingWord? s = some w ∧
    w.toInt = leadingInteger s.toList := by
  have signed := signed_splitSign (s.toList.dropWhile isBlank)
  generalize (splitSign (s.toList.dropWhile isBlank)).1 = negative at signed
  generalize (splitSign (s.toList.dropWhile isBlank)).2 = rest at signed
  have digits : ∀ b ∈ Bytes.leadingDigits (Bytes.ofString (String.ofList rest)), Bytes.IsDigit b :=
    Bytes.isDigit_of_mem_leadingDigits
  obtain ⟨w, folded, value⟩ := foldlM_appendByte? digits 0
  have word : w.toInt = capped (digitsValue (rest.takeWhile Char.isDigit)) := by
    rw [value, Bytes.leadingDigits_ofString]
    exact foldl_appendDigit _
  rw [leadingInteger_of_signed signed, signedValue, ← word]
  simp only [leadingWord?, Bytes.splitSign?_ofString signed, Option.bind_eq_bind,
    Option.bind_some, folded]
  cases negative with
  | false => exact ⟨w, rfl, rfl⟩
  | true =>
      obtain ⟨w', negated, value'⟩ := negate?_of_nonneg (word ▸ capped_nonneg _)
      exact ⟨w', negated, value'⟩

end Text

end FuzzHarness
