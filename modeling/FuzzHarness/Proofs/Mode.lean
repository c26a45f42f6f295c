import FuzzHarness.Boot
import FuzzHarness.Mode
import FuzzHarness.Proofs.Text.Digits

/-!
The grammar of the arguments. A budget is spelled as a numeral in ASCII, with a plus sign or
without, and lies in the positive range of a signed 32-bit word. Arguments are bytes: one that is no
text is never a budget.
-/

namespace FuzzHarness

namespace Bytes

/-- A numeral and its value: one or more digits, any number of them zeros in front, with a plus sign
or without. -/
inductive Numeral : Bytes → Nat → Prop
  | digits {ds : Bytes} : ds ≠ [] → (∀ b ∈ ds, IsDigit b) → Numeral ds (decimal ds)
  | plus {ds : Bytes} : ds ≠ [] → (∀ b ∈ ds, IsDigit b) → Numeral (plus :: ds) (decimal ds)

theorem Numeral.ascii {s : Bytes} {n : Nat} (h : Numeral s n) : ∀ b ∈ s, b.toNat < 0x80 := by
  have small :
    ∀ {b : UInt8}, IsDigit b → b.toNat < 0x80 := fun digit => Nat.lt_of_le_of_lt digit.2 (by decide)
  cases h with
  | digits _ all => exact fun b member => small (all b member)
  | plus _ all =>
      intro b member
      rcases List.mem_cons.mp member with rfl | member
      · decide
      · exact small (all b member)

end Bytes

namespace Text

variable {cs ds : List Char}

theorem splitSign_digits (digits : ∀ c ∈ ds, c.isDigit = true) : splitSign ds = (false, ds) := by
  unfold splitSign
  split
  · cases digits '-' (by simp)
  · cases digits '+' (by simp)
  · rfl

theorem numeral?_eq_some {n : Int} : numeral? cs = some n ↔ ∃ ds, ds ≠ [] ∧
    (∀ c ∈ ds, c.isDigit = true) ∧
    (cs = '-' :: ds ∧ n = -(digitsValue ds : Int) ∨ (cs = ds ∨ cs = '+' :: ds) ∧
      n = digitsValue ds) := by
  constructor
  · intro h
    simp only [numeral?] at h
    split at h
    · cases h
    · rename_i some_digits
      have digits : (splitSign cs).2 ≠ [] ∧ ∀ c ∈ (splitSign cs).2, c.isDigit = true := by
        simpa using some_digits
      refine ⟨(splitSign cs).2, digits.1, digits.2, ?_⟩
      revert h
      unfold splitSign
      split
      · exact fun h => .inl ⟨rfl, by simpa using h.symm⟩
      · exact fun h => .inr ⟨.inr rfl, by simpa using h.symm⟩
      · exact fun h => .inr ⟨.inl rfl, by simpa using h.symm⟩
  · rintro ⟨ds, some_digits, digits, ⟨rfl, rfl⟩ | ⟨rfl | rfl, rfl⟩⟩
    · simpa [numeral?, splitSign, some_digits] using digits
    · simpa [numeral?, splitSign_digits digits, some_digits] using digits
    · simpa [numeral?, splitSign, some_digits] using digits

end Text

namespace Budget

def maxCount : Nat := 0x7FFFFFFF

theorem ofNat?_eq_some {n : Nat} {b : Budget} : ofNat? n = some b ↔ b.count = n := by
  unfold ofNat?
  constructor
  · intro h
    split at h
    · exact Option.some.inj h ▸ rfl
    · cases h
  · rintro rfl
    rw [dif_pos ⟨b.pos, b.word⟩]

theorem read?_eq_some {cs : List Char} {b : Budget} : read? cs = some b ↔ b.count ≤ maxCount ∧
    ∃ ds, ds ≠ [] ∧ (∀ c ∈ ds, c.isDigit = true) ∧ (cs = ds ∨ cs = '+' :: ds) ∧
      b.count = Text.digitsValue ds := by
  have read : read? cs = some b ↔ Text.numeral32? cs = some (b.count : Int) := by
    unfold read?
    constructor
    · intro h
      split at h
      · rename_i n spelled
        rw [ofNat?_eq_some.mp h]
        exact spelled
      · cases h
    · intro h
      rw [h]
      exact ofNat?_eq_some.mpr rfl
  have fits : Text.numeral32? cs = some (b.count : Int) ↔
      b.count ≤ maxCount ∧ Text.numeral? cs = some (b.count : Int) := by
    unfold Text.numeral32? maxCount
    cases Text.numeral? cs with
    | none => simp
    | some n =>
        simp only [Option.ite_none_right_eq_some, Option.some.injEq]
        constructor
        · rintro ⟨range, rfl⟩
          exact ⟨by omega, rfl⟩
        · rintro ⟨range, rfl⟩
          exact ⟨by omega, rfl⟩
  rw [read, fits, Text.numeral?_eq_some]
  refine and_congr_right fun _ => exists_congr fun ds => and_congr_right fun _ =>
    and_congr_right fun _ => ?_
  constructor
  · rintro (⟨-, negative⟩ | ⟨spelled, value⟩)
    · have := b.pos
      omega
    · exact ⟨spelled, by omega⟩
  · rintro ⟨spelled, value⟩
    exact .inr ⟨spelled, by omega⟩

/-- A budget is read from the bytes of a numeral, and from no others. -/
theorem read?_lossyChars {s : Bytes} {b : Budget} :
    read? (Text.lossyChars s) = some b ↔ Bytes.Numeral s b.count ∧ b.count ≤ maxCount := by
  rw [read?_eq_some]
  constructor
  · rintro ⟨range, ds, some_digits, digits, spelled, value⟩
    have plain : ∀ c ∈ ds, Text.Plain c := fun c member => Text.plain_of_isDigit (digits c member)
    have from_bytes : ∀ {s' : Bytes}, s'.map Bytes.toChar = ds →
        s' ≠ [] ∧ (∀ x ∈ s', Bytes.IsDigit x) ∧ b.count = Bytes.decimal s' := by
      rintro s' rfl
      refine ⟨by simpa using some_digits, fun x member => ?_,
        value.trans (Bytes.digitsValue_map_toChar s')⟩
      exact (Bytes.isDigit_toChar x).mp (digits _ (List.mem_map_of_mem member))
    refine ⟨?_, range⟩
    rcases spelled with spelled | spelled
    · obtain ⟨nonempty, all, count⟩ := from_bytes ((Text.lossyChars_eq_iff plain).mp spelled)
      rw [count]
      exact .digits nonempty all
    · obtain ⟨x, s', rfl, first, rest⟩ :=
        (Text.lossyChars_eq_cons (by unfold Text.Plain; decide)).mp spelled
      obtain rfl : Bytes.plus = x := Bytes.toChar_injective (first.symm ▸ rfl)
      obtain ⟨nonempty, all, count⟩ := from_bytes ((Text.lossyChars_eq_iff plain).mp rest)
      rw [count]
      exact .plus nonempty all
  · rintro ⟨numeral, range⟩
    have to_chars : ∀ {ds : Bytes}, (∀ x ∈ ds, Bytes.IsDigit x) →
        (∀ c ∈ ds.map Bytes.toChar, c.isDigit = true) ∧
          Text.lossyChars ds = ds.map Bytes.toChar := by
      intro ds all
      have digits : ∀ c ∈ ds.map Bytes.toChar, c.isDigit = true := by
        intro c member
        obtain ⟨x, inside, rfl⟩ := List.mem_map.mp member
        exact (Bytes.isDigit_toChar x).mpr (all x inside)
      exact ⟨digits,
        (Text.lossyChars_eq_iff fun c member => Text.plain_of_isDigit (digits c member)).mpr rfl⟩
    refine ⟨range, ?_⟩
    generalize b.count = n at numeral
    cases numeral with
    | digits nonempty all =>
        obtain ⟨digits, spelled⟩ := to_chars all
        exact ⟨_, by simpa using nonempty, digits, .inl spelled,
          (Bytes.digitsValue_map_toChar _).symm⟩
    | plus nonempty all =>
        obtain ⟨digits, spelled⟩ := to_chars all
        refine ⟨_, by simpa using nonempty, digits, .inr ?_, (Bytes.digitsValue_map_toChar _).symm⟩
        rw [Text.lossyChars_cons_ascii (by decide), spelled]
        rfl

/-- A numeral whose value can be a budget. -/
def Spelled (s : Bytes) (n : Nat) : Prop :=
  Bytes.Numeral s n ∧ 1 ≤ n ∧ n ≤ maxCount

theorem read?_lossyChars_eq_some {s : Bytes} {b : Budget} :
    read? (Text.lossyChars s) = some b ↔ Spelled s b.count := by
  rw [read?_lossyChars]
  exact and_congr_right fun _ => ⟨fun range => ⟨b.pos, range⟩, And.right⟩

theorem exists_count {n : Nat} (pos : 1 ≤ n) (range : n ≤ maxCount) :
    ∃ b : Budget, b.count = n := by
  have word : n < 0x100000000 := Nat.lt_of_le_of_lt range (by decide)
  exact ⟨⟨n, pos, word⟩, rfl⟩

theorem read?_lossyChars_eq_none {s : Bytes} : read? (Text.lossyChars s) = none ↔
    ∀ n, ¬Spelled s n := by
  constructor
  · rintro unread n spelled
    obtain ⟨b, rfl⟩ := exists_count spelled.2.1 spelled.2.2
    rw [read?_lossyChars_eq_some.mpr spelled] at unread
    cases unread
  · intro unspelled
    cases read : read? (Text.lossyChars s) with
    | none => rfl
    | some b => exact absurd (read?_lossyChars_eq_some.mp read) (unspelled b.count)

end Budget

namespace Mode
open Budget (Spelled)

/-- What arguments ask for by the grammar, and whether that comes with a notice. -/
inductive Asks : List Bytes → Except HarnessError Mode → Option Notice → Prop
  | unbounded {arguments : List Bytes} : arguments.length ≤ 1 →
      Asks arguments (.ok (.persistent .unbounded)) none
  | files {arguments : List Bytes} :
      3 ≤ arguments.length → Asks arguments (.ok (.batch arguments.tail)) none
  | dashed {program rest : Bytes} {b : Budget} : Spelled rest b.count →
      Asks [program, Bytes.dash :: rest] (.ok (.persistent b)) none
  | refused {program rest : Bytes} : (∀ n, ¬Spelled rest n) →
      Asks [program, Bytes.dash :: rest]
      (.error (.invalidBudget (Text.lossy (Bytes.dash :: rest)))) none
  | bare {program argument : Bytes} {b : Budget} :
      argument.head? ≠ some Bytes.dash → Spelled argument b.count →
      Asks [program, argument] (.ok (.persistent b))
      (some (.deprecatedStyle (Text.lossy program) b.count))
  | file {program argument : Bytes} : argument.head? ≠ some Bytes.dash →
      (∀ n, ¬Spelled argument n) →
      Asks [program, argument] (.ok (.batch [argument])) none

theorem read_dashed (program rest : Bytes) : read [program, Bytes.dash :: rest] =
    match Budget.read? (Text.lossyChars rest) with
    | some budget => (.ok (.persistent budget), none)
    | none => (.error (.invalidBudget (Text.lossy (Bytes.dash :: rest))), none) := by
  have spelled : Text.lossyChars (Bytes.dash :: rest) = '-' :: Text.lossyChars rest :=
    Text.lossyChars_cons_ascii (by decide) rest
  cases budget : Budget.read? (Text.lossyChars rest) with
  | some b => simp only [read, List.drop_succ_cons, List.drop_zero, spelled, budget]
  | none => simp only [read, List.drop_succ_cons, List.drop_zero, spelled, budget]

theorem read_bare (program : Bytes) {argument : Bytes} (bare : argument.head? ≠ some Bytes.dash) :
    read [program, argument] =
    match Budget.read? (Text.lossyChars argument) with
    | some budget =>
        (.ok (.persistent budget), some (.deprecatedStyle (Text.lossy program) budget.count))
    | none => (.ok (.batch [argument]), none) := by
  simp only [read, List.drop_succ_cons, List.drop_zero]
  split
  · rename_i numeral spelled
    obtain ⟨b, s, rfl, first, -⟩ :=
      (Text.lossyChars_eq_cons (by unfold Text.Plain; decide)).mp spelled
    obtain rfl : Bytes.dash = b := Bytes.toChar_injective (first.symm ▸ rfl)
    exact absurd rfl bare
  · rfl

theorem asks_read (arguments : List Bytes) :
    Asks arguments (read arguments).1 (read arguments).2 := by
  match arguments with
  | [] | [_] => exact .unbounded (by simp)
  | [program, argument] =>
      by_cases dashed : argument.head? = some Bytes.dash
      · obtain ⟨rest, rfl⟩ := List.head?_eq_some_iff.mp dashed
        rw [read_dashed]
        cases budget : Budget.read? (Text.lossyChars rest) with
        | some b => exact .dashed (Budget.read?_lossyChars_eq_some.mp budget)
        | none => exact .refused (Budget.read?_lossyChars_eq_none.mp budget)
      · rw [read_bare program dashed]
        cases budget : Budget.read? (Text.lossyChars argument) with
        | some b => exact .bare dashed (Budget.read?_lossyChars_eq_some.mp budget)
        | none => exact .file dashed (Budget.read?_lossyChars_eq_none.mp budget)
  | program :: a :: b :: rest => exact .files (by simp)

theorem read_of_asks {arguments : List Bytes} {result : Except HarnessError Mode}
    {notice : Option Notice} (h : Asks arguments result notice) :
    read arguments = (result, notice) := by
  cases h with
  | unbounded few =>
      match arguments with
      | [] | [_] => rfl
      | _ :: _ :: _ => simp at few
  | files many =>
      match arguments with
      | [] | [_] | [_, _] => simp at many
      | _ :: _ :: _ :: _ => rfl
  | dashed spelled => rw [read_dashed, Budget.read?_lossyChars_eq_some.mpr spelled]
  | refused unspelled => rw [read_dashed, Budget.read?_lossyChars_eq_none.mpr unspelled]
  | bare bare spelled => rw [read_bare _ bare, Budget.read?_lossyChars_eq_some.mpr spelled]
  | file bare unspelled => rw [read_bare _ bare, Budget.read?_lossyChars_eq_none.mpr unspelled]

theorem resolve_eq (arguments : List Bytes) (w : World) :
    resolve arguments w = ((read arguments).1, (read arguments).2.elim w w.log) := by
  unfold resolve
  rcases read arguments with ⟨result, _ | notice⟩ <;> rfl

/-- Whatever the bytes of the arguments are, they are read by the grammar and in no other way; the
one notice is that a budget was spelled without a dash. Every budget is positive and fits a signed
32-bit word, and none is spelled by bytes that are no text. -/
theorem resolve_grammar (arguments : List Bytes) (w : World) :
    (∀ result w', resolve arguments w = (result, w') ↔
      ∃ notice, Asks arguments result notice ∧ w' = notice.elim w w.log) ∧
    (∀ b, (resolve arguments w).1 = .ok (.persistent b) → 1 ≤ b.count ∧ b.count ≤ Budget.maxCount) ∧
    (∀ program argument, arguments = [program, argument] → ¬argument.IsText →
      ∀ b, (resolve arguments w).1 ≠ .ok (.persistent b)) := by
  have asks := asks_read arguments
  rw [resolve_eq]
  refine ⟨fun result w' => ⟨?_, ?_⟩, ?_, ?_⟩
  · intro h
    obtain ⟨rfl, rfl⟩ := Prod.mk.inj h
    exact ⟨_, asks, rfl⟩
  · rintro ⟨notice, asked, rfl⟩
    rw [read_of_asks asked]
  · intro b persistent
    rw [persistent] at asks
    generalize (read arguments).2 = notice at asks
    cases asks with
    | unbounded few => exact ⟨by decide, by decide⟩
    | dashed spelled => exact spelled.2
    | bare bare spelled => exact spelled.2
  · rintro program argument rfl not_text b persistent
    rw [persistent] at asks
    generalize (read [program, argument]).2 = notice at asks
    apply not_text
    cases asks with
    | unbounded few => simp at few
    | @dashed _ rest _ spelled =>
        refine Bytes.isText_of_ascii fun x member => ?_
        rcases List.mem_cons.mp member with rfl | inside
        · decide
        · exact spelled.1.ascii x inside
    | bare bare spelled => exact Bytes.isText_of_ascii spelled.1.ascii

/-- A numeral with a plus sign and zeros in front is a budget behind a dash; a numeral with a byte
that is no text is none. -/
theorem resolve_grammar_numerals :
    let w := World.boot [] none
    let seven : Budget := ⟨7, by decide, by decide⟩
    let program := Bytes.ofString "prog"
    resolve [program, Bytes.dash :: Bytes.plus :: [0x30, 0x30, 0x37]] w =
      (.ok (.persistent seven), w) ∧
      (1 ≤ seven.count ∧ seven.count ≤ Budget.maxCount) ∧
      ¬Bytes.IsText [0x37, 0xFF] ∧
      ∀ b, (resolve [program, [0x37, 0xFF]] w).1 ≠ .ok (.persistent b) := by
  intro w seven program
  have digits : ∀ b ∈ ([0x30, 0x30, 0x37] : Bytes), Bytes.IsDigit b := by
    unfold Bytes.IsDigit
    decide +kernel
  have numeral : Bytes.Numeral (Bytes.plus :: [0x30, 0x30, 0x37]) seven.count :=
    .plus (by decide) digits
  have not_text : ¬Bytes.IsText [0x37, 0xFF] := Bytes.not_isText_of_mem (by decide)
  obtain ⟨grammar, range, -⟩ :=
    resolve_grammar [program, Bytes.dash :: Bytes.plus :: [0x30, 0x30, 0x37]] w
  have asked := (grammar (.ok (.persistent seven)) w).mpr
    ⟨none, .dashed ⟨numeral, by decide, by decide⟩, rfl⟩
  refine ⟨asked, range seven (by rw [asked]), not_text, ?_⟩
  exact (resolve_grammar [program, [0x37, 0xFF]] w).2.2 program [0x37, 0xFF] rfl not_text

end Mode

end FuzzHarness
