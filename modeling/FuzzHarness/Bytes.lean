/-!
Byte strings. Arguments, paths, variable values, file contents and inputs are byte strings and need
not be text.
-/

namespace FuzzHarness

abbrev Bytes := List UInt8

namespace Bytes

def ofString (s : String) : Bytes :=
  s.toUTF8.data.toList

def slash : UInt8 := 0x2F

/-- A byte string as a program written for null-terminated strings sees it: everything before the
first NUL. -/
def beforeNul (s : Bytes) : Bytes :=
  s.takeWhile (· != 0)

def hasNul (s : Bytes) : Bool :=
  s.contains 0

theorem hasNul_beforeNul (s : Bytes) : hasNul (beforeNul s) = false := by
  induction s with
  | nil => rfl
  | cons b s ih =>
      by_cases h : b = 0
      · simp [beforeNul, hasNul, h]
      · simp only [beforeNul, hasNul] at ih
        simp only [beforeNul, hasNul, List.takeWhile_cons, bne_iff_ne, ne_eq, h, not_false_eq_true,
          if_true, List.contains_cons, ih, Bool.or_false]
        simpa using Ne.symm h

theorem beforeNul_of_not_hasNul {s : Bytes} (h : hasNul s = false) : beforeNul s = s := by
  induction s with
  | nil => rfl
  | cons b s ih =>
      simp only [hasNul, List.contains_cons, Bool.or_eq_false_iff] at h
      have hb : b ≠ 0 := fun e => by simp [e] at h
      simp only [beforeNul, List.takeWhile_cons, bne_iff_ne, ne_eq, hb, not_false_eq_true, if_true]
      exact congrArg (b :: ·) (ih h.2)

end Bytes

end FuzzHarness
