import FuzzHarness.Bytes

/-!
The environment: variables with byte strings for names and values.
-/

namespace FuzzHarness

/-- Name and value of each variable; the first entry of a name counts. -/
abbrev Environment := List (Bytes × Bytes)

namespace Environment

def get? (env : Environment) (name : Bytes) : Option Bytes :=
  env.lookup name

def unset (env : Environment) (name : Bytes) : Environment :=
  env.filter fun entry => entry.1 ≠ name

def set (env : Environment) (name value : Bytes) : Environment :=
  env.unset name ++ [(name, value)]

theorem get?_unset_self (env : Environment) (name : Bytes) : (env.unset name).get? name = none := by
  induction env with
  | nil => rfl
  | cons entry env ih =>
      by_cases h : entry.1 = name
      · simpa [unset, get?, h] using ih
      · simpa [unset, get?, h, Ne.symm h] using ih

theorem get?_unset_of_ne (env : Environment) {name other : Bytes} (h : other ≠ name) :
    (env.unset name).get? other = env.get? other := by
  induction env with
  | nil => rfl
  | cons entry env ih =>
      obtain ⟨n, v⟩ := entry
      simp only [unset, get?, ne_eq, decide_not] at ih ⊢
      by_cases hn : n = name
      · have ho : (other == name) = false := by simpa using h
        simp [hn, List.lookup_cons, ho, ih]
      · by_cases ho : other = n
        · simp [hn, ho]
        · have ho' : (other == n) = false := by simpa using ho
          simp [hn, List.lookup_cons, ho', ih]

theorem get?_append (env rest : Environment) (name : Bytes) :
    get? (env ++ rest) name = (env.get? name).or (get? rest name) := by
  induction env with
  | nil => rfl
  | cons entry env ih =>
      obtain ⟨n, v⟩ := entry
      simp only [get?] at ih ⊢
      by_cases h : name = n
      · simp [h]
      · have h' : (name == n) = false := by simpa using h
        simp [List.lookup_cons, h', ih]

theorem get?_set_self (env : Environment) (name value : Bytes) :
    (env.set name value).get? name = some value := by
  rw [set, get?_append, get?_unset_self]
  simp [get?]

theorem get?_set_of_ne (env : Environment) {name other : Bytes} (value : Bytes) (h : other ≠ name) :
    (env.set name value).get? other = env.get? other := by
  rw [set, get?_append, get?_unset_of_ne env h]
  have h' : (other == name) = false := by simpa using h
  simp [get?, List.lookup_cons, h']

end Environment

end FuzzHarness
