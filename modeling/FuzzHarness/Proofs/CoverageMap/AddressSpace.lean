import FuzzHarness.CoverageMap.AddressSpace
import FuzzHarness.Proofs.CoverageMap.Memory
import FuzzHarness.Proofs.Session.Laws

/-!
The address space keeps the rules of a system's memory, from whatever is mapped at the start, and
its mapper never grants a region at the null address.
-/

namespace FuzzHarness

theorem Block.contains_without (b hole : Block) (page : Nat) :
    (∃ c ∈ b.without hole, c.Contains page) ↔ b.Contains page ∧ ¬hole.Contains page := by
  simp only [without, List.mem_filter, List.mem_cons, List.not_mem_nil, or_false, Contains,
    decide_eq_true_eq]
  constructor
  · rintro ⟨c, ⟨rfl | rfl, -⟩, inside⟩
    · dsimp only at inside
      omega
    · dsimp only at inside
      omega
  · intro inside
    by_cases low : page < hole.first
    · exact ⟨_, ⟨.inl rfl, by dsimp only; omega⟩, by dsimp only; omega⟩
    · exact ⟨_, ⟨.inr rfl, by dsimp only; omega⟩, by dsimp only; omega⟩

namespace AddressSpace
open Memory

variable {s : AddressSpace}

theorem mapped_insert (s : AddressSpace) (b : Block) (page : Nat) :
    (s.insert b).Mapped page ↔ b.Contains page ∨ s.Mapped page := by
  simp [Mapped, insert]

theorem mapped_remove (s : AddressSpace) (hole : Block) (page : Nat) :
    (s.remove hole).Mapped page ↔ s.Mapped page ∧ ¬hole.Contains page := by
  have split : (s.remove hole).Mapped page ↔
      ∃ b ∈ s.blocks, ∃ c ∈ b.without hole, c.Contains page := by
    simp only [Mapped, remove, List.mem_flatMap]
    exact ⟨fun ⟨c, ⟨b, member, part⟩, inside⟩ => ⟨b, member, c, part, inside⟩,
      fun ⟨b, member, c, part, inside⟩ => ⟨c, ⟨b, member, part⟩, inside⟩⟩
  rw [split]
  simp only [Block.contains_without]
  exact ⟨fun ⟨b, member, inside, outside⟩ => ⟨⟨b, member, inside⟩, outside⟩,
    fun ⟨⟨b, member, inside⟩, outside⟩ => ⟨b, member, inside, outside⟩⟩

theorem not_mapped_of_isFree {b : Block} (h : s.isFree b) {page : Nat} (inside : b.Contains page) :
    ¬s.Mapped page := by
  rintro ⟨c, member, taken⟩
  have apart := List.all_eq_true.mp h c member
  simp only [Bool.or_eq_true, decide_eq_true_eq] at apart
  simp only [Block.Contains] at inside taken
  omega

/-- Which pages are taken is all that shows of an address space. -/
def view (s : AddressSpace) (page : Nat) : Option Unit :=
  if s.Mapped page then some () else none

theorem view_of_mapped {page : Nat} (h : s.Mapped page) : s.view page = some () :=
  if_pos h

theorem view_of_not_mapped {page : Nat} (h : ¬s.Mapped page) : s.view page = none :=
  if_neg h

theorem view_congr {s' : AddressSpace} {page : Nat} (h : s'.Mapped page ↔ s.Mapped page) :
    s'.view page = s.view page := by
  simp only [view, h]

theorem placed_insert {region size : Nat} (aligned : region % pageSize = 0)
    (within : region + pages size * pageSize ≤ top) (free : s.isFree (extent region size)) :
    Placed view top region size s (s.insert (extent region size)) where
  aligned := aligned
  within := within
  free _ inside := view_of_not_mapped (not_mapped_of_isFree free inside)
  mapped page inside := by
    rw [view_of_mapped ((mapped_insert ..).mpr (.inl inside))]
    rfl
  others _ outside := view_congr ((mapped_insert ..).trans (or_iff_right outside))

theorem removed_remove (s : AddressSpace) (hole : Block) : Removed view hole s (s.remove hole) where
  gone _ inside := view_of_not_mapped fun still => ((mapped_remove ..).mp still).2 inside
  others _ outside := view_congr ((mapped_remove ..).trans (and_iff_left outside))

theorem place?_spec {count first : Nat} (h : s.place? count = some first) :
    0 < first ∧ first + count ≤ top / pageSize ∧ s.isFree ⟨first, count⟩ := by
  simp only [place?] at h
  have member := List.max?_mem h
  simp only [List.mem_filter, List.mem_map, decide_eq_true_eq] at member
  obtain ⟨⟨e, ⟨⟨-, below⟩, room⟩, rfl⟩, free⟩ := member
  have room : count + 16 ≤ e := room
  exact ⟨by omega, by omega, free⟩

theorem mapFixed_cases (s : AddressSpace) (base size : Nat) :
    (∃ e, mapFixed base size s = (.error e, s)) ∨
      base % pageSize = 0 ∧ base + pages size * pageSize ≤ top ∧ s.isFree (extent base size) ∧
        mapFixed base size s = (.ok base, s.insert (extent base size)) := by
  simp only [mapFixed]
  split
  · exact .inl ⟨_, rfl⟩
  · rename_i room
    split
    · exact .inl ⟨_, rfl⟩
    · rename_i aligned
      split
      · exact .inl ⟨_, rfl⟩
      · rename_i free
        simp only [Bool.or_eq_true, decide_eq_true_eq, not_or, Nat.not_lt] at room
        exact .inr ⟨Decidable.not_not.mp aligned, room.2, by simpa [extent] using free, rfl⟩

theorem mapHint_cases (s : AddressSpace) (base size : Nat) :
    (∃ e, mapHint base size s = (.error e, s)) ∨
      ∃ first, 0 < first ∧ (first + pages size) * pageSize ≤ top ∧ s.isFree ⟨first, pages size⟩ ∧
        mapHint base size s = (.ok (first * pageSize), s.insert ⟨first, pages size⟩) := by
  simp only [mapHint]
  split
  · exact .inl ⟨_, rfl⟩
  · split
    · rename_i followed
      simp only [Bool.and_eq_true, decide_eq_true_eq] at followed
      obtain ⟨⟨some_page, room⟩, free⟩ := followed
      exact .inr ⟨_, Nat.pos_of_ne_zero some_page, room, free, rfl⟩
    · simp only [mapAnywhere]
      split
      · rename_i first found
        obtain ⟨positive, room, free⟩ := place?_spec found
        exact .inr ⟨first, positive, (Nat.le_div_iff_mul_le (by decide)).mp room, free, rfl⟩
      · exact .inl ⟨_, rfl⟩

theorem extent_mul (first size : Nat) : extent (first * pageSize) size = ⟨first, pages size⟩ := by
  rw [extent, Nat.mul_div_cancel _ (by decide)]

theorem memory_lawful : memory.Lawful view top where
  fixed := by
    intro base size s region s' _ h
    rcases mapFixed_cases s base size with ⟨e, refused⟩ | ⟨aligned, within, free, kept⟩
    · cases refused.symm.trans h
    · cases kept.symm.trans h
      exact placed_insert aligned within free
  fixed_error := by
    intro base size s e s' _ h
    rcases mapFixed_cases s base size with ⟨e', refused⟩ | ⟨-, -, -, kept⟩
    · cases refused.symm.trans h
      rfl
    · cases kept.symm.trans h
  hint := by
    intro base size s region s' _ h
    rcases mapHint_cases s base size with ⟨e, refused⟩ | ⟨first, -, within, free, placed⟩
    · cases refused.symm.trans h
    · cases placed.symm.trans h
      rw [← extent_mul] at free ⊢
      exact placed_insert (Nat.mul_mod_left ..) (Nat.add_mul .. ▸ within) free
  hint_error := by
    intro base size s e s' _ h
    rcases mapHint_cases s base size with ⟨e', refused⟩ | ⟨first, -, -, -, placed⟩
    · cases refused.symm.trans h
      rfl
    · cases placed.symm.trans h
  unmap := by
    intro region size s aligned sized within
    have covers : size ≤ pages size * pageSize := by simp only [pages, pageSize]; omega
    refine ⟨_, ?_, removed_remove s (extent region size)⟩
    refine if_neg ?_
    simp only [Bool.or_eq_true, decide_eq_true_eq]
    omega

theorem backend_neverNull : backend.NeverNull := by
  intro base size s region after positive strategy member h
  have step : MapStep memory size s strategy (.ok region, after) :=
    h ▸ mapAs_step memory strategy size s
  generalize outcome : (Except.ok region, after) = answer at step
  cases step with
  | kept mapped =>
      cases outcome
      obtain rfl : region = base := by simpa [MapStrategy.preferences] using member
      exact Nat.ne_of_gt positive
  | refused | misplaced | stuck | unavailable => cases outcome
  | hinted hint mapped =>
      cases outcome
      rcases mapHint_cases s _ size with ⟨e, refused⟩ | ⟨first, first_pos, -, -, placed⟩
      · cases refused.symm.trans mapped
      · cases placed.symm.trans mapped
        exact Nat.mul_ne_zero (Nat.ne_of_gt first_pos) (by decide)

end AddressSpace

end FuzzHarness
