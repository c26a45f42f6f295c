import FuzzHarness.CoverageMap.Memory
import Mathlib.Data.List.Pairwise

/-!
What the mapper of anonymous memory does to a process, on any system that keeps the rules for such
calls: memory is placed on free pages, a refusal changes nothing, and unmapping takes the pages that
the same length was placed on. Where a region is asked for and where the system likes to put it does
not matter.
-/

namespace FuzzHarness

def Block.Apart (b c : Block) : Prop :=
  ∀ page, b.Contains page → ¬c.Contains page

theorem Block.Apart.symm {b c : Block} (h : b.Apart c) : c.Apart b :=
  fun page inside other => h page other inside

/-- The address that a strategy leaves the system free not to follow. -/
def MapStrategy.hint? : MapStrategy → Option Address
  | .fixed _ => none
  | .hint base => some base
  | .anywhere => some 0

namespace Memory

variable {μ κ : Type} {M : Memory μ} {view : μ → Nat → Option κ} {limit : Nat}

def extent (region : Address) (size : Nat) : Block :=
  ⟨region / pageSize, pages size⟩

theorem pages_pos {size : Nat} (h : 0 < size) : 0 < pages size :=
  Nat.div_pos (by simp only [pageSize]; omega) (by decide)

theorem extent_contains_first (region : Address) {size : Nat} (h : 0 < size) :
    (extent region size).Contains (region / pageSize) :=
  ⟨Nat.le_refl _, Nat.lt_add_of_pos_right (pages_pos h)⟩

inductive MapStep (M : Memory μ) (size : Nat) (m : μ) :
    MapStrategy → Except HarnessError Address × μ → Prop
  | kept {base : Address} {m' : μ} : M.mapFixed base size m = (.ok base, m') →
      MapStep M size m (.fixed base) (.ok base, m')
  | refused {base : Address} {e : Errno} {m' : μ} : M.mapFixed base size m = (.error e, m') →
      MapStep M size m (.fixed base) (.error (.map e), m')
  | misplaced {base region : Address} {placed m' : μ} :
      M.mapFixed base size m = (.ok region, placed) →
      region ≠ base → M.unmap region size placed = (.ok (), m') →
      MapStep M size m (.fixed base) (.error (.mapMisplaced base region), m')
  | stuck {base region : Address} {placed m' : μ} {e : Errno} :
      M.mapFixed base size m = (.ok region, placed) →
      region ≠ base → M.unmap region size placed = (.error e, m') →
      MapStep M size m (.fixed base) (.error (.map e), m')
  | hinted {strategy : MapStrategy} {hint region : Address} {m' : μ} : strategy.hint? = some hint →
      M.mapHint hint size m = (.ok region, m') → MapStep M size m strategy (.ok region, m')
  | unavailable {strategy : MapStrategy} {hint : Address} {e : Errno} {m' : μ} :
      strategy.hint? = some hint →
      M.mapHint hint size m = (.error e, m') → MapStep M size m strategy (.error (.map e), m')

theorem mapAs_step (M : Memory μ) (strategy : MapStrategy) (size : Nat) (m : μ) :
    MapStep M size m strategy (M.mapAs strategy size m) := by
  cases strategy with
  | fixed base =>
      rcases mapped : M.mapFixed base size m with ⟨e | region, after⟩
      · simp only [mapAs, mapped]
        exact .refused mapped
      · by_cases same : region = base
        · subst same
          simp only [mapAs, mapped, if_true]
          exact .kept mapped
        · rcases unmapped : M.unmap region size after with ⟨e | ⟨⟩, m'⟩
          · simp only [mapAs, mapped, if_neg same, unmapped]
            exact .stuck mapped same unmapped
          · simp only [mapAs, mapped, if_neg same, unmapped]
            exact .misplaced mapped same unmapped
  | hint base =>
      rcases mapped : M.mapHint base size m with ⟨e | region, after⟩
      · simp only [mapAs, mapped]
        exact .unavailable rfl mapped
      · simp only [mapAs, mapped]
        exact .hinted rfl mapped
  | anywhere =>
      rcases mapped : M.mapHint 0 size m with ⟨e | region, after⟩
      · simp only [mapAs, mapped]
        exact .unavailable rfl mapped
      · simp only [mapAs, mapped]
        exact .hinted rfl mapped

/-- A region was placed on free pages, and no other page was touched. A page that is mapped shows
what it is mapped to; a free one shows nothing. -/
structure Placed (view : μ → Nat → Option κ) (limit : Nat) (region : Address) (size : Nat)
    (m m' : μ) : Prop where
  aligned : region % pageSize = 0
  within : region + pages size * pageSize ≤ limit
  free : ∀ page, (extent region size).Contains page → view m page = none
  mapped : ∀ page, (extent region size).Contains page → (view m' page).isSome
  others : ∀ page, ¬(extent region size).Contains page → view m' page = view m page

/-- The pages were unmapped, and no other page was touched. -/
structure Removed (view : μ → Nat → Option κ) (b : Block) (m m' : μ) : Prop where
  gone : ∀ page, b.Contains page → view m' page = none
  others : ∀ page, ¬b.Contains page → view m' page = view m page

/-- Whoever removes what was placed is back where he was. -/
theorem Placed.undone {region : Address} {size : Nat} {m m' m'' : μ}
    (h : Placed view limit region size m m') (r : Removed view (extent region size) m' m'') :
    view m'' = view m := by
  funext page
  by_cases inside : (extent region size).Contains page
  · rw [r.gone page inside, h.free page inside]
  · rw [r.others page inside, h.others page inside]

/-- The rules of the calls about memory, with the address below which all memory lies. Nothing is
ruled about where a region is placed. -/
structure Lawful (M : Memory μ) (view : μ → Nat → Option κ) (limit : Nat) : Prop where
  fixed : ∀ {base size m region m'}, 0 < size → M.mapFixed base size m = (.ok region, m') →
    Placed view limit region size m m'
  fixed_error :
    ∀ {base size m e m'}, 0 < size → M.mapFixed base size m = (.error e, m') → view m' = view m
  hint : ∀ {base size m region m'}, 0 < size → M.mapHint base size m = (.ok region, m') →
    Placed view limit region size m m'
  hint_error :
    ∀ {base size m e m'}, 0 < size → M.mapHint base size m = (.error e, m') → view m' = view m
  unmap :
    ∀ {region size m}, region % pageSize = 0 → 0 < size → region + pages size * pageSize ≤ limit →
    ∃ m', M.unmap region size m = (.ok (), m') ∧ Removed view (extent region size) m m'

/-- What is known of an answer to a request for memory. -/
structure Answer (view : μ → Nat → Option κ) (limit : Nat) (strategy : MapStrategy) (size : Nat)
    (m : μ) (result : Except HarnessError Address) (m' : μ) : Prop where
  keeps : ∀ page content, view m page = some content → view m' page = some content
  exact : ∀ base region, strategy = .fixed base → result = .ok region → region = base
  placed : ∀ region, result = .ok region → Placed view limit region size m m'
  refused : ∀ e, result = .error e → view m' = view m

theorem Answer.of_placed {strategy : MapStrategy} {size : Nat} {m m' : μ} {region : Address}
    (h : Placed view limit region size m m')
    (exact : ∀ base, strategy = .fixed base → region = base) :
    Answer view limit strategy size m (.ok region) m' where
  keeps page content mapped := by
    have outside : ¬(extent region size).Contains page := by
      intro inside
      rw [h.free page inside] at mapped
      cases mapped
    rw [h.others page outside, mapped]
  exact base region' fixed same := by
    obtain rfl : region = region' := Except.ok.inj same
    exact exact base fixed
  placed region' same := by
    obtain rfl : region = region' := Except.ok.inj same
    exact h
  refused _ same := nomatch same

theorem Answer.of_same {strategy : MapStrategy} {size : Nat} {m m' : μ} {e : HarnessError}
    (h : view m' = view m) :
    Answer view limit strategy size m (.error e) m' where
  keeps page content mapped := by rw [h, mapped]
  exact _ _ _ same := nomatch same
  placed _ same := nomatch same
  refused _ _ := h

theorem Lawful.answer (hM : M.Lawful view limit) (strategy : MapStrategy) {size : Nat}
    (sized : 0 < size) (m : μ) :
    Answer view limit strategy size m (M.backend.map strategy size m).1
      (M.backend.map strategy size m).2 := by
  have step : MapStep M size m strategy (M.backend.map strategy size m) :=
    mapAs_step M strategy size m
  generalize M.backend.map strategy size m = outcome at step
  cases step with
  | kept mapped => exact .of_placed (hM.fixed sized mapped) fun _ same => MapStrategy.fixed.inj same
  | refused mapped => exact .of_same (hM.fixed_error sized mapped)
  | misplaced mapped other unmapped =>
      have placed := hM.fixed sized mapped
      obtain ⟨m'', done, removed⟩ := hM.unmap placed.aligned sized placed.within
      rw [unmapped] at done
      cases done
      exact .of_same (placed.undone removed)
  | stuck mapped other unmapped =>
      have placed := hM.fixed sized mapped
      obtain ⟨m'', done, -⟩ := hM.unmap placed.aligned sized placed.within
      rw [unmapped] at done
      cases done
  | hinted hint mapped =>
      refine .of_placed (hM.hint sized mapped) fun base fixed => ?_
      subst fixed
      cases hint
  | unavailable hint mapped => exact .of_same (hM.hint_error sized mapped)

end Memory

/-- The state of a mapper, and the regions that were got from it and not given back, with the sizes
asked for. -/
structure Holding (β : Type) where
  backend : β
  live : List (Address × Nat)

namespace Holding
open Memory

variable {β μ κ : Type} {M : Memory μ} {view : μ → Nat → Option κ} {limit : Nat}

inductive Call where
  | map (strategy : MapStrategy) (size : Nat) (sized : 0 < size)
  | unmap (grant : Address × Nat)

def call (B : MapBackend β) (h : Holding β) : Call → Holding β
  | .map strategy size _ =>
    match B.map strategy size h.backend with
    | (.ok region, backend) => ⟨backend, (region, size) :: h.live⟩
    | (.error _, backend) => { h with backend }
  | .unmap grant =>
    if grant ∈ h.live then
      match B.unmap grant.1 grant.2 h.backend with
      | (.ok (), backend) => ⟨backend, h.live.erase grant⟩
      | (.error _, backend) => { h with backend }
    else h

def run (B : MapBackend β) (h : Holding β) (calls : List Call) : Holding β :=
  calls.foldl (call B) h

def pagesOf (grant : Address × Nat) : Block :=
  extent grant.1 grant.2

/-- A region that a system can have granted. -/
structure Grantable (limit : Nat) (grant : Address × Nat) : Prop where
  aligned : grant.1 % pageSize = 0
  sized : 0 < grant.2
  within : grant.1 + pages grant.2 * pageSize ≤ limit

/-- Since the start memory was added for the live regions, each on pages of its own that were free,
and there is no other change. -/
structure Owns (view : μ → Nat → Option κ) (limit : Nat) (start : μ) (h : Holding μ) : Prop where
  grantable : ∀ grant ∈ h.live, Grantable limit grant
  apart : h.live.Pairwise fun grant other => (pagesOf grant).Apart (pagesOf other)
  free : ∀ grant ∈ h.live, ∀ page, (pagesOf grant).Contains page → view start page = none
  mapped : ∀ grant ∈ h.live, ∀ page, (pagesOf grant).Contains page → (view h.backend page).isSome
  others : ∀ page, (∀ grant ∈ h.live, ¬(pagesOf grant).Contains page) →
    view h.backend page = view start page

theorem Owns.nothing (view : μ → Nat → Option κ) (limit : Nat) (start : μ) :
    Owns view limit start ⟨start, []⟩ where
  grantable := by simp
  apart := .nil
  free := by simp
  mapped := by simp
  others _ _ := rfl

/-- Who holds nothing any more left no trace. -/
theorem Owns.restored {start : μ} {h : Holding μ} (owns : Owns view limit start h)
    (empty : h.live = []) :
    view h.backend = view start :=
  funext fun page => owns.others page (by simp [empty])

theorem Owns.nodup {start : μ} {h : Holding μ} (owns : Owns view limit start h) : h.live.Nodup := by
  refine owns.apart.imp_of_mem fun {grant other} member _ apart => ?_
  rintro rfl
  have first := extent_contains_first grant.1 (owns.grantable grant member).sized
  exact apart _ first first

theorem Owns.of_same {start m' : μ} {h : Holding μ} (owns : Owns view limit start h)
    (same : view m' = view h.backend) : Owns view limit start { h with backend := m' } where
  grantable := owns.grantable
  apart := owns.apart
  free := owns.free
  mapped grant member page inside := same ▸ owns.mapped grant member page inside
  others page outside := same ▸ owns.others page outside

theorem Owns.place {start m' : μ} {h : Holding μ} {region : Address}
    {size : Nat} (owns : Owns view limit start h) (sized : 0 < size)
    (placed : Placed view limit region size h.backend m') :
    Owns view limit start ⟨m', (region, size) :: h.live⟩ := by
  have apart : ∀ grant ∈ h.live, (extent region size).Apart (pagesOf grant) := by
    intro grant member page inside live
    have mapped := owns.mapped grant member page live
    simp [placed.free page inside] at mapped
  constructor
  · exact List.forall_mem_cons.mpr ⟨⟨placed.aligned, sized, placed.within⟩, owns.grantable⟩
  · exact List.pairwise_cons.mpr ⟨apart, owns.apart⟩
  · refine List.forall_mem_cons.mpr ⟨fun page inside => ?_, owns.free⟩
    rw [← owns.others page fun grant member => apart grant member page inside]
    exact placed.free page inside
  · refine List.forall_mem_cons.mpr ⟨placed.mapped, fun grant member page inside => ?_⟩
    rw [placed.others page ((apart grant member).symm page inside)]
    exact owns.mapped grant member page inside
  · intro page outside
    obtain ⟨other, rest⟩ := List.forall_mem_cons.mp outside
    exact (placed.others page other).trans (owns.others page rest)

theorem Owns.remove {start m' : μ} {h : Holding μ} {grant : Address × Nat}
    (owns : Owns view limit start h) (member : grant ∈ h.live)
    (removed : Removed view (pagesOf grant) h.backend m') :
    Owns view limit start ⟨m', h.live.erase grant⟩ := by
  have kept : ∀ {other}, other ∈ h.live.erase grant → other ≠ grant ∧ other ∈ h.live :=
    owns.nodup.mem_erase_iff.mp
  have symm : Std.Symm fun grant other => (pagesOf grant).Apart (pagesOf other) :=
    ⟨fun _ _ => Block.Apart.symm⟩
  have apart : ∀ other ∈ h.live.erase grant, (pagesOf other).Apart (pagesOf grant) :=
      fun other still =>
    owns.apart.forall (kept still).2 member (kept still).1
  constructor
  · exact fun other still => owns.grantable other (kept still).2
  · exact owns.apart.sublist List.erase_sublist
  · exact fun other still => owns.free other (kept still).2
  · intro other still page inside
    rw [removed.others page (apart other still page inside)]
    exact owns.mapped other (kept still).2 page inside
  · intro page outside
    by_cases inside : (pagesOf grant).Contains page
    · rw [removed.gone page inside, owns.free grant member page inside]
    · rw [removed.others page inside]
      refine owns.others page fun other live => ?_
      by_cases same : other = grant
      · exact same ▸ inside
      · exact outside other (owns.nodup.mem_erase_iff.mpr ⟨same, live⟩)

theorem Owns.unmap (hM : M.Lawful view limit) {start : μ} {h : Holding μ} {grant : Address × Nat}
    (owns : Owns view limit start h) (member : grant ∈ h.live) :
    ∃ m', M.backend.unmap grant.1 grant.2 h.backend = (.ok (), m') ∧
      Removed view (pagesOf grant) h.backend m' := by
  obtain ⟨aligned, sized, within⟩ := owns.grantable grant member
  obtain ⟨m', done, removed⟩ := hM.unmap (m := h.backend) aligned sized within
  refine ⟨m', ?_, removed⟩
  simp only [Memory.backend, unmapRegion, done]
  rfl

theorem Owns.call (hM : M.Lawful view limit) {start : μ} {h : Holding μ}
    (owns : Owns view limit start h) (c : Call) : Owns view limit start (h.call M.backend c) := by
  cases c with
  | map strategy size sized =>
      have answer := hM.answer strategy sized h.backend
      rcases outcome : M.backend.map strategy size h.backend with ⟨e | region, m'⟩
      · simp only [Holding.call, outcome]
        exact owns.of_same (by simpa [outcome] using answer.refused e)
      · simp only [Holding.call, outcome]
        exact owns.place sized (by simpa [outcome] using answer.placed region)
  | unmap grant =>
      by_cases live : grant ∈ h.live
      · obtain ⟨m', done, removed⟩ := owns.unmap hM live
        simp only [Holding.call, if_pos live, done]
        exact owns.remove live removed
      · simpa only [Holding.call, if_neg live] using owns

theorem Owns.run (hM : M.Lawful view limit) {start : μ} {h : Holding μ}
    (owns : Owns view limit start h) (calls : List Call) :
    Owns view limit start (h.run M.backend calls) := by
  induction calls generalizing h with
  | nil => exact owns
  | cons c calls ih => exact ih (owns.call hM c)

end Holding

end FuzzHarness
