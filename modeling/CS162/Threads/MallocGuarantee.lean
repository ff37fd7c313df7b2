import CS162.Threads.MallocFree
import CS162.Threads.PallocSafety
import Mathlib.Data.List.Pairwise

/-!
# What the heap guarantees

In every run in which no `calloc` and no `realloc` writes to more bytes than
`malloc` has found pages for, the invariant holds after every call and no
assertion fails.
-/

namespace CS162.Threads

open CS162.Foundation
open CS162.Userprog (pgSize)

section Guarantee

variable {layout : HeapLayout} {heap after : Heap} {live : List Nat}
variable {state : HeapState} {offer : Option Nat}

/-- The call gets a single page although it asks for almost all of memory, and
goes on to write to more than that page. -/
def overruns (layout : HeapLayout) (heap : Heap) : HeapCall × Option Nat → Bool
  | (.calloc a b, offer) =>
      a ≤ wrap (a * b) ∧ b ≤ wrap (a * b) ∧ Overflows (wrap (a * b)) ∧
        (heap.pallocGetMultiple layout 1 offer).isSome
  | (.realloc (some old) newSize, offer) =>
      Overflows newSize ∧
        (heap.pallocGetMultiple layout 1 offer).isSome ∧
          (heap.blockSize layout old).any (pgSize - arenaSize < ·)
  | _ => false

/-- The steps that do not overrun a block. -/
def withinBlocks (layout : HeapLayout) : HeapState → HeapCall × Option Nat → Bool
  | .running heap _, label => !overruns layout heap label
  | .failed, _ => true

/-- What the heap promises between two calls. -/
structure HeapGuarantee (layout : HeapLayout) (heap : Heap)
    (live : List Nat) : Prop where
  sized : ∀ b ∈ live, ∃ size, heap.blockSize layout b = some size
  disjoint : live.Pairwise fun left right =>
      ∀ leftSize rightSize,
        heap.blockSize layout left = some leftSize →
          heap.blockSize layout right = some rightSize →
            Apart left (left + leftSize) right (right + rightSize)
  headers :
    ∀ b ∈ live, ∀ size, heap.blockSize layout b = some size →
      ∀ range ∈ heap.pages, Apart range.pages (range.pages + arenaSize) b (b + size)
  /-- `free_cnt` is the number of free blocks of a small arena. -/
  counted :
    ∀ range ∈ heap.pages, ∀ d, IsSmall layout heap range d →
      (heap.arena range.pages).freeCnt = (freeIndices range d (heap.freeList d)).card
  /-- Every block of a small arena is either live or free, -/
  split :
    ∀ range ∈ heap.pages, ∀ d, IsSmall layout heap range d →
      ∀ idx, idx < (desc d).blocksPerArena →
        (blockAt range d idx ∈ live ↔ blockAt range d idx ∉ heap.freeList d)
  /-- a free block is on its list once, -/
  freeOnce : ∀ d, (heap.freeList d).Nodup
  /-- and it is a block of an arena that has not been given back. -/
  freeOwned : ∀ d, ∀ b ∈ heap.freeList d,
      b ∉ live ∧
        ∃ range ∈ heap.pages, IsSmall layout heap range d ∧
          ∃ idx, idx < (desc d).blocksPerArena ∧ b = blockAt range d idx
  /-- The pages of a live block are held, -/
  held :
    ∀ b ∈ live, ∀ size, heap.blockSize layout b = some size →
      ∃ range ∈ heap.pages, range.pages ≤ b ∧ b + size ≤ range.stop
  /-- and no pages are held without a live block. -/
  used : ∀ range ∈ heap.pages, ∃ b ∈ live, range.Holds b

/-- A small arena in use has a live block. -/
theorem HeapSafe.exists_live (safe : HeapSafe layout heap live)
    {range : PageRange} (member : range ∈ heap.pages) :
    ∃ b ∈ live, range.Holds b := by
  have placed := safe.placed range member
  rcases safe.arenas range member with ⟨big, lives⟩ | ⟨d, small⟩
  · have block : BlockOf layout heap range (range.pages + arenaSize) none :=
      ⟨big, rfl⟩
    exact ⟨range.pages + arenaSize, lives, block.holds placed⟩
  · have inUse := safe.inUse range member d small.small
    by_contra none
    have full : freeIndices range d (heap.freeList d) = Finset.range (desc d).blocksPerArena := by
      apply Finset.filter_true_of_mem
      intro idx inArena
      rw [Finset.mem_range] at inArena
      by_contra used
      apply none
      have block : BlockOf layout heap range (blockAt range d idx) (some d) :=
        ⟨small.small, idx, inArena, rfl⟩
      exact ⟨blockAt range d idx, (small.split idx inArena).mpr used, block.holds placed⟩
    rw [small.counted, full, Finset.card_range] at inUse
    omega

/-- The invariant gives the guarantee. -/
theorem HeapSafe.guarantee (safe : HeapSafe layout heap live) : HeapGuarantee layout heap live := by
  have sizes : ∀ b ∈ live, ∃ range ∈ heap.pages, ∃ kind,
        BlockOf layout heap range b kind ∧
          heap.blockSize layout b = some (reportedSize range kind) := by
    intro b lives
    rcases safe.liveBlocks b lives with ⟨range, member, kind, block⟩
    exact ⟨range, member, kind, block, block.blockSize (safe.placed range member)⟩
  have isSmall :
      ∀ range ∈ heap.pages, ∀ d, IsSmall layout heap range d →
        SmallSound layout heap live range d := by
    intro range member d small
    have block : BlockOf layout heap range (blockAt range d 0) (some d) :=
      ⟨small, 0, (desc_sound small.known).2.1, rfl⟩
    exact safe.smallSound member block
  constructor
  · intro b lives
    rcases sizes b lives with ⟨range, -, kind, -, size⟩
    exact ⟨reportedSize range kind, size⟩
  · apply safe.liveOnce.pairwise_of_forall_ne
    intro left leftLives right rightLives different leftSize rightSize first second
    rcases sizes left leftLives with ⟨range, member, kind, block, size⟩
    rcases sizes right rightLives with ⟨other, otherMember, otherKind, otherBlock, otherSize⟩
    rw [size, Option.some.injEq] at first
    rw [otherSize, Option.some.injEq] at second
    subst first second
    exact safe.blocks_apart member otherMember block otherBlock different
  · intro b lives size reported range member
    rcases sizes b lives with ⟨owner, held, kind, block, known⟩
    rw [known, Option.some.injEq] at reported
    subst reported
    exact safe.header_apart held member block
  · intro range member d small
    exact (isSmall range member d small).counted
  · intro range member d small
    exact (isSmall range member d small).split
  · exact safe.freeOnce
  · intro d b listed
    rcases safe.freeBlocks d b listed with ⟨range, member, block⟩
    exact ⟨safe.not_live listed, range, member, block⟩
  · intro b lives size reported
    rcases sizes b lives with ⟨range, member, kind, block, known⟩
    rw [known, Option.some.injEq] at reported
    subst reported
    rcases block.span (safe.placed range member) with ⟨first, -, last, -⟩
    exact ⟨range, member, by omega, last⟩
  · intro range member
    exact safe.exists_live member

/-- `calloc` within its block. -/
theorem HeapSafe.calloc (safe : HeapSafe layout heap live) {a b : Nat}
    (within : overruns layout heap (.calloc a b, offer) = false) :
    heap.calloc layout a b offer = some (heap, none) ∨
      ∃ after p,
        heap.calloc layout a b offer = some (after, some p) ∧
          HeapSafe layout after (p :: live) := by
  unfold Heap.calloc
  by_cases refused : wrap (a * b) < a ∨ wrap (a * b) < b
  · left
    simp only [if_pos refused]
  simp only [if_neg refused]
  rcases safe.malloc (wrap_lt (a * b)) offer with failed | ⟨middle, p, got, alloc⟩
  · left
    rw [failed]
    rfl
  right
  rcases alloc.block with ⟨range, member, kind, block, size⟩
  have fits : wrap (a * b) ≤ reportedSize range kind := by
    rcases size with fits | ⟨overflows, paged, -⟩
    · exact fits
    · have overrun :
          a ≤ wrap (a * b) ∧ b ≤ wrap (a * b) ∧ Overflows (wrap (a * b)) ∧
            (heap.pallocGetMultiple layout 1 offer).isSome = true :=
        ⟨by omega, by omega, overflows, paged⟩
      exact absurd overrun (of_decide_eq_false within)
  rcases alloc.safe.memset List.mem_cons_self member block fits 0 with
    ⟨after, filled, -, afterSafe, -⟩
  refine ⟨after, p, ?_, afterSafe⟩
  rw [got]
  simp only [Option.bind_some, filled, Option.map_some]

/-- `realloc` within its block. -/
theorem HeapSafe.realloc (safe : HeapSafe layout heap live)
    {oldBlock : Option Nat} {newSize : Nat} (bounded : newSize < unsignedModulus)
    (lives : ∀ block ∈ oldBlock, block ∈ live)
    (within : overruns layout heap (.realloc oldBlock newSize, offer) = false) :
    (∃ after,
      newSize = 0 ∧
        heap.realloc layout oldBlock newSize offer = some (after, none) ∧
          HeapSafe layout after (oldBlock.elim live (without live))) ∨
      newSize ≠ 0 ∧ heap.realloc layout oldBlock newSize offer = some (heap, none) ∨
      ∃ after newBlock,
        heap.realloc layout oldBlock newSize offer = some (after, some newBlock) ∧
          HeapSafe layout after
            (newBlock :: oldBlock.elim live (without live)) := by
  unfold Heap.realloc
  by_cases zero : newSize = 0
  · left
    rw [if_pos zero]
    cases oldBlock with
    | none => exact ⟨heap, zero, rfl, safe⟩
    | some old =>
        rcases safe.free (lives old rfl) with ⟨after, freed, afterSafe⟩
        refine ⟨after, zero, ?_, afterSafe⟩
        rw [freed]
        rfl
  right
  rw [if_neg zero]
  rcases safe.malloc bounded offer with failed | ⟨middle, p, got, alloc⟩
  · left
    rw [failed]
    exact ⟨zero, rfl⟩
  right
  cases oldBlock with
  | none =>
      refine ⟨middle, p, ?_, alloc.safe⟩
      rw [got]
      rfl
  | some old =>
      have oldLives := lives old rfl
      rcases safe.liveBlocks old oldLives with ⟨oldRange, oldMember, oldKind, oldBefore⟩
      rcases alloc.keeps oldRange oldMember old oldKind oldBefore with ⟨oldHeld, oldAfter⟩
      have sizeBefore := oldBefore.blockSize (safe.placed oldRange oldMember)
      have sizeAfter := oldAfter.blockSize (alloc.safe.placed oldRange oldHeld)
      generalize reportedSize oldRange oldKind = oldSize at *
      rcases alloc.block with ⟨range, member, kind, block, size⟩
      have fits : (if newSize < oldSize then newSize else oldSize) ≤ reportedSize range kind := by
        rcases size with fits | ⟨overflows, paged, page⟩
        · split <;> omega
        · have small : oldSize ≤ pgSize - arenaSize := by
            by_contra large
            have overrun :
                Overflows newSize ∧
                  (heap.pallocGetMultiple layout 1 offer).isSome = true ∧
                    (heap.blockSize layout old).any
                      (pgSize - arenaSize < ·) = true := by
              refine ⟨overflows, paged, ?_⟩
              rw [sizeBefore, Option.any_some, decide_eq_true_iff]
              omega
            exact absurd overrun (of_decide_eq_false within)
          split <;> omega
      rcases alloc.safe.memcpy List.mem_cons_self member block fits old with
        ⟨copied, copy, -, copiedSafe, -⟩
      rcases copiedSafe.free (List.mem_cons_of_mem p oldLives) with ⟨after, freed, afterSafe⟩
      have rest : without (p :: live) old = p :: without live old := by
        have different : p ≠ old := by
          rintro rfl
          exact alloc.fresh oldLives
        exact List.filter_cons_of_pos (decide_eq_true different)
      rw [rest] at afterSafe
      refine ⟨after, p, ?_, afterSafe⟩
      rw [got]
      simp only [Option.bind_some, sizeAfter, copy, freed, Option.map_some]

/-- A state in which the kernel has not stopped and the heap is sound. -/
def RunningSafe (layout : HeapLayout) (state : HeapState) : Prop :=
  ∃ heap live, state = .running heap live ∧ HeapSafe layout heap live

/-- Every allowed step keeps the heap sound. -/
theorem RunningSafe.step {target : HeapState} {label : HeapCall × Option Nat}
    (safe : HeapSafe layout heap live) (within : overruns layout heap label = false)
    (moved : HeapState.step layout (.running heap live) label = some target) :
    RunningSafe layout target := by
  rcases label with ⟨call, offer⟩
  cases call with
  | malloc size =>
      simp only [HeapState.step, Option.ite_none_right_eq_some, Option.some.injEq] at moved
      rcases moved with ⟨bounded, rfl⟩
      rcases safe.malloc bounded offer with failed | ⟨after, b, got, alloc⟩
      · rw [failed]
        exact ⟨heap, live, rfl, safe⟩
      · rw [got]
        exact ⟨after, b :: live, rfl, alloc.safe⟩
  | calloc a b =>
      simp only [HeapState.step, Option.ite_none_right_eq_some, Option.some.injEq] at moved
      rcases moved with ⟨-, rfl⟩
      rcases safe.calloc within with failed | ⟨after, p, got, afterSafe⟩
      · rw [failed]
        exact ⟨heap, live, rfl, safe⟩
      · rw [got]
        exact ⟨after, p :: live, rfl, afterSafe⟩
  | realloc oldBlock newSize =>
      simp only [HeapState.step, Option.ite_none_right_eq_some, Option.some.injEq] at moved
      rcases moved with ⟨⟨bounded, lives⟩, rfl⟩
      rcases safe.realloc bounded lives within with
        ⟨after, zero, freed, afterSafe⟩ | ⟨zero, failed⟩ | ⟨after, newBlock, got, afterSafe⟩
      · rw [freed]
        refine ⟨after, oldBlock.elim live (without live), ?_, afterSafe⟩
        simp only [HeapState.afterRealloc, if_pos zero, HeapState.afterFree]
      · rw [failed]
        refine ⟨heap, live, ?_, safe⟩
        simp only [HeapState.afterRealloc, if_neg zero]
      · rw [got]
        exact ⟨after, _, rfl, afterSafe⟩
  | free p =>
      simp only [HeapState.step, Option.ite_none_right_eq_some, Option.some.injEq] at moved
      rcases moved with ⟨lives, rfl⟩
      cases p with
      | none => exact ⟨heap, live, rfl, safe⟩
      | some b =>
          rcases safe.free (lives b rfl) with ⟨after, freed, afterSafe⟩
          rw [freed]
          exact ⟨after, without live b, rfl, afterSafe⟩
  | store address value =>
      simp only [HeapState.step, Option.ite_none_right_eq_some, Option.some.injEq] at moved
      rcases moved with ⟨allowed, rfl⟩
      have written :
          HeapSafe layout
            { heap with memory := heap.memory.fill address 1 value } live := by
        refine (safe.write _ ?_).1
        intro range member
        apply Memory.fill_agreeOn
        rcases allowed with ⟨b, lives, inside⟩ | outside
        · rcases safe.liveBlocks b lives with ⟨owner, held, kind, block⟩
          have apart := safe.header_apart held member block
          rw [Heap.inBlock, block.blockSize (safe.placed owner held),
            Option.any_some, decide_eq_true_iff] at inside
          unfold Apart at *
          omega
        · have away := outside range member
          have positive := (safe.placed range member).1
          unfold Apart PageRange.stop arenaSize pgSize at *
          omega
      exact ⟨_, live, rfl, written⟩

/-- Every state of a run within the blocks is sound. -/
theorem runningSafe_of_reachable
    (reachable : ((mallocSystem layout).restrict (withinBlocks layout)).Reachable state) :
    RunningSafe layout state := by
  apply reachable.invariant
  · rintro fresh ⟨memory, rfl⟩
    refine ⟨_, [], rfl, ?_⟩
    constructor
    · constructor
      · intro range member
        cases member
      · exact List.nodup_nil
      · intro range member
        cases member
      · intro range member
        cases member
      · intro d
        exact List.nodup_nil
      · exact List.nodup_nil
      · intro d b member
        cases member
      · intro b member
        cases member
    · intro range member
      cases member
  · rintro before label after _ ⟨heap, live, rfl, safe⟩ moved
    rw [TransitionSystem.restrict_step_iff] at moved
    rcases moved with ⟨allowed, moved⟩
    have within : overruns layout heap label = false := by
      simpa [withinBlocks] using allowed
    exact RunningSafe.step safe within moved

theorem malloc_guarantee
    (reachable : ((mallocSystem layout).restrict (withinBlocks layout)).Reachable state) :
    ∃ heap live, state = .running heap live ∧ HeapGuarantee layout heap live := by
  rcases runningSafe_of_reachable reachable with ⟨heap, live, same, safe⟩
  exact ⟨heap, live, same, safe.guarantee⟩

end Guarantee

/-- The page allocator hands out fresh pages: what it returns is apart from
everything it has returned before and not got back. -/
theorem PallocGuarantee.fresh {Thread : Type} {pools : PoolLayout}
    {state : PallocState Thread} {layout : HeapLayout} (guarantee : PallocGuarantee pools state)
    (base : layout.base = pools.base .kernel) (stop : layout.stop = pools.stop .kernel)
    {range : PageRange} {pages before : List PageRange} (returned : state.live = range :: before)
    (kernel : pools.base .kernel ≤ range.pages ∧ range.stop ≤ pools.stop .kernel)
    (held : ∀ other ∈ pages, other ∈ before) :
    layout.Fresh pages range := by
  have member : range ∈ state.live := by
    rw [returned]
    exact List.mem_cons_self
  rcases guarantee.inside range member with ⟨positive, aligned, -⟩
  have apart := guarantee.disjoint
  rw [returned, List.pairwise_cons] at apart
  constructor
  · refine ⟨positive, aligned, ?_, ?_⟩
    · rw [base]
      exact kernel.1
    · rw [stop]
      exact kernel.2
  · intro other otherHeld
    exact apart.1 other (held other otherHeld)

/-- A kernel pool of sixteen pages and as many pages of RAM after it. -/
def sixteenPages : HeapLayout where
  descTable := 0xc0020000
  base := 0xc0101000
  stop := 0xc0111000
  ramEnd := 0xc0121000
  nonnull := by decide
  below := by decide
  ordered := by decide
  inRam := by decide
  addressable := by decide

/-- The pages of the kernel pool in their order. -/
def sixteenPage (index : Nat) : Nat := sixteenPages.base + index * pgSize

/-- Blocks of all kinds: two of one arena, one with pages of its own, a free,
and a `realloc` that moves a block. -/
def mixedCalls : List (HeapCall × Option Nat) :=
  [(.malloc 1000, some (sixteenPage 0)), (.calloc 100 10, none),
    (.malloc 5000, some (sixteenPage 1)),
    (.free (some (sixteenPage 0 + arenaSize)), none),
    (.realloc (some (sixteenPage 1 + arenaSize)) 9000, some (sixteenPage 3))]

theorem malloc_guarantee_mixedCalls : ∃ state,
      ((mallocSystem sixteenPages).restrict (withinBlocks sixteenPages)).run
          (.running { memory := fun _ => 0, freeList := fun _ => [], pages := [] } [])
          mixedCalls = some state ∧
        ∃ heap live,
          state = .running heap live ∧
            HeapGuarantee sixteenPages heap live := by
  obtain ⟨state, execution⟩ : ∃ state,
        ((mallocSystem sixteenPages).restrict (withinBlocks sixteenPages)).run
            (.running
              { memory := fun _ => 0, freeList := fun _ => [], pages := [] }
              [])
            mixedCalls = some state :=
    ⟨_, rfl⟩
  exact ⟨state, execution, malloc_guarantee (.of_run (.initial ⟨_, rfl⟩) execution)⟩

/-- A block of two pages is resized to the largest size there is, and moves to
the single page in front of another block. -/
def overrunCalls : List (HeapCall × Option Nat) :=
  [(.malloc 3000, some (sixteenPage 0)), (.malloc 3000, some (sixteenPage 1)),
    (.calloc 5000 1, some (sixteenPage 2)),
    (.free (some (sixteenPage 0 + arenaSize)), none),
    (.realloc (some (sixteenPage 2 + arenaSize)) 0xffffffff, some (sixteenPage 0))]

set_option maxRecDepth 20000 in
/-- The copy of the old contents destroys the header of the other block, and
`free` of that block fails an assertion. -/
theorem realloc_destroys_header : ∃ heap,
      (mallocSystem sixteenPages).Reachable
          (.running heap [sixteenPage 0 + arenaSize, sixteenPage 1 + arenaSize]) ∧
        (heap.arena (sixteenPage 1)).magic = 0 ∧
        heap.free sixteenPages (some (sixteenPage 1 + arenaSize)) = none ∧
        (mallocSystem sixteenPages).Reachable .failed := by
  obtain ⟨heap, execution, magic, fails, next⟩ : ∃ heap,
        (mallocSystem sixteenPages).run
            (.running
              { memory := fun _ => 0, freeList := fun _ => [], pages := [] }
              [])
            overrunCalls =
          some (.running heap [sixteenPage 0 + arenaSize, sixteenPage 1 + arenaSize]) ∧
        (heap.arena (sixteenPage 1)).magic = 0 ∧
        heap.free sixteenPages (some (sixteenPage 1 + arenaSize)) = none ∧
        (mallocSystem sixteenPages).step
            (.running heap [sixteenPage 0 + arenaSize, sixteenPage 1 + arenaSize])
            (.free (some (sixteenPage 1 + arenaSize)), none) =
          some .failed :=
    ⟨_, rfl, rfl, rfl, rfl⟩
  have reached :
      (mallocSystem sixteenPages).Reachable
        (.running heap
          [sixteenPage 0 + arenaSize, sixteenPage 1 + arenaSize]) :=
    .of_run (.initial ⟨_, rfl⟩) execution
  exact ⟨heap, reached, magic, fails, reached.step next⟩

end CS162.Threads
