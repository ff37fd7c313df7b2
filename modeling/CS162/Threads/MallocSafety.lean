import CS162.Threads.Malloc
import Mathlib.Data.Finset.Card
import Mathlib.Data.Finset.Range
import Mathlib.Data.List.GetD

/-!
# The heap invariant

Every block of a small arena is either on the free list of the arena's
descriptor or live, `free_cnt` counts the former, and an arena whose blocks
are all free is given back at once.  Live blocks lie in pages of the heap and
keep off the headers, so that a write within a live block harms nothing.
-/

namespace CS162.Threads

open CS162.Foundation
open CS162.Userprog (pgSize)

section Descriptors

variable {d : Nat}

/-- The blocks of an arena fit into its page behind the header, and every
block has room for a list element. -/
theorem desc_sound (known : d < descs.length) :
    blockElemSize ≤ (desc d).blockSize ∧ 0 < (desc d).blocksPerArena ∧
      (desc d).blocksPerArena * (desc d).blockSize + arenaSize ≤ pgSize := by
  have every : ∀ other ∈ descs,
        blockElemSize ≤ other.blockSize ∧ 0 < other.blocksPerArena ∧
          other.blocksPerArena * other.blockSize + arenaSize ≤ pgSize := by
    decide
  have member : desc d ∈ descs := by
    rw [desc, List.getD_eq_getElem _ _ known]
    exact List.getElem_mem known
  exact every (desc d) member

theorem findDesc_le (size : Nat) : findDesc size ≤ descs.length := List.findIdx_le_length

theorem le_blockSize_findDesc {size : Nat} (found : findDesc size < descs.length) :
    size ≤ (desc (findDesc size)).blockSize := by
  have passes := @List.findIdx_getElem Desc (fun desc => size ≤ desc.blockSize) descs found
  rw [desc, List.getD_eq_getElem _ _ found]
  exact of_decide_eq_true passes

namespace HeapLayout

variable {layout : HeapLayout}

theorem descPtr_lt (known : d < descs.length) : layout.descPtr d < unsignedModulus := by
  have few : descs.length ≤ 10 := by decide
  have below := layout.below
  have ordered := layout.ordered
  have inRam := layout.inRam
  have addressable := layout.addressable
  unfold descPtr descSize at *
  omega

theorem descOf_null : layout.descOf 0 = some none := by
  rw [descOf, if_pos rfl]

theorem descOf_descPtr (known : d < descs.length) :
    layout.descOf (layout.descPtr d) = some (some d) := by
  have nonnull := layout.nonnull
  have notNull : layout.descPtr d ≠ 0 := by
    unfold descPtr
    omega
  have index : (layout.descPtr d - layout.descTable) / descSize = d := by
    rw [descPtr, Nat.add_sub_cancel_left]
    exact Nat.mul_div_cancel_left d (by decide)
  rw [descOf, if_neg notNull, index, if_pos ⟨known, rfl⟩]

end HeapLayout

end Descriptors

section Headers

variable {heap after : Heap} {arena : Arena} {a other start stop : Nat}

/-- A header depends on its twelve bytes only. -/
theorem Heap.arena_congr
    (agree : after.memory.AgreeOn heap.memory a (a + arenaSize)) :
    after.arena a = heap.arena a := by
  have magic : after.memory.AgreeOn heap.memory a (a + 4) :=
    agree.mono (by omega) (by unfold arenaSize; omega)
  have desc : after.memory.AgreeOn heap.memory (a + 4) (a + 4 + 4) :=
    agree.mono (by omega) (by unfold arenaSize; omega)
  have freeCnt : after.memory.AgreeOn heap.memory (a + 8) (a + 8 + 4) :=
    agree.mono (by omega) (by unfold arenaSize; omega)
  rw [Heap.arena, Heap.arena, magic.load32_eq, desc.load32_eq, freeCnt.load32_eq]

theorem Heap.setArena_agreeOn
    (outside : Apart start stop a (a + arenaSize)) :
    (heap.setArena a arena).memory.AgreeOn heap.memory start stop := by
  have parts :
      Apart start stop a (a + 4) ∧ Apart start stop (a + 4) (a + 4 + 4) ∧
        Apart start stop (a + 8) (a + 8 + 4) := by
    unfold Apart arenaSize at *
    omega
  rcases parts with ⟨magic, desc, freeCnt⟩
  exact
    (Memory.store32_agreeOn freeCnt).trans
      ((Memory.store32_agreeOn desc).trans (Memory.store32_agreeOn magic))

theorem Heap.setFreeCnt_agreeOn {freeCnt : Nat} (outside : Apart start stop a (a + arenaSize)) :
    (heap.setFreeCnt a freeCnt).memory.AgreeOn heap.memory start stop := by
  apply Memory.store32_agreeOn
  unfold Apart arenaSize at *
  omega

/-- What is written to a header is read back. -/
theorem Heap.arena_setArena
    (magic : arena.magic < unsignedModulus) (desc : arena.desc < unsignedModulus)
    (freeCnt : arena.freeCnt < unsignedModulus) :
    (heap.setArena a arena).arena a = arena := by
  have apartFirst : Apart a (a + 4) (a + 4) (a + 4 + 4) := Or.inl le_rfl
  have apartLast : Apart a (a + 4) (a + 8) (a + 8 + 4) := Or.inl (by omega)
  have apartSecond : Apart (a + 4) (a + 4 + 4) (a + 8) (a + 8 + 4) := Or.inl (by omega)
  unfold Heap.arena Heap.setArena
  simp only [Memory.load32_store32 freeCnt, Memory.load32_store32_of_apart apartLast,
    Memory.load32_store32_of_apart apartSecond, Memory.load32_store32 desc,
    Memory.load32_store32_of_apart apartFirst, Memory.load32_store32 magic]

theorem Heap.arena_setFreeCnt {freeCnt : Nat} (small : freeCnt < unsignedModulus) :
    (heap.setFreeCnt a freeCnt).arena a = { heap.arena a with freeCnt := freeCnt } := by
  have apartMagic : Apart a (a + 4) (a + 8) (a + 8 + 4) := Or.inl (by omega)
  have apartDesc : Apart (a + 4) (a + 4 + 4) (a + 8) (a + 8 + 4) := Or.inl (by omega)
  unfold Heap.arena Heap.setFreeCnt
  simp only [Memory.load32_store32 small, Memory.load32_store32_of_apart apartMagic,
    Memory.load32_store32_of_apart apartDesc]

end Headers

section Blocks

variable {layout : HeapLayout} {heap after : Heap} {range : PageRange}
variable {kind otherKind : Option Nat} {b other d idx : Nat}

/-- The pages of a big block. -/
def IsBig (heap : Heap) (range : PageRange) : Prop :=
  heap.arena range.pages = ⟨arenaMagic, 0, range.cnt⟩

/-- An arena of a descriptor. -/
structure IsSmall (layout : HeapLayout) (heap : Heap) (range : PageRange)
    (d : Nat) : Prop where
  known : d < descs.length
  single : range.cnt = 1
  magic : (heap.arena range.pages).magic = arenaMagic
  desc : (heap.arena range.pages).desc = layout.descPtr d

/-- The blocks of a small arena. -/
def blockAt (range : PageRange) (d idx : Nat) : Nat :=
  range.pages + arenaSize + idx * (desc d).blockSize

/-- The address is a block of the arena in the pages; a big block has no
descriptor. -/
def BlockOf (layout : HeapLayout) (heap : Heap) (range : PageRange) (b : Nat) : Option Nat → Prop
  | none => IsBig heap range ∧ b = range.pages + arenaSize
  | some d =>
      IsSmall layout heap range d ∧ ∃ idx, idx < (desc d).blocksPerArena ∧ b = blockAt range d idx

/-- The size that `block_size` reports. -/
def reportedSize (range : PageRange) : Option Nat → Nat
  | none => pgSize * range.cnt - arenaSize
  | some d => (desc d).blockSize

theorem HeapLayout.Placed.small (placed : layout.Placed range) : range.stop < unsignedModulus := by
  have inRam := layout.inRam
  have addressable := layout.addressable
  rcases placed with ⟨-, -, -, last⟩
  omega

theorem HeapLayout.Placed.nonnull (placed : layout.Placed range) : 0 < range.pages := by
  have nonnull := layout.nonnull
  have below := layout.below
  rcases placed with ⟨-, -, first, -⟩
  omega

/-- The end of a block of a small arena. -/
theorem blockAt_le (range : PageRange) (known : d < descs.length)
    (inArena : idx < (desc d).blocksPerArena) :
    blockAt range d idx + (desc d).blockSize ≤ range.pages + pgSize := by
  rcases desc_sound known with ⟨-, -, room⟩
  have next : (idx + 1) * (desc d).blockSize ≤ (desc d).blocksPerArena * (desc d).blockSize :=
    Nat.mul_le_mul_right _ inArena
  rw [Nat.add_mul, Nat.one_mul] at next
  unfold blockAt
  omega

/-- A block lies behind the header and within the pages of its arena. -/
theorem BlockOf.span (placed : layout.Placed range) (block : BlockOf layout heap range b kind) :
    range.pages + arenaSize ≤ b ∧ b < range.pages + pgSize ∧
      b + reportedSize range kind ≤ range.stop ∧
      blockElemSize ≤ reportedSize range kind := by
  rcases placed with ⟨positive, -, -, -⟩
  cases kind with
  | none =>
      rcases block with ⟨-, rfl⟩
      simp only [reportedSize, PageRange.stop, pgSize, arenaSize, blockElemSize]
      omega
  | some d =>
      rcases block with ⟨small, idx, inArena, rfl⟩
      have last := blockAt_le range small.known inArena
      have room := (desc_sound small.known).1
      have single := small.single
      have elem : 0 < blockElemSize := by decide
      unfold reportedSize PageRange.stop
      rw [single, Nat.one_mul]
      refine ⟨?_, by omega, last, room⟩
      unfold blockAt
      omega

theorem BlockOf.pgRoundDown (placed : layout.Placed range)
    (block : BlockOf layout heap range b kind) :
    pgRoundDown b = range.pages ∧ pgOfs b = b - range.pages := by
  rcases block.span placed with ⟨lower, upper, -, -⟩
  rcases placed with ⟨-, aligned, -, -⟩
  unfold Threads.pgRoundDown pgOfs pgSize at *
  omega

/-- `block_to_arena` finds the arena of a block, and its assertions hold. -/
theorem BlockOf.blockToArena (placed : layout.Placed range)
    (block : BlockOf layout heap range b kind) :
    heap.blockToArena layout b = some (range.pages, kind) := by
  have nonnull : range.pages ≠ 0 := Nat.ne_of_gt placed.nonnull
  rcases block.pgRoundDown placed with ⟨page, offset⟩
  unfold Heap.blockToArena
  simp only [page, if_neg nonnull]
  cases kind with
  | none =>
      rcases block with ⟨big, rfl⟩
      have header : heap.arena range.pages = ⟨arenaMagic, 0, range.cnt⟩ := big
      have first : pgOfs (range.pages + arenaSize) = arenaSize := by
        rw [offset, Nat.add_sub_cancel_left]
      simp only [header, ne_eq, not_true, if_false, HeapLayout.descOf_null, if_pos first]
  | some d =>
      rcases block with ⟨small, idx, inArena, rfl⟩
      have last := blockAt_le range small.known inArena
      have first : pgOfs (blockAt range d idx) = arenaSize + idx * (desc d).blockSize := by
        rw [offset, blockAt]
        omega
      have wrapped :
          wrap (pgOfs (blockAt range d idx) +
              (unsignedModulus - arenaSize)) =
            idx * (desc d).blockSize := by
        rw [first]
        unfold blockAt pgSize at last
        unfold wrap unsignedModulus arenaSize
        omega
      simp only [small.magic, ne_eq, not_true, if_false, small.desc,
        HeapLayout.descOf_descPtr small.known, wrapped, Nat.mul_mod_left,
        if_true]

theorem BlockOf.blockSize (placed : layout.Placed range)
    (block : BlockOf layout heap range b kind) :
    heap.blockSize layout b = some (reportedSize range kind) := by
  rw [Heap.blockSize, block.blockToArena placed, Option.map_some]
  cases kind with
  | some d => rfl
  | none =>
      have small := placed.small
      rcases block.pgRoundDown placed with ⟨-, offset⟩
      rcases block with ⟨big, rfl⟩
      have header : heap.arena range.pages = ⟨arenaMagic, 0, range.cnt⟩ := big
      rcases placed with ⟨positive, -, -, -⟩
      simp only [header, offset, Nat.add_sub_cancel_left, reportedSize, Option.some.injEq]
      unfold PageRange.stop wrap unsignedModulus pgSize arenaSize at *
      omega

/-- The header of an arena says what kind of arena it is. -/
theorem BlockOf.kind_unique (block : BlockOf layout heap range b kind)
    (otherBlock : BlockOf layout heap range other otherKind) :
    kind = otherKind := by
  have read : ∀ {address : Nat} {sort : Option Nat},
      BlockOf layout heap range address sort →
        layout.descOf (heap.arena range.pages).desc = some sort := by
    intro address sort member
    cases sort with
    | none =>
        have header : heap.arena range.pages = ⟨arenaMagic, 0, range.cnt⟩ := member.1
        rw [header]
        exact HeapLayout.descOf_null
    | some d =>
        rw [member.1.desc]
        exact HeapLayout.descOf_descPtr member.1.known
  have same := (read block).symm.trans (read otherBlock)
  exact Option.some.inj same

/-- Two blocks of one arena do not overlap. -/
theorem BlockOf.apart (block : BlockOf layout heap range b kind)
    (otherBlock : BlockOf layout heap range other otherKind) (different : b ≠ other) :
    Apart b (b + reportedSize range kind) other
      (other + reportedSize range otherKind) := by
  have same := block.kind_unique otherBlock
  subst same
  cases kind with
  | none =>
      rcases block with ⟨-, rfl⟩
      rcases otherBlock with ⟨-, rfl⟩
      exact absurd rfl different
  | some d =>
      rcases block with ⟨-, first, -, rfl⟩
      rcases otherBlock with ⟨-, second, -, rfl⟩
      have step : ∀ {lower upper : Nat}, lower < upper →
          blockAt range d lower + (desc d).blockSize ≤ blockAt range d upper := by
        intro lower upper less
        have next : (lower + 1) * (desc d).blockSize ≤ upper * (desc d).blockSize :=
          Nat.mul_le_mul_right _ less
        rw [Nat.add_mul, Nat.one_mul] at next
        unfold blockAt
        omega
      rcases Nat.lt_trichotomy first second with less | equal | greater
      · exact Or.inl (step less)
      · exact absurd (by rw [equal]) different
      · exact Or.inr (step greater)

/-- What the blocks of an arena are depends on its header only. -/
theorem BlockOf.congr
    (header : after.arena range.pages = heap.arena range.pages)
    (block : BlockOf layout heap range b kind) :
    BlockOf layout after range b kind := by
  cases kind with
  | none =>
      rcases block with ⟨big, place⟩
      exact ⟨header.trans big, place⟩
  | some d =>
      rcases block with ⟨small, place⟩
      refine ⟨⟨small.known, small.single, ?_, ?_⟩, place⟩
      · rw [header]
        exact small.magic
      · rw [header]
        exact small.desc

end Blocks

section Invariant

variable {layout : HeapLayout} {heap after : Heap} {live afterLive : List Nat}
variable {range other : PageRange} {kind otherKind : Option Nat}
variable {b otherBlock d : Nat}

/-- The indices of the blocks of an arena that are on a free list. -/
def freeIndices (range : PageRange) (d : Nat) (list : List Nat) : Finset Nat :=
  (Finset.range (desc d).blocksPerArena).filter fun idx => blockAt range d idx ∈ list

/-- An arena of a descriptor and its blocks. -/
structure SmallSound (layout : HeapLayout) (heap : Heap) (live : List Nat)
    (range : PageRange) (d : Nat) : Prop where
  small : IsSmall layout heap range d
  counted : (heap.arena range.pages).freeCnt = (freeIndices range d (heap.freeList d)).card
  split :
    ∀ idx, idx < (desc d).blocksPerArena →
      (blockAt range d idx ∈ live ↔ blockAt range d idx ∉ heap.freeList d)

/-- An arena of either kind. -/
def ArenaSound (layout : HeapLayout) (heap : Heap) (live : List Nat) (range : PageRange) : Prop :=
  (IsBig heap range ∧ range.pages + arenaSize ∈ live) ∨ ∃ d, SmallSound layout heap live range d

/-- The address lies in the pages. -/
def PageRange.Holds (range : PageRange) (address : Nat) : Prop :=
  range.pages ≤ address ∧ address < range.stop

/-- The invariant of the heap, also in the middle of `malloc`. -/
structure HeapSound (layout : HeapLayout) (heap : Heap) (live : List Nat) : Prop where
  placed : ∀ range ∈ heap.pages, layout.Placed range
  pagesOnce : heap.pages.Nodup
  apart :
    ∀ range ∈ heap.pages, ∀ other ∈ heap.pages, range ≠ other →
      Apart range.pages range.stop other.pages other.stop
  arenas : ∀ range ∈ heap.pages, ArenaSound layout heap live range
  freeOnce : ∀ d, (heap.freeList d).Nodup
  liveOnce : live.Nodup
  freeBlocks : ∀ d, ∀ b ∈ heap.freeList d,
      ∃ range ∈ heap.pages, BlockOf layout heap range b (some d)
  liveBlocks : ∀ b ∈ live, ∃ range ∈ heap.pages, ∃ kind, BlockOf layout heap range b kind

/-- An arena of a descriptor has a block that is not free. -/
def InUse (layout : HeapLayout) (heap : Heap) (range : PageRange) : Prop :=
  ∀ d, IsSmall layout heap range d → (heap.arena range.pages).freeCnt < (desc d).blocksPerArena

/-- The invariant of the heap between calls. -/
structure HeapSafe (layout : HeapLayout) (heap : Heap) (live : List Nat) :
    Prop extends HeapSound layout heap live where
  inUse : ∀ range ∈ heap.pages, InUse layout heap range

theorem BlockOf.holds (placed : layout.Placed range)
    (block : BlockOf layout heap range b kind) : range.Holds b := by
  rcases block.span placed with ⟨first, -, last, room⟩
  have elem : 0 < blockElemSize := by decide
  constructor <;> omega

/-- An arena stays sound when nothing in its pages changes. -/
theorem ArenaSound.congr (placed : layout.Placed range)
    (header : after.arena range.pages = heap.arena range.pages)
    (free :
      ∀ d address, range.Holds address → (address ∈ after.freeList d ↔ address ∈ heap.freeList d))
    (lives : ∀ address, range.Holds address → (address ∈ afterLive ↔ address ∈ live))
    (sound : ArenaSound layout heap live range) :
    ArenaSound layout after afterLive range := by
  rcases sound with ⟨big, member⟩ | ⟨d, small, counted, split⟩
  · left
    have block : BlockOf layout heap range (range.pages + arenaSize) none := ⟨big, rfl⟩
    exact ⟨header.trans big, (lives _ (block.holds placed)).mpr member⟩
  · right
    have holds :
        ∀ idx, idx < (desc d).blocksPerArena →
          range.Holds (blockAt range d idx) := by
      intro idx inArena
      have block : BlockOf layout heap range (blockAt range d idx) (some d) :=
        ⟨small, idx, inArena, rfl⟩
      exact block.holds placed
    refine ⟨d, ⟨small.known, small.single, ?_, ?_⟩, ?_, ?_⟩
    · rw [header]
      exact small.magic
    · rw [header]
      exact small.desc
    · have same :
          freeIndices range d (after.freeList d) = freeIndices range d (heap.freeList d) := by
        apply Finset.filter_congr
        intro idx inArena
        exact free d _ (holds idx (Finset.mem_range.mp inArena))
      rw [header, same]
      exact counted
    · intro idx inArena
      rw [lives _ (holds idx inArena), free d _ (holds idx inArena)]
      exact split idx inArena

/-- Two arenas with a common address are the same. -/
theorem HeapSound.range_unique (sound : HeapSound layout heap live)
    {address : Nat} (member : range ∈ heap.pages)
    (otherMember : other ∈ heap.pages) (holds : range.Holds address)
    (otherHolds : other.Holds address) : range = other := by
  by_contra different
  have apart := sound.apart range member other otherMember different
  unfold Apart at apart
  unfold PageRange.Holds at *
  omega

/-- The blocks of all arenas are apart. -/
theorem HeapSound.blocks_apart (sound : HeapSound layout heap live)
    (member : range ∈ heap.pages) (otherMember : other ∈ heap.pages)
    (block : BlockOf layout heap range b kind)
    (second : BlockOf layout heap other otherBlock otherKind) (different : b ≠ otherBlock) :
    Apart b (b + reportedSize range kind) otherBlock
      (otherBlock + reportedSize other otherKind) := by
  by_cases same : range = other
  · subst same
    exact block.apart second different
  · rcases block.span (sound.placed range member) with ⟨first, -, last, -⟩
    rcases second.span (sound.placed other otherMember) with ⟨otherFirst, -, otherLast, -⟩
    rcases sound.apart range member other otherMember same with before | after
    · exact Or.inl (by omega)
    · exact Or.inr (by omega)

/-- A block keeps off the headers of all arenas. -/
theorem HeapSound.header_apart (sound : HeapSound layout heap live)
    (member : range ∈ heap.pages) (otherMember : other ∈ heap.pages)
    (block : BlockOf layout heap range b kind) :
    Apart other.pages (other.pages + arenaSize) b
      (b + reportedSize range kind) := by
  rcases block.span (sound.placed range member) with ⟨first, -, last, -⟩
  by_cases same : range = other
  · subst same
    exact Or.inl first
  · have header : other.pages + arenaSize ≤ other.stop := by
      rcases sound.placed other otherMember with ⟨positive, -, -, -⟩
      unfold PageRange.stop arenaSize pgSize
      omega
    rcases sound.apart range member other otherMember same with before | after
    · exact Or.inr (by omega)
    · exact Or.inl (by omega)

/-- The frame rule: a call that changes one arena, or adds it, or takes it
away, leaves the others as they are. -/
theorem HeapSound.change (sound : HeapSound layout heap live) (range : PageRange)
    (placed : ∀ other ∈ after.pages, layout.Placed other) (once : after.pages.Nodup)
    (apart :
      ∀ other ∈ after.pages, other ≠ range → Apart other.pages other.stop range.pages range.stop)
    (others : ∀ other, other ≠ range → (other ∈ after.pages ↔ other ∈ heap.pages))
    (headers :
      ∀ other ∈ heap.pages, other ≠ range → after.arena other.pages = heap.arena other.pages)
    (freeOutside :
      ∀ d address, ¬range.Holds address → (address ∈ after.freeList d ↔ address ∈ heap.freeList d))
    (liveOutside : ∀ address, ¬range.Holds address → (address ∈ afterLive ↔ address ∈ live))
    (freeOnce : ∀ d, (after.freeList d).Nodup) (liveOnce : afterLive.Nodup)
    (own : range ∈ after.pages → ArenaSound layout after afterLive range)
    (freeInside :
      ∀ d, ∀ address ∈ after.freeList d, range.Holds address →
        range ∈ after.pages ∧ BlockOf layout after range address (some d))
    (liveInside :
      ∀ address ∈ afterLive, range.Holds address →
        range ∈ after.pages ∧ ∃ kind, BlockOf layout after range address kind) :
    HeapSound layout after afterLive where
  placed := placed
  pagesOnce := once
  apart := by
    intro left leftMember right rightMember different
    by_cases leftOwn : left = range
    · subst leftOwn
      exact (apart right rightMember (Ne.symm different)).symm
    · by_cases rightOwn : right = range
      · subst rightOwn
        exact apart left leftMember leftOwn
      · exact
          sound.apart left ((others left leftOwn).mp leftMember) right
            ((others right rightOwn).mp rightMember) different
  arenas := by
    intro other member
    by_cases same : other = range
    · subst same
      exact own member
    · have before := (others other same).mp member
      have away : ∀ address, other.Holds address → ¬range.Holds address := by
        intro address holds inside
        have apart := apart other member same
        unfold Apart at apart
        unfold PageRange.Holds at *
        omega
      apply
        ArenaSound.congr (placed other member) (headers other before same) _ _
          (sound.arenas other before)
      · intro d address holds
        exact freeOutside d address (away address holds)
      · intro address holds
        exact liveOutside address (away address holds)
  freeOnce := freeOnce
  liveOnce := liveOnce
  freeBlocks := by
    intro d address member
    by_cases inside : range.Holds address
    · rcases freeInside d address member inside with ⟨held, block⟩
      exact ⟨range, held, block⟩
    · rcases
        sound.freeBlocks d address
          ((freeOutside d address inside).mp member) with
        ⟨other, held, block⟩
      have different : other ≠ range := by
        rintro rfl
        exact inside (block.holds (sound.placed other held))
      exact ⟨other, (others other different).mpr held, block.congr (headers other held different)⟩
  liveBlocks := by
    intro address member
    by_cases inside : range.Holds address
    · rcases liveInside address member inside with ⟨held, kind, block⟩
      exact ⟨range, held, kind, block⟩
    · rcases
        sound.liveBlocks address
          ((liveOutside address inside).mp member) with
        ⟨other, held, kind, block⟩
      have different : other ≠ range := by
        rintro rfl
        exact inside (block.holds (sound.placed other held))
      exact ⟨other, (others other different).mpr held, kind,
          block.congr (headers other held different)⟩

/-- Blocks that stay blocks of the same arena. -/
def Keeps (layout : HeapLayout) (heap after : Heap) : Prop :=
  ∀ range ∈ heap.pages, ∀ b kind,
    BlockOf layout heap range b kind → range ∈ after.pages ∧ BlockOf layout after range b kind

theorem InUse.congr
    (header : after.arena range.pages = heap.arena range.pages)
    (inUse : InUse layout heap range) : InUse layout after range := by
  intro d small
  rw [header]
  apply inUse d
  refine ⟨small.known, small.single, ?_, ?_⟩
  · rw [← header]
    exact small.magic
  · rw [← header]
    exact small.desc

/-- A write that keeps off the headers does no harm. -/
theorem HeapSafe.write (safe : HeapSafe layout heap live) (memory : Memory)
    (headers : ∀ range ∈ heap.pages,
        memory.AgreeOn heap.memory range.pages (range.pages + arenaSize)) :
    HeapSafe layout { heap with memory := memory } live ∧
      Keeps layout heap { heap with memory := memory } := by
  have same : ∀ range ∈ heap.pages,
        Heap.arena { heap with memory := memory } range.pages = heap.arena range.pages := by
    intro range member
    exact Heap.arena_congr (headers range member)
  constructor
  · constructor
    · constructor
      · exact safe.placed
      · exact safe.pagesOnce
      · exact safe.apart
      · intro range member
        exact
          ArenaSound.congr (safe.placed range member) (same range member)
            (fun _ _ _ => Iff.rfl) (fun _ _ => Iff.rfl)
            (safe.arenas range member)
      · exact safe.freeOnce
      · exact safe.liveOnce
      · intro d b member
        rcases safe.freeBlocks d b member with ⟨range, held, block⟩
        exact ⟨range, held, block.congr (same range held)⟩
      · intro b member
        rcases safe.liveBlocks b member with ⟨range, held, kind, block⟩
        exact ⟨range, held, kind, block.congr (same range held)⟩
    · intro range member
      exact (safe.inUse range member).congr (same range member)
  · intro range member b kind block
    exact ⟨member, block.congr (same range member)⟩

/-- The number of free blocks grows by one when a block becomes free. -/
theorem card_freeIndices_cons {rest : List Nat} {idx : Nat}
    (known : d < descs.length) (inArena : idx < (desc d).blocksPerArena)
    (place : b = blockAt range d idx) (fresh : b ∉ rest) :
    (freeIndices range d (b :: rest)).card = (freeIndices range d rest).card + 1 := by
  have size : 0 < (desc d).blockSize := Nat.lt_of_lt_of_le (by decide) (desc_sound known).1
  have single : ∀ other, blockAt range d other = b ↔ other = idx := by
    intro other
    rw [place]
    unfold blockAt
    rw [Nat.add_left_cancel_iff, Nat.mul_left_inj (Nat.ne_of_gt size)]
  have grown : freeIndices range d (b :: rest) = insert idx (freeIndices range d rest) := by
    ext other
    simp only [freeIndices, Finset.mem_filter, Finset.mem_range,
      List.mem_cons, single, Finset.mem_insert]
    constructor
    · rintro ⟨inside, here | there⟩
      · exact Or.inl here
      · exact Or.inr ⟨inside, there⟩
    · rintro (here | ⟨inside, there⟩)
      · exact ⟨here ▸ inArena, Or.inl here⟩
      · exact ⟨inside, Or.inr there⟩
  have absent : idx ∉ freeIndices range d rest := by
    intro member
    apply fresh
    rw [place]
    exact (Finset.mem_filter.mp member).2
  rw [grown, Finset.card_insert_of_notMem absent]

theorem card_freeIndices_le (range : PageRange) (d : Nat) (list : List Nat) :
    (freeIndices range d list).card ≤ (desc d).blocksPerArena := by
  have bound := Finset.card_filter_le (Finset.range (desc d).blocksPerArena)
    (fun idx => blockAt range d idx ∈ list)
  rwa [Finset.card_range] at bound

theorem blocksPerArena_lt (known : d < descs.length) : (desc d).blocksPerArena < pgSize := by
  rcases desc_sound known with ⟨elem, -, room⟩
  have more : (desc d).blocksPerArena * 8 ≤ (desc d).blocksPerArena * (desc d).blockSize :=
    Nat.mul_le_mul_left _ elem
  unfold arenaSize at room
  omega

/-- A block of an arena of a descriptor brings the arena's bookkeeping. -/
theorem HeapSound.smallSound (sound : HeapSound layout heap live) (member : range ∈ heap.pages)
    (block : BlockOf layout heap range b (some d)) :
    SmallSound layout heap live range d := by
  rcases sound.arenas range member with ⟨big, -⟩ | ⟨other, small⟩
  · have bigBlock : BlockOf layout heap range (range.pages + arenaSize) none := ⟨big, rfl⟩
    cases bigBlock.kind_unique block
  · have room := (desc_sound small.small.known).2.1
    have otherBlock : BlockOf layout heap range (blockAt range other 0) (some other) :=
      ⟨small.small, 0, room, rfl⟩
    have same := Option.some.inj (otherBlock.kind_unique block)
    exact same ▸ small

end Invariant

end CS162.Threads
