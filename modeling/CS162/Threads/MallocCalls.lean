import CS162.Threads.MallocSafety
import Mathlib.Data.List.Perm.Basic

/-!
# What the calls of the heap do

One specification for each function of `threads/malloc.c`: on a sound heap its
assertions hold, and it leaves a sound heap.
-/

namespace CS162.Threads

open CS162.Foundation
open CS162.Userprog (pgSize)

section Calls

variable {layout : HeapLayout} {heap after : Heap} {live : List Nat}
variable {range other : PageRange} {kind : Option Nat} {b d : Nat}

theorem IsSmall.congr (small : IsSmall layout heap range d)
    (magic : (after.arena range.pages).magic = (heap.arena range.pages).magic)
    (desc : (after.arena range.pages).desc = (heap.arena range.pages).desc) :
    IsSmall layout after range d where
  known := small.known
  single := small.single
  magic := magic.trans small.magic
  desc := desc.trans small.desc

/-- Two arenas have their headers apart. -/
theorem HeapSound.headers_apart (sound : HeapSound layout heap live)
    (member : range ∈ heap.pages) (otherMember : other ∈ heap.pages) (different : other ≠ range) :
    Apart other.pages (other.pages + arenaSize) range.pages
      (range.pages + arenaSize) := by
  have room : ∀ pages ∈ heap.pages, pages.pages + arenaSize ≤ pages.stop := by
    intro pages held
    rcases sound.placed pages held with ⟨positive, -, -, -⟩
    unfold PageRange.stop arenaSize pgSize
    omega
  have first := room range member
  have second := room other otherMember
  rcases sound.apart other otherMember range member different with before | after
  · exact Or.inl (by omega)
  · exact Or.inr (by omega)

/-- A free block in the pages of an arena is a block of the arena. -/
theorem HeapSound.free_block (sound : HeapSound layout heap live)
    (member : range ∈ heap.pages) (free : b ∈ heap.freeList d)
    (holds : range.Holds b) : BlockOf layout heap range b (some d) := by
  rcases sound.freeBlocks d b free with ⟨owner, held, block⟩
  have same : owner = range :=
    sound.range_unique held member (block.holds (sound.placed owner held)) holds
  exact same ▸ block

/-- A live block in the pages of an arena is a block of the arena. -/
theorem HeapSound.live_block (sound : HeapSound layout heap live)
    (member : range ∈ heap.pages) (lives : b ∈ live) (holds : range.Holds b) :
    ∃ kind, BlockOf layout heap range b kind := by
  rcases sound.liveBlocks b lives with ⟨owner, held, kind, block⟩
  have same : owner = range :=
    sound.range_unique held member (block.holds (sound.placed owner held)) holds
  exact ⟨kind, same ▸ block⟩

/-- A block on a free list is not live. -/
theorem HeapSound.not_live (sound : HeapSound layout heap live)
    (free : b ∈ heap.freeList d) : b ∉ live := by
  rcases sound.freeBlocks d b free with ⟨range, member, block⟩
  have small := sound.smallSound member block
  rcases block with ⟨-, idx, inArena, place⟩
  intro lives
  rw [place] at free lives
  exact (small.split idx inArena).mp lives free

/-- The blocks on one free list are not on another. -/
theorem HeapSound.free_unique (sound : HeapSound layout heap live)
    {e : Nat} (free : b ∈ heap.freeList d) (again : b ∈ heap.freeList e) :
    d = e := by
  rcases sound.freeBlocks d b free with ⟨range, member, block⟩
  have second := sound.free_block member again (block.holds (sound.placed range member))
  exact Option.some.inj (block.kind_unique second)

/-- A block of a small arena stays one when only `free_cnt` changes. -/
theorem BlockOf.congr_small
    (block : BlockOf layout heap range b (some d))
    (magic : (after.arena range.pages).magic = (heap.arena range.pages).magic)
    (desc : (after.arena range.pages).desc = (heap.arena range.pages).desc) :
    BlockOf layout after range b (some d) :=
  ⟨block.1.congr magic desc, block.2⟩

/-- One block of a small arena becomes live or becomes free, and `free_cnt`
follows. -/
theorem HeapSound.rebalance (sound : HeapSound layout heap live)
    {afterLive : List Nat} (member : range ∈ heap.pages)
    (block : BlockOf layout heap range b (some d)) (samePages : after.pages = heap.pages)
    (header :
      after.arena range.pages =
        { heap.arena range.pages with
          freeCnt := (freeIndices range d (after.freeList d)).card })
    (headers :
      ∀ other ∈ heap.pages, other ≠ range → after.arena other.pages = heap.arena other.pages)
    (freeOthers :
      ∀ e address, address ≠ b → (address ∈ after.freeList e ↔ address ∈ heap.freeList e))
    (freeOwn : ∀ e, b ∈ after.freeList e → e = d) (freeOnce : ∀ e, (after.freeList e).Nodup)
    (liveOthers : ∀ address, address ≠ b → (address ∈ afterLive ↔ address ∈ live))
    (liveOwn : b ∈ afterLive ↔ b ∉ after.freeList d) (liveOnce : afterLive.Nodup) :
    HeapSound layout after afterLive ∧ Keeps layout heap after := by
  have inside : range.Holds b := block.holds (sound.placed range member)
  have small := sound.smallSound member block
  have stays :
      ∀ address kind, BlockOf layout heap range address kind →
        BlockOf layout after range address kind := by
    intro address kind before
    have same := block.kind_unique before
    subst same
    apply before.congr_small <;> rw [header]
  have away : ∀ {address}, ¬range.Holds address → address ≠ b := by
    rintro address outside rfl
    exact outside inside
  constructor
  · apply sound.change range
    · rw [samePages]
      exact sound.placed
    · rw [samePages]
      exact sound.pagesOnce
    · intro other held different
      rw [samePages] at held
      exact sound.apart other held range member different
    · intro other _
      rw [samePages]
    · exact headers
    · intro e address outside
      exact freeOthers e address (away outside)
    · intro address outside
      exact liveOthers address (away outside)
    · exact freeOnce
    · exact liveOnce
    · intro _
      right
      refine ⟨d, (stays b (some d) block).1, ?_, ?_⟩
      · rw [header]
      · intro idx inArena
        by_cases same : blockAt range d idx = b
        · rw [same]
          exact liveOwn
        · rw [liveOthers _ same, freeOthers d _ same]
          exact small.split idx inArena
    · intro e address listed holds
      rw [samePages]
      refine ⟨member, stays address (some e) ?_⟩
      by_cases same : address = b
      · subst same
        rw [freeOwn e listed]
        exact block
      · exact sound.free_block member ((freeOthers e address same).mp listed) holds
    · intro address lives holds
      rw [samePages]
      refine ⟨member, ?_⟩
      by_cases same : address = b
      · subst same
        exact ⟨some d, stays address (some d) block⟩
      · rcases sound.live_block member ((liveOthers address same).mp lives) holds with ⟨kind, own⟩
        exact ⟨kind, stays address kind own⟩
  · intro other held address kind before
    rw [samePages]
    by_cases same : other = range
    · subst same
      exact ⟨held, stays address kind before⟩
    · exact ⟨held, before.congr (headers other held same)⟩

/-- Only the header of one arena changes with its `free_cnt`. -/
theorem HeapSound.arena_setFreeCnt (sound : HeapSound layout heap live)
    (member : range ∈ heap.pages) {freeCnt : Nat} (small : freeCnt < unsignedModulus)
    (memory : after.memory = heap.memory) :
    (after.setFreeCnt range.pages freeCnt).arena range.pages =
        { heap.arena range.pages with freeCnt := freeCnt } ∧
      ∀ other ∈ heap.pages, other ≠ range →
        (after.setFreeCnt range.pages freeCnt).arena other.pages = heap.arena other.pages := by
  constructor
  · rw [Heap.arena_setFreeCnt small]
    unfold Heap.arena
    rw [memory]
  · intro other held different
    apply Heap.arena_congr
    rw [← memory]
    exact Heap.setFreeCnt_agreeOn (sound.headers_apart member held different)

/-- The counters of small arenas are far from wrapping around. -/
theorem card_freeIndices_lt (range : PageRange) (known : d < descs.length) (list : List Nat) :
    (freeIndices range d list).card < unsignedModulus := by
  have fewer := card_freeIndices_le range d list
  have few := blocksPerArena_lt known
  unfold pgSize at few
  unfold unsignedModulus
  omega

/-- An arena is in use if its counter says so for one of its blocks. -/
theorem BlockOf.inUse (block : BlockOf layout heap range b (some d))
    (used : (heap.arena range.pages).freeCnt < (desc d).blocksPerArena) :
    InUse layout heap range := by
  intro e again
  have second : BlockOf layout heap range (blockAt range e 0) (some e) :=
    ⟨again, 0, (desc_sound again.known).2.1, rfl⟩
  have same := Option.some.inj (block.kind_unique second)
  subst same
  exact used

/-- A block becomes live or free with a new free list and the counter that it gives. -/
theorem HeapSound.relist (sound : HeapSound layout heap live)
    {afterLive list : List Nat} (member : range ∈ heap.pages)
    (block : BlockOf layout heap range b (some d)) (once : list.Nodup)
    (listOthers : ∀ address, address ≠ b → (address ∈ list ↔ address ∈ heap.freeList d))
    (freeOwn : ∀ e, b ∈ heap.freeList e → e = d)
    (liveOthers : ∀ address, address ≠ b → (address ∈ afterLive ↔ address ∈ live))
    (liveOwn : b ∈ afterLive ↔ b ∉ list) (liveOnce : afterLive.Nodup)
    (result :
      (heap.setFreeList d list).setFreeCnt range.pages (freeIndices range d list).card = after) :
    HeapSound layout after afterLive ∧ Keeps layout heap after ∧
      (after.arena range.pages).freeCnt = (freeIndices range d list).card ∧
      ∀ other ∈ heap.pages, other ≠ range →
        after.arena other.pages = heap.arena other.pages := by
  have known := (sound.smallSound member block).small.known
  have written :=
    sound.arena_setFreeCnt member (card_freeIndices_lt range known list)
      (show (heap.setFreeList d list).memory = heap.memory from rfl)
  rw [result] at written
  rcases written with ⟨header, headers⟩
  have lists : after.freeList = Function.update heap.freeList d list := by
    rw [← result]
    rfl
  have own : after.freeList d = list := by
    rw [lists, Function.update_self]
  have elsewhere : ∀ e, e ≠ d → after.freeList e = heap.freeList e := by
    intro e different
    rw [lists, Function.update_of_ne different]
  have samePages : after.pages = heap.pages := by
    rw [← result]
    rfl
  have balanced : HeapSound layout after afterLive ∧ Keeps layout heap after := by
    apply sound.rebalance member block samePages
    · rw [header, own]
    · exact headers
    · intro e address different
      by_cases same : e = d
      · subst same
        rw [own]
        exact listOthers address different
      · rw [elsewhere e same]
    · intro e listed
      by_contra different
      rw [elsewhere e different] at listed
      exact different (freeOwn e listed)
    · intro e
      by_cases same : e = d
      · subst same
        rw [own]
        exact once
      · rw [elsewhere e same]
        exact sound.freeOnce e
    · exact liveOthers
    · rw [own]
      exact liveOwn
    · exact liveOnce
  exact ⟨balanced.1, balanced.2, by rw [header], headers⟩

theorem mem_cons_iff_of_ne {list : List Nat} {address : Nat} (different : address ≠ b) :
    address ∈ b :: list ↔ address ∈ list :=
  List.mem_cons.trans (or_iff_right different)

/-- The last part of `malloc`: the first block of the free list is live. -/
theorem HeapSound.takeBlock (sound : HeapSound layout heap live)
    {rest : List Nat} (top : heap.freeList d = b :: rest) :
    ∃ after range,
      heap.takeBlock layout d = some (after, some b) ∧
      range ∈ heap.pages ∧ BlockOf layout heap range b (some d) ∧
      after.pages = heap.pages ∧ HeapSound layout after (b :: live) ∧
      Keeps layout heap after ∧ InUse layout after range ∧
      ∀ other ∈ heap.pages, other ≠ range →
        InUse layout heap other → InUse layout after other := by
  have free : b ∈ heap.freeList d := by
    rw [top]
    exact List.mem_cons_self
  have once := sound.freeOnce d
  rw [top, List.nodup_cons] at once
  rcases once with ⟨fresh, restOnce⟩
  rcases sound.freeBlocks d b free with ⟨range, member, block⟩
  have placed := sound.placed range member
  have small := sound.smallSound member block
  have known := small.small.known
  rcases block.2 with ⟨idx, inArena, place⟩
  -- The counter goes down by one, and so does the number of free blocks.
  have counted := small.counted
  rw [top, card_freeIndices_cons known inArena place fresh] at counted
  have bound := card_freeIndices_lt range known rest
  have wrapped :
      wrap ((heap.arena range.pages).freeCnt + (unsignedModulus - 1)) =
        (freeIndices range d rest).card := by
    rw [counted]
    unfold wrap unsignedModulus at *
    omega
  rcases
    sound.relist member block restOnce
      (fun address different => by rw [top, mem_cons_iff_of_ne different])
      (fun e listed => sound.free_unique listed free)
      (fun address different => mem_cons_iff_of_ne different)
      (iff_of_true List.mem_cons_self fresh)
      (List.nodup_cons.mpr ⟨sound.not_live free, sound.liveOnce⟩) rfl with
    ⟨afterSound, keeps, count, headers⟩
  refine ⟨(heap.setFreeList d rest).setFreeCnt range.pages (freeIndices range d rest).card,
      range, ?_, member, block, rfl, afterSound, keeps, ?_,
      fun other held different used => used.congr (headers other held different)⟩
  · have same : (heap.setFreeList d rest).arena range.pages = heap.arena range.pages := rfl
    have listed := block.congr same
    unfold Heap.takeBlock
    rw [top]
    simp only [listed.blockToArena placed, Option.map_some, wrapped]
  · apply (keeps range member b (some d) block).2.inUse
    have bounded := card_freeIndices_le range d (b :: rest)
    rw [card_freeIndices_cons known inArena place fresh] at bounded
    rw [count]
    exact bounded

/-- `arena_to_block` finds the blocks of an arena. -/
theorem IsSmall.arenaToBlock (small : IsSmall layout heap range d)
    (nonnull : range.pages ≠ 0) {idx : Nat} (inArena : idx < (Threads.desc d).blocksPerArena) :
    heap.arenaToBlock layout range.pages idx = some (blockAt range d idx) := by
  unfold Heap.arenaToBlock
  simp only [if_neg nonnull, small.magic, ne_eq, not_true, if_false,
    small.desc, HeapLayout.descOf_descPtr small.known, if_pos inArena,
    blockAt]

/-- The blocks with the indices from `i` on. -/
def blocksFrom (range : PageRange) (d i cnt : Nat) : List Nat :=
  (List.range' i cnt).map (blockAt range d)

theorem mem_blocksFrom {i cnt : Nat} :
    b ∈ blocksFrom range d i cnt ↔ ∃ idx, i ≤ idx ∧ idx < i + cnt ∧ b = blockAt range d idx := by
  unfold blocksFrom
  rw [List.mem_map]
  constructor
  · rintro ⟨idx, member, rfl⟩
    rw [List.mem_range'_1] at member
    exact ⟨idx, member.1, member.2, rfl⟩
  · rintro ⟨idx, lower, upper, rfl⟩
    exact ⟨idx, List.mem_range'_1.mpr ⟨lower, upper⟩, rfl⟩

theorem blockAt_injective (known : d < descs.length) : Function.Injective (blockAt range d) := by
  have size : 0 < (desc d).blockSize := Nat.lt_of_lt_of_le (by decide) (desc_sound known).1
  intro first second equal
  unfold blockAt at equal
  rw [Nat.add_left_cancel_iff, Nat.mul_left_inj (Nat.ne_of_gt size)] at equal
  exact equal

/-- The loop of `malloc` adds the blocks of the arena in their order. -/
theorem addBlocks_eq {remaining : Nat} (small : IsSmall layout heap range d)
    (nonnull : range.pages ≠ 0) {i : Nat} (inArena : i + remaining ≤ (desc d).blocksPerArena) :
    heap.addBlocks layout range.pages d i remaining =
      some
        (heap.setFreeList d
          (heap.freeList d ++ blocksFrom range d i remaining)) := by
  induction remaining generalizing heap i with
  | zero =>
      have same : Function.update heap.freeList d (heap.freeList d) = heap.freeList :=
        Function.update_eq_self d heap.freeList
      simp only [Heap.addBlocks, blocksFrom, List.range'_zero, List.map_nil,
        List.append_nil, Heap.setFreeList, same]
  | succ remaining inductionHypothesis =>
      have listed :
          IsSmall layout
            (heap.setFreeList d (heap.freeList d ++ [blockAt range d i]))
            range d :=
        small.congr rfl rfl
      have rest := inductionHypothesis listed (show
        i + 1 + remaining ≤ (desc d).blocksPerArena by omega)
      rw [Heap.addBlocks, small.arenaToBlock nonnull (by omega), Option.bind_some, rest]
      simp only [Heap.setFreeList, Function.update_self,
        Function.update_idem, blocksFrom, List.range'_succ, List.map_cons,
        List.append_assoc, List.singleton_append]

/-- Fresh pages hold none of the heap's blocks. -/
theorem HeapSound.fresh_holds (sound : HeapSound layout heap live)
    (fresh : layout.Fresh heap.pages range) :
    (∀ d, ∀ b ∈ heap.freeList d, ¬range.Holds b) ∧
      ∀ b ∈ live, ¬range.Holds b := by
  have away : ∀ owner ∈ heap.pages, ∀ b, owner.Holds b → ¬range.Holds b := by
    intro owner held b holds inside
    have apart := fresh.2 owner held
    unfold Apart at apart
    unfold PageRange.Holds at *
    omega
  constructor
  · intro d b member
    rcases sound.freeBlocks d b member with ⟨owner, held, block⟩
    exact away owner held b (block.holds (sound.placed owner held))
  · intro b member
    rcases sound.liveBlocks b member with ⟨owner, held, kind, block⟩
    exact away owner held b (block.holds (sound.placed owner held))

/-- Fresh pages are not among the heap's pages yet. -/
theorem HeapLayout.Fresh.not_mem (fresh : layout.Fresh heap.pages range) : range ∉ heap.pages := by
  intro member
  have apart := fresh.2 range member
  have positive := fresh.1.1
  unfold Apart PageRange.stop pgSize at apart
  omega

/-- The page allocator fails or hands out fresh pages. -/
theorem pallocGetMultiple_eq (layout : HeapLayout) (heap : Heap)
    (pageCnt : Nat) (offer : Option Nat) :
    heap.pallocGetMultiple layout pageCnt offer = none ∨
      ∃ page,
        offer = some page ∧ layout.Fresh heap.pages ⟨page, pageCnt⟩ ∧
          heap.pallocGetMultiple layout pageCnt offer =
            some
              (page, { heap with pages := ⟨page, pageCnt⟩ :: heap.pages }) := by
  cases offer with
  | none => exact Or.inl rfl
  | some page =>
      by_cases fresh : layout.Fresh heap.pages ⟨page, pageCnt⟩
      · right
        refine ⟨page, rfl, fresh, ?_⟩
        rw [Heap.pallocGetMultiple, if_pos fresh]
      · left
        rw [Heap.pallocGetMultiple, if_neg fresh]

/-- The headers of the other arenas do not change when fresh pages get
theirs. -/
theorem HeapSound.arena_setArena (sound : HeapSound layout heap live)
    (fresh : layout.Fresh heap.pages range) {arena : Arena} (memory : after.memory = heap.memory) :
    ∀ other ∈ heap.pages,
      (after.setArena range.pages arena).arena other.pages = heap.arena other.pages := by
  intro other held
  have header :
      Apart other.pages (other.pages + arenaSize) range.pages
        (range.pages + arenaSize) := by
    have first := fresh.1.1
    have second := (sound.placed other held).1
    have apart := fresh.2 other held
    unfold Apart PageRange.stop pgSize arenaSize at *
    omega
  apply Heap.arena_congr
  rw [← memory]
  exact Heap.setArena_agreeOn header

/-- Adding fresh pages leaves the other arenas as they are; what remains to be
shown is about the new arena. -/
theorem HeapSafe.addPages (safe : HeapSafe layout heap live) {afterLive : List Nat}
    (fresh : layout.Fresh heap.pages range) (samePages : after.pages = range :: heap.pages)
    (headers : ∀ other ∈ heap.pages, after.arena other.pages = heap.arena other.pages)
    (freeOutside :
      ∀ d address, ¬range.Holds address → (address ∈ after.freeList d ↔ address ∈ heap.freeList d))
    (liveOutside : ∀ address, ¬range.Holds address → (address ∈ afterLive ↔ address ∈ live))
    (freeOnce : ∀ d, (after.freeList d).Nodup) (liveOnce : afterLive.Nodup)
    (own : ArenaSound layout after afterLive range)
    (freeInside :
      ∀ d, ∀ address ∈ after.freeList d, range.Holds address →
        BlockOf layout after range address (some d))
    (liveInside :
      ∀ address ∈ afterLive, range.Holds address →
        ∃ kind, BlockOf layout after range address kind) :
    HeapSound layout after afterLive ∧ Keeps layout heap after ∧
      ∀ other ∈ heap.pages, InUse layout after other := by
  have member : range ∈ after.pages := by
    rw [samePages]
    exact List.mem_cons_self
  refine ⟨?_, ?_, ?_⟩
  · apply safe.change range
    · intro other held
      rw [samePages] at held
      rcases List.mem_cons.mp held with rfl | before
      · exact fresh.1
      · exact safe.placed other before
    · rw [samePages]
      exact List.nodup_cons.mpr ⟨fresh.not_mem, safe.pagesOnce⟩
    · intro other held different
      rw [samePages] at held
      rcases List.mem_cons.mp held with equal | before
      · exact absurd equal different
      · exact (fresh.2 other before).symm
    · intro other different
      rw [samePages, List.mem_cons]
      constructor
      · rintro (equal | before)
        · exact absurd equal different
        · exact before
      · exact Or.inr
    · intro other held _
      exact headers other held
    · exact freeOutside
    · exact liveOutside
    · exact freeOnce
    · exact liveOnce
    · intro _
      exact own
    · intro d address listed holds
      exact ⟨member, freeInside d address listed holds⟩
    · intro address lives holds
      exact ⟨member, liveInside address lives holds⟩
  · intro other held address kind block
    rw [samePages]
    exact ⟨List.mem_cons_of_mem range held, block.congr (headers other held)⟩
  · intro other held
    exact (safe.inUse other held).congr (headers other held)

/-- A new arena: all its blocks are on the free list, which was empty. -/
theorem HeapSafe.newArena (safe : HeapSafe layout heap live)
    (known : d < descs.length) (empty : heap.freeList d = []) (offer : Option Nat) :
    heap.newArena layout d offer = some none ∨
      ∃ after range,
        heap.newArena layout d offer = some (some after) ∧
        after.pages = range :: heap.pages ∧
        after.freeList d = blocksFrom range d 0 (desc d).blocksPerArena ∧
        IsSmall layout after range d ∧ HeapSound layout after live ∧
        Keeps layout heap after ∧
        ∀ other ∈ heap.pages, InUse layout after other := by
  rcases pallocGetMultiple_eq layout heap 1 offer with failed | ⟨page, offered, fresh, got⟩
  · left
    rw [Heap.newArena, failed]
  right
  generalize place : (⟨page, 1⟩ : PageRange) = range at fresh got
  have first : page = range.pages := by rw [← place]
  have single : range.cnt = 1 := by rw [← place]
  have few := blocksPerArena_lt known
  generalize written :
    ({ heap with pages := range :: heap.pages } : Heap).setArena range.pages
      ⟨arenaMagic, layout.descPtr d, (desc d).blocksPerArena⟩ = middle
  have header :
      middle.arena range.pages = ⟨arenaMagic, layout.descPtr d, (desc d).blocksPerArena⟩ := by
    rw [← written]
    apply Heap.arena_setArena
    · show arenaMagic < unsignedModulus
      decide
    · exact HeapLayout.descPtr_lt known
    · show (desc d).blocksPerArena < unsignedModulus
      unfold pgSize at few
      unfold unsignedModulus
      omega
  have headers : ∀ other ∈ heap.pages, middle.arena other.pages = heap.arena other.pages := by
    rw [← written]
    exact safe.arena_setArena fresh rfl
  have middleSmall : IsSmall layout middle range d := by
    constructor
    · exact known
    · exact single
    · rw [header]
    · rw [header]
  have lists : middle.freeList = heap.freeList := by
    rw [← written]
    rfl
  have added :=
    addBlocks_eq middleSmall (Nat.ne_of_gt fresh.1.nonnull)
      (show 0 + (desc d).blocksPerArena ≤ (desc d).blocksPerArena by omega)
  rw [lists, empty, List.nil_append] at added
  generalize target :
    middle.setFreeList d (blocksFrom range d 0 (desc d).blocksPerArena) = after at added
  have list :
      after.freeList =
        Function.update heap.freeList d
          (blocksFrom range d 0 (desc d).blocksPerArena) := by
    rw [← target, ← lists]
    rfl
  have samePages : after.pages = range :: heap.pages := by
    rw [← target, ← written]
    rfl
  have own : after.freeList d = blocksFrom range d 0 (desc d).blocksPerArena := by
    rw [list, Function.update_self]
  have elsewhere : ∀ e, e ≠ d → after.freeList e = heap.freeList e := by
    intro e different
    rw [list, Function.update_of_ne different]
  have sameHeader : ∀ a, after.arena a = middle.arena a := by
    intro a
    rw [← target]
    rfl
  have small : IsSmall layout after range d := by
    apply middleSmall.congr <;> rw [sameHeader]
  have block : ∀ b ∈ blocksFrom range d 0 (desc d).blocksPerArena,
        BlockOf layout after range b (some d) := by
    intro b member
    rcases mem_blocksFrom.mp member with ⟨idx, -, upper, place⟩
    exact ⟨small, idx, by omega, place⟩
  rcases safe.fresh_holds fresh with ⟨freeAway, liveAway⟩
  have sound :
      HeapSound layout after live ∧ Keeps layout heap after ∧
        ∀ other ∈ heap.pages, InUse layout after other := by
    apply safe.addPages fresh samePages
    · intro other held
      rw [sameHeader]
      exact headers other held
    · intro e address outside
      by_cases same : e = d
      · subst same
        rw [own, empty]
        constructor
        · intro listed
          exact absurd ((block address listed).holds fresh.1) outside
        · intro listed
          cases listed
      · rw [elsewhere e same]
    · intro address _
      rfl
    · intro e
      by_cases same : e = d
      · subst same
        rw [own]
        exact List.Nodup.map (blockAt_injective known) List.nodup_range'
      · rw [elsewhere e same]
        exact safe.freeOnce e
    · exact safe.liveOnce
    · right
      have listed :
          ∀ idx, idx < (desc d).blocksPerArena →
            blockAt range d idx ∈ after.freeList d := by
        intro idx inArena
        rw [own]
        exact mem_blocksFrom.mpr ⟨idx, by omega, by omega, rfl⟩
      refine ⟨d, small, ?_, ?_⟩
      · have full :
            freeIndices range d (after.freeList d) = Finset.range (desc d).blocksPerArena := by
          apply Finset.filter_true_of_mem
          intro idx inArena
          exact listed idx (Finset.mem_range.mp inArena)
        rw [sameHeader, header, full, Finset.card_range]
      · intro idx inArena
        have holds : range.Holds (blockAt range d idx) := by
          have member := listed idx inArena
          rw [own] at member
          exact (block _ member).holds fresh.1
        constructor
        · intro lives
          exact absurd holds (liveAway _ lives)
        · intro absent
          exact absurd (listed idx inArena) absent
    · intro e address member holds
      by_cases same : e = d
      · subst same
        rw [own] at member
        exact block address member
      · rw [elsewhere e same] at member
        exact absurd holds (freeAway e address member)
    · intro address lives holds
      exact absurd holds (liveAway address lives)
  refine ⟨after, range, ?_, samePages, own, small, sound⟩
  unfold Heap.newArena
  rw [got]
  simp only [first, written, added, Option.map_some]

theorem Keeps.trans {middle : Heap} (first : Keeps layout heap middle)
    (second : Keeps layout middle after) : Keeps layout heap after := by
  intro range member b kind block
  rcases first range member b kind block with ⟨held, between⟩
  exact second range held b kind between

/-- The sizes for which the number of pages wraps around to one. -/
def Overflows (size : Nat) : Prop := unsignedModulus ≤ size + (arenaSize - 1)

instance (size : Nat) : Decidable (Overflows size) := inferInstanceAs (Decidable (_ ≤ _))

/-- The block that `malloc` returns is new and as large as it should be,
unless the number of pages overflowed. -/
structure Allocated (layout : HeapLayout) (heap : Heap) (live : List Nat)
    (size : Nat) (offer : Option Nat) (after : Heap) (b : Nat) : Prop where
  fresh : b ∉ live
  safe : HeapSafe layout after (b :: live)
  keeps : Keeps layout heap after
  block : ∃ range ∈ after.pages, ∃ kind,
      BlockOf layout after range b kind ∧
        (size ≤ reportedSize range kind ∨
          Overflows size ∧
            (heap.pallocGetMultiple layout 1 offer).isSome = true ∧
              reportedSize range kind = pgSize - arenaSize)

/-- Enough pages are asked for, unless their number overflows. -/
theorem bigPages_enough {size pageCnt : Nat} (bounded : size < unsignedModulus)
    (asked : pageCnt = wrap (size + arenaSize + (pgSize - 1)) / pgSize) (positive : 0 < pageCnt) :
    pageCnt < unsignedModulus ∧
      (size ≤ pgSize * pageCnt - arenaSize ∨ Overflows size ∧ pageCnt = 1) := by
  unfold Overflows wrap unsignedModulus pgSize arenaSize at *
  omega

/-- Sizes too big for any descriptor get pages of their own. -/
theorem HeapSafe.mallocBig (safe : HeapSafe layout heap live) {size : Nat}
    (bounded : size < unsignedModulus) (offer : Option Nat) :
    heap.mallocBig layout size offer = (heap, none) ∨
      ∃ after b,
        heap.mallocBig layout size offer = (after, some b) ∧
          Allocated layout heap live size offer after b := by
  generalize asked : wrap (size + arenaSize + (pgSize - 1)) / pgSize = pageCnt
  rcases pallocGetMultiple_eq layout heap pageCnt offer
    with failed | ⟨page, offered, fresh, got⟩
  · left
    unfold Heap.mallocBig
    simp only [asked, failed]
  right
  have positive : 0 < pageCnt := fresh.1.1
  rcases bigPages_enough bounded asked.symm positive with ⟨small, enough⟩
  have paged : (heap.pallocGetMultiple layout pageCnt offer).isSome = true := by
    rw [got]
    rfl
  generalize place : (⟨page, pageCnt⟩ : PageRange) = range at fresh got
  have first : page = range.pages := by rw [← place]
  have count : pageCnt = range.cnt := by rw [← place]
  generalize written :
    ({ heap with pages := range :: heap.pages } : Heap).setArena range.pages
      ⟨arenaMagic, 0, pageCnt⟩ = after
  have header : after.arena range.pages = ⟨arenaMagic, 0, range.cnt⟩ := by
    rw [← written, ← count]
    apply Heap.arena_setArena
    · show arenaMagic < unsignedModulus
      decide
    · show 0 < unsignedModulus
      decide
    · exact small
  have headers : ∀ other ∈ heap.pages, after.arena other.pages = heap.arena other.pages := by
    rw [← written]
    exact safe.arena_setArena fresh rfl
  have samePages : after.pages = range :: heap.pages := by
    rw [← written]
    rfl
  have list : after.freeList = heap.freeList := by
    rw [← written]
    rfl
  have block : BlockOf layout after range (range.pages + arenaSize) none := ⟨header, rfl⟩
  have inside : range.Holds (range.pages + arenaSize) := block.holds fresh.1
  rcases safe.fresh_holds fresh with ⟨freeAway, liveAway⟩
  have new : range.pages + arenaSize ∉ live := by
    intro lives
    exact liveAway _ lives inside
  have sound :
      HeapSound layout after ((range.pages + arenaSize) :: live) ∧
        Keeps layout heap after ∧
          ∀ other ∈ heap.pages, InUse layout after other := by
    apply safe.addPages fresh samePages headers
    · intro d address _
      rw [list]
    · intro address outside
      rw [List.mem_cons]
      constructor
      · rintro (equal | lives)
        · exact absurd (equal ▸ inside) outside
        · exact lives
      · exact Or.inr
    · rw [list]
      exact safe.freeOnce
    · exact List.nodup_cons.mpr ⟨new, safe.liveOnce⟩
    · left
      exact ⟨header, List.mem_cons_self⟩
    · intro d address listed holds
      rw [list] at listed
      exact absurd holds (freeAway d address listed)
    · intro address lives holds
      rcases List.mem_cons.mp lives with rfl | before
      · exact ⟨none, block⟩
      · exact absurd holds (liveAway address before)
  rcases sound with ⟨sound, keeps, used⟩
  refine ⟨after, range.pages + arenaSize, ?_, new, ⟨sound, ?_⟩, keeps, ?_⟩
  · unfold Heap.mallocBig
    simp only [asked, got, first, written]
  · intro other held
    rw [samePages] at held
    rcases List.mem_cons.mp held with rfl | before
    · intro d again
      have second : BlockOf layout after other (blockAt other d 0) (some d) :=
        ⟨again, 0, (desc_sound again.known).2.1, rfl⟩
      cases block.kind_unique second
    · exact used other before
  · refine ⟨range, ?_, none, block, ?_⟩
    · rw [samePages]
      exact List.mem_cons_self
    · simp only [reportedSize, ← count]
      rcases enough with enough | ⟨overflows, one⟩
      · exact Or.inl enough
      · rw [one] at paged
        exact Or.inr ⟨overflows, paged, by rw [one, Nat.mul_one]⟩

/-- `malloc` fails without a change or returns a new block. -/
theorem HeapSafe.malloc (safe : HeapSafe layout heap live) {size : Nat}
    (bounded : size < unsignedModulus) (offer : Option Nat) :
    heap.malloc layout size offer = some (heap, none) ∨
      ∃ after b,
        heap.malloc layout size offer = some (after, some b) ∧
          Allocated layout heap live size offer after b := by
  unfold Heap.malloc
  by_cases zero : size = 0
  · left
    rw [if_pos zero]
  rw [if_neg zero]
  by_cases big : findDesc size = descs.length
  · rw [if_pos big, Option.some.injEq]
    rcases safe.mallocBig bounded offer with failed | ⟨after, b, done, alloc⟩
    · exact Or.inl failed
    · exact Or.inr ⟨after, b, congrArg some done, alloc⟩
  rw [if_neg big]
  have known : findDesc size < descs.length := by
    have bound := findDesc_le size
    omega
  have fits := le_blockSize_findDesc known
  generalize findDesc size = d at *
  cases list : heap.freeList d with
  | cons b rest =>
      rw [if_neg (List.cons_ne_nil b rest)]
      right
      rcases safe.takeBlock list with
        ⟨after, range, taken, member, block, samePages, sound, keeps, used, others⟩
      have free : b ∈ heap.freeList d := by
        rw [list]
        exact List.mem_cons_self
      refine ⟨after, b, taken, safe.not_live free, ⟨sound, ?_⟩, keeps, ?_⟩
      · intro other held
        rw [samePages] at held
        by_cases same : other = range
        · exact same ▸ used
        · exact others other held same (safe.inUse other held)
      · rcases keeps range member b (some d) block with ⟨held, stays⟩
        exact ⟨range, held, some d, stays, Or.inl fits⟩
  | nil =>
      rw [if_pos rfl]
      rcases safe.newArena known list offer with
        failed | ⟨middle, range, made, middlePages, own, small, middleSound, firstKeeps, used⟩
      · left
        rw [failed]
        rfl
      right
      cases top : middle.freeList d with
      | nil =>
          exfalso
          rw [own] at top
          have room := (desc_sound known).2.1
          have first : blockAt range d 0 ∈ blocksFrom range d 0 (desc d).blocksPerArena :=
            mem_blocksFrom.mpr ⟨0, le_rfl, by omega, rfl⟩
          rw [top] at first
          cases first
      | cons b rest =>
          rcases middleSound.takeBlock top with
            ⟨after, owner, taken, member, block, samePages, sound, keeps, ownUsed, others⟩
          have free : b ∈ middle.freeList d := by
            rw [top]
            exact List.mem_cons_self
          have same : owner = range := by
            have listed := free
            rw [own] at listed
            rcases mem_blocksFrom.mp listed with ⟨idx, -, upper, place⟩
            have inNew : BlockOf layout middle range b (some d) := ⟨small, idx, by omega, place⟩
            have held : range ∈ middle.pages := by
              rw [middlePages]
              exact List.mem_cons_self
            exact
              middleSound.range_unique member held
                (block.holds (middleSound.placed owner member))
                (inNew.holds (middleSound.placed range held))
          subst same
          refine ⟨after, b, ?_, middleSound.not_live free, ⟨sound, ?_⟩, firstKeeps.trans keeps, ?_⟩
          · rw [made]
            exact taken
          · intro other held
            rw [samePages] at held
            by_cases equal : other = owner
            · exact equal ▸ ownUsed
            · have before := held
              rw [middlePages, List.mem_cons] at before
              rcases before with new | old
              · exact absurd new equal
              · exact others other held equal (used other old)
          · rcases keeps owner member b (some d) block with ⟨held, stays⟩
            exact ⟨owner, held, some d, stays, Or.inl fits⟩

end Calls

end CS162.Threads
