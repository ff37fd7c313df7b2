import CS162.Threads.MallocCalls

/-!
# Writes to blocks, and `free`

A write within a live block keeps off headers and free blocks.  `free` makes a
block free, or gives back the pages of an arena without live blocks.
-/

namespace CS162.Threads

open CS162.Foundation
open CS162.Userprog (pgSize)

section Free

variable {layout : HeapLayout} {heap after : Heap} {live : List Nat}
variable {range other : PageRange} {kind : Option Nat} {b d size : Nat}

/-- A live block may be written to. -/
theorem HeapSound.writable (sound : HeapSound layout heap live)
    (lives : b ∈ live) (member : range ∈ heap.pages) (block : BlockOf layout heap range b kind)
    (fits : size ≤ reportedSize range kind) :
    heap.Writable layout b size := by
  constructor
  · rcases block.span (sound.placed range member) with ⟨-, -, last, -⟩
    rcases sound.placed range member with ⟨-, -, -, inPool⟩
    have inRam := layout.inRam
    omega
  · intro e _ free listed
    rcases sound.freeBlocks e free listed with ⟨owner, held, freeBlock⟩
    rcases freeBlock.span (sound.placed owner held) with ⟨-, -, -, room⟩
    have different : free ≠ b := by
      rintro rfl
      exact sound.not_live listed lives
    rcases sound.blocks_apart held member freeBlock block different with before | after
    · exact Or.inl (by omega)
    · exact Or.inr (by omega)

/-- A write within a live block leaves a sound heap. -/
theorem HeapSafe.writeBlock (safe : HeapSafe layout heap live)
    (memory : Memory) (member : range ∈ heap.pages) (block : BlockOf layout heap range b kind)
    (fits : size ≤ reportedSize range kind)
    (outside :
      ∀ start stop, Apart start stop b (b + size) → memory.AgreeOn heap.memory start stop) :
    HeapSafe layout { heap with memory := memory } live ∧
      Keeps layout heap { heap with memory := memory } := by
  apply safe.write
  intro other held
  apply outside
  rcases safe.header_apart member held block with before | after
  · exact Or.inl before
  · exact Or.inr (by omega)

/-- `memset` on a live block. -/
theorem HeapSafe.memset (safe : HeapSafe layout heap live) (lives : b ∈ live)
    (member : range ∈ heap.pages) (block : BlockOf layout heap range b kind)
    (fits : size ≤ reportedSize range kind) (value : UInt8) :
    ∃ after,
      heap.memset layout b value size = some after ∧
        after.pages = heap.pages ∧ HeapSafe layout after live ∧
          Keeps layout heap after := by
  refine ⟨_, if_pos (safe.writable lives member block fits), rfl, ?_⟩
  apply safe.writeBlock _ member block fits
  intro start stop apart
  exact Memory.fill_agreeOn apart

/-- `memcpy` to a live block. -/
theorem HeapSafe.memcpy (safe : HeapSafe layout heap live) (lives : b ∈ live)
    (member : range ∈ heap.pages) (block : BlockOf layout heap range b kind)
    (fits : size ≤ reportedSize range kind) (source : Nat) :
    ∃ after,
      heap.memcpy layout b source size = some after ∧
        after.pages = heap.pages ∧ HeapSafe layout after live ∧
          Keeps layout heap after := by
  refine ⟨_, if_pos (safe.writable lives member block fits), rfl, ?_⟩
  apply safe.writeBlock _ member block fits
  intro start stop apart
  exact Memory.copy_agreeOn apart

/-- Taking away the pages of an arena that has no block left leaves the other
arenas as they are. -/
theorem HeapSafe.removePages (safe : HeapSafe layout heap live)
    {afterLive : List Nat} (member : range ∈ heap.pages)
    (samePages : after.pages = heap.pages.erase range)
    (headers :
      ∀ other ∈ heap.pages, other ≠ range → after.arena other.pages = heap.arena other.pages)
    (freeOutside :
      ∀ d address, ¬range.Holds address → (address ∈ after.freeList d ↔ address ∈ heap.freeList d))
    (liveOutside : ∀ address, ¬range.Holds address → (address ∈ afterLive ↔ address ∈ live))
    (freeOnce : ∀ d, (after.freeList d).Nodup) (liveOnce : afterLive.Nodup)
    (freeInside : ∀ d, ∀ address ∈ after.freeList d, ¬range.Holds address)
    (liveInside : ∀ address ∈ afterLive, ¬range.Holds address) :
    HeapSafe layout after afterLive := by
  have remains : ∀ other, other ∈ after.pages ↔ other ≠ range ∧ other ∈ heap.pages := by
    intro other
    rw [samePages]
    exact safe.pagesOnce.mem_erase_iff
  have gone : range ∉ after.pages := by
    rw [remains]
    rintro ⟨different, -⟩
    exact different rfl
  constructor
  · apply safe.change range
    · intro other held
      exact safe.placed other ((remains other).mp held).2
    · rw [samePages]
      exact safe.pagesOnce.erase range
    · intro other held different
      exact safe.apart other ((remains other).mp held).2 range member different
    · intro other different
      rw [remains]
      exact and_iff_right different
    · exact headers
    · exact freeOutside
    · exact liveOutside
    · exact freeOnce
    · exact liveOnce
    · intro held
      exact absurd held gone
    · intro d address listed holds
      exact absurd holds (freeInside d address listed)
    · intro address lives holds
      exact absurd holds (liveInside address lives)
  · intro other held
    rcases (remains other).mp held with ⟨different, before⟩
    exact (safe.inUse other before).congr (headers other before different)

/-- The loop of `free` takes the blocks of the arena off the free list. -/
theorem removeBlocks_eq {remaining : Nat}
    (small : IsSmall layout heap range d) (nonnull : range.pages ≠ 0)
    {i : Nat} (inArena : i + remaining ≤ (desc d).blocksPerArena) (once : (heap.freeList d).Nodup)
    (listed : ∀ b ∈ blocksFrom range d i remaining, b ∈ heap.freeList d) :
    ∃ list,
      heap.removeBlocks layout range.pages d i remaining = some (heap.setFreeList d list) ∧
        list.Nodup ∧
          ∀ b, b ∈ list ↔ b ∈ heap.freeList d ∧ b ∉ blocksFrom range d i remaining := by
  induction remaining generalizing heap i with
  | zero =>
      have same : Function.update heap.freeList d (heap.freeList d) = heap.freeList :=
        Function.update_eq_self d heap.freeList
      refine ⟨heap.freeList d, ?_, once, ?_⟩
      · simp only [Heap.removeBlocks, Heap.setFreeList, same]
      · intro b
        simp [blocksFrom]
  | succ remaining inductionHypothesis =>
      have split :
          blocksFrom range d i (remaining + 1) =
            blockAt range d i :: blocksFrom range d (i + 1) remaining := by
        simp only [blocksFrom, List.range'_succ, List.map_cons]
      have apart : blockAt range d i ∉ blocksFrom range d (i + 1) remaining := by
        intro member
        rcases mem_blocksFrom.mp member with ⟨idx, lower, -, equal⟩
        have same := blockAt_injective small.known equal
        omega
      have first : blockAt range d i ∈ heap.freeList d := by
        apply listed
        rw [split]
        exact List.mem_cons_self
      have erased :
          ∀ b, b ∈ (heap.freeList d).erase (blockAt range d i) ↔
            b ≠ blockAt range d i ∧ b ∈ heap.freeList d := by
        intro b
        exact once.mem_erase_iff
      generalize step : heap.setFreeList d ((heap.freeList d).erase (blockAt range d i)) = middle
      have own : middle.freeList d = (heap.freeList d).erase (blockAt range d i) := by
        rw [← step]
        exact Function.update_self d _ _
      have middleSmall : IsSmall layout middle range d := by
        rw [← step]
        exact small.congr rfl rfl
      have middleOnce : (middle.freeList d).Nodup := by
        rw [own]
        exact once.erase _
      have middleListed : ∀ b ∈ blocksFrom range d (i + 1) remaining, b ∈ middle.freeList d := by
        intro b member
        rw [own, erased]
        constructor
        · rintro rfl
          exact apart member
        · apply listed
          rw [split]
          exact List.mem_cons_of_mem _ member
      rcases
        inductionHypothesis middleSmall
          (show i + 1 + remaining ≤ (desc d).blocksPerArena by omega)
          middleOnce middleListed with
        ⟨list, rest, listOnce, members⟩
      refine ⟨list, ?_, listOnce, ?_⟩
      · rw [Heap.removeBlocks, small.arenaToBlock nonnull (by omega),
          Option.bind_some, if_pos first, step, rest, ← step]
        simp only [Heap.setFreeList, Function.update_idem]
      · intro b
        rw [members, own, erased, split, List.mem_cons]
        constructor
        · rintro ⟨⟨different, free⟩, away⟩
          refine ⟨free, ?_⟩
          rintro (equal | later)
          · exact different equal
          · exact away later
        · rintro ⟨free, away⟩
          exact ⟨⟨fun equal => away (Or.inl equal), free⟩, fun later => away (Or.inr later)⟩

/-- The pages of an arena cover no header of another arena. -/
theorem HeapSound.arena_fill (sound : HeapSound layout heap live)
    (member : range ∈ heap.pages) (value : UInt8)
    (memory : after.memory = heap.memory.fill range.pages (range.cnt * pgSize) value) :
    ∀ other ∈ heap.pages, other ≠ range →
      after.arena other.pages = heap.arena other.pages := by
  intro other held different
  have apart := sound.apart other held range member different
  have positive := (sound.placed other held).1
  apply Heap.arena_congr
  rw [memory]
  apply Memory.fill_agreeOn
  unfold Apart PageRange.stop arenaSize pgSize at *
  omega

/-- An arena all of whose blocks are on the free list. -/
theorem mem_of_card_freeIndices {list : List Nat}
    (full : (freeIndices range d list).card = (desc d).blocksPerArena)
    {idx : Nat} (inArena : idx < (desc d).blocksPerArena) :
    blockAt range d idx ∈ list := by
  have every : freeIndices range d list = Finset.range (desc d).blocksPerArena := by
    apply Finset.eq_of_subset_of_card_le (Finset.filter_subset _ _)
    rw [Finset.card_range]
    exact full.ge
  have member : idx ∈ freeIndices range d list := by
    rw [every]
    exact Finset.mem_range.mpr inArena
  exact (Finset.mem_filter.mp member).2

theorem mem_without {address : Nat} : address ∈ without live b ↔ address ∈ live ∧ address ≠ b := by
  unfold without
  rw [List.mem_filter, decide_eq_true_iff]

/-- `free` of a big block gives its pages back. -/
theorem HeapSafe.freeBig (safe : HeapSafe layout heap live) (member : range ∈ heap.pages)
    (block : BlockOf layout heap range b none) :
    ∃ after,
      heap.free layout (some b) = some after ∧
        HeapSafe layout after (without live b) := by
  have placed := safe.placed range member
  have header : heap.arena range.pages = ⟨arenaMagic, 0, range.cnt⟩ := block.1
  have inside : range.Holds b := block.holds placed
  have alone :
      ∀ {address kind}, BlockOf layout heap range address kind →
        address = b := by
    intro address kind other
    have same := block.kind_unique other
    subst same
    exact other.2.trans block.2.symm
  have found : heap.free layout (some b) = heap.pallocFreeMultiple range := by
    simp only [Heap.free, block.blockToArena placed, Option.bind_some, header]
  generalize target :
    ({ heap with
        pages := heap.pages.erase range
        memory :=
          heap.memory.fill range.pages (range.cnt * pgSize) 0xcc } : Heap) =
      after
  have lists : after.freeList = heap.freeList := by rw [← target]
  refine ⟨after, ?_, ?_⟩
  · rw [found, Heap.pallocFreeMultiple, if_pos member, target]
  · apply safe.removePages member
    · rw [← target]
    · apply safe.arena_fill member
      rw [← target]
    · intro d address _
      rw [lists]
    · intro address outside
      rw [mem_without]
      constructor
      · exact And.left
      · intro lives
        refine ⟨lives, ?_⟩
        rintro rfl
        exact outside inside
    · rw [lists]
      exact safe.freeOnce
    · exact safe.liveOnce.filter _
    · intro d address listed holds
      rw [lists] at listed
      cases block.kind_unique (safe.free_block member listed holds)
    · intro address lives holds
      rw [mem_without] at lives
      rcases safe.live_block member lives.1 holds with ⟨kind, other⟩
      exact lives.2 (alone other)

/-- `free_cnt` goes up by one, and so does the number of free blocks. -/
theorem HeapSafe.freeCnt_succ (safe : HeapSafe layout heap live)
    (lives : b ∈ live) (member : range ∈ heap.pages)
    (block : BlockOf layout heap range b (some d)) :
    b ∉ heap.freeList d ∧
      wrap ((heap.arena range.pages).freeCnt + 1) =
        (freeIndices range d (b :: heap.freeList d)).card ∧
      (freeIndices range d (b :: heap.freeList d)).card ≤ (desc d).blocksPerArena := by
  have small := safe.smallSound member block
  have known := small.small.known
  rcases block.2 with ⟨idx, inArena, place⟩
  have used : b ∉ heap.freeList d := by
    intro listed
    exact safe.not_live listed lives
  have counted := card_freeIndices_cons known inArena place used
  have bound := card_freeIndices_lt range known (b :: heap.freeList d)
  refine ⟨used, ?_, card_freeIndices_le range d (b :: heap.freeList d)⟩
  rw [small.counted, ← counted]
  exact wrap_of_lt bound

/-- A block that is not the last one of its arena goes to the free list. -/
theorem HeapSafe.freeKeep (safe : HeapSafe layout heap live)
    (lives : b ∈ live) (member : range ∈ heap.pages) (block : BlockOf layout heap range b (some d))
    (others : (freeIndices range d (b :: heap.freeList d)).card < (desc d).blocksPerArena) :
    HeapSafe layout
      ((heap.setFreeList d (b :: heap.freeList d)).setFreeCnt range.pages
        (freeIndices range d (b :: heap.freeList d)).card)
      (without live b) := by
  rcases safe.freeCnt_succ lives member block with ⟨used, -, -⟩
  rcases
    safe.relist member block (List.nodup_cons.mpr ⟨used, safe.freeOnce d⟩)
      (fun address different => mem_cons_iff_of_ne different)
      (fun e listed => absurd lives (safe.not_live listed))
      (fun address different => mem_without.trans (and_iff_left different))
      (iff_of_false (fun kept => (mem_without.mp kept).2 rfl)
        (not_not_intro List.mem_cons_self))
      (safe.liveOnce.filter _) rfl with
    ⟨afterSound, keeps, count, headers⟩
  refine ⟨afterSound, ?_⟩
  intro other held
  by_cases same : other = range
  · subst same
    apply (keeps other member b (some d) block).2.inUse
    rw [count]
    exact others
  · exact (safe.inUse other held).congr (headers other held same)

/-- The last live block of an arena takes the arena with it. -/
theorem HeapSafe.freeLast (safe : HeapSafe layout heap live)
    (lives : b ∈ live) (member : range ∈ heap.pages) (block : BlockOf layout heap range b (some d))
    (full : (freeIndices range d (b :: heap.freeList d)).card = (desc d).blocksPerArena) :
    ∃ after,
      (((heap.setFreeList d (b :: heap.freeList d)).setFreeCnt range.pages
              (desc d).blocksPerArena).removeBlocks
            layout range.pages d 0 (desc d).blocksPerArena).bind
          (·.pallocFreeMultiple ⟨range.pages, 1⟩) = some after ∧
        HeapSafe layout after (without live b) := by
  rcases safe.freeCnt_succ lives member block with ⟨used, -, -⟩
  have placed := safe.placed range member
  have small := safe.smallSound member block
  have known := small.small.known
  have inside : range.Holds b := block.holds placed
  have bound := card_freeIndices_lt range known (b :: heap.freeList d)
  rw [full] at bound
  have written :=
    safe.arena_setFreeCnt member bound
      (show (heap.setFreeList d (b :: heap.freeList d)).memory = heap.memory from rfl)
  generalize pushed :
    (heap.setFreeList d (b :: heap.freeList d)).setFreeCnt range.pages
      (desc d).blocksPerArena = middle at written
  rcases written with ⟨header, headers⟩
  have list : middle.freeList = Function.update heap.freeList d (b :: heap.freeList d) := by
    rw [← pushed]
    rfl
  have own : middle.freeList d = b :: heap.freeList d := by
    rw [list, Function.update_self]
  have middleSmall : IsSmall layout middle range d := by
    apply block.1.congr <;> rw [header]
  have every :
      ∀ address, BlockOf layout heap range address (some d) →
        address ∈ b :: heap.freeList d ∧
          address ∈ blocksFrom range d 0 (desc d).blocksPerArena := by
    rintro address ⟨-, idx, inArena, rfl⟩
    exact ⟨mem_of_card_freeIndices full inArena, mem_blocksFrom.mpr ⟨idx, by omega, by omega, rfl⟩⟩
  have ofArena : ∀ address ∈ blocksFrom range d 0 (desc d).blocksPerArena,
        BlockOf layout heap range address (some d) := by
    intro address listed
    rcases mem_blocksFrom.mp listed with ⟨idx, -, upper, place⟩
    exact ⟨block.1, idx, by omega, place⟩
  have once : (middle.freeList d).Nodup := by
    rw [own]
    exact List.nodup_cons.mpr ⟨used, safe.freeOnce d⟩
  have listed : ∀ address ∈ blocksFrom range d 0 (desc d).blocksPerArena,
        address ∈ middle.freeList d := by
    intro address listed
    rw [own]
    exact (every address (ofArena address listed)).1
  rcases
    removeBlocks_eq middleSmall (Nat.ne_of_gt placed.nonnull)
      (show 0 + (desc d).blocksPerArena ≤ (desc d).blocksPerArena by omega)
      once listed with
    ⟨rest, removed, restOnce, members⟩
  have single : (⟨range.pages, 1⟩ : PageRange) = range := by
    rw [← block.1.single]
  have middlePages : middle.pages = heap.pages := by
    rw [← pushed]
    rfl
  generalize target :
    ({ middle.setFreeList d rest with
        pages := middle.pages.erase range
        memory :=
          middle.memory.fill range.pages (range.cnt * pgSize) 0xcc } : Heap) =
      after
  have lists : after.freeList = Function.update heap.freeList d rest := by
    rw [← target]
    show Function.update middle.freeList d rest = _
    rw [list, Function.update_idem]
  have elsewhere : ∀ e, e ≠ d → after.freeList e = heap.freeList e := by
    intro e different
    rw [lists, Function.update_of_ne different]
  have free_iff :
      ∀ address, address ∈ after.freeList d ↔
        address ∈ b :: heap.freeList d ∧
          address ∉ blocksFrom range d 0 (desc d).blocksPerArena := by
    intro address
    rw [lists, Function.update_self, members, own]
  refine ⟨after, ?_, ?_⟩
  · have held : range ∈ (middle.setFreeList d rest).pages := by
      show range ∈ middle.pages
      rw [middlePages]
      exact member
    rw [removed, Option.bind_some, single, Heap.pallocFreeMultiple, if_pos held, ← target]
    rfl
  · apply safe.removePages member
    · rw [← target, ← middlePages]
    · intro other held different
      rw [← headers other held different]
      have apart := safe.apart other held range member different
      have positive := (safe.placed other held).1
      apply Heap.arena_congr
      rw [← target]
      apply Memory.fill_agreeOn
      unfold Apart PageRange.stop arenaSize pgSize at *
      omega
    · intro e address outside
      by_cases same : e = d
      · subst same
        rw [free_iff, List.mem_cons]
        constructor
        · rintro ⟨equal | before, -⟩
          · exact absurd (equal ▸ inside) outside
          · exact before
        · intro before
          refine ⟨Or.inr before, ?_⟩
          intro again
          exact outside ((ofArena address again).holds placed)
      · rw [elsewhere e same]
    · intro address outside
      rw [mem_without]
      constructor
      · exact And.left
      · intro before
        refine ⟨before, ?_⟩
        rintro rfl
        exact outside inside
    · intro e
      by_cases same : e = d
      · subst same
        rw [lists, Function.update_self]
        exact restOnce
      · rw [elsewhere e same]
        exact safe.freeOnce e
    · exact safe.liveOnce.filter _
    · intro e address member' holds
      by_cases same : e = d
      · subst same
        rcases (free_iff address).mp member' with ⟨before, away⟩
        have owned : BlockOf layout heap range address (some e) := by
          rcases List.mem_cons.mp before with rfl | old
          · exact block
          · exact safe.free_block member old holds
        exact away (every address owned).2
      · rw [elsewhere e same] at member'
        have owned := safe.free_block member member' holds
        exact same (Option.some.inj (owned.kind_unique block))
    · intro address member' holds
      rw [mem_without] at member'
      rcases safe.live_block member member'.1 holds with ⟨kind, owned⟩
      have same := block.kind_unique owned
      subst same
      rcases List.mem_cons.mp (every address owned).1 with equal | old
      · exact member'.2 equal
      · exact safe.not_live old member'.1

/-- `free` of a live block never fails. -/
theorem HeapSafe.free (safe : HeapSafe layout heap live) (lives : b ∈ live) : ∃ after,
      heap.free layout (some b) = some after ∧
        HeapSafe layout after (without live b) := by
  rcases safe.liveBlocks b lives with ⟨range, member, kind, block⟩
  cases kind with
  | none => exact safe.freeBig member block
  | some d =>
      have placed := safe.placed range member
      rcases safe.memset lives member block
        (show (desc d).blockSize ≤ reportedSize range (some d) from le_rfl)
        0xcc with ⟨middle, filled, samePages, middleSafe, keeps⟩
      rcases keeps range member b (some d) block with ⟨held, middleBlock⟩
      rcases middleSafe.freeCnt_succ lives held middleBlock with ⟨used, counted, bound⟩
      have found :
          heap.free layout (some b) =
            (middle.setFreeList d (b :: middle.freeList d)).releaseArena
              layout range.pages d := by
        simp only [Heap.free, block.blockToArena placed, Option.bind_some, filled]
      have header :
          (middle.setFreeList d (b :: middle.freeList d)).arena range.pages =
            middle.arena range.pages := rfl
      rw [found, Heap.releaseArena, header, counted]
      by_cases full : (freeIndices range d (b :: middle.freeList d)).card = (desc d).blocksPerArena
      · simp only [full, le_refl, if_true]
        exact middleSafe.freeLast lives held middleBlock full
      · rw [if_neg (by omega)]
        refine ⟨_, rfl, ?_⟩
        exact middleSafe.freeKeep lives held middleBlock (by omega)

end Free

end CS162.Threads
