import CS162.Foundation.Memory
import CS162.Foundation.TransitionSystem
import CS162.Threads.Palloc

/-!
# The kernel heap

`threads/malloc.c`, for one caller after the other.  The header of an arena
lies in memory, at the start of its pages, so that a write out of bounds can
destroy it; a free list is the list of the addresses of its blocks.  A failed
assertion, a page fault and a write to the list element of a free block are
`none`.
-/

namespace CS162.Threads

open CS162.Foundation
open CS162.Userprog (pgSize)

/-- `pg_round_down`. -/
def pgRoundDown (address : Nat) : Nat := address - address % pgSize

/-- `struct desc` without its free list and its lock. -/
structure Desc where
  blockSize : Nat
  blocksPerArena : Nat
  deriving DecidableEq, Repr

/-- `sizeof(struct desc)`. -/
def descSize : Nat := 48

/-- `sizeof(struct arena)`. -/
def arenaSize : Nat := 12

/-- `sizeof(struct block)`. -/
def blockElemSize : Nat := 8

/-- `ARENA_MAGIC`. -/
def arenaMagic : Nat := 0x9a548eed

/-- The loop of `malloc_init`, with room for so many more descriptors. -/
def mallocInitLoop (blockSize : Nat) : Nat → Option (List Desc)
  | 0 => if blockSize < pgSize / 2 then none else some []
  | room + 1 =>
      if blockSize < pgSize / 2 then
        (mallocInitLoop (blockSize * 2) room).map
          (⟨blockSize, (pgSize - arenaSize) / blockSize⟩ :: ·)
      else some []

/-- `malloc_init`. -/
def mallocInit : Option (List Desc) := mallocInitLoop 16 10

/-- `descs` after `malloc_init`. -/
def descs : List Desc := mallocInit.getD []

/-- One of `descs`. -/
def desc (d : Nat) : Desc := descs.getD d ⟨0, 0⟩

/-- The descriptor that `malloc` finds, or their number. -/
def findDesc (size : Nat) : Nat := descs.findIdx (size ≤ ·.blockSize)

/-- Where things are in memory: the pages of the kernel pool, the end of RAM
and the descriptors, which belong to the kernel image below the pool. -/
structure HeapLayout where
  descTable : Nat
  base : Nat
  stop : Nat
  ramEnd : Nat
  nonnull : 0 < descTable
  below : descTable + 10 * descSize ≤ base
  ordered : base ≤ stop
  inRam : stop ≤ ramEnd
  addressable : ramEnd < unsignedModulus

namespace HeapLayout

/-- `&descs[d]`. -/
def descPtr (layout : HeapLayout) (d : Nat) : Nat := layout.descTable + descSize * d

/-- What a pointer to a descriptor points to; it may be null, and nothing can
be said about a pointer that is neither. -/
def descOf (layout : HeapLayout) (ptr : Nat) : Option (Option Nat) :=
  let d := (ptr - layout.descTable) / descSize
  if ptr = 0 then some none
  else if d < descs.length ∧ ptr = layout.descPtr d then some (some d)
  else none

/-- A range of whole pages of the kernel pool. -/
def Placed (layout : HeapLayout) (range : PageRange) : Prop :=
  0 < range.cnt ∧ pgOfs range.pages = 0 ∧ layout.base ≤ range.pages ∧ range.stop ≤ layout.stop

instance (layout : HeapLayout) (range : PageRange) : Decidable (layout.Placed range) :=
  inferInstanceAs (Decidable (_ ∧ _ ∧ _ ∧ _))

/-- The page allocator may hand out the range besides the others. -/
def Fresh (layout : HeapLayout) (pages : List PageRange) (range : PageRange) : Prop :=
  layout.Placed range ∧ ∀ other ∈ pages, Apart range.pages range.stop other.pages other.stop

instance (layout : HeapLayout) (pages : List PageRange) (range : PageRange) :
    Decidable (layout.Fresh pages range) :=
  inferInstanceAs (Decidable (_ ∧ _))

end HeapLayout

/-- `struct arena`. -/
structure Arena where
  magic : Nat
  desc : Nat
  freeCnt : Nat
  deriving DecidableEq, Repr

/-- Memory, the free lists, and the pages obtained from the page allocator and
not given back. -/
structure Heap where
  memory : Memory
  freeList : Nat → List Nat
  pages : List PageRange

namespace Heap

/-- The header of the arena at an address. -/
def arena (heap : Heap) (a : Nat) : Arena where
  magic := heap.memory.load32 a
  desc := heap.memory.load32 (a + 4)
  freeCnt := heap.memory.load32 (a + 8)

def setArena (heap : Heap) (a : Nat) (arena : Arena) : Heap :=
  { heap with
    memory :=
      ((heap.memory.store32 a arena.magic).store32 (a + 4) arena.desc).store32
        (a + 8) arena.freeCnt }

def setFreeCnt (heap : Heap) (a freeCnt : Nat) : Heap :=
  { heap with memory := heap.memory.store32 (a + 8) freeCnt }

def setFreeList (heap : Heap) (d : Nat) (list : List Nat) : Heap :=
  { heap with freeList := Function.update heap.freeList d list }

/-- A write neither leaves RAM nor hits the list element of a free block. -/
def Writable (layout : HeapLayout) (heap : Heap) (start size : Nat) : Prop :=
  start + size ≤ layout.ramEnd ∧
    ∀ d ∈ List.range descs.length, ∀ b ∈ heap.freeList d,
      Apart b (b + blockElemSize) start (start + size)

instance (layout : HeapLayout) (heap : Heap) (start size : Nat) :
    Decidable (heap.Writable layout start size) :=
  inferInstanceAs (Decidable (_ ∧ _))

/-- `memset`. -/
def memset (layout : HeapLayout) (heap : Heap) (start : Nat) (value : UInt8)
    (size : Nat) : Option Heap :=
  if heap.Writable layout start size then
    some { heap with memory := heap.memory.fill start size value }
  else none

/-- `memcpy`. -/
def memcpy (layout : HeapLayout) (heap : Heap) (target source size : Nat) : Option Heap :=
  if heap.Writable layout target size then
    some { heap with memory := heap.memory.copy target source size }
  else none

/-- `palloc_get_multiple` without flags.  The page allocator offers a page
address or nothing; it never offers a page that is in use. -/
def pallocGetMultiple (layout : HeapLayout) (heap : Heap) (pageCnt : Nat) :
    Option Nat → Option (Nat × Heap)
  | some page =>
      if layout.Fresh heap.pages ⟨page, pageCnt⟩ then
        some (page, { heap with pages := ⟨page, pageCnt⟩ :: heap.pages })
      else none
  | none => none

/-- `palloc_free_multiple`; the pages must have been obtained together. -/
def pallocFreeMultiple (heap : Heap) (range : PageRange) : Option Heap :=
  if range ∈ heap.pages then
    some
      { heap with
        pages := heap.pages.erase range
        memory := heap.memory.fill range.pages (range.cnt * pgSize) 0xcc }
  else none

/-- `block_to_arena`, with the descriptor of the arena. -/
def blockToArena (layout : HeapLayout) (heap : Heap) (b : Nat) : Option (Nat × Option Nat) :=
  let a := pgRoundDown b
  if a = 0 then none
  else if (heap.arena a).magic ≠ arenaMagic then none
  else
    match layout.descOf (heap.arena a).desc with
    | none => none
    | some none => if pgOfs b = arenaSize then some (a, none) else none
    | some (some d) =>
        if wrap (pgOfs b + (unsignedModulus - arenaSize)) %
            (desc d).blockSize = 0 then
          some (a, some d)
        else none

/-- `arena_to_block`. -/
def arenaToBlock (layout : HeapLayout) (heap : Heap) (a idx : Nat) : Option Nat :=
  if a = 0 then none
  else if (heap.arena a).magic ≠ arenaMagic then none
  else
    match layout.descOf (heap.arena a).desc with
    | some (some d) =>
        if idx < (desc d).blocksPerArena then
          some (a + arenaSize + idx * (desc d).blockSize)
        else none
    | _ => none

/-- The loop of `malloc` that adds the blocks of a new arena to the free
list. -/
def addBlocks (layout : HeapLayout) (heap : Heap) (a d i : Nat) : Nat → Option Heap
  | 0 => some heap
  | remaining + 1 =>
      (heap.arenaToBlock layout a i).bind fun b =>
        (heap.setFreeList d (heap.freeList d ++ [b])).addBlocks layout a d (i + 1) remaining

/-- The loop of `free` that takes the blocks of an arena off the free list. -/
def removeBlocks (layout : HeapLayout) (heap : Heap) (a d i : Nat) : Nat → Option Heap
  | 0 => some heap
  | remaining + 1 =>
      (heap.arenaToBlock layout a i).bind fun b =>
        if b ∈ heap.freeList d then
          (heap.setFreeList d ((heap.freeList d).erase b)).removeBlocks layout a d (i + 1) remaining
        else none

/-- The part of `malloc` for sizes too big for any descriptor. -/
def mallocBig (layout : HeapLayout) (heap : Heap) (size : Nat)
    (offer : Option Nat) : Heap × Option Nat :=
  let pageCnt := wrap (size + arenaSize + (pgSize - 1)) / pgSize
  match heap.pallocGetMultiple layout pageCnt offer with
  | none => (heap, none)
  | some (a, heap) =>
      (heap.setArena a ⟨arenaMagic, 0, pageCnt⟩, some (a + arenaSize))

/-- The part of `malloc` that makes a new arena; `none` inside is the lack of
a page. -/
def newArena (layout : HeapLayout) (heap : Heap) (d : Nat)
    (offer : Option Nat) : Option (Option Heap) :=
  match heap.pallocGetMultiple layout 1 offer with
  | none => some none
  | some (a, heap) =>
      ((heap.setArena a
            ⟨arenaMagic, layout.descPtr d, (desc d).blocksPerArena⟩).addBlocks
          layout a d 0 (desc d).blocksPerArena).map some

/-- The part of `malloc` that takes a block off the free list. -/
def takeBlock (layout : HeapLayout) (heap : Heap) (d : Nat) : Option (Heap × Option Nat) :=
  match heap.freeList d with
  | [] => none
  | b :: rest =>
      ((heap.setFreeList d rest).blockToArena layout b).map fun found =>
        ((heap.setFreeList d rest).setFreeCnt found.1
            (wrap ((heap.arena found.1).freeCnt + (unsignedModulus - 1))),
          some b)

/-- `malloc`. -/
def malloc (layout : HeapLayout) (heap : Heap) (size : Nat)
    (offer : Option Nat) : Option (Heap × Option Nat) :=
  if size = 0 then some (heap, none)
  else if findDesc size = descs.length then
    some (heap.mallocBig layout size offer)
  else if heap.freeList (findDesc size) = [] then
    (heap.newArena layout (findDesc size) offer).bind fun
      | none => some (heap, none)
      | some heap => heap.takeBlock layout (findDesc size)
  else heap.takeBlock layout (findDesc size)

/-- `calloc`. -/
def calloc (layout : HeapLayout) (heap : Heap) (a b : Nat)
    (offer : Option Nat) : Option (Heap × Option Nat) :=
  let size := wrap (a * b)
  if size < a ∨ size < b then some (heap, none)
  else
    (heap.malloc layout size offer).bind fun
      | (heap, none) => some (heap, none)
      | (heap, some p) =>
          (heap.memset layout p 0 size).map (·, some p)

/-- `block_size`. -/
def blockSize (layout : HeapLayout) (heap : Heap) (block : Nat) : Option Nat :=
  (heap.blockToArena layout block).map fun
    | (_, some d) => (desc d).blockSize
    | (a, none) =>
        wrap (wrap (pgSize * (heap.arena a).freeCnt) + (unsignedModulus - pgOfs block))

/-- The part of `free` after the block has been added to the free list. -/
def releaseArena (layout : HeapLayout) (heap : Heap) (a d : Nat) : Option Heap :=
  let freeCnt := wrap ((heap.arena a).freeCnt + 1)
  if (desc d).blocksPerArena ≤ freeCnt then
    if freeCnt = (desc d).blocksPerArena then
      ((heap.setFreeCnt a freeCnt).removeBlocks layout a d 0
          (desc d).blocksPerArena).bind (·.pallocFreeMultiple ⟨a, 1⟩)
    else none
  else some (heap.setFreeCnt a freeCnt)

/-- `free`. -/
def free (layout : HeapLayout) (heap : Heap) : Option Nat → Option Heap
  | none => some heap
  | some b =>
      (heap.blockToArena layout b).bind fun
        | (a, some d) =>
            (heap.memset layout b 0xcc (desc d).blockSize).bind fun heap =>
              (heap.setFreeList d (b :: heap.freeList d)).releaseArena layout
                a d
        | (a, none) =>
            heap.pallocFreeMultiple ⟨a, (heap.arena a).freeCnt⟩

/-- `realloc`. -/
def realloc (layout : HeapLayout) (heap : Heap) (oldBlock : Option Nat)
    (newSize : Nat) (offer : Option Nat) : Option (Heap × Option Nat) :=
  if newSize = 0 then (heap.free layout oldBlock).map (·, none)
  else
    (heap.malloc layout newSize offer).bind fun
      | (heap, some newBlock) =>
          match oldBlock with
          | none => some (heap, some newBlock)
          | some old =>
              (heap.blockSize layout old).bind fun oldSize =>
                (heap.memcpy layout newBlock old
                    (if newSize < oldSize then newSize else oldSize)).bind
                  fun heap =>
                    (heap.free layout (some old)).map (·, some newBlock)
      | (heap, none) => some (heap, none)

/-- The address belongs to the block, as `block_size` reports it. -/
def inBlock (layout : HeapLayout) (heap : Heap) (block address : Nat) :
    Bool :=
  (heap.blockSize layout block).any fun size =>
    block ≤ address ∧ address < block + size

end Heap

/-- What a caller may do.  Only live blocks are passed to `realloc` and
`free`, and the heap's own bytes are written by nobody else. -/
inductive HeapCall where
  | malloc (size : Nat)
  | calloc (a b : Nat)
  | realloc (oldBlock : Option Nat) (newSize : Nat)
  | free (p : Option Nat)
  /-- A write to a live block, or to memory that is not the heap's. -/
  | store (address : Nat) (value : UInt8)
  deriving DecidableEq

/-- The heap with the blocks returned and not yet freed, or the end of the
kernel. -/
inductive HeapState where
  | running (heap : Heap) (live : List Nat)
  | failed

/-- The blocks that are live after one of them has been freed. -/
def without (live : List Nat) (b : Nat) : List Nat := live.filter fun block => block ≠ b

namespace HeapState

/-- The state after `malloc` or `calloc`. -/
def afterMalloc (live : List Nat) : Option (Heap × Option Nat) → HeapState
  | some (heap, block) => .running heap (block.toList ++ live)
  | none => .failed

/-- The state after `free`. -/
def afterFree (live : List Nat) (p : Option Nat) : Option Heap → HeapState
  | some heap => .running heap (p.elim live (without live))
  | none => .failed

/-- The state after `realloc`: where it fails the old block stays live. -/
def afterRealloc (live : List Nat) (oldBlock : Option Nat) (newSize : Nat) :
    Option (Heap × Option Nat) → HeapState
  | some (heap, some newBlock) =>
      .running heap (newBlock :: oldBlock.elim live (without live))
  | some (heap, none) =>
      if newSize = 0 then afterFree live oldBlock (some heap)
      else .running heap live
  | none => .failed

/-- One call, together with what the page allocator offers. -/
def step (layout : HeapLayout) : HeapState → HeapCall × Option Nat → Option HeapState
  | .running heap live, (.malloc size, offer) =>
      if size < unsignedModulus then
        some (afterMalloc live (heap.malloc layout size offer))
      else none
  | .running heap live, (.calloc a b, offer) =>
      if a < unsignedModulus ∧ b < unsignedModulus then
        some (afterMalloc live (heap.calloc layout a b offer))
      else none
  | .running heap live, (.realloc oldBlock newSize, offer) =>
      if newSize < unsignedModulus ∧ ∀ block ∈ oldBlock, block ∈ live then
        some <| afterRealloc live oldBlock newSize (heap.realloc layout oldBlock newSize offer)
      else none
  | .running heap live, (.free p, _) =>
      if ∀ block ∈ p, block ∈ live then
        some (afterFree live p (heap.free layout p))
      else none
  | .running heap live, (.store address value, _) =>
      if (∃ block ∈ live, heap.inBlock layout block address = true) ∨
          ∀ range ∈ heap.pages,
            Apart range.pages range.stop address (address + 1) then
        some <| .running { heap with memory := heap.memory.fill address 1 value } live
      else none
  | .failed, _ => none

end HeapState

/-- All runs of the heap after `malloc_init`. -/
def mallocSystem (layout : HeapLayout) : TransitionSystem HeapState (HeapCall × Option Nat) where
  initial state :=
    ∃ memory, state = .running { memory := memory, freeList := fun _ => [], pages := [] } []
  step := HeapState.step layout

end CS162.Threads
