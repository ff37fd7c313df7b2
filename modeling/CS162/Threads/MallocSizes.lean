import CS162.Threads.MallocGuarantee

/-!
# The sizes of blocks

A request gets no memory, or a block of at least the size asked for, or, when
the number of its pages wraps around to one, a block that is far too small.
-/

namespace CS162.Threads

open CS162.Foundation
open CS162.Userprog (pgSize)

section Sizes

variable {layout : HeapLayout} {heap after : Heap} {live : List Nat}
variable {size : Nat} {offer : Option Nat} {a b : Nat}

/-- There is nothing to return: the request is for no bytes, or the page
allocator does not give the pages that are needed. -/
def Unavailable (layout : HeapLayout) (heap : Heap) (size : Nat) (offer : Option Nat) : Prop :=
  size = 0 ∨
    findDesc size = descs.length ∧
        heap.pallocGetMultiple layout
          (wrap (size + arenaSize + (pgSize - 1)) / pgSize) offer = none ∨
    findDesc size < descs.length ∧ heap.freeList (findDesc size) = [] ∧
      heap.pallocGetMultiple layout 1 offer = none

instance (layout : HeapLayout) (heap : Heap) (size : Nat)
    (offer : Option Nat) : Decidable (Unavailable layout heap size offer) :=
  inferInstanceAs (Decidable (_ ∨ _ ∧ _ ∨ _ ∧ _ ∧ _))

/-- A returned block holds the bytes, which lie in pages of its arena. -/
def Provides (layout : HeapLayout) (after : Heap) (size b : Nat) : Prop :=
  (∃ blockSize, after.blockSize layout b = some blockSize ∧
      size ≤ blockSize) ∧
    ∃ range ∈ after.pages, range.pages = pgRoundDown b ∧ range.pages ≤ b ∧ b + size ≤ range.stop

/-- `malloc` returns a null pointer or a block of the size. -/
def MallocProvides (layout : HeapLayout) (heap : Heap) (size : Nat) (offer : Option Nat) : Prop :=
  ∃ after result, heap.malloc layout size offer = some (after, result) ∧
    ∀ b ∈ result, Provides layout after size b

/-- `calloc` returns a null pointer or a block for the whole product, all of
it zero. -/
def CallocProvides (layout : HeapLayout) (heap : Heap) (a b : Nat) (offer : Option Nat) : Prop :=
  ∃ after result, heap.calloc layout a b offer = some (after, result) ∧
    ∀ p ∈ result, a * b < unsignedModulus ∧ Provides layout after (a * b) p ∧
      ∀ offset, offset < a * b → after.memory (p + offset) = 0

theorem mallocBig_eq_none :
    heap.mallocBig layout size offer = (heap, none) ↔
      heap.pallocGetMultiple layout
        (wrap (size + arenaSize + (pgSize - 1)) / pgSize) offer = none := by
  unfold Heap.mallocBig
  cases got :
      heap.pallocGetMultiple layout
        (wrap (size + arenaSize + (pgSize - 1)) / pgSize) offer with
  | none =>
      simp only [got]
  | some pages =>
      simp only [got, Prod.mk.injEq, reduceCtorEq, and_false]

/-- The last part of `malloc` returns a block. -/
theorem takeBlock_ne_none {d : Nat} : heap.takeBlock layout d ≠ some (after, none) := by
  unfold Heap.takeBlock
  cases heap.freeList d with
  | nil =>
      intro impossible
      cases impossible
  | cons b rest =>
      intro taken
      rcases Option.map_eq_some_iff.mp taken with ⟨found, _, same⟩
      cases same

theorem newArena_eq_none {d : Nat} :
    heap.newArena layout d offer = some none ↔ heap.pallocGetMultiple layout 1 offer = none := by
  unfold Heap.newArena
  generalize heap.pallocGetMultiple layout 1 offer = got
  cases got with
  | none => exact iff_of_true rfl rfl
  | some pages =>
      apply iff_of_false
      · intro failed
        rcases Option.map_eq_some_iff.mp failed with ⟨middle, _, same⟩
        cases same
      · exact Option.some_ne_none _

/-- `malloc` returns a null pointer exactly if there is nothing to return. -/
theorem malloc_eq_none :
    heap.malloc layout size offer = some (heap, none) ↔ Unavailable layout heap size offer := by
  unfold Heap.malloc Unavailable
  by_cases zero : size = 0
  · rw [if_pos zero]
    exact iff_of_true rfl (Or.inl zero)
  rw [if_neg zero]
  by_cases big : findDesc size = descs.length
  · have notSmall : ¬findDesc size < descs.length := by omega
    rw [if_pos big, Option.some.injEq, mallocBig_eq_none]
    constructor
    · intro failed
      exact Or.inr (Or.inl ⟨big, failed⟩)
    · intro unavailable
      rcases unavailable with none | ⟨_, failed⟩ | ⟨small, _⟩
      · exact absurd none zero
      · exact failed
      · exact absurd small notSmall
  rw [if_neg big]
  have known : findDesc size < descs.length := by
    have bound := findDesc_le size
    omega
  by_cases empty : heap.freeList (findDesc size) = []
  · rw [if_pos empty]
    constructor
    · intro returned
      rcases Option.bind_eq_some_iff.mp returned with ⟨made, arena, rest⟩
      cases made with
      | none => exact Or.inr (Or.inr ⟨known, empty, newArena_eq_none.mp arena⟩)
      | some middle => exact absurd rest takeBlock_ne_none
    · intro unavailable
      rcases unavailable with none | ⟨all, _⟩ | ⟨_, _, failed⟩
      · exact absurd none zero
      · exact absurd all big
      · rw [newArena_eq_none.mpr failed]
        rfl
  · rw [if_neg empty]
    apply iff_of_false takeBlock_ne_none
    intro unavailable
    rcases unavailable with none | ⟨all, _⟩ | ⟨_, none, _⟩
    · exact absurd none zero
    · exact absurd all big
    · exact absurd none empty

/-- A block of an arena is smaller than the largest requests. -/
theorem BlockOf.size_lt {range : PageRange} {kind : Option Nat} (placed : layout.Placed range)
    (block : BlockOf layout heap range b kind) :
    ¬Overflows (reportedSize range kind) := by
  have last := (block.span placed).2.2.1
  have first := (block.span placed).1
  have small := placed.small
  have nonnull := placed.nonnull
  have header : arenaSize = 12 := rfl
  unfold Overflows
  omega

/-- A block of a sound heap provides what fits into it. -/
theorem HeapSafe.provides (safe : HeapSafe layout heap live)
    {range : PageRange} {kind : Option Nat} (held : range ∈ heap.pages)
    (block : BlockOf layout heap range b kind) (enough : size ≤ reportedSize range kind) :
    Provides layout heap size b := by
  have placed := safe.placed range held
  have span := block.span placed
  refine ⟨⟨_, block.blockSize placed, enough⟩, range, held, ?_, ?_, ?_⟩
  · exact (block.pgRoundDown placed).1.symm
  · omega
  · omega

/-- The block that `malloc` returns is large enough unless the number of pages
overflowed. -/
theorem Allocated.enough
    (alloc : Allocated layout heap live size offer after b) (fits : ¬Overflows size) :
    ∃ range ∈ after.pages, ∃ kind, BlockOf layout after range b kind ∧
      size ≤ reportedSize range kind := by
  rcases alloc.block with ⟨range, held, kind, block, enough⟩
  rcases enough with enough | ⟨overflows, _⟩
  · exact ⟨range, held, kind, block, enough⟩
  · exact absurd overflows fits

/-- After an overflow the block is too small. -/
theorem Allocated.too_small
    (alloc : Allocated layout heap live size offer after b) (overflows : Overflows size) :
    ∃ blockSize, after.blockSize layout b = some blockSize ∧
      blockSize < size := by
  rcases alloc.block with ⟨range, held, kind, block, enough⟩
  have placed := alloc.safe.placed range held
  have least := block.size_lt placed
  refine ⟨_, block.blockSize placed, ?_⟩
  unfold Overflows at *
  omega

/-- `malloc` returns at least what was asked for, in every state of a run
within the blocks, exactly if the request is not one of the eleven largest or
there is no page for it. -/
theorem malloc_provides_iff
    (reachable :
      ((mallocSystem layout).restrict (withinBlocks layout)).Reachable (.running heap live))
    (bounded : size < unsignedModulus) (offer : Option Nat) :
    MallocProvides layout heap size offer ↔
      size ≤ 2 ^ 32 - 12 ∨ Unavailable layout heap size offer := by
  rcases runningSafe_of_reachable reachable with ⟨_, _, same, safe⟩
  cases same
  have header : arenaSize = 12 := rfl
  have modulus : unsignedModulus = 2 ^ 32 := rfl
  rcases safe.malloc bounded offer with failed | ⟨after, b, got, alloc⟩
  · apply iff_of_true
    · refine ⟨heap, none, failed, ?_⟩
      intro b impossible
      cases impossible
    · exact Or.inr (malloc_eq_none.mp failed)
  · have available : ¬Unavailable layout heap size offer := by
      intro unavailable
      rw [malloc_eq_none.mpr unavailable] at got
      cases got
    by_cases overflows : Overflows size
    · apply iff_of_false
      · intro ⟨other, result, returned, provides⟩
        rw [got, Option.some.injEq, Prod.mk.injEq] at returned
        rcases returned with ⟨rfl, rfl⟩
        rcases alloc.too_small overflows with ⟨blockSize, known, small⟩
        rcases (provides b rfl).1 with ⟨_, again, enough⟩
        rw [known, Option.some.injEq] at again
        omega
      · intro condition
        rcases condition with small | unavailable
        · unfold Overflows at overflows
          omega
        · exact available unavailable
    · apply iff_of_true
      · refine ⟨after, some b, got, ?_⟩
        intro block same
        cases same
        rcases alloc.enough overflows with ⟨range, held, kind, own, enough⟩
        exact alloc.safe.provides held own enough
      · unfold Overflows at overflows
        exact Or.inl (by omega)

/-- What `memset` has written. -/
theorem memset_apply {start offset : Nat} {value : UInt8}
    (filled : heap.memset layout start value size = some after)
    (inside : offset < size) : after.memory (start + offset) = value := by
  unfold Heap.memset at filled
  rcases Option.ite_none_right_eq_some.mp filled with ⟨_, same⟩
  rw [Option.some.injEq] at same
  rw [← same]
  exact if_pos ⟨by omega, by omega⟩

/-- `memset` of a block that is too large leaves RAM. -/
theorem Allocated.memset_eq_none
    (alloc : Allocated layout heap live size offer after b)
    (overflows : Overflows size) (value : UInt8) :
    after.memset layout b value size = none := by
  rcases alloc.block with ⟨range, held, kind, block, _⟩
  have placed := alloc.safe.placed range held
  have first := (block.span placed).1
  have nonnull := placed.nonnull
  have addressable := layout.addressable
  have header : arenaSize = 12 := rfl
  apply if_neg
  intro ⟨inRam, _⟩
  unfold Overflows at overflows
  omega

/-- `calloc` returns zeroed memory for the whole product, in every state of a
run within the blocks, exactly if the product does not exceed the largest size
that `malloc` can serve, or the check of the wrapped product detects that it
does, or there is no memory for the wrapped product. -/
theorem calloc_provides_iff
    (reachable :
      ((mallocSystem layout).restrict (withinBlocks layout)).Reachable (.running heap live))
    (a b : Nat) (offer : Option Nat) :
    CallocProvides layout heap a b offer ↔
      a * b ≤ 2 ^ 32 - 12 ∨ wrap (a * b) < a ∨ wrap (a * b) < b ∨
        Unavailable layout heap (wrap (a * b)) offer := by
  rcases runningSafe_of_reachable reachable with ⟨_, _, same, safe⟩
  cases same
  have header : arenaSize = 12 := rfl
  have modulus : unsignedModulus = 2 ^ 32 := rfl
  have null :
      heap.calloc layout a b offer = some (heap, none) →
        CallocProvides layout heap a b offer := by
    intro returned
    refine ⟨heap, none, returned, ?_⟩
    intro p impossible
    cases impossible
  by_cases refused : wrap (a * b) < a ∨ wrap (a * b) < b
  · apply iff_of_true
    · exact null (if_pos refused)
    · rcases refused with first | second
      · exact Or.inr (Or.inl first)
      · exact Or.inr (Or.inr (Or.inl second))
  rcases safe.malloc (wrap_lt (a * b)) offer with failed | ⟨middle, p, got, alloc⟩
  · apply iff_of_true
    · apply null
      rw [Heap.calloc, if_neg refused, failed]
      rfl
    · exact Or.inr (Or.inr (Or.inr (malloc_eq_none.mp failed)))
  have cleared :
      heap.calloc layout a b offer = (middle.memset layout p 0 (wrap (a * b))).map (·, some p) := by
    rw [Heap.calloc, if_neg refused, got]
    rfl
  have available : ¬Unavailable layout heap (wrap (a * b)) offer := by
    intro unavailable
    rw [malloc_eq_none.mpr unavailable] at got
    cases got
  by_cases small : a * b ≤ 2 ^ 32 - 12
  · have exact : wrap (a * b) = a * b := wrap_of_lt (by omega)
    have fits : ¬Overflows (a * b) := by
      unfold Overflows
      omega
    rw [exact] at alloc cleared
    rcases alloc.enough fits with ⟨range, held, kind, block, enough⟩
    rcases alloc.safe.memset List.mem_cons_self held block enough 0 with
      ⟨after, filled, _, afterSafe, keeps⟩
    rcases keeps range held p kind block with ⟨afterHeld, afterBlock⟩
    apply iff_of_true
    · refine ⟨after, some p, ?_, ?_⟩
      · rw [cleared, filled]
        rfl
      · intro other same
        cases same
        refine ⟨by omega, afterSafe.provides afterHeld afterBlock enough, ?_⟩
        intro offset inside
        exact memset_apply filled inside
    · exact Or.inl small
  · apply iff_of_false
    · intro ⟨after, result, returned, provides⟩
      rw [cleared] at returned
      rcases Option.map_eq_some_iff.mp returned with ⟨zeroed, filled, same⟩
      rw [Prod.mk.injEq] at same
      have less := (provides p same.2.symm).1
      have overflows : Overflows (wrap (a * b)) := by
        rw [wrap_of_lt less]
        unfold Overflows
        omega
      rw [alloc.memset_eq_none overflows] at filled
      cases filled
    · intro condition
      rcases condition with fits | first | second | unavailable
      · exact small fits
      · exact refused (Or.inl first)
      · exact refused (Or.inr second)
      · exact available unavailable

end Sizes

/-! ## Requests near the top -/

/-- A kernel pool of sixty-four pages and as many pages of RAM after it. -/
def manyPages : HeapLayout where
  descTable := 0xc0020000
  base := 0xc0101000
  stop := 0xc0141000
  ramEnd := 0xc0181000
  nonnull := sixteenPages.nonnull
  below := sixteenPages.below
  ordered := by decide
  inRam := by decide
  addressable := by decide

/-- The heap after `malloc_init`. -/
def emptyHeap : Heap where
  memory := fun _ => 0
  freeList := fun _ => []
  pages := []

theorem emptyHeap_reachable :
    ((mallocSystem manyPages).restrict (withinBlocks manyPages)).Reachable
      (.running emptyHeap []) :=
  .initial ⟨fun _ => 0, rfl⟩

theorem malloc_provides_iff_page : MallocProvides manyPages emptyHeap 5000 (some manyPages.base) :=
  (malloc_provides_iff emptyHeap_reachable (by decide) _).mpr (Or.inl (by decide))

/-- Almost all of memory is asked for, and a single page is returned. -/
theorem malloc_too_small :
    ¬MallocProvides manyPages emptyHeap 0xffffffff (some manyPages.base) := by
  obtain ⟨after, returned, reported⟩ : ∃ after,
        emptyHeap.malloc manyPages 0xffffffff (some manyPages.base) =
            some (after, some (manyPages.base + arenaSize)) ∧
          after.blockSize manyPages (manyPages.base + arenaSize) = some 4084 :=
    ⟨_, rfl, rfl⟩
  intro ⟨other, result, again, provides⟩
  rw [returned, Option.some.injEq, Prod.mk.injEq] at again
  rcases again with ⟨rfl, rfl⟩
  rcases (provides _ rfl).1 with ⟨blockSize, known, enough⟩
  rw [reported, Option.some.injEq] at known
  rw [← known] at enough
  exact absurd enough (by decide)

theorem calloc_provides_iff_page :
    CallocProvides manyPages emptyHeap 100 50 (some manyPages.base) :=
  (calloc_provides_iff emptyHeap_reachable 100 50 _).mpr (Or.inl (by decide))

/-- The product exceeds memory, and the wrapped product both of its factors. -/
theorem calloc_overflows :
    2 ^ 32 ≤ 65537 * 65537 ∧
      ¬CallocProvides manyPages emptyHeap 65537 65537
        (some manyPages.base) := by
  have wrapped : wrap (65537 * 65537) = 131073 := by decide
  obtain ⟨middle, got, free⟩ : ∃ middle,
        emptyHeap.malloc manyPages 131073 (some manyPages.base) =
            some (middle, some (manyPages.base + arenaSize)) ∧
          middle.freeList = fun _ => [] :=
    ⟨_, rfl, rfl⟩
  have writable : middle.Writable manyPages (manyPages.base + arenaSize) 131073 := by
    refine ⟨by decide, ?_⟩
    rw [free]
    intro d _ b listed
    cases listed
  obtain ⟨after, returned⟩ : ∃ after,
        emptyHeap.calloc manyPages 65537 65537 (some manyPages.base) =
          some (after, some (manyPages.base + arenaSize)) := by
    unfold Heap.calloc
    rw [wrapped, if_neg (by decide), got]
    simp only [Option.bind_some, Heap.memset, if_pos writable, Option.map_some]
    exact ⟨_, rfl⟩
  refine ⟨by omega, ?_⟩
  intro ⟨other, result, again, provides⟩
  rw [returned, Option.some.injEq, Prod.mk.injEq] at again
  have less := (provides _ again.2.symm).1
  have modulus : unsignedModulus = 2 ^ 32 := rfl
  omega

end CS162.Threads
