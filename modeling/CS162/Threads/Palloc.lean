import CS162.Foundation.Tally
import CS162.Foundation.TransitionSystem
import CS162.Kernel.Bitmap
import CS162.Userprog.Pte

/-!
# The page allocator

`threads/palloc.c`: two pools of pages, each with a bitmap in its first pages.
`palloc_get_multiple` scans for a run of clear bits and sets them one by one,
with the lock of its pool held; `palloc_free_multiple` tests and clears bits
one by one without any lock.  Every test and every change of a single bit is
an atomic step of the machine, and threads are interleaved between them.

The contents of pages are left out: `PAL_ZERO` and the 0xcc fill of a free
only write to the pages of the call's own range.
-/

namespace CS162.Threads

open CS162.Foundation
open CS162.Kernel
open CS162.Userprog (pgSize)

/-- `PHYS_BASE`. -/
def physBase : Nat := 0xc0000000

/-- `pg_no`. -/
def pgNo (address : Nat) : Nat := address / pgSize

/-- `pg_ofs`. -/
def pgOfs (address : Nat) : Nat := address % pgSize

/-- `ptov`, for addresses of memory. -/
def ptov (paddr : Nat) : Nat := paddr + physBase

section Addresses

variable {paddr vaddr : Userprog.Word}

/-- An address is a number here, and these are the functions on words. -/
theorem pgNo_toNat (vaddr : Userprog.Word) : Userprog.pgNo vaddr = pgNo vaddr.toNat :=
  Userprog.pgNo_eq vaddr

theorem pgOfs_toNat (vaddr : Userprog.Word) : (Userprog.pgOfs vaddr).toNat = pgOfs vaddr.toNat := by
  rw [Userprog.pgOfs, BitVec.toNat_and]
  exact Nat.and_two_pow_sub_one_eq_mod vaddr.toNat 12

/-- The sum does not wrap, since there is less than a gigabyte of memory. -/
theorem ptov_toNat (small : paddr.toNat < 2 ^ 30)
    (returned : Userprog.ptov paddr = some vaddr) : vaddr.toNat = ptov paddr.toNat := by
  unfold Userprog.ptov Userprog.physBase at returned
  split_ifs at returned with low
  rw [← Option.some.inj returned, ptov, physBase]
  bv_omega

end Addresses

/-- `init_ram_pages`.  The boot code adds the first megabyte to what the BIOS
reports and caps the sum at 64 megabytes. -/
structure RamPages where
  count : Nat
  atLeast : 256 ≤ count
  atMost : count ≤ 16384

/-- The two pools. -/
inductive Pool where
  | kernel
  | user
  deriving DecidableEq, Repr

/-- `struct pool` without its lock. -/
structure PoolData where
  usedMap : Bitmap
  base : Nat

/-- `init_pool`; a kernel panic is `none`. -/
def initPool (base pageCnt : Nat) (memory : Nat → Elem) : Option PoolData :=
  let bmPages := divRoundUp (bitmapBufSize pageCnt) pgSize
  if pageCnt < bmPages then none
  else
    (bitmapCreateInBuf (pageCnt - bmPages) (bmPages * pgSize) memory).map
      fun usedMap => { usedMap := usedMap, base := base + bmPages * pgSize }

/-- `free_start` in `palloc_init`. -/
def freeStart : Nat := ptov (1024 * 1024)

/-- `free_pages` in `palloc_init`. -/
def freePages (ram : RamPages) : Nat := (ptov (ram.count * pgSize) - freeStart) / pgSize

/-- `user_pages` in `palloc_init`. -/
def userPages (ram : RamPages) (userPageLimit : Nat) : Nat :=
  if userPageLimit < freePages ram / 2 then userPageLimit
  else freePages ram / 2

/-- `kernel_pages` in `palloc_init`. -/
def kernelPages (ram : RamPages) (userPageLimit : Nat) : Nat :=
  freePages ram - userPages ram userPageLimit

/-- How many pages each pool gets, its bitmap included. -/
def poolPages (ram : RamPages) (userPageLimit : Nat) : Pool → Nat
  | .kernel => kernelPages ram userPageLimit
  | .user => userPages ram userPageLimit

/-- Where each pool starts; its bitmap comes first. -/
def poolStart (ram : RamPages) (userPageLimit : Nat) : Pool → Nat
  | .kernel => freeStart
  | .user => freeStart + kernelPages ram userPageLimit * pgSize

/-- `palloc_init`. -/
def pallocInit (ram : RamPages) (userPageLimit : Nat)
    (memory : Pool → Nat → Elem) : Option (Pool → PoolData) :=
  (initPool (poolStart ram userPageLimit .kernel)
      (poolPages ram userPageLimit .kernel) (memory .kernel)).bind
    fun kernel =>
      (initPool (poolStart ram userPageLimit .user)
          (poolPages ram userPageLimit .user) (memory .user)).map
        fun user => fun
          | .kernel => kernel
          | .user => user

/-- A range of pages: the address of the first and their number. -/
structure PageRange where
  pages : Nat
  cnt : Nat
  deriving DecidableEq, Repr

/-- The first address after the range. -/
def PageRange.stop (range : PageRange) : Nat := range.pages + range.cnt * pgSize

/-- The page with the index above the base belongs to the range. -/
def PageRange.covers (range : PageRange) (base index : Nat) : Bool :=
  range.pages ≤ base + index * pgSize ∧ base + index * pgSize < range.stop

/-- `page_from_pool`. -/
def pageFromPool (base bitCnt page : Nat) : Bool :=
  pgNo base ≤ pgNo page ∧ pgNo page < pgNo base + bitCnt

/-- The program points of the two functions.  `must` is `PAL_ASSERT`. -/
inductive PallocPoint where
  | idle
  /-- Before `lock_acquire`. -/
  | getLock (pool : Pool) (cnt : Nat) (must : Bool)
  /-- `bitmap_contains` in `bitmap_scan`, before it tests bit `start + i`. -/
  | scan (pool : Pool) (cnt : Nat) (must : Bool) (start i : Nat)
  /-- `bitmap_set_multiple`, before it marks bit `start + i`. -/
  | flip (pool : Pool) (cnt : Nat) (must : Bool) (start i : Nat)
  /-- Before `lock_release`; `none` is `BITMAP_ERROR`. -/
  | getUnlock (pool : Pool) (cnt : Nat) (must : Bool) (pageIdx : Option Nat)
  /-- After `lock_release`. -/
  | getReturn (pool : Pool) (cnt : Nat) (must : Bool) (pageIdx : Option Nat)
  /-- `palloc_free_multiple`, before it looks for the pool. -/
  | freePool (range : PageRange)
  /-- `bitmap_all`, before it tests bit `start + i`. -/
  | freeCheck (pool : Pool) (cnt start i : Nat)
  /-- `bitmap_set_multiple`, before it resets bit `start + i`. -/
  | freeReset (pool : Pool) (cnt start i : Nat)
  /-- A failed `ASSERT`. -/
  | failed
  /-- Out of pages with `PAL_ASSERT`. -/
  | panicked
  deriving DecidableEq, Repr

/-- What an idle thread may call.  Only live ranges are freed. -/
inductive PallocCall where
  | get (user : Bool) (cnt : Nat) (must : Bool)
  | free (range : PageRange)
  deriving DecidableEq, Repr

/-- The locks, the bitmaps, the threads, and the ranges returned and not yet
passed to a free. -/
structure PallocState (Thread : Type) where
  lock : Pool → Option Thread
  usedMap : Pool → Bitmap
  point : Thread → PallocPoint
  live : List PageRange

namespace PallocState

variable {Thread : Type} [DecidableEq Thread]

def setPoint (state : PallocState Thread) (thread : Thread)
    (point : PallocPoint) : PallocState Thread :=
  { state with point := Function.update state.point thread point }

def setLock (state : PallocState Thread) (pool : Pool)
    (owner : Option Thread) : PallocState Thread :=
  { state with lock := Function.update state.lock pool owner }

def setMap (state : PallocState Thread) (pool : Pool) (map : Bitmap) : PallocState Thread :=
  { state with usedMap := Function.update state.usedMap pool map }

def setLive (state : PallocState Thread) (live : List PageRange) : PallocState Thread :=
  { state with live := live }

/-- Where the scan of the used map goes after the bit at `start + i`. -/
def scanned (pool : Pool) (cnt : Nat) (must : Bool) (map : Bitmap)
    (start i : Nat) (used : Bool) : PallocPoint :=
  if used then
    if start + 1 ≤ map.bitCnt - cnt then .scan pool cnt must (start + 1) 0
    else .getUnlock pool cnt must none
  else .scan pool cnt must start (i + 1)

/-- The thread ends a call of `palloc_get_multiple`. -/
def getReturn (state : PallocState Thread) (base : Pool → Nat)
    (thread : Thread) (pool : Pool) (cnt : Nat) (must : Bool) :
    Option Nat → PallocState Thread
  | some pageIdx =>
      (state.setLive
        (⟨base pool + pgSize * pageIdx, cnt⟩ :: state.live)).setPoint
          thread .idle
  | none =>
      state.setPoint thread (if must then .panicked else .idle)

/-- One step of a thread.  The pool bases never change. -/
def step (base : Pool → Nat) (state : PallocState Thread)
    (thread : Thread) (call : PallocCall) : Option (PallocState Thread) :=
  match state.point thread with
  | .idle =>
      match call with
      | .get user cnt must =>
          if cnt = 0 then some state
          else
            some <| state.setPoint thread
              (.getLock (if user then .user else .kernel) cnt must)
      | .free range =>
          if range ∈ state.live then
            some <| (state.setLive (state.live.erase range)).setPoint thread (.freePool range)
          else none
  | .getLock pool cnt must =>
      if state.lock pool = none then
        some <|
          (state.setLock pool (some thread)).setPoint thread
            (if cnt ≤ (state.usedMap pool).bitCnt then
              .scan pool cnt must 0 0
            else .getUnlock pool cnt must none)
      else none
  | .scan pool cnt must start i =>
      if (state.usedMap pool).inRange start cnt then
        if i < cnt then
          match (state.usedMap pool).bitmapTest (wrap (start + i)) with
          | some used =>
              some <| state.setPoint thread
                (scanned pool cnt must (state.usedMap pool) start i used)
          | none => some (state.setPoint thread .failed)
        else some (state.setPoint thread (.flip pool cnt must start 0))
      else some (state.setPoint thread .failed)
  | .flip pool cnt must start i =>
      if (state.usedMap pool).inRange start cnt then
        if i < cnt then
          match (state.usedMap pool).bitmapSet (wrap (start + i)) true with
          | some map =>
              some <| (state.setMap pool map).setPoint thread
                (.flip pool cnt must start (i + 1))
          | none => some (state.setPoint thread .failed)
        else
          some <| state.setPoint thread (.getUnlock pool cnt must (some start))
      else some (state.setPoint thread .failed)
  | .getUnlock pool cnt must pageIdx =>
      some <|
        (state.setLock pool none).setPoint thread
          (.getReturn pool cnt must pageIdx)
  | .getReturn pool cnt must pageIdx =>
      some (state.getReturn base thread pool cnt must pageIdx)
  | .freePool range =>
      let enter := fun pool =>
        some <| state.setPoint thread
          (.freeCheck pool range.cnt (pgNo range.pages - pgNo (base pool)) 0)
      if pgOfs range.pages ≠ 0 then some (state.setPoint thread .failed)
      else if range.pages = 0 ∨ range.cnt = 0 then
        some (state.setPoint thread .idle)
      else if pageFromPool (base .kernel) (state.usedMap .kernel).bitCnt
          range.pages then
        enter .kernel
      else if pageFromPool (base .user) (state.usedMap .user).bitCnt
          range.pages then
        enter .user
      else some (state.setPoint thread .failed)
  | .freeCheck pool cnt start i =>
      if (state.usedMap pool).inRange start cnt then
        if i < cnt then
          match (state.usedMap pool).bitmapTest (wrap (start + i)) with
          | some true =>
              some (state.setPoint thread (.freeCheck pool cnt start (i + 1)))
          | _ => some (state.setPoint thread .failed)
        else some (state.setPoint thread (.freeReset pool cnt start 0))
      else some (state.setPoint thread .failed)
  | .freeReset pool cnt start i =>
      if (state.usedMap pool).inRange start cnt then
        if i < cnt then
          match (state.usedMap pool).bitmapSet (wrap (start + i)) false with
          | some map =>
              some <| (state.setMap pool map).setPoint thread
                (.freeReset pool cnt start (i + 1))
          | none => some (state.setPoint thread .failed)
        else some (state.setPoint thread .idle)
      else some (state.setPoint thread .failed)
  | .failed => none
  | .panicked => none

end PallocState

/-- All runs of the page allocator after `palloc_init`. -/
def pallocSystem (Thread : Type) [DecidableEq Thread] (pools : Pool → PoolData) :
    TransitionSystem (PallocState Thread) (Thread × PallocCall) where
  initial state :=
    state =
      { lock := fun _ => none
        usedMap := fun pool => (pools pool).usedMap
        point := fun _ => .idle
        live := [] }
  step state turn := state.step (fun pool => (pools pool).base) turn.1 turn.2

end CS162.Threads
