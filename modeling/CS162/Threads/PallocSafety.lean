import CS162.Threads.Palloc

/-!
# The page allocator never allocates a page twice

A bit that is set has exactly one owner: a live range, a caller of
`palloc_get_multiple` that has set it and not returned yet, or a caller of
`palloc_free_multiple` that has not cleared it yet.  Only the owner of a bit
clears it, and only the holder of the lock sets bits, so what a scan has found
clear stays clear until the scan's own thread sets it.
-/

namespace CS162.Threads

open CS162.Foundation
open CS162.Kernel
open CS162.Userprog (pgSize)

/-- The places of the two pools in memory: the bitmap of a pool comes before
its pages and the kernel pool before the user pool. -/
structure PoolLayout where
  start : Pool → Nat
  base : Pool → Nat
  size : Pool → Nat
  aligned : ∀ pool, pgOfs (base pool) = 0
  bitmapFirst : ∀ pool, start pool < base pool
  apart : base .kernel + size .kernel * pgSize ≤ start .user
  fits : ∀ pool, size pool < unsignedModulus

namespace PoolLayout

/-- The first address after the pages of a pool. -/
def stop (layout : PoolLayout) (pool : Pool) : Nat := layout.base pool + layout.size pool * pgSize

/-- The range consists of the pages of the pool from an index on. -/
def At (layout : PoolLayout) (range : PageRange) (pool : Pool) (index : Nat) : Prop :=
  range.pages = layout.base pool + pgSize * index ∧ 0 < range.cnt ∧
    index + range.cnt ≤ layout.size pool

/-- The range lies in one of the pools. -/
def Placed (layout : PoolLayout) (range : PageRange) : Prop :=
  ∃ pool index, layout.At range pool index

variable {layout : PoolLayout} {range : PageRange} {pool other : Pool}
variable {index : Nat}

/-- The pages of one pool end before the pages of the other begin, or the
other way round. -/
theorem separate (layout : PoolLayout) (different : other ≠ pool) :
    layout.stop pool ≤ layout.start other ∨
      layout.stop other ≤ layout.start pool := by
  have apart := layout.apart
  cases pool <;> cases other <;> simp_all [stop]

/-- A placed range covers the pages of its own pool from its index on. -/
theorem At.covers_iff (place : layout.At range pool index)
    {page : Nat} (inPool : page < layout.size other) :
    range.covers (layout.base other) page = true ↔
      other = pool ∧ index ≤ page ∧ page < index + range.cnt := by
  obtain ⟨pages, positive, last⟩ := place
  unfold PageRange.covers PageRange.stop pgSize at *
  rw [decide_eq_true_iff, pages]
  by_cases same : other = pool
  · subst same
    constructor
    · rintro ⟨lower, upper⟩
      exact ⟨rfl, by omega, by omega⟩
    · rintro ⟨-, lower, upper⟩
      exact ⟨by omega, by omega⟩
  · constructor
    · rintro ⟨lower, upper⟩
      exfalso
      have first := layout.bitmapFirst pool
      have second := layout.bitmapFirst other
      rcases layout.separate same with before | after
      · unfold stop pgSize at before
        omega
      · unfold stop pgSize at after
        omega
    · rintro ⟨equal, -, -⟩
      exact absurd equal same

/-- The address arithmetic of `palloc_free_multiple` finds the pool and the
index of a placed range. -/
theorem At.pageFromPool (place : layout.At range pool index) (other : Pool) :
    pageFromPool (layout.base other) (layout.size other) range.pages = decide (other = pool) := by
  obtain ⟨pages, positive, last⟩ := place
  have aligned := layout.aligned pool
  have otherAligned := layout.aligned other
  unfold Threads.pageFromPool Threads.pgNo Threads.pgOfs pgSize at *
  by_cases same : other = pool
  · subst same
    have lower : layout.base other / 4096 ≤ range.pages / 4096 := by omega
    have upper : range.pages / 4096 < layout.base other / 4096 + layout.size other := by omega
    simp [lower, upper]
  · have first := layout.bitmapFirst pool
    have second := layout.bitmapFirst other
    rw [decide_eq_false same, decide_eq_false_iff_not]
    rintro ⟨lower, upper⟩
    rcases layout.separate same with before | after
    · unfold stop pgSize at before
      omega
    · unfold stop pgSize at after
      omega

theorem At.pgNo (place : layout.At range pool index) :
    pgNo range.pages - pgNo (layout.base pool) = index := by
  obtain ⟨pages, -, -⟩ := place
  have aligned := layout.aligned pool
  unfold Threads.pgNo pgOfs pgSize at *
  omega

theorem At.pgOfs (place : layout.At range pool index) : pgOfs range.pages = 0 := by
  obtain ⟨pages, -, -⟩ := place
  have aligned := layout.aligned pool
  unfold Threads.pgOfs pgSize at *
  omega

/-- A placed range is not what `palloc_free_multiple` ignores. -/
theorem At.not_ignored (place : layout.At range pool index) :
    ¬(range.pages = 0 ∨ range.cnt = 0) := by
  rcases place with ⟨pages, positive, -⟩
  have first := layout.bitmapFirst pool
  omega

end PoolLayout

/-- The thread is between `lock_acquire` and `lock_release` of the pool. -/
def guards (pool : Pool) : PallocPoint → Bool
  | .scan here _ _ _ _ => here = pool
  | .flip here _ _ _ _ => here = pool
  | .getUnlock here _ _ _ => here = pool
  | _ => false

/-- The thread owns the bit: it has set it and not returned yet, or it has not
cleared it yet. -/
def claims (layout : PoolLayout) (pool : Pool) (index : Nat) : PallocPoint → Bool
  | .flip here _ _ start i =>
      here = pool ∧ start ≤ index ∧ index < start + i
  | .getUnlock here cnt _ (some start) =>
      here = pool ∧ start ≤ index ∧ index < start + cnt
  | .getReturn here cnt _ (some start) =>
      here = pool ∧ start ≤ index ∧ index < start + cnt
  | .freePool range => range.covers (layout.base pool) index
  | .freeCheck here cnt start _ =>
      here = pool ∧ start ≤ index ∧ index < start + cnt
  | .freeReset here cnt start i =>
      here = pool ∧ start + i ≤ index ∧ index < start + cnt
  | _ => false

/-- What holds at each program point: ranges stay within their pool, the bits
that a scan has passed and those that are still to be set are clear. -/
def PointSound (layout : PoolLayout) (usedMap : Pool → Bitmap) : PallocPoint → Prop
  | .idle => True
  | .getLock _ cnt _ => 0 < cnt
  | .scan pool cnt _ start i =>
      0 < cnt ∧ start + cnt ≤ layout.size pool ∧ i ≤ cnt ∧
        (usedMap pool).Uniform start i false
  | .flip pool cnt _ start i =>
      0 < cnt ∧ start + cnt ≤ layout.size pool ∧ i ≤ cnt ∧
        (usedMap pool).Uniform (start + i) (cnt - i) false
  | .getUnlock pool cnt _ (some start) =>
      0 < cnt ∧ start + cnt ≤ layout.size pool
  | .getUnlock _ _ _ none => True
  | .getReturn pool cnt _ (some start) =>
      0 < cnt ∧ start + cnt ≤ layout.size pool
  | .getReturn _ _ _ none => True
  | .freePool range => layout.Placed range
  | .freeCheck pool cnt start i =>
      start + cnt ≤ layout.size pool ∧ i ≤ cnt
  | .freeReset pool cnt start i =>
      start + cnt ≤ layout.size pool ∧ i ≤ cnt
  | .failed => False
  | .panicked => True

section Claims

variable {layout : PoolLayout} {pool : Pool} {cnt start i index : Nat} {must : Bool}

/-- Marking a page claims no other one. -/
theorem claims_flip_succ (elsewhere : index ≠ start + i) :
    claims layout pool index (.flip pool cnt must start (i + 1)) =
      claims layout pool index (.flip pool cnt must start i) := by
  rw [Bool.eq_iff_iff]
  simp only [claims, decide_eq_true_eq, true_and]
  omega

/-- Resetting a page gives up no other one. -/
theorem claims_freeReset_succ (elsewhere : index ≠ start + i) :
    claims layout pool index (.freeReset pool cnt start (i + 1)) =
      claims layout pool index (.freeReset pool cnt start i) := by
  rw [Bool.eq_iff_iff]
  simp only [claims, decide_eq_true_eq, true_and]
  omega

end Claims

section Invariant

variable {Thread : Type} [Fintype Thread] [DecidableEq Thread]
variable {layout : PoolLayout} {state target : PallocState Thread}
variable {current : Thread}

/-- The number of live ranges and of threads that own a bit. -/
def owners (layout : PoolLayout) (state : PallocState Thread) (pool : Pool) (index : Nat) : Nat :=
  state.live.countP (·.covers (layout.base pool) index) +
    tally (claims layout pool index) state.point

/-- The invariant of the page allocator. -/
structure PallocSafe (layout : PoolLayout) (state : PallocState Thread) : Prop where
  size : ∀ pool, (state.usedMap pool).bitCnt = layout.size pool
  placed : ∀ range ∈ state.live, layout.Placed range
  points : ∀ thread, PointSound layout state.usedMap (state.point thread)
  guarded : ∀ thread pool, guards pool (state.point thread) = true → state.lock pool = some thread
  owned :
    ∀ pool index, index < layout.size pool →
      owners layout state pool index = ((state.usedMap pool).bit index).toNat

/-- One rule for each thing that a step of a sound state can do. -/
inductive PallocMove (layout : PoolLayout) (state : PallocState Thread)
    (current : Thread) : PallocState Thread → Prop
  | getNothing : PallocMove layout state current state
  | callGet {cnt : Nat} (pool : Pool) (must : Bool) :
      state.point current = .idle →
      0 < cnt →
      PallocMove layout state current
        (state.setPoint current (.getLock pool cnt must))
  | callFree {range : PageRange} :
      state.point current = .idle →
      range ∈ state.live →
      PallocMove layout state current
        ((state.setLive (state.live.erase range)).setPoint current
          (.freePool range))
  | acquire {pool : Pool} {cnt : Nat} {must : Bool} :
      state.point current = .getLock pool cnt must →
      state.lock pool = none →
      cnt ≤ layout.size pool →
      PallocMove layout state current
        ((state.setLock pool (some current)).setPoint current
          (.scan pool cnt must 0 0))
  | acquireTooMany {pool : Pool} {cnt : Nat} {must : Bool} :
      state.point current = .getLock pool cnt must →
      state.lock pool = none →
      PallocMove layout state current
        ((state.setLock pool (some current)).setPoint current
          (.getUnlock pool cnt must none))
  | testClear {pool : Pool} {cnt start i : Nat} {must : Bool} :
      state.point current = .scan pool cnt must start i →
      i < cnt →
      (state.usedMap pool).bit (start + i) = false →
      PallocMove layout state current
        (state.setPoint current (.scan pool cnt must start (i + 1)))
  | testUsed {pool : Pool} {cnt start i : Nat} {must : Bool} :
      state.point current = .scan pool cnt must start i →
      start + 1 + cnt ≤ layout.size pool →
      PallocMove layout state current
        (state.setPoint current (.scan pool cnt must (start + 1) 0))
  | scanEnd {pool : Pool} {cnt start i : Nat} {must : Bool} :
      state.point current = .scan pool cnt must start i →
      PallocMove layout state current
        (state.setPoint current (.getUnlock pool cnt must none))
  | found {pool : Pool} {cnt start : Nat} {must : Bool} :
      state.point current = .scan pool cnt must start cnt →
      PallocMove layout state current
        (state.setPoint current (.flip pool cnt must start 0))
  | mark {pool : Pool} {cnt start i : Nat} {must : Bool} {map : Bitmap} :
      state.point current = .flip pool cnt must start i →
      i < cnt →
      map.bitCnt = (state.usedMap pool).bitCnt →
      (∀ other,
        map.bit other = if other = start + i then true
          else (state.usedMap pool).bit other) →
      PallocMove layout state current
        ((state.setMap pool map).setPoint current
          (.flip pool cnt must start (i + 1)))
  | marked {pool : Pool} {cnt start : Nat} {must : Bool} :
      state.point current = .flip pool cnt must start cnt →
      PallocMove layout state current
        (state.setPoint current (.getUnlock pool cnt must (some start)))
  | unlock {pool : Pool} {cnt : Nat} {must : Bool} {pageIdx : Option Nat} :
      state.point current = .getUnlock pool cnt must pageIdx →
      PallocMove layout state current
        ((state.setLock pool none).setPoint current
          (.getReturn pool cnt must pageIdx))
  | returnPages {pool : Pool} {cnt start : Nat} {must : Bool} :
      state.point current = .getReturn pool cnt must (some start) →
      PallocMove layout state current
        ((state.setLive
          (⟨layout.base pool + pgSize * start, cnt⟩ :: state.live)).setPoint
            current .idle)
  | returnNull {pool : Pool} {cnt : Nat} {must : Bool} :
      state.point current = .getReturn pool cnt must none →
      PallocMove layout state current
        (state.setPoint current (if must then .panicked else .idle))
  | findPool {pool : Pool} {index : Nat} {range : PageRange} :
      state.point current = .freePool range →
      layout.At range pool index →
      PallocMove layout state current
        (state.setPoint current (.freeCheck pool range.cnt index 0))
  | check {pool : Pool} {cnt start i : Nat} :
      state.point current = .freeCheck pool cnt start i →
      i < cnt →
      PallocMove layout state current
        (state.setPoint current (.freeCheck pool cnt start (i + 1)))
  | checked {pool : Pool} {cnt start i : Nat} :
      state.point current = .freeCheck pool cnt start i →
      PallocMove layout state current
        (state.setPoint current (.freeReset pool cnt start 0))
  | reset {pool : Pool} {cnt start i : Nat} {map : Bitmap} :
      state.point current = .freeReset pool cnt start i →
      i < cnt →
      map.bitCnt = (state.usedMap pool).bitCnt →
      (∀ other,
        map.bit other = if other = start + i then false
          else (state.usedMap pool).bit other) →
      PallocMove layout state current
        ((state.setMap pool map).setPoint current
          (.freeReset pool cnt start (i + 1)))
  | freed {pool : Pool} {cnt start : Nat} :
      state.point current = .freeReset pool cnt start cnt →
      PallocMove layout state current (state.setPoint current .idle)

omit [DecidableEq Thread] in
theorem PallocSafe.fits (safe : PallocSafe layout state) (pool : Pool) :
    (state.usedMap pool).Fits := by
  unfold Bitmap.Fits
  rw [safe.size]
  exact layout.fits pool

omit [DecidableEq Thread] in
theorem PallocSafe.inRange (safe : PallocSafe layout state) {pool : Pool}
    {cnt start : Nat} (range : start + cnt ≤ layout.size pool) :
    (state.usedMap pool).inRange start cnt = true :=
  Bitmap.inRange_of_le (safe.fits pool) (by rw [safe.size]; exact range)

omit [DecidableEq Thread] in
/-- The bits that a thread owns are set. -/
theorem PallocSafe.bit_of_claims (safe : PallocSafe layout state)
    {pool : Pool} {index : Nat} (inPool : index < layout.size pool)
    (owns : claims layout pool index (state.point current) = true) :
    (state.usedMap pool).bit index = true := by
  have count := safe.owned pool index inPool
  have positive : 0 < tally (claims layout pool index) state.point :=
    tally_pos_iff.mpr ⟨current, owns⟩
  unfold owners at count
  cases bit : (state.usedMap pool).bit index with
  | true => rfl
  | false =>
      rw [bit, Bool.toNat_false] at count
      omega

/-- No assertion fails in a sound state, and a step is one of the rules. -/
theorem PallocMove.of_step (safe : PallocSafe layout state) {call : PallocCall}
    (moved : state.step layout.base current call = some target) :
    PallocMove layout state current target := by
  have sound := safe.points current
  cases here : state.point current with
  | idle =>
      cases call with
      | get user cnt must =>
          simp only [PallocState.step, here] at moved
          by_cases none : cnt = 0
          · rw [if_pos none, Option.some.injEq] at moved
            subst moved
            exact .getNothing
          · rw [if_neg none, Option.some.injEq] at moved
            subst moved
            exact .callGet _ must here (by omega)
      | free range =>
          simp only [PallocState.step, here, Option.ite_none_right_eq_some,
            Option.some.injEq] at moved
          obtain ⟨live, rfl⟩ := moved
          exact .callFree here live
  | getLock pool cnt must =>
      simp only [PallocState.step, here, Option.ite_none_right_eq_some, Option.some.injEq] at moved
      obtain ⟨unlocked, rfl⟩ := moved
      rw [safe.size]
      by_cases enough : cnt ≤ layout.size pool
      · rw [if_pos enough]
        exact .acquire here unlocked enough
      · rw [if_neg enough]
        exact .acquireTooMany here unlocked
  | scan pool cnt must start i =>
      rw [here] at sound
      obtain ⟨positive, range, passed, clear⟩ := sound
      simp only [PallocState.step, here, safe.inRange range, if_true] at moved
      by_cases more : i < cnt
      · have inUse : start + i < (state.usedMap pool).bitCnt := by
          rw [safe.size]
          omega
        rw [if_pos more, Bitmap.bitmapTest_eq (safe.fits pool) inUse] at moved
        simp only [Option.some.injEq] at moved
        subst moved
        cases used : (state.usedMap pool).bit (start + i) with
        | false =>
            simp only [PallocState.scanned, Bool.false_eq_true, if_false]
            exact .testClear here more used
        | true =>
            simp only [PallocState.scanned, if_true, safe.size]
            by_cases room : start + 1 ≤ layout.size pool - cnt
            · rw [if_pos room]
              exact .testUsed here (by omega)
            · rw [if_neg room]
              exact .scanEnd here
      · rw [if_neg more, Option.some.injEq] at moved
        subst moved
        obtain rfl : i = cnt := by omega
        exact .found here
  | flip pool cnt must start i =>
      rw [here] at sound
      obtain ⟨positive, range, passed, clear⟩ := sound
      simp only [PallocState.step, here, safe.inRange range, if_true] at moved
      by_cases more : i < cnt
      · have inUse : start + i < (state.usedMap pool).bitCnt := by
          rw [safe.size]
          omega
        obtain ⟨map, set, sameCnt, bits⟩ := Bitmap.bitmapSet_eq true (safe.fits pool) inUse
        rw [if_pos more, set] at moved
        simp only [Option.some.injEq] at moved
        subst moved
        exact .mark here more sameCnt bits
      · rw [if_neg more, Option.some.injEq] at moved
        subst moved
        obtain rfl : i = cnt := by omega
        exact .marked here
  | getUnlock pool cnt must pageIdx =>
      simp only [PallocState.step, here, Option.some.injEq] at moved
      subst moved
      exact .unlock here
  | getReturn pool cnt must pageIdx =>
      simp only [PallocState.step, here, Option.some.injEq] at moved
      subst moved
      cases pageIdx with
      | some start => exact .returnPages here
      | none => exact .returnNull here
  | freePool range =>
      rw [here] at sound
      obtain ⟨pool, index, place⟩ := sound
      simp only [PallocState.step, here, safe.size, place.pgOfs,
        place.pageFromPool, place.not_ignored, ne_eq, not_true,
        if_false] at moved
      cases pool with
      | kernel =>
          rw [if_pos (by decide), place.pgNo, Option.some.injEq] at moved
          subst moved
          exact .findPool here place
      | user =>
          rw [if_neg (by decide), if_pos (by decide), place.pgNo, Option.some.injEq] at moved
          subst moved
          exact .findPool here place
  | freeCheck pool cnt start i =>
      rw [here] at sound
      obtain ⟨range, passed⟩ := sound
      simp only [PallocState.step, here, safe.inRange range, if_true] at moved
      by_cases more : i < cnt
      · have inPool : start + i < layout.size pool := by omega
        have inUse : start + i < (state.usedMap pool).bitCnt := by
          rw [safe.size]
          exact inPool
        have set : (state.usedMap pool).bit (start + i) = true := by
          apply safe.bit_of_claims inPool
          rw [here]
          simp [claims, more]
        rw [if_pos more, Bitmap.bitmapTest_eq (safe.fits pool) inUse, set] at moved
        simp only [Option.some.injEq] at moved
        subst moved
        exact .check here more
      · rw [if_neg more, Option.some.injEq] at moved
        subst moved
        exact .checked here
  | freeReset pool cnt start i =>
      rw [here] at sound
      obtain ⟨range, passed⟩ := sound
      simp only [PallocState.step, here, safe.inRange range, if_true] at moved
      by_cases more : i < cnt
      · have inUse : start + i < (state.usedMap pool).bitCnt := by
          rw [safe.size]
          omega
        obtain ⟨map, set, sameCnt, bits⟩ := Bitmap.bitmapSet_eq false (safe.fits pool) inUse
        rw [if_pos more, set] at moved
        simp only [Option.some.injEq] at moved
        subst moved
        exact .reset here more sameCnt bits
      · rw [if_neg more, Option.some.injEq] at moved
        subst moved
        obtain rfl : i = cnt := by omega
        exact .freed here
  | failed =>
      simp [PallocState.step, here] at moved
  | panicked =>
      simp [PallocState.step, here] at moved

omit [Fintype Thread] [DecidableEq Thread] in
/-- Clearing bits keeps every program point sound. -/
theorem PointSound.mono {before after : Pool → Bitmap} {point : PallocPoint}
    (cleared : ∀ pool index, (before pool).bit index = false → (after pool).bit index = false)
    (sound : PointSound layout before point) :
    PointSound layout after point := by
  cases point with
  | scan pool cnt must start i =>
      obtain ⟨positive, range, passed, clear⟩ := sound
      exact ⟨positive, range, passed, fun other first last =>
          cleared pool other (clear other first last)⟩
  | flip pool cnt must start i =>
      obtain ⟨positive, range, passed, clear⟩ := sound
      exact ⟨positive, range, passed, fun other first last =>
          cleared pool other (clear other first last)⟩
  | getUnlock pool cnt must pageIdx => cases pageIdx <;> exact sound
  | getReturn pool cnt must pageIdx => cases pageIdx <;> exact sound
  | _ => exact sound

omit [Fintype Thread] [DecidableEq Thread] in
/-- Only the holder of the lock of a pool depends on the clear bits of its
bitmap. -/
theorem PointSound.of_not_guards {before after : Pool → Bitmap}
    {point : PallocPoint} {pool : Pool} (elsewhere : guards pool point = false)
    (same : ∀ other, other ≠ pool → after other = before other)
    (sound : PointSound layout before point) :
    PointSound layout after point := by
  cases point with
  | scan here cnt must start i =>
      have different : here ≠ pool := by simpa [guards] using elsewhere
      simpa [PointSound, same here different] using sound
  | flip here cnt must start i =>
      have different : here ≠ pool := by simpa [guards] using elsewhere
      simpa [PointSound, same here different] using sound
  | getUnlock here cnt must pageIdx => cases pageIdx <;> exact sound
  | getReturn here cnt must pageIdx => cases pageIdx <;> exact sound
  | _ => exact sound

/-- What one step has to show: its own point is sound, the others stay sound,
and the owners of each bit have changed as the bit has. -/
theorem PallocSafe.advance (safe : PallocSafe layout state)
    {before after : PallocPoint} (lock : Pool → Option Thread)
    (usedMap : Pool → Bitmap) (live : List PageRange) (here : state.point current = before)
    (size : ∀ pool, (usedMap pool).bitCnt = layout.size pool)
    (placed : ∀ range ∈ live, layout.Placed range) (sound : PointSound layout usedMap after)
    (others : ∀ thread, thread ≠ current → PointSound layout usedMap (state.point thread))
    (guarded : ∀ pool, guards pool after = true → lock pool = some current)
    (guardedOthers :
      ∀ thread pool, thread ≠ current →
        guards pool (state.point thread) = true → lock pool = some thread)
    (owned :
      ∀ pool index, index < layout.size pool →
        live.countP (·.covers (layout.base pool) index) +
              (claims layout pool index after).toNat +
            ((state.usedMap pool).bit index).toNat =
          state.live.countP (·.covers (layout.base pool) index) +
              (claims layout pool index before).toNat +
            ((usedMap pool).bit index).toNat) :
    PallocSafe layout
      { lock := lock
        usedMap := usedMap
        point := Function.update state.point current after
        live := live } := by
  subst here
  refine ⟨size, placed, ?_, ?_, ?_⟩
  · intro thread
    by_cases same : thread = current
    · subst same
      simpa using sound
    · simpa [same] using others thread same
  · intro thread pool
    by_cases same : thread = current
    · subst same
      simpa using guarded pool
    · simpa [same] using guardedOthers thread pool same
  · intro pool index inPool
    have change := owned pool index inPool
    have count := safe.owned pool index inPool
    have moved := tally_update (claims layout pool index) state.point current after
    unfold owners at *
    simp only
    omega

/-- A step that moves one thread and changes nothing that is shared. -/
theorem PallocSafe.setPoint (safe : PallocSafe layout state) {before after : PallocPoint}
    (here : state.point current = before) (sound : PointSound layout state.usedMap after)
    (guarded : ∀ pool, guards pool after = true → guards pool before = true)
    (claimed :
      ∀ pool index, index < layout.size pool →
        claims layout pool index after = claims layout pool index before) :
    PallocSafe layout (state.setPoint current after) := by
  refine safe.advance state.lock state.usedMap state.live here safe.size
    safe.placed sound (fun thread _ => safe.points thread) ?_
    (fun thread pool _ => safe.guarded thread pool) ?_
  · intro pool holds
    apply safe.guarded
    rw [here]
    exact guarded pool holds
  · intro pool index inPool
    rw [claimed pool index inPool]

/-- Taking one element out of a list takes it out of the count. -/
theorem countP_erase {α : Type} [DecidableEq α] (test : α → Bool)
    {list : List α} {member : α} (inside : member ∈ list) :
    (list.erase member).countP test + (test member).toNat = list.countP test := by
  have shuffled := (List.perm_cons_erase inside).countP_eq test
  rw [shuffled, List.countP_cons]
  cases test member <;> simp

omit [DecidableEq Thread] in
/-- A lock that is taken while it is free is nobody else's. -/
theorem PallocSafe.guarded_others (safe : PallocSafe layout state)
    {pool : Pool} {owner : Option Thread} (unlocked : state.lock pool = none)
    (thread : Thread) (other : Pool) (_ : thread ≠ current)
    (holds : guards other (state.point thread) = true) :
    Function.update state.lock pool owner other = some thread := by
  have held := safe.guarded thread other holds
  have different : other ≠ pool := by
    rintro rfl
    rw [unlocked] at held
    cases held
  rw [Function.update_of_ne different]
  exact held

omit [DecidableEq Thread] in
/-- While a thread guards a pool nobody else does. -/
theorem PallocSafe.not_guards (safe : PallocSafe layout state)
    {pool : Pool} (holds : guards pool (state.point current) = true)
    (thread : Thread) (different : thread ≠ current) :
    guards pool (state.point thread) = false := by
  by_contra both
  rw [Bool.not_eq_false] at both
  have first := safe.guarded current pool holds
  have second := safe.guarded thread pool both
  rw [first] at second
  exact different (Option.some.inj second).symm

omit [DecidableEq Thread] in
/-- Neither marking nor resetting a bit changes the size of a bitmap. -/
theorem PallocSafe.size_update (safe : PallocSafe layout state) {pool : Pool}
    {map : Bitmap} (sameCnt : map.bitCnt = (state.usedMap pool).bitCnt) (other : Pool) :
    (Function.update state.usedMap pool map other).bitCnt = layout.size other := by
  by_cases same : other = pool
  · subst same
    rw [Function.update_self, sameCnt, safe.size]
  · rw [Function.update_of_ne same, safe.size]

/-- A live range is handed in. -/
theorem PallocSafe.callFree {range : PageRange} (safe : PallocSafe layout state)
    (here : state.point current = .idle) (member : range ∈ state.live) :
    PallocSafe layout ((state.setLive (state.live.erase range)).setPoint current
      (.freePool range)) := by
  refine safe.advance state.lock state.usedMap (state.live.erase range)
    here safe.size ?_ (safe.placed range member)
    (fun thread _ => safe.points thread) (by simp [guards])
    (fun thread pool _ => safe.guarded thread pool) ?_
  · intro other remains
    exact safe.placed other (List.mem_of_mem_erase remains)
  · intro pool index _
    have counted := countP_erase (·.covers (layout.base pool) index) member
    simp only [claims, Bool.toNat_false]
    omega

variable {pool : Pool} {cnt start i : Nat} {must : Bool}

/-- The lock of a pool is taken. -/
theorem PallocSafe.takeLock (safe : PallocSafe layout state)
    (here : state.point current = .getLock pool cnt must)
    (unlocked : state.lock pool = none) {after : PallocPoint}
    (sound : PointSound layout state.usedMap after)
    (guarded : ∀ other, guards other after = true → other = pool)
    (claimed : ∀ other index, claims layout other index after = false) :
    PallocSafe layout ((state.setLock pool (some current)).setPoint current after) := by
  refine safe.advance (Function.update state.lock pool (some current))
    state.usedMap state.live here safe.size safe.placed sound
    (fun thread _ => safe.points thread) ?_ (safe.guarded_others unlocked) ?_
  · intro other holds
    rw [guarded other holds, Function.update_self]
  · intro other index _
    rw [claimed]
    rfl

theorem PallocSafe.testClear (safe : PallocSafe layout state)
    (here : state.point current = .scan pool cnt must start i) (more : i < cnt)
    (clear : (state.usedMap pool).bit (start + i) = false) :
    PallocSafe layout (state.setPoint current (.scan pool cnt must start (i + 1))) := by
  have sound := safe.points current
  rw [here] at sound
  obtain ⟨positive, range, passed, uniform⟩ := sound
  refine safe.setPoint here ⟨positive, range, more, ?_⟩ (fun _ holds => holds) (fun _ _ _ => rfl)
  intro other first last
  by_cases same : other = start + i
  · rw [same]
    exact clear
  · exact uniform other first (by omega)

theorem PallocSafe.testUsed (safe : PallocSafe layout state)
    (here : state.point current = .scan pool cnt must start i)
    (room : start + 1 + cnt ≤ layout.size pool) :
    PallocSafe layout (state.setPoint current (.scan pool cnt must (start + 1) 0)) := by
  have sound := safe.points current
  rw [here] at sound
  obtain ⟨positive, range, passed, uniform⟩ := sound
  refine safe.setPoint here ⟨positive, room, Nat.zero_le cnt, ?_⟩
    (fun _ holds => holds) (fun _ _ _ => rfl)
  intro other first last
  omega

theorem PallocSafe.found (safe : PallocSafe layout state)
    (here : state.point current = .scan pool cnt must start cnt) :
    PallocSafe layout (state.setPoint current (.flip pool cnt must start 0)) := by
  have sound := safe.points current
  rw [here] at sound
  obtain ⟨positive, range, passed, uniform⟩ := sound
  refine safe.setPoint here
    ⟨positive, range, Nat.zero_le cnt, by simpa using uniform⟩
    (fun _ holds => holds) ?_
  intro other index _
  simp [claims]

/-- A bit that a scan has found clear is set. -/
theorem PallocSafe.mark (safe : PallocSafe layout state) {map : Bitmap}
    (here : state.point current = .flip pool cnt must start i) (more : i < cnt)
    (sameCnt : map.bitCnt = (state.usedMap pool).bitCnt)
    (bits : ∀ other, map.bit other =
      if other = start + i then true else (state.usedMap pool).bit other) :
    PallocSafe layout ((state.setMap pool map).setPoint current
      (.flip pool cnt must start (i + 1))) := by
  have sound := safe.points current
  rw [here] at sound
  obtain ⟨positive, range, passed, uniform⟩ := sound
  have clear : (state.usedMap pool).bit (start + i) = false :=
    uniform (start + i) (le_refl _) (by omega)
  have holds : guards pool (state.point current) = true := by
    rw [here]
    exact decide_eq_true rfl
  refine safe.advance state.lock (Function.update state.usedMap pool map)
    state.live here (safe.size_update sameCnt) safe.placed
    ⟨positive, range, more, ?_⟩ ?_ ?_
    (fun thread other _ => safe.guarded thread other) ?_
  · intro other first last
    rw [Function.update_self, bits, if_neg (by omega)]
    exact uniform other (by omega) (by omega)
  · intro thread different
    refine PointSound.of_not_guards (safe.not_guards holds thread different) ?_ (safe.points thread)
    intro other elsewhere
    rw [Function.update_of_ne elsewhere]
  · intro other same
    obtain rfl : pool = other := of_decide_eq_true same
    exact safe.guarded current pool holds
  · intro other index inPool
    by_cases same : other = pool
    · subst same
      rw [Function.update_self, bits]
      by_cases marks : index = start + i
      · subst marks
        simp [claims, clear]
      · rw [if_neg marks, claims_flip_succ marks]
    · rw [Function.update_of_ne same]
      simp [claims, Ne.symm same]

/-- The lock of a pool is given back. -/
theorem PallocSafe.unlock {pageIdx : Option Nat} (safe : PallocSafe layout state)
    (here : state.point current = .getUnlock pool cnt must pageIdx) :
    PallocSafe layout ((state.setLock pool none).setPoint current
      (.getReturn pool cnt must pageIdx)) := by
  have sound := safe.points current
  rw [here] at sound
  have holds : guards pool (state.point current) = true := by
    rw [here]
    exact decide_eq_true rfl
  refine safe.advance (Function.update state.lock pool none)
    state.usedMap state.live here safe.size safe.placed
    (by cases pageIdx <;> exact sound)
    (fun thread _ => safe.points thread) (by simp [guards]) ?_ ?_
  · intro thread other different guardsOther
    have elsewhere : other ≠ pool := by
      rintro rfl
      rw [safe.not_guards holds thread different] at guardsOther
      cases guardsOther
    rw [Function.update_of_ne elsewhere]
    exact safe.guarded thread other guardsOther
  · cases pageIdx <;> exact fun _ _ _ => rfl

/-- The pages of the bits that a thread has set become a live range. -/
theorem PallocSafe.returnPages (safe : PallocSafe layout state)
    (here : state.point current = .getReturn pool cnt must (some start)) :
    PallocSafe layout ((state.setLive
      (⟨layout.base pool + pgSize * start, cnt⟩ :: state.live)).setPoint
        current .idle) := by
  have sound := safe.points current
  rw [here] at sound
  have place : layout.At ⟨layout.base pool + pgSize * start, cnt⟩ pool start :=
    ⟨rfl, sound.1, sound.2⟩
  refine safe.advance state.lock state.usedMap
    (⟨layout.base pool + pgSize * start, cnt⟩ :: state.live) here
    safe.size ?_ trivial (fun thread _ => safe.points thread) (by simp [guards])
    (fun thread other _ => safe.guarded thread other) ?_
  · intro range member
    rcases List.mem_cons.mp member with rfl | member
    · exact ⟨pool, start, place⟩
    · exact safe.placed range member
  · intro other index inPool
    have covered :
        PageRange.covers ⟨layout.base pool + pgSize * start, cnt⟩
            (layout.base other) index =
          claims layout other index (.getReturn pool cnt must (some start)) := by
      rw [Bool.eq_iff_iff, place.covers_iff inPool]
      simp only [claims, decide_eq_true_eq]
      exact and_congr_left fun _ => eq_comm
    rw [List.countP_cons, covered]
    cases claims layout other index (.getReturn pool cnt must (some start)) <;> simp [claims]

theorem PallocSafe.findPool {range : PageRange} (safe : PallocSafe layout state)
    (here : state.point current = .freePool range) (place : layout.At range pool start) :
    PallocSafe layout (state.setPoint current (.freeCheck pool range.cnt start 0)) := by
  refine safe.setPoint here ⟨place.2.2, Nat.zero_le _⟩ (by simp [guards]) ?_
  intro other page inPool
  rw [Bool.eq_iff_iff]
  simp only [claims, decide_eq_true_eq, place.covers_iff inPool]
  exact and_congr_left fun _ => eq_comm

/-- A bit is cleared by its owner. -/
theorem PallocSafe.reset (safe : PallocSafe layout state) {map : Bitmap}
    (here : state.point current = .freeReset pool cnt start i) (more : i < cnt)
    (sameCnt : map.bitCnt = (state.usedMap pool).bitCnt)
    (bits : ∀ other, map.bit other =
      if other = start + i then false else (state.usedMap pool).bit other) :
    PallocSafe layout ((state.setMap pool map).setPoint current
      (.freeReset pool cnt start (i + 1))) := by
  have sound := safe.points current
  rw [here] at sound
  obtain ⟨range, passed⟩ := sound
  have set : (state.usedMap pool).bit (start + i) = true := by
    apply safe.bit_of_claims (by omega)
    rw [here]
    simp [claims, more]
  refine safe.advance state.lock (Function.update state.usedMap pool map)
    state.live here (safe.size_update sameCnt) safe.placed ⟨range, more⟩ ?_
    (by simp [guards]) (fun thread other _ => safe.guarded thread other) ?_
  · intro thread different
    refine PointSound.mono ?_ (safe.points thread)
    intro other index clear
    by_cases same : other = pool
    · subst same
      rw [Function.update_self, bits, clear]
      simp
    · rw [Function.update_of_ne same]
      exact clear
  · intro other index inPool
    by_cases same : other = pool
    · subst same
      rw [Function.update_self, bits]
      by_cases resets : index = start + i
      · subst resets
        simp [claims, set, more]
      · rw [if_neg resets, claims_freeReset_succ resets]
    · rw [Function.update_of_ne same]
      simp [claims, Ne.symm same]

theorem PallocMove.safe (safe : PallocSafe layout state)
    (moved : PallocMove layout state current target) :
    PallocSafe layout target := by
  have sound := safe.points current
  cases moved with
  | getNothing => exact safe
  | callGet pool must here positive =>
      exact safe.setPoint here positive (by simp [guards]) (fun _ _ _ => rfl)
  | callFree here member => exact safe.callFree here member
  | @acquire pool cnt must here unlocked enough =>
      rw [here] at sound
      refine safe.takeLock here unlocked ⟨sound, by omega, Nat.zero_le cnt, ?_⟩
        (fun _ same => (of_decide_eq_true same).symm) (fun _ _ => rfl)
      intro other first last
      omega
  | acquireTooMany here unlocked =>
      exact safe.takeLock here unlocked trivial
        (fun _ same => (of_decide_eq_true same).symm) (fun _ _ => rfl)
  | testClear here more clear => exact safe.testClear here more clear
  | testUsed here room => exact safe.testUsed here room
  | scanEnd here =>
      exact safe.setPoint here trivial (fun _ holds => holds) (fun _ _ _ => rfl)
  | found here => exact safe.found here
  | mark here more sameCnt bits => exact safe.mark here more sameCnt bits
  | marked here =>
      rw [here] at sound
      exact safe.setPoint here ⟨sound.1, sound.2.1⟩ (fun _ holds => holds)
        (fun _ _ _ => rfl)
  | unlock here => exact safe.unlock here
  | returnPages here => exact safe.returnPages here
  | @returnNull pool cnt must here =>
      refine safe.setPoint here ?_ ?_ ?_
      · cases must <;> exact trivial
      · cases must <;> simp [guards]
      · cases must <;> exact fun _ _ _ => rfl
  | findPool here place => exact safe.findPool here place
  | check here more =>
      rw [here] at sound
      exact safe.setPoint here ⟨sound.1, more⟩ (fun _ holds => holds)
        (fun _ _ _ => rfl)
  | checked here =>
      rw [here] at sound
      exact safe.setPoint here ⟨sound.1, Nat.zero_le _⟩ (fun _ holds => holds)
        (fun _ _ _ => rfl)
  | reset here more sameCnt bits => exact safe.reset here more sameCnt bits
  | freed here =>
      refine safe.setPoint here trivial (by simp [guards]) ?_
      intro other index _
      simp [claims]

omit [Fintype Thread] [DecidableEq Thread] in
/-- A placed range lies within the pages of its pool. -/
theorem PoolLayout.At.inside {range : PageRange} {pool : Pool} {index : Nat}
    (place : layout.At range pool index) :
    layout.base pool ≤ range.pages ∧ range.stop ≤ layout.stop pool := by
  rcases place with ⟨pages, positive, last⟩
  unfold PageRange.stop PoolLayout.stop pgSize at *
  constructor <;> omega

omit [Fintype Thread] [DecidableEq Thread] in
/-- A placed range is outside the other pool, its bitmap included. -/
theorem PoolLayout.At.outside {range : PageRange} {pool other : Pool}
    {index : Nat} (place : layout.At range pool index) (different : other ≠ pool) :
    range.stop ≤ layout.start other ∨ layout.stop other ≤ range.pages := by
  have within := place.inside
  have first := layout.bitmapFirst pool
  rcases layout.separate different with before | after
  · left
    omega
  · right
    omega

omit [Fintype Thread] [DecidableEq Thread] in
/-- Two placed ranges that share no page are apart in memory. -/
theorem PoolLayout.apart_of_no_common {left right : PageRange}
    (leftPlaced : layout.Placed left) (rightPlaced : layout.Placed right)
    (separate :
      ∀ pool index, index < layout.size pool →
        ¬(left.covers (layout.base pool) index = true ∧
          right.covers (layout.base pool) index = true)) :
    left.stop ≤ right.pages ∨ right.stop ≤ left.pages := by
  rcases leftPlaced with ⟨pool, first, leftAt⟩
  rcases rightPlaced with ⟨other, second, rightAt⟩
  by_cases same : other = pool
  · subst same
    by_contra overlap
    rcases leftAt with ⟨leftPages, leftPositive, leftLast⟩
    rcases rightAt with ⟨rightPages, rightPositive, rightLast⟩
    have leftPlace : layout.At left other first := ⟨leftPages, leftPositive, leftLast⟩
    have rightPlace : layout.At right other second := ⟨rightPages, rightPositive, rightLast⟩
    have inPool : max first second < layout.size other := by omega
    -- The later of the two first pages is a page of both ranges.
    apply separate other (max first second) inPool
    rw [leftPlace.covers_iff inPool, rightPlace.covers_iff inPool]
    unfold PageRange.stop pgSize at *
    refine ⟨⟨rfl, ?_, ?_⟩, rfl, ?_, ?_⟩ <;> omega
  · have leftWithin := leftAt.inside
    have second := rightAt.outside (Ne.symm same)
    have first := layout.bitmapFirst pool
    rcases second with before | after
    · right
      omega
    · left
      omega

/-- What the page allocator promises in every state. -/
structure PallocGuarantee (layout : PoolLayout)
    (state : PallocState Thread) : Prop where
  disjoint : state.live.Pairwise fun left right =>
      left.stop ≤ right.pages ∨ right.stop ≤ left.pages
  /-- A live range consists of whole pages between the base and the end of one
  pool, and so of no bitmap pages, and lies outside the other pool. -/
  inside : ∀ range ∈ state.live,
      0 < range.cnt ∧ pgOfs range.pages = 0 ∧
        ∃ pool,
          layout.base pool ≤ range.pages ∧ range.stop ≤ layout.stop pool ∧
            ∀ other, other ≠ pool →
              range.stop ≤ layout.start other ∨ layout.stop other ≤ range.pages
  asserts : ∀ thread, state.point thread ≠ .failed
  bits :
    (∀ thread, state.point thread = .idle ∨ state.point thread = .panicked) →
      ∀ pool index, index < layout.size pool →
        ((state.usedMap pool).bit index = true ↔ ∃ range ∈ state.live,
            range.covers (layout.base pool) index = true)

end Invariant

section Initialisation

variable {ram : RamPages} {userPageLimit : Nat}
variable {memory : Pool → Nat → Elem} {pools : Pool → PoolData}

/-- What `init_pool` makes of the pages of a pool: the bitmap takes at least
one of them, and all bits are clear. -/
theorem initPool_eq {base pageCnt : Nat} {contents : Nat → Elem}
    {data : PoolData} (small : pageCnt < unsignedModulus)
    (init : initPool base pageCnt contents = some data) :
    ∃ bmPages,
      0 < bmPages ∧ bmPages ≤ pageCnt ∧
      data.base = base + bmPages * pgSize ∧
      data.usedMap.bitCnt = pageCnt - bmPages ∧
      ∀ index, index < pageCnt - bmPages →
        data.usedMap.bit index = false := by
  have whole := le_divRoundUp_mul (bitmapBufSize pageCnt) (show 0 < pgSize by decide)
  have fewer :
      bitmapBufSize
          (pageCnt - divRoundUp (bitmapBufSize pageCnt) pgSize) ≤
        bitmapBufSize pageCnt := by
    apply bitmapBufSize_mono
    omega
  unfold initPool at init
  generalize divRoundUp (bitmapBufSize pageCnt) pgSize = bmPages at *
  by_cases tooMany : pageCnt < bmPages
  · rw [if_pos tooMany] at init
    cases init
  · rw [if_neg tooMany] at init
    rcases bitmapCreateInBuf_eq contents
      (show pageCnt - bmPages < unsignedModulus by omega)
      (fewer.trans whole) with ⟨map, created, size, clear⟩
    rw [created, Option.map_some, Option.some.injEq] at init
    subst init
    have positive : 0 < bmPages := by
      by_contra zero
      have none : bmPages = 0 := by omega
      rw [none, Nat.zero_mul] at whole
      unfold bitmapBufSize at whole
      omega
    exact ⟨bmPages, positive, by omega, rfl, size, clear⟩

theorem poolPages_lt (ram : RamPages) (userPageLimit : Nat) (pool : Pool) :
    poolPages ram userPageLimit pool < unsignedModulus := by
  have most := ram.atMost
  have free : freePages ram ≤ 16384 := by
    unfold freePages freeStart ptov pgSize physBase
    omega
  have bound : poolPages ram userPageLimit pool ≤ freePages ram := by
    cases pool with
    | kernel => exact Nat.sub_le _ _
    | user =>
        show userPages ram userPageLimit ≤ freePages ram
        unfold userPages
        split <;> omega
  unfold unsignedModulus
  omega

/-- Both pools are made by `init_pool`. -/
theorem pallocInit_pool (init : pallocInit ram userPageLimit memory = some pools) (pool : Pool) :
    initPool (poolStart ram userPageLimit pool)
        (poolPages ram userPageLimit pool) (memory pool) =
      some (pools pool) := by
  unfold pallocInit at init
  rw [Option.bind_eq_some_iff] at init
  rcases init with ⟨kernel, kernelInit, init⟩
  rw [Option.map_eq_some_iff] at init
  rcases init with ⟨user, userInit, rfl⟩
  cases pool with
  | kernel => exact kernelInit
  | user => exact userInit

/-- The layout of memory after `palloc_init`. -/
def pallocLayout (init : pallocInit ram userPageLimit memory = some pools) : PoolLayout where
  start := poolStart ram userPageLimit
  base pool := (pools pool).base
  size pool := (pools pool).usedMap.bitCnt
  aligned := by
    intro pool
    rcases initPool_eq (poolPages_lt ram userPageLimit pool)
      (pallocInit_pool init pool) with ⟨bmPages, -, -, base, -, -⟩
    rw [base]
    unfold pgOfs
    cases pool <;> simp only [poolStart, freeStart, ptov, physBase, pgSize] <;> omega
  bitmapFirst := by
    intro pool
    rcases initPool_eq (poolPages_lt ram userPageLimit pool)
      (pallocInit_pool init pool) with ⟨bmPages, positive, -, base, -, -⟩
    rw [base]
    unfold pgSize
    omega
  apart := by
    rcases initPool_eq (poolPages_lt ram userPageLimit .kernel)
      (pallocInit_pool init .kernel) with ⟨bmPages, -, most, base, size, -⟩
    rw [base, size]
    simp only [poolStart, poolPages] at most ⊢
    rw [Nat.add_assoc, ← Nat.add_mul, Nat.add_sub_cancel' most]
  fits := by
    intro pool
    have small := poolPages_lt ram userPageLimit pool
    rcases initPool_eq small (pallocInit_pool init pool) with ⟨bmPages, -, -, -, size, -⟩
    rw [size]
    omega

end Initialisation

section Guarantee

variable {Thread : Type} [Fintype Thread] [DecidableEq Thread]
variable {ram : RamPages} {userPageLimit : Nat}
variable {memory : Pool → Nat → Elem} {pools : Pool → PoolData}
variable {state : PallocState Thread}

/-- The invariant holds when the pools have just been made. -/
theorem pallocSafe_initial
    (init : pallocInit ram userPageLimit memory = some pools)
    (fresh : (pallocSystem Thread pools).initial state) :
    PallocSafe (pallocLayout init) state := by
  have start : state =
      { lock := fun _ => none
        usedMap := fun pool => (pools pool).usedMap
        point := fun _ => .idle
        live := [] } := fresh
  subst start
  constructor
  · intro pool
    rfl
  · intro range member
    cases member
  · intro thread
    trivial
  · intro thread pool holds
    cases holds
  · intro pool index inPool
    rcases initPool_eq (poolPages_lt ram userPageLimit pool)
      (pallocInit_pool init pool) with ⟨bmPages, -, -, -, size, clear⟩
    have unused : (pools pool).usedMap.bit index = false := by
      apply clear
      rw [← size]
      exact inPool
    have nobody :
        tally (claims (pallocLayout init) pool index)
          (fun _ : Thread => PallocPoint.idle) = 0 := by
      rw [tally_eq_zero_iff]
      intro thread
      rfl
    simp only [owners, List.countP_nil, nobody, unused, Bool.toNat_false]

theorem pallocSafe_of_reachable
    (init : pallocInit ram userPageLimit memory = some pools)
    (reachable : (pallocSystem Thread pools).Reachable state) :
    PallocSafe (pallocLayout init) state := by
  apply reachable.invariant
  · intro state fresh
    exact pallocSafe_initial init fresh
  · intro before turn after _ safe moved
    have step : PallocMove (pallocLayout init) before turn.1 after := PallocMove.of_step safe moved
    exact step.safe safe

/-- The ranges of a list that no page belongs to twice are apart. -/
theorem pairwise_apart {layout : PoolLayout} {ranges : List PageRange}
    (placed : ∀ range ∈ ranges, layout.Placed range)
    (once :
      ∀ pool index, index < layout.size pool →
        ranges.countP (·.covers (layout.base pool) index) ≤ 1) :
    ranges.Pairwise fun left right =>
      left.stop ≤ right.pages ∨ right.stop ≤ left.pages := by
  induction ranges with
  | nil => exact List.Pairwise.nil
  | cons range rest hypothesis =>
      constructor
      · intro other member
        apply PoolLayout.apart_of_no_common
          (placed range List.mem_cons_self)
          (placed other (List.mem_cons_of_mem range member))
        rintro pool index inPool ⟨first, second⟩
        have count := once pool index inPool
        have more : 0 < rest.countP (·.covers (layout.base pool) index) :=
          List.countP_pos_iff.mpr ⟨other, member, second⟩
        rw [List.countP_cons, if_pos first] at count
        omega
      · apply hypothesis
        · intro other member
          exact placed other (List.mem_cons_of_mem range member)
        · intro pool index inPool
          have count := once pool index inPool
          rw [List.countP_cons] at count
          omega

theorem palloc_guarantee
    (init : pallocInit ram userPageLimit memory = some pools)
    (reachable : (pallocSystem Thread pools).Reachable state) :
    PallocGuarantee (pallocLayout init) state := by
  have safe := pallocSafe_of_reachable init reachable
  constructor
  · apply pairwise_apart safe.placed
    intro pool index inPool
    have count := safe.owned pool index inPool
    have bound := Bool.toNat_le ((state.usedMap pool).bit index)
    unfold owners at count
    omega
  · intro range member
    rcases safe.placed range member with ⟨pool, index, place⟩
    exact ⟨place.2.1, place.pgOfs, pool, place.inside.1, place.inside.2,
      fun other different => place.outside different⟩
  · intro thread here
    have sound := safe.points thread
    rw [here] at sound
    exact sound
  · intro quiet pool index inPool
    have count := safe.owned pool index inPool
    have nobody : tally (claims (pallocLayout init) pool index) state.point = 0 := by
      rw [tally_eq_zero_iff]
      intro thread
      rcases quiet thread with here | here <;> rw [here] <;> rfl
    have owner :
        0 < state.live.countP
            (·.covers ((pallocLayout init).base pool) index) ↔
          ∃ range ∈ state.live, range.covers ((pallocLayout init).base pool) index = true :=
      List.countP_pos_iff
    unfold owners at count
    rw [nobody, Nat.add_zero] at count
    rw [← owner, count]
    cases (state.usedMap pool).bit index <;> simp

end Guarantee

/-- One thread gets the first kernel page and frees it while the scan of the
other thread, which wants two pages, is already past it. -/
def freeDuringScan {Thread : Type} (left right : Thread) (first : Nat) :
    List (Thread × PallocCall) :=
  let getOne := PallocCall.get false 1 false
  let getTwo := PallocCall.get false 2 false
  List.replicate 8 (left, getOne) ++ List.replicate 3 (right, getTwo) ++
    List.replicate 6 (left, .free ⟨first, 1⟩) ++ List.replicate 8 (right, getTwo)

/-- The two pages are the second and the third of the kernel pool. -/
theorem palloc_guarantee_free_during_scan : ∃ pools,
      ∃ init : pallocInit ⟨264, by decide, by decide⟩ 16384 (fun _ _ => 0xffffffff) = some pools,
      ∃ state,
        (pallocSystem (Fin 2) pools).run
            { lock := fun _ => none
              usedMap := fun pool => (pools pool).usedMap
              point := fun _ => .idle
              live := [] }
            (freeDuringScan 0 1 (pools .kernel).base) = some state ∧
          state.live = [⟨(pools .kernel).base + pgSize, 2⟩] ∧
          PallocGuarantee (pallocLayout init) state := by
  obtain ⟨pools, init, state, execution, live⟩ : ∃ pools,
        pallocInit ⟨264, by decide, by decide⟩ 16384 (fun _ _ => 0xffffffff) = some pools ∧
        ∃ state,
          (pallocSystem (Fin 2) pools).run
              { lock := fun _ => none
                usedMap := fun pool => (pools pool).usedMap
                point := fun _ => .idle
                live := [] }
              (freeDuringScan 0 1 (pools .kernel).base) = some state ∧
            state.live = [⟨(pools .kernel).base + pgSize, 2⟩] :=
    ⟨_, rfl, _, rfl, rfl⟩
  exact ⟨pools, init, state, execution, live,
      palloc_guarantee init (.of_run (.initial rfl) execution)⟩

end CS162.Threads
