import CS162.Userprog.Load

/-!
# The arithmetic of segments

What `validate_segment` accepts leaves every sum of `load` and `load_segment`
below `PHYS_BASE`, and the loop of `load_segment` takes one round for each page
that the segment touches.
-/

namespace CS162.Userprog

open CS162.Foundation CS162.Filesys Machine

/-- The variables of the loop of `load_segment`. -/
structure SegmentRound where
  upage : Word
  readBytes : Word
  zeroBytes : Word

namespace SegmentRound

/-- `page_read_bytes`. -/
def pageReadBytes (r : SegmentRound) : Word :=
  if r.readBytes < BitVec.ofNat 32 pgSize then r.readBytes
  else BitVec.ofNat 32 pgSize

/-- `page_zero_bytes`. -/
def pageZeroBytes (r : SegmentRound) : Word := BitVec.ofNat 32 pgSize - r.pageReadBytes

def next (r : SegmentRound) : SegmentRound where
  upage := r.upage + BitVec.ofNat 32 pgSize
  readBytes := r.readBytes - r.pageReadBytes
  zeroBytes := r.zeroBytes - r.pageZeroBytes

/-- The condition of the loop fails. -/
def Finished (r : SegmentRound) : Prop := r.readBytes = 0#32 ∧ r.zeroBytes = 0#32

/-- A round without a wrap, for a page of the user. -/
structure Exact (r : SegmentRound) : Prop where
  goesOn : ¬r.Finished
  aligned : pgOfs r.upage = 0#32
  aboveNull : pgSize ≤ r.upage.toNat
  belowKernel : r.upage.toNat < physBase.toNat
  read : r.pageReadBytes.toNat ≤ r.readBytes.toNat
  page : r.pageReadBytes.toNat ≤ pgSize
  zero : r.pageZeroBytes.toNat = pgSize - r.pageReadBytes.toNat
  zeroLeft : r.pageZeroBytes.toNat ≤ r.zeroBytes.toNat
  upageSum : (r.upage + BitVec.ofNat 32 pgSize).toNat = r.upage.toNat + pgSize

end SegmentRound

/-- The variables before a round of the loop. -/
def SegmentPlan.round (plan : SegmentPlan) : Nat → SegmentRound
  | 0 => ⟨plan.memPage, plan.readBytes, plan.zeroBytes⟩
  | k + 1 => (plan.round k).next

/-- The rounds of the loop are those of `loadPages`. -/
theorem loadPages_round (env : ExecEnv) (pd : Word) (writable : Bool)
    (rounds : Nat) (r : SegmentRound) (file : File) (st : LoadState) :
    LoadState.loadPages env pd writable (rounds + 1) r.upage r.readBytes
        r.zeroBytes file st =
      if r.readBytes = 0#32 ∧ r.zeroBytes = 0#32 then some (true, file, st)
      else
        (st.loadPage env pd file r.upage r.pageReadBytes.toNat writable).bind
          fun done =>
            if done.1 then
              LoadState.loadPages env pd writable rounds r.next.upage
                r.next.readBytes r.next.zeroBytes done.2.1 done.2.2
            else some done :=
  rfl

/-- The number of pages that a segment touches. -/
def segmentPages (phdr : Elf32Phdr) : Nat :=
  (phdr.vaddr.toNat % pgSize + phdr.memsz.toNat + (pgSize - 1)) / pgSize

/-- No operation on the header wraps, the assertions of `load_segment` hold, and
its loop takes one round for each page. -/
structure SegmentExact (phdr : Elf32Phdr) : Prop where
  /-- `phdr->p_vaddr + phdr->p_memsz` -/
  finish : (phdr.vaddr + phdr.memsz).toNat = phdr.vaddr.toNat + phdr.memsz.toNat
  below : phdr.vaddr.toNat + phdr.memsz.toNat < physBase.toNat
  pageOffset : (pgOfs phdr.vaddr).toNat = phdr.vaddr.toNat % pgSize
  /-- `page_offset + phdr.p_filesz` -/
  fileSum : (pgOfs phdr.vaddr + phdr.filesz).toNat = phdr.vaddr.toNat % pgSize + phdr.filesz.toNat
  /-- `page_offset + phdr.p_memsz` -/
  memSum : (pgOfs phdr.vaddr + phdr.memsz).toNat = phdr.vaddr.toNat % pgSize + phdr.memsz.toNat
  /-- The sum and the product of `ROUND_UP`. -/
  roundSum :
    (pgOfs phdr.vaddr + phdr.memsz + BitVec.ofNat 32 pgSize - 1#32).toNat =
      phdr.vaddr.toNat % pgSize + phdr.memsz.toNat + (pgSize - 1)
  rounded : (roundUp (pgOfs phdr.vaddr + phdr.memsz)).toNat = segmentPages phdr * pgSize
  /-- The difference for `zero_bytes`. -/
  zeroBytes : (segmentPlan phdr).zeroBytes.toNat =
    segmentPages phdr * pgSize - (segmentPlan phdr).readBytes.toNat
  readBytes : (segmentPlan phdr).readBytes.toNat ≤ segmentPages phdr * pgSize
  /-- The conversion of the offset to `off_t`. -/
  seek : (segmentPlan phdr).filePage.toInt = (segmentPlan phdr).filePage.toNat
  /-- The sum and the first assertion of `load_segment`. -/
  total : ((segmentPlan phdr).readBytes + (segmentPlan phdr).zeroBytes).toNat =
    (segmentPlan phdr).readBytes.toNat + (segmentPlan phdr).zeroBytes.toNat
  whole : ((segmentPlan phdr).readBytes + (segmentPlan phdr).zeroBytes).toNat % pgSize = 0
  memAligned : pgOfs (segmentPlan phdr).memPage = 0#32
  fileAligned : (segmentPlan phdr).filePage.toNat % pgSize = 0
  rounds : ∀ k, k < segmentPages phdr → ((segmentPlan phdr).round k).Exact
  ended : ((segmentPlan phdr).round (segmentPages phdr)).Finished

section Numbers

variable {phdr : Elf32Phdr} {length : Int} {word : Word}

theorem toNat_pgSize : (BitVec.ofNat 32 pgSize).toNat = pgSize := by decide

theorem toNat_pgOfs (word : Word) : (pgOfs word).toNat = word.toNat % pgSize :=
  @BitFields.toNat_and_low 32 word 12 (by decide)

theorem toNat_page (word : Word) : (word &&& ~~~pgMask).toNat = word.toNat / pgSize * pgSize := by
  have parts := BitFields.toNat_and_compl word pgMask
  have low : (word &&& pgMask).toNat = word.toNat % pgSize := toNat_pgOfs word
  rw [low] at parts
  have divided := Nat.div_add_mod' word.toNat pgSize
  omega

theorem pgOfs_eq_zero_of_multiple {pages : Nat} (here : word.toNat = pages * pgSize) :
    pgOfs word = 0#32 := by
  apply (pgOfs_eq_zero_iff word).mpr
  unfold pgSize at here
  omega

/-- What the checks of `validate_segment` mean for numbers. -/
structure Accepted (phdr : Elf32Phdr) (length : Int) : Prop where
  sameOffset : phdr.offset.toNat % pgSize = phdr.vaddr.toNat % pgSize
  inFile : phdr.offset.toNat ≤ length
  filesz : phdr.filesz.toNat ≤ phdr.memsz.toNat
  memsz : 0 < phdr.memsz.toNat
  aboveNull : pgSize ≤ phdr.vaddr.toNat
  below : phdr.vaddr.toNat + phdr.memsz.toNat < physBase.toNat

theorem accepted_of_validateSegment (nonneg : 0 ≤ length) (small : length < 2147483648)
    (valid : validateSegment phdr length = true) : Accepted phdr length := by
  simp only [validateSegment, isUserVaddr, Bool.not_eq_true', Bool.or_eq_false_iff,
    decide_eq_false_iff_not, Bool.not_eq_false', decide_eq_true_eq] at valid
  rcases valid with ⟨⟨⟨⟨⟨⟨⟨sameOffset, inFile⟩, filesz⟩, memsz⟩, start⟩, finish⟩, wraps⟩, null⟩
  have offsets := congrArg BitVec.toNat (not_not.mp sameOffset)
  rw [toNat_pgOfs, toNat_pgOfs] at offsets
  have fileLength : (BitVec.ofNat 32 (toUnsigned length)).toNat = length.toNat := by
    rw [BitVec.toNat_ofNat]
    unfold toUnsigned
    omega
  have end_ := phdr.vaddr.isLt
  have size := phdr.memsz.isLt
  have kernel : physBase.toNat = 3221225472 := rfl
  rw [BitVec.lt_def, fileLength] at inFile
  rw [BitVec.lt_def] at filesz
  rw [BitVec.lt_def, BitVec.toNat_add, kernel] at finish
  rw [BitVec.lt_def, BitVec.toNat_add] at wraps
  rw [BitVec.lt_def, kernel] at start
  rw [BitVec.lt_def, toNat_pgSize] at null
  have nonempty : phdr.memsz.toNat ≠ 0 := by
    intro zero
    apply memsz
    exact BitVec.eq_of_toNat_eq zero
  constructor
  · exact offsets
  · omega
  · omega
  · omega
  · omega
  · rw [kernel]
    omega

end Numbers

/-! ## The rounds of the loop -/

namespace SegmentRound

variable {r : SegmentRound} {left : Nat}

/-- `page_read_bytes` is the smaller of two numbers. -/
theorem toNat_pageReadBytes (r : SegmentRound) :
    r.pageReadBytes.toNat = min r.readBytes.toNat pgSize := by
  rw [pageReadBytes]
  by_cases less : r.readBytes < BitVec.ofNat 32 pgSize
  · rw [if_pos less]
    rw [BitVec.lt_def, toNat_pgSize] at less
    omega
  · rw [if_neg less, toNat_pgSize]
    rw [BitVec.lt_def, toNat_pgSize] at less
    omega

theorem toNat_pageZeroBytes (r : SegmentRound) :
    r.pageZeroBytes.toNat = pgSize - r.pageReadBytes.toNat := by
  have count := toNat_pageReadBytes r
  have least : r.pageReadBytes ≤ BitVec.ofNat 32 pgSize := by
    rw [BitVec.le_def, toNat_pgSize]
    omega
  rw [pageZeroBytes, BitVec.toNat_sub_of_le least, toNat_pgSize]

/-- Where at least one page is left, a round takes one page off the rest. -/
theorem next_numbers
    (rest : r.readBytes.toNat + r.zeroBytes.toNat = (left + 1) * pgSize)
    (room : r.upage.toNat + pgSize < 4294967296) :
    r.pageZeroBytes.toNat ≤ r.zeroBytes.toNat ∧
      r.next.readBytes.toNat = r.readBytes.toNat - pgSize ∧
        r.next.readBytes.toNat + r.next.zeroBytes.toNat = left * pgSize ∧
          r.next.upage.toNat = r.upage.toNat + pgSize := by
  have readCount := toNat_pageReadBytes r
  have zeroCount := toNat_pageZeroBytes r
  rw [Nat.add_mul, Nat.one_mul] at rest
  have zeroLeft : r.pageZeroBytes.toNat ≤ r.zeroBytes.toNat := by omega
  have readNext : r.next.readBytes.toNat = r.readBytes.toNat - pgSize := by
    have less : r.pageReadBytes ≤ r.readBytes := by
      rw [BitVec.le_def]
      omega
    rw [next, BitVec.toNat_sub_of_le less]
    omega
  have zeroNext : r.next.zeroBytes.toNat = r.zeroBytes.toNat - r.pageZeroBytes.toNat := by
    rw [next, BitVec.toNat_sub_of_le (BitVec.le_def.mpr zeroLeft)]
  refine ⟨zeroLeft, readNext, by omega, ?_⟩
  rw [next, BitVec.toNat_add, toNat_pgSize]
  exact Nat.mod_eq_of_lt room

end SegmentRound

/-- The variables before each round, where the plan is for whole pages. -/
theorem SegmentPlan.round_numbers {plan : SegmentPlan} {first pages : Nat}
    (start : plan.memPage.toNat = first * pgSize)
    (total : plan.readBytes.toNat + plan.zeroBytes.toNat = pages * pgSize)
    (below : (first + pages) * pgSize ≤ physBase.toNat) {k : Nat} (upTo : k ≤ pages) :
    (plan.round k).upage.toNat = (first + k) * pgSize ∧
      (plan.round k).readBytes.toNat = plan.readBytes.toNat - k * pgSize ∧
        (plan.round k).readBytes.toNat + (plan.round k).zeroBytes.toNat = (pages - k) * pgSize := by
  have kernel : physBase.toNat = 3221225472 := rfl
  rw [kernel] at below
  unfold pgSize at below
  induction k with
  | zero =>
      refine ⟨start, ?_, total⟩
      rw [Nat.zero_mul, Nat.sub_zero]
      rfl
  | succ k inductionHypothesis =>
      rcases inductionHypothesis (Nat.le_of_succ_le upTo) with ⟨place, reads, rest⟩
      have more : pages - k = pages - (k + 1) + 1 := by omega
      rw [more] at rest
      have room : (plan.round k).upage.toNat + pgSize < 4294967296 := by
        rw [place]
        unfold pgSize
        omega
      rcases SegmentRound.next_numbers rest room with ⟨-, readNext, restNext, placeNext⟩
      refine ⟨?_, ?_, restNext⟩
      · rw [SegmentPlan.round, placeNext, place, ← Nat.add_assoc, Nat.succ_mul]
      · rw [SegmentPlan.round, readNext, reads, Nat.succ_mul, Nat.sub_sub]

/-- Every round of such a plan is without a wrap, and the last one finishes. -/
theorem SegmentPlan.round_exact {plan : SegmentPlan} {first pages : Nat}
    (start : plan.memPage.toNat = first * pgSize) (positive : 0 < first)
    (total : plan.readBytes.toNat + plan.zeroBytes.toNat = pages * pgSize)
    (below : (first + pages) * pgSize ≤ physBase.toNat) :
    (∀ k, k < pages → (plan.round k).Exact) ∧ (plan.round pages).Finished := by
  have kernel : physBase.toNat = 3221225472 := rfl
  constructor
  · intro k inside
    rcases SegmentPlan.round_numbers start total below (le_of_lt inside) with ⟨place, reads, rest⟩
    have more : pages - k = pages - (k + 1) + 1 := by omega
    rw [more] at rest
    rw [kernel] at below
    have room : (plan.round k).upage.toNat + pgSize < 4294967296 := by
      rw [place]
      unfold pgSize at below ⊢
      omega
    have numbers := SegmentRound.next_numbers rest room
    have count := SegmentRound.toNat_pageReadBytes (plan.round k)
    exact
      { goesOn := by
          intro finished
          rw [finished.1, finished.2, BitVec.toNat_zero, Nat.succ_mul] at rest
          unfold pgSize at rest
          omega
        aligned := pgOfs_eq_zero_of_multiple place
        aboveNull := by
          rw [place]
          unfold pgSize
          omega
        belowKernel := by
          rw [place, kernel]
          unfold pgSize at below ⊢
          omega
        read := by omega
        page := by omega
        zero := SegmentRound.toNat_pageZeroBytes _
        zeroLeft := numbers.1
        upageSum := numbers.2.2.2 }
  · rcases SegmentPlan.round_numbers start total below (Nat.le_refl pages) with ⟨-, -, rest⟩
    rw [Nat.sub_self, Nat.zero_mul] at rest
    constructor
    · apply BitVec.eq_of_toNat_eq
      rw [BitVec.toNat_zero]
      omega
    · apply BitVec.eq_of_toNat_eq
      rw [BitVec.toNat_zero]
      omega

/-- The loop stops by itself, before it runs out of rounds. -/
theorem loadPages_more {plan : SegmentPlan} {pages : Nat}
    (ended : (plan.round pages).Finished) (env : ExecEnv) (pd : Word)
    (writable : Bool) {left : Nat} (k : Nat) (rest : left + k = pages)
    (more : Nat) (file : File) (st : LoadState) :
    LoadState.loadPages env pd writable (left + more) (plan.round k).upage
        (plan.round k).readBytes (plan.round k).zeroBytes file st =
      LoadState.loadPages env pd writable left (plan.round k).upage
        (plan.round k).readBytes (plan.round k).zeroBytes file st := by
  induction left generalizing k file st with
  | zero =>
      rw [Nat.zero_add] at rest
      subst rest
      cases more with
      | zero => rfl
      | succ more =>
          rw [Nat.zero_add, loadPages_round]
          exact if_pos ended
  | succ left inductionHypothesis =>
      rw [Nat.succ_add_eq_add_succ, Nat.add_succ, loadPages_round, loadPages_round]
      congr 2
      funext done
      congr 1
      exact inductionHypothesis (k + 1) (by omega) done.2.1 done.2.2

/-! ## A header that is accepted -/

namespace Accepted

variable {phdr : Elf32Phdr} {length : Int}

/-- The page number of the first page and the sum with the number of pages. -/
theorem pages_below (accepted : Accepted phdr length) :
    0 < phdr.vaddr.toNat / pgSize ∧
      (phdr.vaddr.toNat / pgSize + segmentPages phdr) * pgSize ≤
        physBase.toNat := by
  have above := accepted.aboveNull
  have below := accepted.below
  have kernel : physBase.toNat = 3221225472 := rfl
  rw [kernel] at below ⊢
  unfold segmentPages
  unfold pgSize at above ⊢
  omega

theorem sums (accepted : Accepted phdr length) :
    (pgOfs phdr.vaddr + phdr.filesz).toNat = phdr.vaddr.toNat % pgSize + phdr.filesz.toNat ∧
      (pgOfs phdr.vaddr + phdr.memsz).toNat = phdr.vaddr.toNat % pgSize + phdr.memsz.toNat ∧
      (pgOfs phdr.vaddr + phdr.memsz + BitVec.ofNat 32 pgSize - 1#32).toNat =
        phdr.vaddr.toNat % pgSize + phdr.memsz.toNat + (pgSize - 1) := by
  have offset := toNat_pgOfs phdr.vaddr
  have size := toNat_pgSize
  have above := accepted.aboveNull
  have below := accepted.below
  have less := accepted.filesz
  have kernel : physBase.toNat = 3221225472 := rfl
  rw [kernel] at below
  have one : (1#32 : Word).toNat = 1 := rfl
  have memSum : (pgOfs phdr.vaddr + phdr.memsz).toNat =
      phdr.vaddr.toNat % pgSize + phdr.memsz.toNat := by
    rw [BitVec.toNat_add, offset]
    unfold pgSize at above ⊢
    omega
  have larger : (pgOfs phdr.vaddr + phdr.memsz + BitVec.ofNat 32 pgSize).toNat =
      phdr.vaddr.toNat % pgSize + phdr.memsz.toNat + pgSize := by
    rw [BitVec.toNat_add, memSum, size]
    unfold pgSize at above ⊢
    omega
  refine ⟨?_, memSum, ?_⟩
  · rw [BitVec.toNat_add, offset]
    unfold pgSize at above ⊢
    omega
  · have least : 1#32 ≤ pgOfs phdr.vaddr + phdr.memsz + BitVec.ofNat 32 pgSize := by
      rw [BitVec.le_def, larger, one]
      unfold pgSize
      omega
    rw [BitVec.toNat_sub_of_le least, larger, one]
    unfold pgSize
    omega

theorem rounded (accepted : Accepted phdr length) :
    (roundUp (pgOfs phdr.vaddr + phdr.memsz)).toNat = segmentPages phdr * pgSize := by
  have below := accepted.pages_below.2
  have kernel : physBase.toNat = 3221225472 := rfl
  rw [kernel] at below
  rw [roundUp, BitVec.toNat_mul, BitVec.toNat_udiv, accepted.sums.2.2, toNat_pgSize]
  apply Nat.mod_eq_of_lt
  change segmentPages phdr * pgSize < 4294967296
  unfold pgSize at below ⊢
  omega

/-- The first page and what is read and cleared. -/
theorem plan_numbers (accepted : Accepted phdr length) :
    (segmentPlan phdr).memPage.toNat = phdr.vaddr.toNat / pgSize * pgSize ∧
      (segmentPlan phdr).filePage.toNat = phdr.offset.toNat / pgSize * pgSize ∧
      (segmentPlan phdr).readBytes.toNat =
        (if 0 < phdr.filesz.toNat then
          phdr.vaddr.toNat % pgSize + phdr.filesz.toNat else 0) ∧
      (segmentPlan phdr).readBytes.toNat ≤ segmentPages phdr * pgSize ∧
      (segmentPlan phdr).zeroBytes.toNat =
        segmentPages phdr * pgSize - (segmentPlan phdr).readBytes.toNat := by
  have sums := accepted.sums
  have rounded := accepted.rounded
  have less := accepted.filesz
  have positive : 0#32 < phdr.filesz ↔ 0 < phdr.filesz.toNat := by
    rw [BitVec.lt_def, BitVec.toNat_zero]
  have covers : phdr.vaddr.toNat % pgSize + phdr.filesz.toNat ≤ segmentPages phdr * pgSize := by
    unfold segmentPages pgSize
    omega
  refine ⟨toNat_page _, toNat_page _, ?_⟩
  by_cases some : 0 < phdr.filesz.toNat
  · have reads : (segmentPlan phdr).readBytes = pgOfs phdr.vaddr + phdr.filesz :=
      if_pos (positive.mpr some)
    have zeros : (segmentPlan phdr).zeroBytes =
        roundUp (pgOfs phdr.vaddr + phdr.memsz) -
          (pgOfs phdr.vaddr + phdr.filesz) :=
      if_pos (positive.mpr some)
    have least : pgOfs phdr.vaddr + phdr.filesz ≤ roundUp (pgOfs phdr.vaddr + phdr.memsz) := by
      rw [BitVec.le_def, sums.1, rounded]
      exact covers
    rw [if_pos some, zeros, BitVec.toNat_sub_of_le least, rounded, reads, sums.1]
    exact ⟨rfl, covers, rfl⟩
  · have reads : (segmentPlan phdr).readBytes = 0#32 :=
      if_neg fun more => some (positive.mp more)
    have zeros : (segmentPlan phdr).zeroBytes = roundUp (pgOfs phdr.vaddr + phdr.memsz) :=
      if_neg fun more => some (positive.mp more)
    rw [if_neg some, zeros, rounded, reads, BitVec.toNat_zero]
    exact ⟨rfl, Nat.zero_le _, rfl⟩

theorem segmentExact (accepted : Accepted phdr length) (small : length < 2147483648) :
    SegmentExact phdr := by
  rcases accepted.plan_numbers with ⟨place, seek, -, covers, zeros⟩
  rcases accepted.pages_below with ⟨positive, onTop⟩
  have sums := accepted.sums
  have below := accepted.below
  have kernel : physBase.toNat = 3221225472 := rfl
  have whole : (segmentPlan phdr).readBytes.toNat +
      (segmentPlan phdr).zeroBytes.toNat = segmentPages phdr * pgSize := by
    omega
  have total : ((segmentPlan phdr).readBytes + (segmentPlan phdr).zeroBytes).toNat =
      (segmentPlan phdr).readBytes.toNat + (segmentPlan phdr).zeroBytes.toNat := by
    rw [BitVec.toNat_add, whole]
    apply Nat.mod_eq_of_lt
    rw [kernel] at onTop
    unfold pgSize at onTop ⊢
    omega
  have rounds := SegmentPlan.round_exact place positive whole onTop
  exact
    { finish := by
        rw [BitVec.toNat_add]
        rw [kernel] at below
        omega
      below := below
      pageOffset := toNat_pgOfs _
      fileSum := sums.1
      memSum := sums.2.1
      roundSum := sums.2.2
      rounded := accepted.rounded
      zeroBytes := zeros
      readBytes := covers
      seek := by
        have inFile := accepted.inFile
        rw [BitVec.toInt_eq_toNat_of_lt]
        rw [seek]
        unfold pgSize
        omega
      total := total
      whole := by
        rw [total, whole]
        exact Nat.mul_mod_left _ _
      memAligned := pgOfs_eq_zero_of_multiple place
      fileAligned := by
        rw [seek]
        exact Nat.mul_mod_left _ _
      rounds := rounds.1
      ended := rounds.2 }

/-- `load_segment` is its loop, with as many rounds as there are pages; more rounds
would not be made. -/
theorem loadSegment_eq (accepted : Accepted phdr length)
    (small : length < 2147483648) (st : LoadState) (env : ExecEnv) (pd : Word)
    (file : File) (more : Nat) :
    st.loadSegment env pd file (segmentPlan phdr) =
      LoadState.loadPages env pd (segmentPlan phdr).writable
        (segmentPages phdr + more) (segmentPlan phdr).memPage
        (segmentPlan phdr).readBytes (segmentPlan phdr).zeroBytes
        { file with pos := (segmentPlan phdr).filePage.toNat } st := by
  have arithmetic := accepted.segmentExact small
  rcases accepted.plan_numbers with ⟨-, -, -, covers, zeros⟩
  have whole : ((segmentPlan phdr).readBytes +
      (segmentPlan phdr).zeroBytes).toNat / pgSize = segmentPages phdr := by
    rw [arithmetic.total, zeros]
    unfold pgSize at covers ⊢
    omega
  have sought : LoadState.fileSeek file (segmentPlan phdr).filePage.toInt =
      some { file with pos := (segmentPlan phdr).filePage.toNat } := by
    rw [arithmetic.seek, LoadState.fileSeek, if_pos (Int.natCast_nonneg _), Int.toNat_natCast]
  rw [LoadState.loadSegment, if_neg (not_not_intro arithmetic.whole),
    if_neg (not_not_intro arithmetic.memAligned),
    if_neg (not_not_intro arithmetic.fileAligned), sought, Option.bind_some, whole]
  exact (loadPages_more arithmetic.ended env pd _ 0 (Nat.add_zero _) more _ st).symm

end Accepted

end CS162.Userprog
