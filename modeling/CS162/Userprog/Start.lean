import CS162.Userprog.PagingInit
import CS162.Foundation.Memory

/-!
# The start of the kernel

The part of `threads/start.S` that finds the size of memory and makes the temporary
page directory and page tables, with the kernel that the loader has put at 0x20000
behind them.
-/

namespace CS162.Userprog

open CS162.Foundation

/-- `init_ram_pages`, where the BIOS has left the kilobytes of memory above the first
megabyte in `%eax`. -/
def initRamPages (eax : Word) : Word :=
  let total := eax + 1024#32
  (if total ≤ 0x10000#32 then total else 0x10000#32) >>> 2

/-- The loop that adds the entries of the page directory, twice each. -/
def pdeLoop : Nat → BitVec 16 → Word → Memory → Memory
  | 0, _, _, memory => memory
  | count + 1, di, eax, memory =>
      pdeLoop count (di + 4#16) (eax + 0x1000#32)
        ((memory.store32 (0xf000 + di.toNat) eax.toNat).store32
          (0xf000 + (di + 0xc00#16).toNat) eax.toNat)

/-- The loop that fills the page tables. -/
def pteLoop : Nat → BitVec 16 → Word → Memory → Memory
  | 0, _, _, memory => memory
  | count + 1, di, eax, memory =>
      pteLoop count (di + 4#16) (eax + 0x1000#32) (memory.store32 (0x10000 + di.toNat) eax.toNat)

/-- The memory when `%cr3` is set. -/
def startPaging (memory : Memory) : Memory :=
  pteLoop 0x4000 0#16 0x7#32 (pdeLoop 0x11 0#16 0x10007#32 (memory.fill 0xf000 4096 0))

/-- The words of the frames of a memory. -/
def frameWords (memory : Memory) (frame : Word) (index : Nat) : Word :=
  BitVec.ofNat 32 (memory.load32 (frame.toNat + 4 * index))

/-- What the processor accesses with the temporary page directory. -/
def startTranslate (memory : Memory) (access : Access) (va : Word) : Option Word :=
  walk (frameWords memory) 0xf000#32 access va

section Loops

/-- The loops count in `%di` and `%eax`. -/
theorem di_next (done : Nat) :
    BitVec.ofNat 16 (4 * done) + 4#16 = BitVec.ofNat 16 (4 * (done + 1)) := by
  rw [← BitVec.ofNat_add]
  rfl

theorem eax_next (first done : Nat) :
    BitVec.ofNat 32 (4096 * (first + done) + 7) + 0x1000#32 =
      BitVec.ofNat 32 (4096 * (first + (done + 1)) + 7) := by
  rw [← BitVec.ofNat_add]
  congr 1

theorem eax_toNat {first done : Nat} (small : first + done < 262144) :
    (BitVec.ofNat 32 (4096 * (first + done) + 7)).toNat = 4096 * (first + done) + 7 := by
  rw [BitVec.toNat_ofNat]
  omega

theorem pteLoop_spec (count done : Nat) (fits : done + count ≤ 0x4000) (memory : Memory) :
    (∀ index, done ≤ index → index < done + count →
      (pteLoop count (BitVec.ofNat 16 (4 * done))
        (BitVec.ofNat 32 (4096 * (0 + done) + 7)) memory).load32
          (0x10000 + 4 * index) = 4096 * index + 7) ∧
    ∀ address,
      address < 0x10000 + 4 * done ∨ 0x10000 + 4 * (done + count) ≤ address →
        pteLoop count (BitVec.ofNat 16 (4 * done))
          (BitVec.ofNat 32 (4096 * (0 + done) + 7)) memory address = memory address := by
  induction count generalizing done memory with
  | zero =>
      constructor
      · intro index lower upper
        omega
      · exact fun _ _ => rfl
  | succ count inductionHypothesis =>
      have place : (BitVec.ofNat 16 (4 * done)).toNat = 4 * done := by
        rw [BitVec.toNat_ofNat]
        omega
      rw [pteLoop, di_next, eax_next, place, eax_toNat (by omega)]
      obtain ⟨stored, isStored⟩ : ∃ stored, stored =
          memory.store32 (0x10000 + 4 * done) (4096 * (0 + done) + 7) := ⟨_, rfl⟩
      rw [← isStored]
      obtain ⟨entries, outside⟩ := inductionHypothesis (done + 1) (by omega) stored
      constructor
      · intro index lower upper
        by_cases first : index = done
        · have kept : stored.AgreeOn (pteLoop count
              (BitVec.ofNat 16 (4 * (done + 1)))
              (BitVec.ofNat 32 (4096 * (0 + (done + 1)) + 7)) stored)
              (0x10000 + 4 * done) (0x10000 + 4 * done + 4) :=
            fun address low high => (outside address (by omega)).symm
          have small : 4096 * (0 + done) + 7 < unsignedModulus := by
            rw [unsignedModulus]
            omega
          rw [first, ← kept.load32_eq, isStored, Memory.load32_store32 small, Nat.zero_add]
        · exact entries index (by omega) (by omega)
      · intro address away
        rw [outside address (by omega), isStored, Memory.store32, if_neg (by omega)]

theorem pdeLoop_spec (count done : Nat) (fits : done + count ≤ 0x11) (memory : Memory) :
    (∀ index, done ≤ index → index < done + count →
      (pdeLoop count (BitVec.ofNat 16 (4 * done))
        (BitVec.ofNat 32 (4096 * (16 + done) + 7)) memory).load32
          (0xf000 + 4 * index) = 4096 * (16 + index) + 7 ∧
      (pdeLoop count (BitVec.ofNat 16 (4 * done))
        (BitVec.ofNat 32 (4096 * (16 + done) + 7)) memory).load32
          (0xfc00 + 4 * index) = 4096 * (16 + index) + 7) ∧
    ∀ address,
      address < 0xf000 + 4 * done ∨
        0xf000 + 4 * (done + count) ≤ address ∧ address < 0xfc00 + 4 * done ∨
        0xfc00 + 4 * (done + count) ≤ address →
      pdeLoop count (BitVec.ofNat 16 (4 * done))
        (BitVec.ofNat 32 (4096 * (16 + done) + 7)) memory address = memory address := by
  induction count generalizing done memory with
  | zero =>
      constructor
      · intro index lower upper
        omega
      · exact fun _ _ => rfl
  | succ count inductionHypothesis =>
      have place : (BitVec.ofNat 16 (4 * done)).toNat = 4 * done := by
        rw [BitVec.toNat_ofNat]
        omega
      have second : (BitVec.ofNat 16 (4 * done) + 0xc00#16).toNat = 0xc00 + 4 * done := by
        rw [BitVec.toNat_add, place, BitVec.toNat_ofNat]
        omega
      rw [pdeLoop, di_next, eax_next, place, second, eax_toNat (by omega)]
      obtain ⟨first, isFirst⟩ : ∃ first, first =
          memory.store32 (0xf000 + 4 * done) (4096 * (16 + done) + 7) := ⟨_, rfl⟩
      obtain ⟨stored, isStored⟩ : ∃ stored, stored =
          first.store32 (0xf000 + (0xc00 + 4 * done)) (4096 * (16 + done) + 7) :=
        ⟨_, rfl⟩
      rw [← isFirst, ← isStored]
      obtain ⟨entries, outside⟩ := inductionHypothesis (done + 1) (by omega) stored
      have small : 4096 * (16 + done) + 7 < unsignedModulus := by
        rw [unsignedModulus]
        omega
      constructor
      · intro index lower upper
        by_cases here : index = done
        · have kept : ∀ start, start = 0xf000 + 4 * done ∨ start = 0xfc00 + 4 * done →
              stored.AgreeOn (pdeLoop count (BitVec.ofNat 16 (4 * (done + 1)))
                (BitVec.ofNat 32 (4096 * (16 + (done + 1)) + 7)) stored)
                start (start + 4) :=
            fun start isStart address low high =>
              (outside address (by omega)).symm
          constructor
          · rw [here, ← (kept _ (Or.inl rfl)).load32_eq, isStored,
              Memory.load32_store32_of_apart (by unfold Apart; omega), isFirst,
              Memory.load32_store32 small]
          · have same : 0xfc00 + 4 * done = 0xf000 + (0xc00 + 4 * done) := by omega
            rw [here, ← (kept _ (Or.inr rfl)).load32_eq, isStored, same,
              Memory.load32_store32 small]
        · exact entries index (by omega) (by omega)
      · intro address away
        rw [outside address (by omega), isStored, Memory.store32,
          if_neg (by omega), isFirst, Memory.store32, if_neg (by omega)]

end Loops

section Paging

variable {memory : Memory} {access : Access} {va : Word}

/-- The entries of `start.S` are those of a table without restrictions. -/
theorem startEntry_eq {frame : Nat} (small : frame < 262144) :
    BitVec.ofNat 32 (4096 * frame + 7) = tableEntry (ramPage frame) := by
  have valid := ramPage_isPage small
  have physical : ramPage frame - physBase = BitVec.ofNat 32 (4096 * frame) := by
    rw [ramPage, BitVec.add_sub_cancel, Nat.mul_comm]
  have apart : BitVec.ofNat 32 (4096 * frame) &&& 7#32 = 0#32 := by
    have mask : (7#32 : Word) = pgMask &&& 7#32 := rfl
    rw [← physical, mask, ← BitVec.and_assoc, physical_and_flags valid, BitVec.zero_and]
  rw [tableEntry, physical, BitVec.or_assoc, BitVec.or_assoc, BitVec.ofNat_add,
    BitVec.add_eq_or_of_and_eq_zero _ _ apart]
  rfl

/-- What is in memory when paging is turned on. -/
structure StartTables (memory : Memory) : Prop where
  directory : ∀ index, index < 16 → ∀ place, place = index ∨ place = 768 + index →
    memory.load32 (0xf000 + 4 * place) = 4096 * (16 + index) + 7
  tables : ∀ page, page < 0x4000 → memory.load32 (0x10000 + 4 * page) = 4096 * page + 7

theorem startPaging_spec (memory : Memory) :
    StartTables (startPaging memory) ∧
      ∀ address, address < 0xf000 ∨ 0x20000 ≤ address →
        startPaging memory address = memory address := by
  obtain ⟨cleared, isCleared⟩ : ∃ cleared, cleared = memory.fill 0xf000 4096 0 := ⟨_, rfl⟩
  obtain ⟨directory, isDirectory⟩ : ∃ directory, directory =
      pdeLoop 0x11 (BitVec.ofNat 16 (4 * 0))
        (BitVec.ofNat 32 (4096 * (16 + 0) + 7)) cleared := ⟨_, rfl⟩
  have final : startPaging memory = pteLoop 0x4000 (BitVec.ofNat 16 (4 * 0))
      (BitVec.ofNat 32 (4096 * (0 + 0) + 7)) directory := by
    rw [isDirectory, isCleared]
    rfl
  obtain ⟨pdes, aside⟩ := pdeLoop_spec 0x11 0 (by omega) cleared
  obtain ⟨ptes, outside⟩ := pteLoop_spec 0x4000 0 (by omega) directory
  rw [← isDirectory] at pdes aside
  rw [← final] at ptes outside
  constructor
  · constructor
    · intro index small place same
      have kept : directory.AgreeOn (startPaging memory) (0xf000 + 4 * place)
          (0xf000 + 4 * place + 4) :=
        fun address _ high => (outside address (by omega)).symm
      rw [← kept.load32_eq]
      rcases same with rfl | rfl
      · exact (pdes place (Nat.zero_le _) (by omega)).1
      · have upper : 0xf000 + 4 * (768 + index) = 0xfc00 + 4 * index := by omega
        rw [upper]
        exact (pdes index (Nat.zero_le _) (by omega)).2
    · intro page small
      exact ptes page (Nat.zero_le _) (by omega)
  · intro address away
    rw [outside address (by omega), aside address (by omega), isCleared,
      Memory.fill, if_neg (by omega)]

/-- The walk through the temporary tables. -/
theorem StartTables.walk (tables : StartTables memory) {index : Nat}
    (small : index < 16) (place : pdNo va = index ∨ pdNo va = 768 + index) :
    startTranslate memory access va =
      some (ramPage (index * 1024 + ptNo va) - physBase + pgOfs va) := by
  have inTable := ptNo_lt va
  have page : index * 1024 + ptNo va < 262144 := by omega
  have table : 16 + index < 262144 := by omega
  have pde : frameWords memory 0xf000#32 (pdNo va) = tableEntry (ramPage (16 + index)) := by
    rw [frameWords, ← startEntry_eq table]
    exact congrArg (BitVec.ofNat 32) (tables.directory index small _ place)
  have frame : tableEntry (ramPage (16 + index)) &&& pteAddr =
      BitVec.ofNat 32 ((16 + index) * 4096) := by
    rw [tableEntry_addr (ramPage_isPage table), ramPage, BitVec.add_sub_cancel]
  have pte : frameWords memory (BitVec.ofNat 32 ((16 + index) * 4096)) (ptNo va) =
      tableEntry (ramPage (index * 1024 + ptNo va)) := by
    have start : (BitVec.ofNat 32 ((16 + index) * 4096)).toNat + 4 * ptNo va =
        0x10000 + 4 * (index * 1024 + ptNo va) := by
      rw [BitVec.toNat_ofNat]
      omega
    rw [frameWords, ← startEntry_eq page, start, tables.tables _ (by omega)]
  have root : (0xf000#32 : Word) &&& pteAddr = 0xf000#32 := rfl
  simp only [startTranslate, CS162.Userprog.walk, root, pde, frame, pte,
    permits_tableEntry, if_true, tableEntry_addr (ramPage_isPage page)]

/-- The same physical address at the start of memory and from `PHYS_BASE` on. -/
theorem start_low (va : Word) {page : Nat} (small : page < 262144)
    (number : va.toNat / 4096 = page) :
    ramPage page - physBase + pgOfs va = va := by
  have start := toNat_physical (ramPage_isPage small).2
  have place := ramPage_toNat small
  have low : (pgOfs va).toNat = va.toNat % 4096 := BitFields.toNat_and_low va (by decide : 12 < 32)
  apply BitVec.eq_of_toNat_eq
  rw [BitVec.toNat_add]
  omega

/-- The temporary tables map the first 64 MB twice, and making them touches neither
the stack nor the kernel. -/
theorem start_paging_maps (memory : Memory) (access : Access) :
    (∀ va : Word, va.toNat < 0x4000000 → startTranslate (startPaging memory) access va = some va) ∧
    (∀ va : Word, isKernelVaddr va = true → (va - physBase).toNat < 0x4000000 →
      startTranslate (startPaging memory) access va = some (va - physBase)) ∧
    ∀ address, address < 0xf000 ∨ 0x20000 ≤ address →
      startPaging memory address = memory address := by
  obtain ⟨tables, outside⟩ := startPaging_spec memory
  refine ⟨?_, ?_, outside⟩
  · intro va small
    have index : pdNo va < 16 := by
      rw [pdNo_eq]
      omega
    have inTable := ptNo_lt va
    have number : va.toNat / 4096 = pdNo va * 1024 + ptNo va := by
      rw [← pgNo_eq, pgNo_indices]
    rw [tables.walk index (Or.inl rfl), start_low va (by omega) number]
  · intro va kernel small
    have physical := toNat_physical kernel
    have high := (isKernelVaddr_iff va).mp kernel
    have index : pdNo va - 768 < 16 := by
      rw [pdNo_eq] at high ⊢
      omega
    have place : pdNo va = 768 + (pdNo va - 768) := by omega
    rw [tables.walk index (Or.inr place), ← ramPageOf_eq kernel, ramPage_add_ofs kernel]

/-- The size of memory that the kernel uses is at most 64 MB. -/
theorem initRamPages_le (eax : Word) : (initRamPages eax).toNat ≤ 16384 := by
  have shift : ∀ total : Word, total.toNat ≤ 0x10000 →
      (total >>> 2).toNat ≤ 16384 := by
    intro total small
    rw [BitVec.toNat_ushiftRight, Nat.shiftRight_eq_div_pow]
    omega
  apply shift
  by_cases small : eax + 1024#32 ≤ 0x10000#32
  · rw [if_pos small]
    exact small
  · rw [if_neg small]
    exact Nat.le_refl _

/-- When `paging_init` gives the processor its own directory, the kernel goes on with
the memory that it had: what it may access then is what the same address meant with
the temporary tables. -/
theorem paging_init_seamless (memory : Memory) (eax : Word) (text : KernelText)
    {before : Machine} {grants : List Word}
    (granted : MayGrant before (initRamPages eax).toNat grants) :
    ∃ boot m, pagingInit text (initRamPages eax).toNat before grants = some (boot, m) ∧
      ∀ access va physical, m.translate access va = some physical →
        startTranslate (startPaging memory) access va = some physical := by
  have ram := initRamPages_le eax
  obtain ⟨boot, m, run, -, maps⟩ := paging_init_maps text granted (Nat.le_trans ram (by omega))
  refine ⟨boot, m, run, ?_⟩
  intro access va physical passes
  rw [maps] at passes
  obtain ⟨kernel, passes⟩ := Option.ite_none_right_eq_some.mp passes
  obtain ⟨allowed, same⟩ := Option.ite_none_right_eq_some.mp passes
  simp only [Bool.and_eq_true, decide_eq_true_eq] at allowed
  have page := allowed.1.2
  have number : ramPageOf va = (va - physBase).toNat / 4096 := pgNo_eq _
  rw [(start_paging_maps memory access).2.1 va kernel (by omega), ← same]

/-- A machine with one megabyte of memory. -/
theorem paging_init_seamless_small :
    ∃ boot m, pagingInit ⟨0xc0020000#32, 0xc0021000#32⟩ (initRamPages 0#32).toNat
        { word := fun _ _ => 0#32, cr3 := 0xf000#32, used := [] }
        [0xc0080000#32, 0xc0081000#32] = some (boot, m) ∧
      ∀ access va physical, m.translate access va = some physical →
        startTranslate (startPaging fun _ => 0) access va = some physical := by
  apply paging_init_seamless
  constructor
  · intro page member
    have each : page = 0xc0080000#32 ∨ page = 0xc0081000#32 := by
      simpa using member
    rcases each with rfl | rfl
    · decide
    · decide
  · decide
  · decide

end Paging

end CS162.Userprog
