import CS162.Foundation.BitFields

/-!
# Virtual addresses and page table entries

`threads/vaddr.h` and `threads/pte.h`.  A failed `ASSERT` is `none`.
-/

namespace CS162.Userprog

open CS162.Foundation

/-- `uint32_t`, `uintptr_t` and pointers. -/
abbrev Word := BitVec 32

/-! ## Virtual addresses -/

/-- `PHYS_BASE`. -/
def physBase : Word := 0xc0000000#32

/-- `PGSIZE`. -/
def pgSize : Nat := 4096

/-- `PGMASK`. -/
def pgMask : Word := 0x00000fff#32

/-- `PTMASK`. -/
def ptMask : Word := 0x003ff000#32

def pgOfs (va : Word) : Word := va &&& pgMask

def pgNo (va : Word) : Nat := (va >>> 12).toNat

def ptNo (va : Word) : Nat := ((va &&& ptMask) >>> 12).toNat

def pdNo (va : Word) : Nat := (va >>> 22).toNat

def isUserVaddr (va : Word) : Bool := va < physBase

def isKernelVaddr (va : Word) : Bool := physBase ≤ va

def ptov (paddr : Word) : Option Word :=
  if paddr < physBase then some (paddr + physBase) else none

def vtop (vaddr : Word) : Option Word :=
  if isKernelVaddr vaddr then some (vaddr - physBase) else none

/-- A kernel virtual address at which a page starts. -/
def IsPage (page : Word) : Prop := pgOfs page = 0#32 ∧ isKernelVaddr page = true

instance (page : Word) : Decidable (IsPage page) := inferInstanceAs (Decidable (_ ∧ _))

section Addresses

variable {va page : Word}

theorem pgNo_eq (va : Word) : pgNo va = va.toNat / 4096 := by
  rw [pgNo, BitVec.toNat_ushiftRight, Nat.shiftRight_eq_div_pow]

theorem pdNo_eq (va : Word) : pdNo va = va.toNat / 4194304 := by
  rw [pdNo, BitVec.toNat_ushiftRight, Nat.shiftRight_eq_div_pow]

theorem ptNo_eq (va : Word) : ptNo va = va.toNat / 4096 % 1024 := by
  have shifted : (va &&& ptMask) >>> 12 = (va >>> 12) &&& 0x3ff#32 := by
    rw [BitVec.ushiftRight_and_distrib]
    rfl
  have tenBits : 10 < 32 := by decide
  have mask : BitVec.ofNat 32 (2 ^ 10 - 1) = 0x3ff#32 := rfl
  have low := BitFields.toNat_and_low (va >>> 12) tenBits
  rw [mask] at low
  rw [ptNo, shifted, low, BitVec.toNat_ushiftRight, Nat.shiftRight_eq_div_pow]
  rfl

theorem ptNo_lt (va : Word) : ptNo va < 1024 := by
  rw [ptNo_eq]
  exact Nat.mod_lt _ (by decide)

/-- The two indices of an address make up its page number. -/
theorem pgNo_indices (va : Word) : pgNo va = pdNo va * 1024 + ptNo va := by
  rw [pgNo_eq, pdNo_eq, ptNo_eq]
  omega

theorem isUserVaddr_iff (va : Word) : isUserVaddr va = true ↔ pdNo va < 768 := by
  have base : physBase.toNat = 3221225472 := rfl
  rw [isUserVaddr, decide_eq_true_eq, BitVec.lt_def, base, pdNo_eq]
  omega

theorem isKernelVaddr_iff (va : Word) : isKernelVaddr va = true ↔ 768 ≤ pdNo va := by
  have base : physBase.toNat = 3221225472 := rfl
  rw [isKernelVaddr, decide_eq_true_eq, BitVec.le_def, base, pdNo_eq]
  omega

theorem pgOfs_eq_zero_iff (va : Word) : pgOfs va = 0#32 ↔ va.toNat % 4096 = 0 := by
  have twelveBits : 12 < 32 := by decide
  have mask : BitVec.ofNat 32 (2 ^ 12 - 1) = pgMask := rfl
  have low := BitFields.and_low_eq_zero_iff va twelveBits
  rw [mask] at low
  exact low

theorem IsPage.ne_zero (valid : IsPage page) : page ≠ 0#32 := by
  intro zero
  subst zero
  exact absurd valid.2 (by decide)

theorem vtop_eq (kernel : isKernelVaddr page = true) : vtop page = some (page - physBase) :=
  if_pos kernel

theorem toNat_physical (kernel : isKernelVaddr page = true) :
    (page - physBase).toNat = page.toNat - 3221225472 := by
  have base : physBase.toNat = 3221225472 := rfl
  rw [isKernelVaddr, decide_eq_true_eq] at kernel
  rw [BitVec.toNat_sub_of_le kernel, base]

theorem ptov_physical (kernel : isKernelVaddr page = true) :
    ptov (page - physBase) = some page := by
  have small : page - physBase < physBase := by
    have base : physBase.toNat = 3221225472 := rfl
    have bound := page.isLt
    rw [BitVec.lt_def, toNat_physical kernel, base]
    omega
  rw [ptov, if_pos small, BitVec.sub_add_cancel]

end Addresses

/-! ## Entries -/

/-- `PTE_ADDR`. -/
def pteAddr : Word := 0xfffff000#32

/-- `PTE_P`. -/
def pteP : Word := 0x1#32

/-- `PTE_W`. -/
def pteW : Word := 0x2#32

/-- `PTE_U`. -/
def pteU : Word := 0x4#32

/-- `PTE_A`. -/
def pteA : Word := 0x20#32

/-- `PTE_D`. -/
def pteD : Word := 0x40#32

/-- The test `(entry & flag) != 0`. -/
def hasFlag (entry flag : Word) : Bool := entry &&& flag ≠ 0#32

def pdeCreate (pt : Word) : Option Word :=
  if pgOfs pt = 0#32 then (vtop pt).map fun paddr => paddr ||| pteU ||| pteP ||| pteW
  else none

def pdeGetPt (pde : Word) : Option Word :=
  if hasFlag pde pteP then ptov (pde &&& pteAddr) else none

def pteCreateKernel (page : Word) (writable : Bool) : Option Word :=
  if pgOfs page = 0#32 then
    (vtop page).map fun paddr => paddr ||| pteP ||| if writable then pteW else 0#32
  else none

def pteCreateUser (page : Word) (writable : Bool) : Option Word :=
  (pteCreateKernel page writable).map (· ||| pteU)

def pteGetPage (pte : Word) : Option Word := ptov (pte &&& pteAddr)

/-- What an entry of a page table says. -/
structure PageEntry where
  frame : Word
  writable : Bool
  dirty : Bool
  accessed : Bool
  present : Bool
deriving DecidableEq

/-- The reading of an entry. -/
def PageEntry.ofPte (pte : Word) : PageEntry where
  frame := (pte &&& pteAddr) + physBase
  writable := hasFlag pte pteW
  dirty := hasFlag pte pteD
  accessed := hasFlag pte pteA
  present := hasFlag pte pteP

@[simp] theorem PageEntry.ofPte_frame (pte : Word) :
    (PageEntry.ofPte pte).frame = (pte &&& pteAddr) + physBase :=
  rfl

@[simp] theorem PageEntry.ofPte_present (pte : Word) :
    (PageEntry.ofPte pte).present = hasFlag pte pteP :=
  rfl

section Flags

variable {flag other : Word}

theorem hasFlag_or (entry : Word) (apart : flag &&& other = 0#32) :
    hasFlag (entry ||| flag) other = hasFlag entry other := by
  rw [hasFlag, hasFlag, BitFields.or_and_apart entry apart]

theorem hasFlag_clear (entry : Word) (apart : flag &&& other = 0#32) :
    hasFlag (entry &&& ~~~flag) other = hasFlag entry other := by
  rw [hasFlag, hasFlag, BitFields.clear_and_apart entry apart]

theorem hasFlag_or_self (entry : Word) (some : flag ≠ 0#32) :
    hasFlag (entry ||| flag) flag = true := by
  rw [hasFlag, BitFields.or_and_self]
  exact decide_eq_true some

theorem hasFlag_clear_self (entry flag : Word) : hasFlag (entry &&& ~~~flag) flag = false := by
  rw [hasFlag, BitFields.clear_and_self]
  exact decide_eq_false (not_not_intro rfl)

/-- The address of a page has no bit in the flags of an entry. -/
theorem physical_and_flags {page : Word} (valid : IsPage page) :
    (page - physBase) &&& pgMask = 0#32 := by
  have aligned := (pgOfs_eq_zero_iff page).mp valid.1
  have kernel := valid.2
  apply (pgOfs_eq_zero_iff (page - physBase)).mpr
  rw [toNat_physical kernel]
  omega

theorem physical_and_addr {page : Word} (valid : IsPage page) :
    (page - physBase) &&& pteAddr = page - physBase :=
  BitFields.and_compl_of_apart (physical_and_flags valid)

theorem hasFlag_physical {page : Word} (valid : IsPage page) (low : pgMask &&& flag = flag) :
    hasFlag (page - physBase) flag = false := by
  have zero : (page - physBase) &&& flag = 0#32 := by
    rw [← low, ← BitVec.and_assoc, physical_and_flags valid, BitVec.zero_and]
  rw [hasFlag, zero]
  exact decide_eq_false (not_not_intro rfl)

end Flags

/-! ## Page directory entries -/

section Directory

variable {pt : Word}

theorem pdeCreate_eq (valid : IsPage pt) :
    pdeCreate pt = some ((pt - physBase) ||| pteU ||| pteP ||| pteW) := by
  rw [pdeCreate, if_pos valid.1, vtop_eq valid.2]
  rfl

theorem pdeGetPt_created (valid : IsPage pt) :
    pdeGetPt ((pt - physBase) ||| pteU ||| pteP ||| pteW) = some pt := by
  have present : hasFlag ((pt - physBase) ||| pteU ||| pteP ||| pteW) pteP = true := by
    rw [hasFlag_or _ (by decide)]
    exact hasFlag_or_self _ (by decide)
  have address : ((pt - physBase) ||| pteU ||| pteP ||| pteW) &&& pteAddr = pt - physBase := by
    rw [BitFields.or_and_apart _ (by decide), BitFields.or_and_apart _ (by decide),
      BitFields.or_and_apart _ (by decide), physical_and_addr valid]
  rw [pdeGetPt, if_pos present, address, ptov_physical valid.2]

theorem created_present (pt : Word) :
    hasFlag ((pt - physBase) ||| pteU ||| pteP ||| pteW) pteP = true := by
  rw [hasFlag_or _ (by decide)]
  exact hasFlag_or_self _ (by decide)

theorem ne_zero_of_hasFlag {entry flag : Word} (set : hasFlag entry flag = true) :
    entry ≠ 0#32 := by
  intro zero
  subst zero
  rw [hasFlag, BitVec.zero_and, decide_eq_true_eq] at set
  exact set rfl

end Directory

/-! ## Page table entries -/

section Table

variable {page : Word}

theorem pteCreateUser_eq (valid : IsPage page) (writable : Bool) :
    pteCreateUser page writable =
      some ((page - physBase) ||| pteP ||| (if writable then pteW else 0#32) |||
        pteU) := by
  rw [pteCreateUser, pteCreateKernel, if_pos valid.1, vtop_eq valid.2]
  rfl

/-- A new entry is present and neither dirty nor accessed. -/
theorem ofPte_created (valid : IsPage page) (writable : Bool) :
    PageEntry.ofPte ((page - physBase) ||| pteP |||
      (if writable then pteW else 0#32) ||| pteU) =
        { frame := page
          writable := writable
          dirty := false
          accessed := false
          present := true } := by
  cases writable with
  | true =>
      simp only [PageEntry.ofPte, if_true, PageEntry.mk.injEq]
      refine ⟨?_, ?_, ?_, ?_, ?_⟩
      · rw [BitFields.or_and_apart _ (by decide), BitFields.or_and_apart _ (by decide),
          BitFields.or_and_apart _ (by decide), physical_and_addr valid,
          BitVec.sub_add_cancel]
      · rw [hasFlag_or _ (by decide)]
        exact hasFlag_or_self _ (by decide)
      · rw [hasFlag_or _ (by decide), hasFlag_or _ (by decide), hasFlag_or _ (by decide)]
        exact hasFlag_physical valid (by decide)
      · rw [hasFlag_or _ (by decide), hasFlag_or _ (by decide), hasFlag_or _ (by decide)]
        exact hasFlag_physical valid (by decide)
      · rw [hasFlag_or _ (by decide), hasFlag_or _ (by decide)]
        exact hasFlag_or_self _ (by decide)
  | false =>
      simp only [PageEntry.ofPte, Bool.false_eq_true, if_false, BitVec.or_zero, PageEntry.mk.injEq]
      refine ⟨?_, ?_, ?_, ?_, ?_⟩
      · rw [BitFields.or_and_apart _ (by decide), BitFields.or_and_apart _ (by decide),
          physical_and_addr valid, BitVec.sub_add_cancel]
      · rw [hasFlag_or _ (by decide), hasFlag_or _ (by decide)]
        exact hasFlag_physical valid (by decide)
      · rw [hasFlag_or _ (by decide), hasFlag_or _ (by decide)]
        exact hasFlag_physical valid (by decide)
      · rw [hasFlag_or _ (by decide), hasFlag_or _ (by decide)]
        exact hasFlag_physical valid (by decide)
      · rw [hasFlag_or _ (by decide)]
        exact hasFlag_or_self _ (by decide)

theorem ofPte_clear_present (pte : Word) :
    PageEntry.ofPte (pte &&& ~~~pteP) = { PageEntry.ofPte pte with present := false } := by
  simp only [PageEntry.ofPte, PageEntry.mk.injEq]
  refine ⟨?_, ?_, ?_, ?_, ?_⟩
  · rw [BitFields.clear_and_apart _ (by decide)]
  · exact hasFlag_clear _ (by decide)
  · exact hasFlag_clear _ (by decide)
  · exact hasFlag_clear _ (by decide)
  · exact hasFlag_clear_self _ _

end Table

/-! ## The dirty and the accessed bit -/

/-- The entry with a flag set or cleared. -/
def putFlag (flag : Word) (value : Bool) (entry : Word) : Word :=
  if value then entry ||| flag else entry &&& ~~~flag

section PutFlag

variable {flag other : Word} {value : Bool}

theorem putFlag_and (entry : Word) (apart : flag &&& other = 0#32) :
    putFlag flag value entry &&& other = entry &&& other := by
  cases value with
  | true => exact BitFields.or_and_apart entry apart
  | false => exact BitFields.clear_and_apart entry apart

theorem hasFlag_putFlag (entry : Word) (apart : flag &&& other = 0#32) :
    hasFlag (putFlag flag value entry) other = hasFlag entry other := by
  rw [hasFlag, hasFlag, putFlag_and entry apart]

theorem hasFlag_putFlag_self (entry : Word) (some : flag ≠ 0#32) :
    hasFlag (putFlag flag value entry) flag = value := by
  cases value with
  | true => exact hasFlag_or_self entry some
  | false => exact hasFlag_clear_self entry flag

theorem ofPte_putDirty (pte : Word) (value : Bool) :
    PageEntry.ofPte (putFlag pteD value pte) = { PageEntry.ofPte pte with dirty := value } := by
  simp only [PageEntry.ofPte, PageEntry.mk.injEq]
  refine ⟨?_, ?_, ?_, ?_, ?_⟩
  · rw [putFlag_and _ (by decide)]
  · exact hasFlag_putFlag _ (by decide)
  · exact hasFlag_putFlag_self _ (by decide)
  · exact hasFlag_putFlag _ (by decide)
  · exact hasFlag_putFlag _ (by decide)

theorem ofPte_putAccessed (pte : Word) (value : Bool) :
    PageEntry.ofPte (putFlag pteA value pte) = { PageEntry.ofPte pte with accessed := value } := by
  simp only [PageEntry.ofPte, PageEntry.mk.injEq]
  refine ⟨?_, ?_, ?_, ?_, ?_⟩
  · rw [putFlag_and _ (by decide)]
  · exact hasFlag_putFlag _ (by decide)
  · exact hasFlag_putFlag _ (by decide)
  · exact hasFlag_putFlag_self _ (by decide)
  · exact hasFlag_putFlag _ (by decide)

end PutFlag

end CS162.Userprog
