import CS162.Userprog.PagedirRuns

/-!
# Address translation

The walk of the processor through a page directory and its page tables, where
`CR0_WP` is set, so that the kernel respects pages that are read-only.
-/

namespace CS162.Userprog

open CS162.Foundation Machine

/-- Who accesses memory, and whether it is written to. -/
structure Access where
  user : Bool
  write : Bool
deriving DecidableEq

/-- An entry lets the access pass. -/
def Access.permits (access : Access) (entry : Word) : Bool :=
  hasFlag entry pteP && (!access.user || hasFlag entry pteU) &&
    (!access.write || hasFlag entry pteW)

/-- The walk, where `word` has the words of the frames. -/
def walk (word : Word → Nat → Word) (cr3 : Word) (access : Access) (va : Word) : Option Word :=
  let pde := word (cr3 &&& pteAddr) (pdNo va)
  let pte := word (pde &&& pteAddr) (ptNo va)
  if access.permits pde then
    if access.permits pte then some ((pte &&& pteAddr) + pgOfs va) else none
  else none

/-- The physical address that the processor accesses, if there is no page fault. -/
def Machine.translate (m : Machine) (access : Access) (va : Word) : Option Word :=
  walk (fun frame => m.word (frame + physBase)) m.cr3 access va

section Walk

variable {m : Machine} {pd pt va : Word} {access : Access}

/-- An entry for a page table restricts nothing. -/
theorem permits_tableEntry (access : Access) (pt : Word) :
    access.permits (tableEntry pt) = true := by
  have present : hasFlag (tableEntry pt) pteP = true := created_present pt
  have user : hasFlag (tableEntry pt) pteU = true := by
    rw [tableEntry, hasFlag_or _ (by decide), hasFlag_or _ (by decide)]
    exact hasFlag_or_self _ (by decide)
  have writable : hasFlag (tableEntry pt) pteW = true := hasFlag_or_self _ (by decide)
  simp [Access.permits, present, user, writable]

theorem tableEntry_addr (valid : IsPage pt) : tableEntry pt &&& pteAddr = pt - physBase := by
  rw [tableEntry, BitFields.or_and_apart _ (by decide),
    BitFields.or_and_apart _ (by decide), BitFields.or_and_apart _ (by decide),
    physical_and_addr valid]

/-- The walk of an active directory through one of its tables. -/
theorem translate_table (valid : IsPage pd) (active : m.cr3 = pd - physBase)
    (table : IsPage pt) (entry : m.word pd (pdNo va) = tableEntry pt) :
    m.translate access va =
      if access.permits (m.word pt (ptNo va)) then
        some ((m.word pt (ptNo va) &&& pteAddr) + pgOfs va)
      else none := by
  have directory : (m.cr3 &&& pteAddr) + physBase = pd := by
    rw [active, physical_and_addr valid, BitVec.sub_add_cancel]
  have next : (tableEntry pt &&& pteAddr) + physBase = pt := by
    rw [tableEntry_addr table, BitVec.sub_add_cancel]
  simp only [Machine.translate, walk, directory, entry, next, permits_tableEntry, if_true]

/-- The walk ends where the directory has no table. -/
theorem translate_missing (valid : IsPage pd) (active : m.cr3 = pd - physBase)
    (missing : m.word pd (pdNo va) = 0#32) : m.translate access va = none := by
  have directory : (m.cr3 &&& pteAddr) + physBase = pd := by
    rw [active, physical_and_addr valid, BitVec.sub_add_cancel]
  have absent : access.permits 0#32 = false := by
    simp [Access.permits, hasFlag]
  simp only [Machine.translate, walk, directory, missing, absent, Bool.false_eq_true, if_false]

/-- What user mode may access, the kernel may access as well. -/
theorem Machine.translate_less {write : Bool} {physical : Word}
    (passes : m.translate ⟨true, write⟩ va = some physical) :
    m.translate ⟨false, write⟩ va = some physical := by
  have weaker : ∀ entry, Access.permits ⟨true, write⟩ entry = true →
      Access.permits ⟨false, write⟩ entry = true := by
    intro entry permits
    simp only [Access.permits, Bool.and_eq_true] at permits ⊢
    exact ⟨⟨permits.1.1, rfl⟩, permits.2⟩
  simp only [Machine.translate, walk] at passes ⊢
  obtain ⟨directory, passes⟩ := Option.ite_none_right_eq_some.mp passes
  obtain ⟨table, passes⟩ := Option.ite_none_right_eq_some.mp passes
  rw [if_pos (weaker _ directory), if_pos (weaker _ table), passes]

end Walk

end CS162.Userprog
