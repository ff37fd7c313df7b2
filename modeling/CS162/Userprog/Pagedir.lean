import Mathlib.Data.List.Basic
import CS162.Userprog.Pte

/-!
# Page directories

`userprog/pagedir.c` over a memory of pages, each of them 1024 words.  A failed
`ASSERT` is `none`, and so is a `NOT_REACHED` that is reached.  What
`palloc_get_page` returns, if it is called, is an argument.
-/

namespace CS162.Userprog

open CS162.Foundation

/-- `init_page_dir` and `init_ram_pages`. -/
structure Boot where
  initPageDir : Word
  initRamPages : Nat

/-- The words of every page, the page directory base register, and the pages that
`palloc_get_page` has returned and that have not been freed. -/
structure Machine where
  word : Word → Nat → Word
  cr3 : Word
  used : List Word

namespace Machine

/-- `page[index] = value`. -/
def store (m : Machine) (page : Word) (index : Nat) (value : Word) : Machine :=
  { m with
    word := fun other place =>
      if other = page ∧ place = index then value else m.word other place }

/-- A page is filled, each word of it with the word that belongs there. -/
def fillPage (m : Machine) (page : Word) (contents : Nat → Word) : Machine :=
  { m with
    word := fun other place =>
      if other = page then contents place else m.word other place }

/-- A successful `palloc_get_page`. -/
def obtain (m : Machine) (page : Word) : Machine := { m with used := page :: m.used }

/-- `palloc_free_page`, with the bytes that it leaves in the page. -/
def pallocFreePage (m : Machine) (page : Word) : Option Machine :=
  if pgOfs page ≠ 0#32 then none
  else if page = 0#32 then some m
  else if page ∈ m.used then
    some { m.fillPage page fun _ => 0xcccccccc#32 with used := m.used.erase page }
  else none

/-- `pagedir_create`. -/
def pagedirCreate (m : Machine) (boot : Boot) (grant : Option Word) : Option Word × Machine :=
  match grant with
  | none => (none, m)
  | some pd => (some pd, (m.obtain pd).fillPage pd (m.word boot.initPageDir))

/-- The inner loop of `pagedir_destroy`, for one entry of a page table. -/
def destroyEntry (pt : Word) (m : Machine) (index : Nat) : Option Machine :=
  if hasFlag (m.word pt index) pteP then
    (pteGetPage (m.word pt index)).bind m.pallocFreePage
  else some m

/-- The outer loop of `pagedir_destroy`, for one entry of the directory. -/
def destroyTable (pd : Word) (m : Machine) (index : Nat) : Option Machine :=
  if hasFlag (m.word pd index) pteP then
    (pdeGetPt (m.word pd index)).bind fun pt =>
      ((List.range 1024).foldlM (destroyEntry pt) m).bind fun m =>
        m.pallocFreePage pt
  else some m

/-- `pagedir_destroy`. -/
def pagedirDestroy (m : Machine) (boot : Boot) (pd : Word) : Option Machine :=
  if pd = 0#32 then some m
  else if pd = boot.initPageDir then none
  else
    ((List.range (pdNo physBase)).foldlM (destroyTable pd) m).bind fun m =>
      m.pallocFreePage pd

/-- The end of `lookup_page`: the entry for the address in its page table. -/
def entryAt (m : Machine) (pd vaddr : Word) : Option (Option (Word × Nat) × Machine) :=
  (pdeGetPt (m.word pd (pdNo vaddr))).map fun pt => (some (pt, ptNo vaddr), m)

/-- `lookup_page`. -/
def lookupPage (m : Machine) (pd vaddr : Word) (create : Bool)
    (grant : Option Word) : Option (Option (Word × Nat) × Machine) :=
  if pd = 0#32 then none
  else if create && !isUserVaddr vaddr then none
  else if m.word pd (pdNo vaddr) = 0#32 then
    if create then
      match grant with
      | none => some (none, m)
      | some pt =>
          (pdeCreate pt).bind fun pde =>
            (((m.obtain pt).fillPage pt fun _ => 0#32).store pd (pdNo vaddr) pde).entryAt
              pd vaddr
    else some (none, m)
  else m.entryAt pd vaddr

/-- `pagedir_set_page`. -/
def pagedirSetPage (m : Machine) (boot : Boot) (pd upage kpage : Word)
    (writable : Bool) (grant : Option Word) : Option (Bool × Machine) :=
  if pgOfs upage ≠ 0#32 then none
  else if pgOfs kpage ≠ 0#32 then none
  else if !isUserVaddr upage then none
  else if !(vtop kpage).any (fun paddr => pgNo paddr < boot.initRamPages) then none
  else if pd = boot.initPageDir then none
  else
    (m.lookupPage pd upage true grant).bind fun found =>
      match found.1 with
      | none => some (false, found.2)
      | some (pt, index) =>
          if hasFlag (found.2.word pt index) pteP then none
          else
            (pteCreateUser kpage writable).map fun pte =>
              (true, found.2.store pt index pte)

/-- `pagedir_get_page`, where `none` is the null pointer. -/
def pagedirGetPage (m : Machine) (pd uaddr : Word) : Option (Option Word) :=
  if !isUserVaddr uaddr then none
  else
    (m.lookupPage pd uaddr false none).bind fun found =>
      match found.1 with
      | none => some none
      | some (pt, index) =>
          if hasFlag (m.word pt index) pteP then
            (pteGetPage (m.word pt index)).map fun page => some (page + pgOfs uaddr)
          else some none

/-- `pagedir_activate`. -/
def pagedirActivate (m : Machine) (boot : Boot) (pd : Word) : Option Machine :=
  (vtop (if pd = 0#32 then boot.initPageDir else pd)).map fun paddr =>
    { m with cr3 := paddr }

/-- `invalidate_pagedir`. -/
def invalidatePagedir (m : Machine) (boot : Boot) (pd : Word) : Option Machine :=
  (ptov m.cr3).bind fun active =>
    if active = pd then m.pagedirActivate boot pd else some m

/-- `pagedir_clear_page`. -/
def pagedirClearPage (m : Machine) (boot : Boot) (pd upage : Word) : Option Machine :=
  if pgOfs upage ≠ 0#32 then none
  else if !isUserVaddr upage then none
  else
    (m.lookupPage pd upage false none).bind fun found =>
      match found.1 with
      | none => some m
      | some (pt, index) =>
          if hasFlag (m.word pt index) pteP then
            (m.store pt index (m.word pt index &&& ~~~pteP)).invalidatePagedir boot pd
          else some m

/-- `pagedir_is_dirty` and `pagedir_is_accessed`. -/
def isFlag (m : Machine) (flag pd vpage : Word) : Option Bool :=
  (m.lookupPage pd vpage false none).map fun found =>
    match found.1 with
    | none => false
    | some (pt, index) => hasFlag (m.word pt index) flag

/-- `pagedir_set_dirty` and `pagedir_set_accessed`. -/
def setFlag (m : Machine) (boot : Boot) (flag pd vpage : Word) (value : Bool) : Option Machine :=
  (m.lookupPage pd vpage false none).bind fun found =>
    match found.1 with
    | none => some m
    | some (pt, index) =>
        let changed := m.store pt index (putFlag flag value (m.word pt index))
        if value then some changed else changed.invalidatePagedir boot pd

def pagedirIsDirty (m : Machine) (pd vpage : Word) : Option Bool := m.isFlag pteD pd vpage

def pagedirSetDirty (m : Machine) (boot : Boot) (pd vpage : Word) (dirty : Bool) : Option Machine :=
  m.setFlag boot pteD pd vpage dirty

def pagedirIsAccessed (m : Machine) (pd vpage : Word) : Option Bool := m.isFlag pteA pd vpage

def pagedirSetAccessed (m : Machine) (boot : Boot) (pd vpage : Word)
    (accessed : Bool) : Option Machine :=
  m.setFlag boot pteA pd vpage accessed

end Machine

end CS162.Userprog
