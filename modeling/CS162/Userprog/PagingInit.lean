import Mathlib.Data.List.Nodup
import CS162.Userprog.PageWalk

/-!
# The mapping of the kernel

`paging_init` of `threads/init.c`.  It maps the memory of the machine once, and
every page directory that `pagedir_create` makes later has its entries.
-/

namespace CS162.Userprog

open CS162.Foundation Machine

/-- `_start` and `_end_kernel_text`. -/
structure KernelText where
  start : Word
  stop : Word

/-- `in_kernel_text` -/
def KernelText.contains (text : KernelText) (vaddr : Word) : Bool :=
  text.start ≤ vaddr && vaddr < text.stop

/-- The local variable `pt` and the pages that `palloc_get_page` will return. -/
structure PagingState where
  machine : Machine
  pt : Option Word
  grants : List Word

namespace PagingState

/-- `palloc_get_page (PAL_ASSERT | PAL_ZERO)`. -/
def pallocGetPage (st : PagingState) : Option (Word × PagingState) :=
  match st.grants with
  | [] => none
  | page :: rest =>
      some (page,
        { st with
          machine := (st.machine.obtain page).fillPage page fun _ => 0#32
          grants := rest })

/-- The allocation of a page table in the loop of `paging_init`. -/
def obtainTable (st : PagingState) (pd vaddr : Word) : Option PagingState :=
  if st.machine.word pd (pdNo vaddr) = 0#32 then
    st.pallocGetPage.bind fun got =>
      (pdeCreate got.1).map fun pde =>
        { got.2 with
          machine := got.2.machine.store pd (pdNo vaddr) pde
          pt := some got.1 }
  else some st

/-- The body of the loop of `paging_init`. -/
def mapPage (text : KernelText) (pd : Word) (st : PagingState) (page : Nat) : Option PagingState :=
  (ptov (BitVec.ofNat 32 (page * 4096))).bind fun vaddr =>
    (st.obtainTable pd vaddr).bind fun st =>
      st.pt.bind fun pt =>
        (pteCreateKernel vaddr (!text.contains vaddr)).map fun pte =>
          { st with machine := st.machine.store pt (ptNo vaddr) pte }

end PagingState

/-- `paging_init`. -/
def pagingInit (text : KernelText) (initRamPages : Nat) (m : Machine)
    (grants : List Word) : Option (Boot × Machine) :=
  (PagingState.pallocGetPage ⟨m, none, grants⟩).bind fun got =>
    ((List.range initRamPages).foldlM (PagingState.mapPage text got.1) got.2).bind
      fun st =>
        (vtop got.1).map fun cr3 =>
          (⟨got.1, initRamPages⟩, { st.machine with cr3 := cr3 })

/-! ## The loop -/

/-- The address at which a page of memory starts. -/
def ramPage (page : Nat) : Word := BitVec.ofNat 32 (page * 4096) + physBase

/-- The entry for a page of memory. -/
def kernelEntry (text : KernelText) (page : Nat) : Word :=
  BitVec.ofNat 32 (page * 4096) ||| pteP ||| if text.contains (ramPage page) then 0#32 else pteW

/-- The state after a page table has been put in the directory. -/
def PagingState.withTable (st : PagingState) (pd pt : Word) (index : Nat)
    (rest : List Word) : PagingState where
  machine := ((st.machine.obtain pt).fillPage pt fun _ => 0#32).store pd index (tableEntry pt)
  pt := some pt
  grants := rest

/-- The pages below a number have been mapped by these tables. -/
structure Mapped (text : KernelText) (before : Machine) (pd : Word)
    (tables : List Word) (count : Nat) (st : PagingState) : Prop where
  pages : ∀ page ∈ pd :: (tables ++ st.grants), IsPage page
  used : st.machine.used = tables.reverse ++ pd :: before.used
  distinct : (st.grants ++ st.machine.used).Nodup
  directory : ∀ index, st.machine.word pd index =
    if 768 ≤ index then (tables[index - 768]?.map tableEntry).getD 0#32 else 0#32
  entries : ∀ number pt, tables[number]? = some pt → ∀ place, place < 1024 →
    st.machine.word pt place =
      if number * 1024 + place < count then
        kernelEntry text (number * 1024 + place)
      else 0#32
  last : st.pt = tables.getLast?

section Loop

variable {text : KernelText} {before : Machine} {pd : Word} {tables : List Word}
variable {count : Nat} {st : PagingState}

theorem ramPage_toNat (small : count < 262144) :
    (ramPage count).toNat = count * 4096 + 3221225472 := by
  have base : physBase.toNat = 3221225472 := rfl
  rw [ramPage, BitVec.toNat_add, BitVec.toNat_ofNat, base]
  omega

theorem ptov_ramPage (small : count < 262144) :
    ptov (BitVec.ofNat 32 (count * 4096)) = some (ramPage count) := by
  have base : physBase.toNat = 3221225472 := rfl
  apply if_pos
  rw [BitVec.lt_def, BitVec.toNat_ofNat, base]
  omega

theorem ramPage_isPage (small : count < 262144) : IsPage (ramPage count) := by
  have place := ramPage_toNat small
  constructor
  · rw [pgOfs_eq_zero_iff]
    omega
  · rw [isKernelVaddr_iff, pdNo_eq]
    omega

theorem ramPage_pdNo (small : count < 262144) : pdNo (ramPage count) = 768 + count / 1024 := by
  rw [pdNo_eq, ramPage_toNat small]
  omega

theorem ramPage_ptNo (small : count < 262144) : ptNo (ramPage count) = count % 1024 := by
  rw [ptNo_eq, ramPage_toNat small]
  omega

/-- The entry that is written for a page. -/
theorem pteCreateKernel_ramPage (text : KernelText) (small : count < 262144) :
    pteCreateKernel (ramPage count) (!text.contains (ramPage count)) =
      some (kernelEntry text count) := by
  have valid := ramPage_isPage small
  have frame : ramPage count - physBase = BitVec.ofNat 32 (count * 4096) :=
    BitVec.add_sub_cancel _ _
  rw [pteCreateKernel, if_pos valid.1, vtop_eq valid.2, Option.map_some, frame, kernelEntry]
  cases text.contains (ramPage count) <;> rfl

namespace Mapped

theorem directoryPage (mapped : Mapped text before pd tables count st) : IsPage pd :=
  mapped.pages pd List.mem_cons_self

theorem table (mapped : Mapped text before pd tables count st) {pt : Word}
    (member : pt ∈ tables) : IsPage pt ∧ pt ≠ pd := by
  constructor
  · exact mapped.pages pt (List.mem_cons_of_mem _ (List.mem_append_left _ member))
  · intro same
    have used := (List.nodup_append.mp mapped.distinct).2.1
    rw [mapped.used] at used
    exact (List.nodup_append.mp used).2.2 pt (List.mem_reverse.mpr member) pd
      List.mem_cons_self same

theorem tables_nodup (mapped : Mapped text before pd tables count st) :
    tables.Nodup := by
  have used := (List.nodup_append.mp mapped.distinct).2.1
  rw [mapped.used] at used
  exact List.nodup_reverse.mp (List.nodup_append.mp used).1

/-- The pages that are still to be had are new ones. -/
theorem granted (mapped : Mapped text before pd tables count st) {page : Word}
    (member : page ∈ st.grants) : page ≠ pd ∧ page ∉ tables := by
  have apart := (List.nodup_append.mp mapped.distinct).2.2 page member
  rw [mapped.used] at apart
  constructor
  · exact apart pd (by simp)
  · intro old
    exact apart page (by simp [old]) rfl

/-- A table that has been cleared takes the place of the next one. -/
theorem addTable (mapped : Mapped text before pd tables count st) {pt : Word}
    {rest : List Word} (grants : st.grants = pt :: rest) (full : count ≤ tables.length * 1024) :
    Mapped text before pd (tables ++ [pt]) count
      (st.withTable pd pt (768 + tables.length) rest) := by
  have member : pt ∈ st.grants := by simp [grants]
  obtain ⟨notDirectory, notTable⟩ := mapped.granted member
  constructor
  · intro page inside
    apply mapped.pages page
    simpa [grants, PagingState.withTable, List.append_assoc] using inside
  · change pt :: st.machine.used = _
    rw [mapped.used]
    simp
  · change (rest ++ pt :: st.machine.used).Nodup
    have distinct := mapped.distinct
    rw [grants] at distinct
    exact (List.perm_middle.nodup_iff).mpr distinct
  · intro index
    rw [PagingState.withTable]
    by_cases here : index = 768 + tables.length
    · rw [here, store_word_same, if_pos (Nat.le_add_right _ _)]
      simp
    · rw [store_word_other fun _ => here, fillPage_word_other _ (Ne.symm notDirectory)]
      change st.machine.word pd index = _
      rw [mapped.directory]
      by_cases kernel : 768 ≤ index
      · rw [if_pos kernel, if_pos kernel, List.getElem?_append]
        by_cases old : index - 768 < tables.length
        · rw [if_pos old]
        · have beyond : 1 ≤ index - 768 - tables.length := by omega
          rw [if_neg old, List.getElem?_eq_none (by omega),
            List.getElem?_eq_none (by simpa using beyond)]
      · rw [if_neg kernel, if_neg kernel]
  · intro number other known place inside
    have table : other ≠ pd := by
      intro same
      rw [same] at known
      rcases List.mem_append.mp (List.mem_of_getElem? known) with old | new
      · exact (mapped.table old).2 rfl
      · exact notDirectory (List.mem_singleton.mp new).symm
    rw [PagingState.withTable, store_word_other fun same => absurd same table]
    rw [List.getElem?_append] at known
    by_cases old : number < tables.length
    · rw [if_pos old] at known
      have different : other ≠ pt := by
        intro same
        rw [same] at known
        exact notTable (List.mem_of_getElem? known)
      rw [fillPage_word_other _ different]
      exact mapped.entries number other known place inside
    · rw [if_neg old] at known
      have same : number = tables.length ∧ other = pt := by
        cases step : number - tables.length with
        | zero =>
            rw [step] at known
            exact ⟨by omega, by simpa using known.symm⟩
        | succ more =>
            rw [step] at known
            simp at known
      rw [same.2, fillPage_word_same, if_neg (by omega)]
  · simp [PagingState.withTable]

/-- A table is obtained exactly where there is none. -/
theorem obtain_new (mapped : Mapped text before pd tables count st) {pt : Word}
    {rest : List Word} (grants : st.grants = pt :: rest) {vaddr : Word}
    (place : pdNo vaddr = 768 + tables.length) :
    st.obtainTable pd vaddr = some (st.withTable pd pt (768 + tables.length) rest) := by
  have empty : st.machine.word pd (pdNo vaddr) = 0#32 := by
    rw [mapped.directory, place]
    simp
  have created : pdeCreate pt = some (tableEntry pt) :=
    pdeCreate_eq (mapped.pages pt (by simp [grants]))
  rw [PagingState.obtainTable, if_pos empty, PagingState.pallocGetPage, grants]
  simp only [Option.bind_some, created, Option.map_some, place]
  rfl

theorem obtain_old (mapped : Mapped text before pd tables count st)
    {vaddr : Word} {number : Nat} (old : number < tables.length)
    (place : pdNo vaddr = 768 + number) : st.obtainTable pd vaddr = some st := by
  apply if_neg
  rw [mapped.directory, place, if_pos (Nat.le_add_right _ _),
    Nat.add_sub_cancel_left, List.getElem?_eq_getElem old]
  exact tableEntry_ne_zero _

/-- The entry of a page is written. -/
theorem write (mapped : Mapped text before pd tables count st) {pt : Word}
    (current : tables[count / 1024]? = some pt) :
    Mapped text before pd tables (count + 1)
      { st with
        machine :=
          st.machine.store pt (count % 1024) (kernelEntry text count) } := by
  have member : pt ∈ tables := List.mem_of_getElem? current
  constructor
  · exact mapped.pages
  · exact mapped.used
  · exact mapped.distinct
  · intro index
    rw [store_word_other fun same => absurd same.symm (mapped.table member).2]
    exact mapped.directory index
  · intro number other known place inside
    have bound := (List.getElem?_eq_some_iff.mp known).1
    have same : other = pt → number = count / 1024 := by
      intro same
      rw [same, ← current] at known
      exact (List.getElem?_inj bound mapped.tables_nodup).mp known
    by_cases here : other = pt ∧ place = count % 1024
    · have table := same here.1
      have exactly : number * 1024 + place = count := by omega
      rw [here.1, here.2, store_word_same, ← here.2, exactly, if_pos (Nat.lt_succ_self count)]
    · have elsewhere : number * 1024 + place ≠ count := by
        intro exactly
        have table : number = count / 1024 := by omega
        have value : other = pt := by
          rw [table, current] at known
          exact (Option.some.inj known).symm
        exact here ⟨value, by omega⟩
      rw [store_word_other fun isTable isPlace => here ⟨isTable, isPlace⟩,
        mapped.entries number other known place inside]
      by_cases below : number * 1024 + place < count
      · rw [if_pos below, if_pos (by omega)]
      · rw [if_neg below, if_neg (by omega)]
  · exact mapped.last

/-- One page. -/
theorem mapPage (mapped : Mapped text before pd tables count st)
    (length : tables.length = (count + 1023) / 1024) (small : count < 262144)
    (enough : tables.length ≤ count / 1024 → st.grants ≠ []) :
    ∃ after tables', st.mapPage text pd count = some after ∧
      Mapped text before pd tables' (count + 1) after ∧
      tables'.length = (count + 1 + 1023) / 1024 ∧
      tables'.length + after.grants.length = tables.length + st.grants.length := by
  have place := ramPage_pdNo small
  -- the table of the page, whether it is new or not
  have ready : ∃ middle tables', st.obtainTable pd (ramPage count) = some middle ∧
      Mapped text before pd tables' count middle ∧
      tables'.length = count / 1024 + 1 ∧
      tables'.length + middle.grants.length = tables.length + st.grants.length := by
    by_cases full : tables.length ≤ count / 1024
    · obtain ⟨pt, rest, grants⟩ := List.exists_cons_of_ne_nil (enough full)
      have next : pdNo (ramPage count) = 768 + tables.length := by omega
      refine ⟨_, _, mapped.obtain_new grants next, mapped.addTable grants (by omega), ?_, ?_⟩
      · rw [List.length_append, List.length_singleton]
        omega
      · rw [List.length_append, List.length_singleton, grants, List.length_cons]
        exact Nat.add_right_comm _ _ _
    · have old : count / 1024 < tables.length := by omega
      exact ⟨st, tables, mapped.obtain_old old place, mapped, by omega, rfl⟩
  obtain ⟨middle, tables', obtained, middleMapped, middleLength, kept⟩ := ready
  have inside : count / 1024 < tables'.length := by omega
  have current : tables'[count / 1024]? = some tables'[count / 1024] :=
    List.getElem?_eq_getElem inside
  have last : middle.pt = some tables'[count / 1024] := by
    rw [middleMapped.last, List.getLast?_eq_getElem?, middleLength, Nat.add_sub_cancel]
    exact current
  refine ⟨_, tables', ?_, middleMapped.write current, by omega, kept⟩
  rw [PagingState.mapPage, ptov_ramPage small, Option.bind_some, obtained,
    Option.bind_some, last, Option.bind_some, pteCreateKernel_ramPage text small,
    ramPage_ptNo small]
  rfl

/-- All pages below a number, as long as there are pages for the tables. -/
theorem loop (mapped : Mapped text before pd [] 0 st) (small : count ≤ 262144)
    (enough : (count + 1023) / 1024 ≤ st.grants.length) :
    ∃ after tables,
      (List.range count).foldlM (PagingState.mapPage text pd) st = some after ∧
        Mapped text before pd tables count after ∧
        tables.length = (count + 1023) / 1024 ∧
        tables.length + after.grants.length = st.grants.length := by
  induction count with
  | zero => exact ⟨st, [], rfl, mapped, rfl, Nat.zero_add _⟩
  | succ count inductionHypothesis =>
      obtain ⟨middle, tables, first, middleMapped, length, kept⟩ :=
        inductionHypothesis (by omega) (by omega)
      have more : tables.length ≤ count / 1024 → middle.grants ≠ [] := by
        intro full none
        rw [none, List.length_nil] at kept
        omega
      obtain ⟨after, tables', next, afterMapped, length', kept'⟩ :=
        middleMapped.mapPage length (by omega) more
      refine ⟨after, tables', ?_, afterMapped, length', by omega⟩
      rw [List.range_succ, List.foldlM_append, first]
      simpa using next

end Mapped

end Loop

/-! ## What the kernel may access -/

/-- The page of memory that a kernel virtual address is in. -/
def ramPageOf (va : Word) : Nat := pgNo (va - physBase)

/-- The one-to-one mapping from `PHYS_BASE` on: only the kernel may use it, as far as
there is memory, and the kernel may not write to its text. -/
def linearMap (text : KernelText) (initRamPages : Nat) (access : Access)
    (va : Word) : Option Word :=
  if !access.user && ramPageOf va < initRamPages &&
      (!access.write || !text.contains (ramPage (ramPageOf va))) then
    some (va - physBase)
  else none

/-- A directory that has the tables of `paging_init`. -/
structure KernelTables (text : KernelText) (initRamPages : Nat) (pd : Word)
    (tables : List Word) (m : Machine) : Prop where
  pages : ∀ page ∈ pd :: tables, IsPage page
  enough : initRamPages ≤ tables.length * 1024
  few : tables.length ≤ 256
  directory : ∀ index, 768 ≤ index →
    m.word pd index = (tables[index - 768]?.map tableEntry).getD 0#32
  entries : ∀ number pt, tables[number]? = some pt → ∀ place, place < 1024 →
    m.word pt place =
      if number * 1024 + place < initRamPages then
        kernelEntry text (number * 1024 + place)
      else 0#32

section Linear

variable {text : KernelText} {initRamPages : Nat} {pd : Word}
variable {tables : List Word} {m : Machine} {access : Access} {va : Word}

theorem kernelEntry_eq (text : KernelText) {page : Nat} :
    kernelEntry text page =
      (ramPage page - physBase) ||| pteP |||
        if text.contains (ramPage page) then 0#32 else pteW := by
  rw [kernelEntry, ramPage, BitVec.add_sub_cancel]

theorem permits_kernelEntry {page : Nat} (small : page < 262144) :
    access.permits (kernelEntry text page) =
      (!access.user && (!access.write || !text.contains (ramPage page))) := by
  have valid := ramPage_isPage small
  have user : hasFlag (ramPage page - physBase) pteU = false := hasFlag_physical valid (by decide)
  have writable : hasFlag (ramPage page - physBase) pteW = false :=
    hasFlag_physical valid (by decide)
  rw [kernelEntry_eq]
  cases text.contains (ramPage page) with
  | true =>
      have present : hasFlag ((ramPage page - physBase) ||| pteP) pteP = true :=
        hasFlag_or_self _ (by decide)
      have noUser : hasFlag ((ramPage page - physBase) ||| pteP) pteU = false := by
        rw [hasFlag_or _ (by decide), user]
      have noWrite : hasFlag ((ramPage page - physBase) ||| pteP) pteW = false := by
        rw [hasFlag_or _ (by decide), writable]
      simp [Access.permits, present, noUser, noWrite]
  | false =>
      have present : hasFlag ((ramPage page - physBase) ||| pteP ||| pteW) pteP = true := by
        rw [hasFlag_or _ (by decide)]
        exact hasFlag_or_self _ (by decide)
      have noUser : hasFlag ((ramPage page - physBase) ||| pteP ||| pteW) pteU = false := by
        rw [hasFlag_or _ (by decide), hasFlag_or _ (by decide), user]
      have writes : hasFlag ((ramPage page - physBase) ||| pteP ||| pteW) pteW = true :=
        hasFlag_or_self _ (by decide)
      simp [Access.permits, present, noUser, writes]

theorem kernelEntry_addr {page : Nat} (small : page < 262144) :
    kernelEntry text page &&& pteAddr = ramPage page - physBase := by
  rw [kernelEntry_eq]
  cases text.contains (ramPage page) with
  | true =>
      simp only [if_true, BitVec.or_zero]
      rw [BitFields.or_and_apart _ (by decide), physical_and_addr (ramPage_isPage small)]
  | false =>
      simp only [Bool.false_eq_true, if_false]
      rw [BitFields.or_and_apart _ (by decide), BitFields.or_and_apart _ (by decide),
        physical_and_addr (ramPage_isPage small)]

theorem ramPageOf_eq (kernel : isKernelVaddr va = true) :
    ramPageOf va = (pdNo va - 768) * 1024 + ptNo va := by
  have physical := toNat_physical kernel
  have index := (isKernelVaddr_iff va).mp kernel
  rw [pdNo_eq] at index
  rw [ramPageOf, pgNo_eq, pdNo_eq, ptNo_eq]
  omega

theorem ramPageOf_lt (kernel : isKernelVaddr va = true) : ramPageOf va < 262144 := by
  have physical := toNat_physical kernel
  have bound := va.isLt
  rw [ramPageOf, pgNo_eq]
  omega

/-- The address in a page and its offset. -/
theorem ramPage_add_ofs (kernel : isKernelVaddr va = true) :
    ramPage (ramPageOf va) - physBase + pgOfs va = va - physBase := by
  have page := ramPageOf_lt kernel
  have physical := toNat_physical kernel
  have index := (isKernelVaddr_iff va).mp kernel
  rw [pdNo_eq] at index
  have start := toNat_physical (ramPage_isPage page).2
  have place := ramPage_toNat page
  have bound := va.isLt
  have number : ramPageOf va = (va - physBase).toNat / 4096 := pgNo_eq _
  have low : (pgOfs va).toNat = va.toNat % 4096 := BitFields.toNat_and_low va (by decide : 12 < 32)
  apply BitVec.eq_of_toNat_eq
  rw [BitVec.toNat_add]
  omega

/-- The kernel's part of every address space. -/
theorem KernelTables.translate
    (kernelTables : KernelTables text initRamPages pd tables m)
    (active : m.cr3 = pd - physBase) (kernel : isKernelVaddr va = true) :
    m.translate access va = linearMap text initRamPages access va := by
  have valid := kernelTables.pages pd List.mem_cons_self
  have index := (isKernelVaddr_iff va).mp kernel
  have enough := kernelTables.enough
  have place := ptNo_lt va
  have page := ramPageOf_eq kernel
  have small := ramPageOf_lt kernel
  rw [linearMap]
  cases known : tables[pdNo va - 768]? with
  | none =>
      have missing : m.word pd (pdNo va) = 0#32 := by
        rw [kernelTables.directory _ index, known]
        rfl
      have beyond := List.getElem?_eq_none_iff.mp known
      have outside : ¬ramPageOf va < initRamPages := by omega
      rw [translate_missing valid active missing, decide_eq_false outside]
      simp
  | some pt =>
      have entry : m.word pd (pdNo va) = tableEntry pt := by
        rw [kernelTables.directory _ index, known]
        rfl
      have table : IsPage pt := kernelTables.pages pt
        (List.mem_cons_of_mem _ (List.mem_of_getElem? known))
      have value := kernelTables.entries _ pt known _ place
      rw [← page] at value
      rw [translate_table valid active table entry, value]
      by_cases inside : ramPageOf va < initRamPages
      · rw [if_pos inside, permits_kernelEntry small, kernelEntry_addr small,
          ramPage_add_ofs kernel, decide_eq_true inside, Bool.and_true]
      · rw [if_neg inside, decide_eq_false inside]
        simp [Access.permits, hasFlag]

end Linear

/-! ## Every address space -/

/-- The pages that `palloc_get_page` returns are new ones, and there are enough of
them for the directory and its tables. -/
structure MayGrant (m : Machine) (initRamPages : Nat) (grants : List Word) : Prop where
  pages : ∀ page ∈ grants, IsPage page
  distinct : (grants ++ m.used).Nodup
  enough : (initRamPages + 1023) / 1024 < grants.length

section Boot

variable {text : KernelText} {initRamPages : Nat} {before : Machine}
variable {grants : List Word}

/-- `paging_init` does not panic and maps all memory. -/
theorem pagingInit_spec (text : KernelText) (granted : MayGrant before initRamPages grants)
    (ram : initRamPages ≤ 262144) :
    ∃ boot m tables, pagingInit text initRamPages before grants = some (boot, m) ∧
      boot.initRamPages = initRamPages ∧ Booted boot m ∧
      KernelTables text initRamPages boot.initPageDir tables m ∧
      (∀ pt ∈ tables, pt ∈ m.used ∧ pt ≠ boot.initPageDir) ∧
      m.cr3 = boot.initPageDir - physBase := by
  obtain ⟨pd, rest, rfl⟩ : ∃ pd rest, grants = pd :: rest := by
    apply List.exists_cons_of_ne_nil
    intro none
    have enough := granted.enough
    rw [none] at enough
    exact Nat.not_lt_zero _ enough
  have enough := granted.enough
  rw [List.length_cons] at enough
  -- the directory before the loop
  let start : PagingState := ⟨(before.obtain pd).fillPage pd fun _ => 0#32, none, rest⟩
  have mapped : Mapped text before pd [] 0 start := by
    constructor
    · simpa [start] using granted.pages
    · rfl
    · exact List.perm_middle.nodup_iff.mpr granted.distinct
    · intro index
      change (Machine.fillPage _ pd _).word pd index = _
      rw [fillPage_word_same]
      simp
    · simp
    · rfl
  obtain ⟨st, tables, run, done, length, -⟩ := mapped.loop ram (Nat.le_of_lt_succ enough)
  have valid := done.directoryPage
  have memory : ∀ pt ∈ tables, pt ∈ st.machine.used := by
    intro pt member
    rw [done.used]
    simp [member]
  refine ⟨⟨pd, initRamPages⟩, { st.machine with cr3 := pd - physBase }, tables,
    ?_, rfl, ?_, ?_, ?_, rfl⟩
  · rw [pagingInit, PagingState.pallocGetPage]
    simp only [Option.bind_some]
    rw [run, Option.bind_some, vtop_eq valid.2]
    rfl
  · constructor
    · exact valid
    · change pd ∈ st.machine.used
      rw [done.used]
      simp
    · intro index pt kernel present
      change pdeGetPt (st.machine.word pd index) = some pt at present
      rw [done.directory, if_pos kernel] at present
      cases known : tables[index - 768]? with
      | none =>
          rw [known] at present
          cases present
      | some other =>
          have member := List.mem_of_getElem? known
          rw [known] at present
          have same : pdeGetPt (tableEntry other) = some other :=
            pdeGetPt_created (done.table member).1
          have equal : other = pt := Option.some.inj (same.symm.trans present)
          exact equal ▸ memory other member
    · intro index user
      change st.machine.word pd index = 0#32
      rw [done.directory, if_neg (Nat.not_le.mpr user)]
    · have physical := toNat_physical valid.2
      have base : physBase.toNat = 3221225472 := rfl
      have bound := pd.isLt
      change pd - physBase < physBase
      rw [BitVec.lt_def]
      omega
    · exact (List.nodup_append.mp done.distinct).2.1
  · constructor
    · intro page member
      apply done.pages page
      simp only [List.mem_cons, List.mem_append] at member ⊢
      tauto
    · omega
    · omega
    · intro index kernel
      change st.machine.word pd index = _
      rw [done.directory, if_pos kernel]
    · exact done.entries
  · intro pt member
    exact ⟨memory pt member, (done.table member).2⟩

/-- `paging_init` maps the memory of the machine at `PHYS_BASE`, its text read-only,
and nothing else. -/
theorem paging_init_maps (text : KernelText) (granted : MayGrant before initRamPages grants)
    (ram : initRamPages ≤ 262144) :
    ∃ boot m, pagingInit text initRamPages before grants = some (boot, m) ∧
      Booted boot m ∧ ∀ access va,
        m.translate access va = if isKernelVaddr va then linearMap text initRamPages access va
          else none := by
  obtain ⟨boot, m, tables, run, -, booted, mapped, -, active⟩ := pagingInit_spec text granted ram
  refine ⟨boot, m, run, booted, ?_⟩
  intro access va
  by_cases kernel : isKernelVaddr va = true
  · rw [if_pos kernel]
    exact mapped.translate active kernel
  · have user : isUserVaddr va = true := by
      rw [isUserVaddr_iff]
      rw [isKernelVaddr_iff] at kernel
      exact Nat.not_le.mp kernel
    rw [if_neg kernel]
    exact translate_missing booted.valid active (booted.user _ ((isUserVaddr_iff va).mp user))

/-- Three pages of memory, of which the first is text. -/
theorem paging_init_maps_small :
    ∃ boot m, pagingInit ⟨0xc0000000#32, 0xc0001000#32⟩ 3
        { word := fun _ _ => 0#32, cr3 := 0xf000#32, used := [] }
        [0xc0001000#32, 0xc0002000#32] = some (boot, m) ∧
      Booted boot m ∧ ∀ access va,
        m.translate access va =
          if isKernelVaddr va then
            linearMap ⟨0xc0000000#32, 0xc0001000#32⟩ 3 access va
          else none := by
  apply paging_init_maps
  · constructor
    · intro page member
      have each : page = 0xc0001000#32 ∨ page = 0xc0002000#32 := by
        simpa using member
      rcases each with rfl | rfl
      · decide
      · decide
    · decide
    · rw [List.length_cons, List.length_singleton]
      omega
  · omega

end Boot

end CS162.Userprog
