import CS162.Userprog.PagedirDestroy
import CS162.Userprog.PagingInit

/-!
# The page directories of all processes

After `paging_init` the kernel makes, uses, activates and destroys any number of
page directories in any order, and uses other pages as it likes in between.  Every
address space has the mapping of the kernel, which user mode cannot use, and below
`PHYS_BASE` what the calls on its own directory say.
-/

namespace CS162.Userprog

open CS162.Foundation Machine

/-- A directory that `pagedir_create` has returned, with the calls on it. -/
structure UserDirectory where
  pd : Word
  events : List PagedirEvent

/-- Memory and the directories by the numbers of their processes. -/
structure DirectoriesState where
  machine : Machine
  directory : Nat → Option UserDirectory
  count : Nat

inductive DirectoriesMove where
  | create (grant : Option Word)
  | call (number : Nat) (call : PagedirCall)
  | activate (number : Option Nat)
  | destroy (number : Nat)
  | obtain (page : Word)
  | release (page : Word)
  | store (page : Word) (index : Nat) (value : Word)

/-- A page is a directory or one of its tables. -/
def inDirectory (m : Machine) (pd page : Word) : Bool :=
  page = pd || (List.range 1024).any fun index =>
    pdeGetPt (m.word pd index) = some page

namespace DirectoriesState

/-- A page is in no directory. -/
def ordinary (boot : Boot) (st : DirectoriesState) (page : Word) : Bool :=
  !inDirectory st.machine boot.initPageDir page &&
    (List.range st.count).all fun number =>
      match st.directory number with
      | some directory => !inDirectory st.machine directory.pd page
      | none => true

/-- The argument of `pagedir_activate`. -/
def pagedirOf (st : DirectoriesState) : Option Nat → Option Word
  | none => some 0#32
  | some number => (st.directory number).map UserDirectory.pd

/-- The frames that a directory maps are in use, and in no directory. -/
def ownFrames (boot : Boot) (st : DirectoriesState) (directory : UserDirectory) :
    Bool :=
  (mappedFrames directory.events).all fun frame =>
    st.machine.used.contains frame && st.ordinary boot frame

/-- One move of the kernel.  A process gives up its directory before it destroys it,
and the frames that it has mapped are its own. -/
def step (boot : Boot) (st : DirectoriesState) : DirectoriesMove → Option DirectoriesState
  | .create grant =>
      if MayReturn st.machine grant then
        match st.machine.pagedirCreate boot grant with
        | (some pd, machine) =>
            some
              { machine := machine
                directory := Function.update st.directory st.count (some ⟨pd, []⟩)
                count := st.count + 1 }
        | (none, machine) => some { st with machine := machine }
      else none
  | .call number call =>
      (st.directory number).bind fun directory =>
        if Allowed boot ⟨directory.pd, st.machine, directory.events⟩ call then
          (call.perform boot directory.pd st.machine).map fun done =>
            { st with
              machine := done.2
              directory :=
                Function.update st.directory number
                  (some ⟨directory.pd, directory.events ++ [⟨call, done.1⟩]⟩) }
        else none
  | .activate number =>
      (st.pagedirOf number).bind fun pd =>
        (st.machine.pagedirActivate boot pd).map fun machine =>
          { st with machine := machine }
  | .destroy number =>
      (st.directory number).bind fun directory =>
        if st.machine.cr3 ≠ directory.pd - physBase ∧
            st.ownFrames boot directory = true then
          (st.machine.pagedirDestroy boot directory.pd).map fun machine =>
            { st with
              machine := machine
              directory := Function.update st.directory number none }
        else none
  | .obtain page =>
      if Granted st.machine page then
        some { st with machine := st.machine.obtain page }
      else none
  | .release page =>
      if st.ordinary boot page then
        (st.machine.pallocFreePage page).map fun machine =>
          { st with machine := machine }
      else none
  | .store page index value =>
      if st.ordinary boot page then
        some { st with machine := st.machine.store page index value }
      else none

end DirectoriesState

/-- All runs from the return of `paging_init` on. -/
def directoriesSystem (boot : Boot) (start : Machine) :
    TransitionSystem DirectoriesState DirectoriesMove where
  initial st := st.machine = start ∧ st.directory = (fun _ => none) ∧ st.count = 0
  step := DirectoriesState.step boot

/-- What the calls on a directory let an access of the kernel do below `PHYS_BASE`. -/
def calledMap (events : List PagedirEvent) (write : Bool) (va : Word) : Option Word :=
  (entryOf events (pgNo va)).bind fun entry =>
    if entry.present && (!write || entry.writable) then
      some (entry.frame - physBase + pgOfs va)
    else none

/-- A directory while it is active. -/
def whileActive (st : DirectoriesState) (pd : Word) : Machine :=
  { st.machine with cr3 := pd - physBase }

/-- What holds of all address spaces. -/
structure DirectoriesSound (text : KernelText) (boot : Boot)
    (st : DirectoriesState) : Prop where
  current : ∀ access va, isKernelVaddr va = true →
    st.machine.translate access va = linearMap text boot.initRamPages access va
  kernel : ∀ number directory, st.directory number = some directory →
    ∀ access va, isKernelVaddr va = true →
      (whileActive st directory.pd).translate access va = linearMap text boot.initRamPages access va
  user : ∀ number directory, st.directory number = some directory →
    ∀ write va, isUserVaddr va = true →
      (whileActive st directory.pd).translate ⟨false, write⟩ va =
        calledMap directory.events write va
  less : ∀ number directory, st.directory number = some directory →
    ∀ write va physical,
      (whileActive st directory.pd).translate ⟨true, write⟩ va = some physical →
        isUserVaddr va = true ∧ calledMap directory.events write va = some physical
  calls : ∀ number directory, st.directory number = some directory →
    ∀ call, Allowed boot ⟨directory.pd, st.machine, directory.events⟩ call →
      (st.step boot (.call number call)).isSome = true

/-! ## The pages of one directory -/

/-- The pages of a directory. -/
def ownPages (pd : Word) (tables : Nat → Option Word) : List Word :=
  (List.range 768).filterMap tables ++ [pd]

/-- The memory without the pages of a directory. -/
def Machine.without (m : Machine) (pages : List Word) : Machine :=
  { m with used := m.used.filter fun page => !pages.contains page }

section Own

variable {boot : Boot} {before m after : Machine} {pd page : Word}
variable {tables : Nat → Option Word} {known : Nat → Option PageEntry}

theorem mem_without {pages used : List Word} :
    page ∈ used.filter (fun other => !pages.contains other) ↔ page ∈ used ∧ page ∉ pages := by
  simp

theorem DirSound.mem_own (sound : DirSound boot before pd tables m known) :
    page ∈ ownPages pd tables ↔ page = pd ∨ ∃ index, tables index = some page := by
  rw [ownPages, List.mem_append, List.mem_filterMap, List.mem_singleton, or_comm]
  constructor
  · rintro (same | ⟨index, -, table⟩)
    · exact Or.inl same
    · exact Or.inr ⟨index, table⟩
  · rintro (same | ⟨index, table⟩)
    · exact Or.inl same
    · exact Or.inr ⟨index, List.mem_range.mpr (sound.table table).1, table⟩

theorem ownPages_append (pd : Word) (tables : Nat → Option Word) (rest : List Word) :
    ownPages pd tables ++ rest = (List.range 768).filterMap tables ++ pd :: rest := by
  rw [ownPages, List.append_assoc, List.singleton_append]

theorem DirSound.own_perm (sound : DirSound boot before pd tables m known) :
    m.used.Perm (ownPages pd tables ++ before.used) := by
  rw [ownPages_append]
  exact sound.used

theorem DirSound.own_used (sound : DirSound boot before pd tables m known)
    (own : page ∈ ownPages pd tables) : page ∈ m.used :=
  sound.own_perm.mem_iff.mpr (List.mem_append_left _ own)

/-- What was in use before belongs to somebody else. -/
theorem DirSound.not_own_before (sound : DirSound boot before pd tables m known)
    (used : page ∈ before.used) : page ∉ ownPages pd tables := by
  intro own
  have once := sound.own_perm.nodup_iff.mp sound.usedOnce
  exact (List.nodup_append.mp once).2.2 page own page used rfl

/-- The same directory after its surroundings have changed. -/
theorem DirSound.rebase (sound : DirSound boot before pd tables m known)
    (own : ∀ page ∈ ownPages pd tables, after.word page = m.word page)
    (kernel : ∀ index, 768 ≤ index → m.word pd index = after.word boot.initPageDir index)
    (active : after.cr3 < physBase) (once : after.used.Nodup)
    (used : ∀ page ∈ ownPages pd tables, page ∈ after.used) :
    DirSound boot (after.without (ownPages pd tables)) pd tables after known := by
  have directory : after.word pd = m.word pd := own pd (sound.mem_own.mpr (Or.inl rfl))
  have table : ∀ {index pt}, tables index = some pt → after.word pt = m.word pt :=
    fun found => own _ (sound.mem_own.mpr (Or.inr ⟨_, found⟩))
  have ownOnce := (List.nodup_append.mp (sound.own_perm.nodup_iff.mp sound.usedOnce)).1
  exact
    { valid := sound.valid
      notInit := sound.notInit
      active := active
      kernel := fun index high => by
        rw [directory]
        exact kernel index high
      missing := fun small none => by
        rw [directory]
        exact sound.missing small none
      table := fun found => by
        rw [directory]
        exact sound.table found
      apart := sound.apart
      entries := fun found small => by
        rw [table found]
        exact sound.entries found small
      unknown := sound.unknown
      frames := sound.frames
      outside := fun _ _ => rfl
      used := by
        have parts : after.used.Perm (ownPages pd tables ++
            after.used.filter fun page => !(ownPages pd tables).contains page) := by
          apply (List.perm_ext_iff_of_nodup once ?_).mpr
          · intro page
            rw [List.mem_append, mem_without]
            constructor
            · intro inUse
              by_cases mine : page ∈ ownPages pd tables
              · exact Or.inl mine
              · exact Or.inr ⟨inUse, mine⟩
            · rintro (mine | other)
              · exact used page mine
              · exact other.1
          · apply List.nodup_append.mpr
            refine ⟨ownOnce, once.filter _, ?_⟩
            intro page mine other member same
            rw [← same] at member
            exact (mem_without.mp member).2 mine
        rw [ownPages_append] at parts
        exact parts
      usedOnce := once }

end Own

section Calls

variable {boot : Boot} {m after : Machine} {pd : Word}

theorem invalidate_cr3 (valid : IsPage pd)
    (done : m.invalidatePagedir boot pd = some after) : after.cr3 = m.cr3 := by
  obtain ⟨active, isActive, done⟩ := Option.bind_eq_some_iff.mp done
  by_cases same : active = pd
  · have place : m.cr3 + physBase = pd := by
      rw [ptov] at isActive
      obtain ⟨-, isActive⟩ := Option.ite_none_right_eq_some.mp isActive
      rw [← same]
      exact Option.some.inj isActive
    rw [if_pos same, Machine.pagedirActivate, if_neg valid.ne_zero,
      vtop_eq valid.2, Option.map_some, Option.some.injEq] at done
    rw [← done]
    change pd - physBase = m.cr3
    rw [← place, BitVec.add_sub_cancel]
  · rw [if_neg same, Option.some.injEq] at done
    rw [done]

theorem lookupPage_cr3 {va : Word} {create : Bool} {grant : Option Word}
    {found : Option (Word × Nat)} (done : m.lookupPage pd va create grant = some (found, after)) :
    after.cr3 = m.cr3 := by
  have entry : ∀ {now : Machine}, now.entryAt pd va = some (found, after) →
      after.cr3 = now.cr3 := by
    intro now done
    obtain ⟨pt, -, same⟩ := Option.map_eq_some_iff.mp done
    cases same
    rfl
  rw [Machine.lookupPage.eq_def] at done
  split at done
  · cases done
  · split at done
    · cases done
    · split at done
      · split at done
        · cases grant with
          | none =>
              cases done
              rfl
          | some pt =>
              obtain ⟨pde, -, done⟩ := Option.bind_eq_some_iff.mp done
              exact (entry done).trans rfl
        · cases done
          rfl
      · exact entry done

theorem setPage_cr3 {upage kpage : Word} {writable result : Bool} {grant : Option Word}
    (done : m.pagedirSetPage boot pd upage kpage writable grant =
      some (result, after)) : after.cr3 = m.cr3 := by
  rw [Machine.pagedirSetPage] at done
  obtain ⟨⟨found, middle⟩, looked, done⟩ : ∃ found,
      m.lookupPage pd upage true grant = some found ∧ _ := by
    split at done
    · cases done
    · split at done
      · cases done
      · split at done
        · cases done
        · split at done
          · cases done
          · split at done
            · cases done
            · exact Option.bind_eq_some_iff.mp done
  have kept := lookupPage_cr3 looked
  cases found with
  | none =>
      cases done
      exact kept
  | some place =>
      dsimp only at done
      split at done
      · cases done
      · obtain ⟨pte, -, same⟩ := Option.map_eq_some_iff.mp done
        cases same
        exact kept

theorem clearPage_cr3 (valid : IsPage pd) {upage : Word}
    (done : m.pagedirClearPage boot pd upage = some after) : after.cr3 = m.cr3 := by
  rw [Machine.pagedirClearPage] at done
  split at done
  · cases done
  · split at done
    · cases done
    · obtain ⟨⟨found, middle⟩, -, done⟩ := Option.bind_eq_some_iff.mp done
      cases found with
      | none =>
          cases done
          rfl
      | some place =>
          dsimp only at done
          split at done
          · exact (invalidate_cr3 valid done).trans rfl
          · cases done
            rfl

theorem setFlag_cr3 (valid : IsPage pd) {flag vpage : Word} {value : Bool}
    (done : m.setFlag boot flag pd vpage value = some after) :
    after.cr3 = m.cr3 := by
  obtain ⟨⟨found, middle⟩, -, done⟩ := Option.bind_eq_some_iff.mp done
  cases found with
  | none =>
      cases done
      rfl
  | some place =>
      dsimp only at done
      split at done
      · cases done
        rfl
      · exact (invalidate_cr3 valid done).trans rfl

/-- No call on a directory changes which one is active. -/
theorem perform_cr3 (valid : IsPage pd) {call : PagedirCall} {reply : PagedirReply}
    (done : call.perform boot pd m = some (reply, after)) : after.cr3 = m.cr3 := by
  cases call with
  | setPage upage kpage writable grant =>
      obtain ⟨⟨result, final⟩, set, same⟩ := Option.map_eq_some_iff.mp done
      cases same
      exact setPage_cr3 set
  | getPage uaddr =>
      obtain ⟨found, -, same⟩ := Option.map_eq_some_iff.mp done
      cases same
      rfl
  | clearPage upage =>
      obtain ⟨final, cleared, same⟩ := Option.map_eq_some_iff.mp done
      cases same
      exact clearPage_cr3 valid cleared
  | isDirty vpage =>
      obtain ⟨value, -, same⟩ := Option.map_eq_some_iff.mp done
      cases same
      rfl
  | setDirty vpage dirty =>
      obtain ⟨final, set, same⟩ := Option.map_eq_some_iff.mp done
      cases same
      exact setFlag_cr3 valid set
  | isAccessed vpage =>
      obtain ⟨value, -, same⟩ := Option.map_eq_some_iff.mp done
      cases same
      rfl
  | setAccessed vpage accessed =>
      obtain ⟨final, set, same⟩ := Option.map_eq_some_iff.mp done
      cases same
      exact setFlag_cr3 valid set

end Calls

section Freeing

variable {m after : Machine} {pages : List Word}

theorem freePage_keeps {page : Word} (freed : m.pallocFreePage page = some after) :
    after.cr3 = m.cr3 ∧ after.used.Sublist m.used ∧
      ∀ other ∈ m.used, other ≠ page → other ∈ after.used := by
  rw [Machine.pallocFreePage] at freed
  split at freed
  · cases freed
  · split at freed
    · cases freed
      exact ⟨rfl, List.Sublist.refl _, fun _ used _ => used⟩
    · obtain ⟨-, freed⟩ := Option.ite_none_right_eq_some.mp freed
      cases freed
      exact ⟨rfl, List.erase_sublist,
        fun _ used different => (List.mem_erase_of_ne different).mpr used⟩

theorem freeAll_keeps (freed : m.freeAll pages = some after) :
    after.cr3 = m.cr3 ∧ after.used.Sublist m.used ∧
      ∀ other ∈ m.used, other ∉ pages → other ∈ after.used := by
  induction pages generalizing m with
  | nil =>
      cases freed
      exact ⟨rfl, List.Sublist.refl _, fun _ used _ => used⟩
  | cons page rest inductionHypothesis =>
      rw [freeAll_cons, Option.bind_eq_some_iff] at freed
      obtain ⟨middle, first, remainder⟩ := freed
      obtain ⟨cr3, used, kept⟩ := freePage_keeps first
      obtain ⟨restCr3, restUsed, restKept⟩ := inductionHypothesis remainder
      refine ⟨restCr3.trans cr3, restUsed.trans used, ?_⟩
      intro other inUse outside
      rw [List.mem_cons, not_or] at outside
      exact restKept other (kept other inUse outside.1) outside.2

end Freeing

/-! ## The invariant -/

/-- The directories of the processes and that of the kernel have their pages to
themselves. -/
structure DirectoriesInvariant (text : KernelText) (boot : Boot)
    (kernelTables : List Word) (tables : Nat → Nat → Option Word)
    (st : DirectoriesState) : Prop where
  mapped : KernelTables text boot.initRamPages boot.initPageDir kernelTables st.machine
  kernelUsed : ∀ page ∈ boot.initPageDir :: kernelTables, page ∈ st.machine.used
  user : ∀ index, index < 768 → st.machine.word boot.initPageDir index = 0#32
  once : st.machine.used.Nodup
  active : st.machine.cr3 = boot.initPageDir - physBase ∨
    ∃ number directory, st.directory number = some directory ∧
      st.machine.cr3 = directory.pd - physBase
  fresh : ∀ number, st.count ≤ number → st.directory number = none
  sound : ∀ number directory, st.directory number = some directory →
    DirSound boot
      (st.machine.without (ownPages directory.pd (tables number)))
      directory.pd (tables number) st.machine (entryOf directory.events)
  kernelApart : ∀ number directory, st.directory number = some directory →
    ∀ page ∈ boot.initPageDir :: kernelTables, page ∉ ownPages directory.pd (tables number)
  apart : ∀ number directory other otherDirectory,
    st.directory number = some directory →
    st.directory other = some otherDirectory → number ≠ other →
    ∀ page ∈ ownPages directory.pd (tables number), page ∉ ownPages otherDirectory.pd (tables other)

section Steps

variable {text : KernelText} {boot : Boot} {kernelTables : List Word}
variable {tables : Nat → Nat → Option Word} {st target : DirectoriesState}

namespace DirectoriesInvariant

theorem low (invariant : DirectoriesInvariant text boot kernelTables tables st) :
    st.machine.cr3 < physBase := by
  have small : ∀ {page : Word}, IsPage page → page - physBase < physBase := by
    intro page valid
    have physical := toNat_physical valid.2
    have base : physBase.toNat = 3221225472 := rfl
    have bound := page.isLt
    rw [BitVec.lt_def]
    omega
  rcases invariant.active with kernel | ⟨number, directory, live, active⟩
  · rw [kernel]
    exact small (invariant.mapped.pages _ List.mem_cons_self)
  · rw [active]
    exact small (invariant.sound number directory live).valid

theorem init_word (invariant : DirectoriesInvariant text boot kernelTables tables st)
    {number : Nat} {directory : UserDirectory}
    (live : st.directory number = some directory) {index : Nat} (high : 768 ≤ index) :
    st.machine.word directory.pd index = st.machine.word boot.initPageDir index :=
  (invariant.sound number directory live).kernel index high

theorem own_used (invariant : DirectoriesInvariant text boot kernelTables tables st)
    {number : Nat} {directory : UserDirectory}
    (live : st.directory number = some directory) {page : Word}
    (own : page ∈ ownPages directory.pd (tables number)) :
    page ∈ st.machine.used :=
  (invariant.sound number directory live).own_used own

/-- A directory in a memory that agrees on its pages and on that of the kernel. -/
theorem directory_kept
    (invariant : DirectoriesInvariant text boot kernelTables tables st)
    {number : Nat} {directory : UserDirectory} {after : Machine}
    (live : st.directory number = some directory)
    (own : ∀ page ∈ ownPages directory.pd (tables number), after.word page = st.machine.word page)
    (kernel : after.word boot.initPageDir = st.machine.word boot.initPageDir)
    (active : after.cr3 < physBase) (once : after.used.Nodup)
    (used : ∀ page ∈ ownPages directory.pd (tables number), page ∈ after.used) :
    DirSound boot (after.without (ownPages directory.pd (tables number)))
      directory.pd (tables number) after (entryOf directory.events) := by
  apply (invariant.sound number directory live).rebase own _ active once used
  intro index high
  rw [kernel]
  exact invariant.init_word live high

theorem mapped_kept
    (invariant : DirectoriesInvariant text boot kernelTables tables st) {after : Machine}
    (same : ∀ page ∈ boot.initPageDir :: kernelTables, after.word page = st.machine.word page) :
    KernelTables text boot.initRamPages boot.initPageDir kernelTables after := by
  have mapped := invariant.mapped
  have directory := same boot.initPageDir List.mem_cons_self
  exact
    { pages := mapped.pages
      enough := mapped.enough
      few := mapped.few
      directory := fun index high => by
        rw [directory]
        exact mapped.directory index high
      entries := fun number pt known place inside => by
        rw [same pt (List.mem_cons_of_mem _ (List.mem_of_getElem? known))]
        exact mapped.entries number pt known place inside }

/-- A page in no directory is none of the kernel's and of no process's. -/
theorem ordinary_apart
    (invariant : DirectoriesInvariant text boot kernelTables tables st) {page : Word}
    (ordinary : st.ordinary boot page = true) :
    page ∉ boot.initPageDir :: kernelTables ∧
      ∀ number directory, st.directory number = some directory →
        page ∉ ownPages directory.pd (tables number) := by
  rw [DirectoriesState.ordinary, Bool.and_eq_true, List.all_eq_true] at ordinary
  obtain ⟨notKernel, notOwn⟩ := ordinary
  -- a page table is found in its directory
  have found : ∀ {pd pt index}, IsPage pt → index < 1024 →
      st.machine.word pd index = tableEntry pt →
      inDirectory st.machine pd pt = true := by
    intro pd pt index valid inside entry
    have got : pdeGetPt (st.machine.word pd index) = some pt := by
      rw [entry]
      exact pdeGetPt_created valid
    simp only [inDirectory, Bool.or_eq_true, List.any_eq_true, decide_eq_true_eq]
    exact Or.inr ⟨index, List.mem_range.mpr inside, got⟩
  constructor
  · intro member
    rcases List.mem_cons.mp member with same | table
    · rw [same] at notKernel
      simp [inDirectory] at notKernel
    · obtain ⟨number, known⟩ := List.mem_iff_getElem?.mp table
      have bound := (List.getElem?_eq_some_iff.mp known).1
      have few := invariant.mapped.few
      have entry : st.machine.word boot.initPageDir (768 + number) = tableEntry page := by
        rw [invariant.mapped.directory _ (Nat.le_add_right _ _), Nat.add_sub_cancel_left, known]
        rfl
      have inside := found (invariant.mapped.pages page member) (by omega) entry
      rw [inside] at notKernel
      exact Bool.false_ne_true notKernel
  · intro number directory live own
    have early : number < st.count := by
      by_contra late
      rw [invariant.fresh number (Nat.not_lt.mp late)] at live
      cases live
    have sound := invariant.sound number directory live
    have outside := notOwn number (List.mem_range.mpr early)
    rw [live] at outside
    have inside : inDirectory st.machine directory.pd page = true := by
      rcases sound.mem_own.mp own with same | ⟨index, table⟩
      · simp [inDirectory, same]
      · obtain ⟨small, valid, -, entry⟩ := sound.table table
        exact found valid (Nat.lt_trans small (by decide)) entry
    simp [inside] at outside

/-- A move that leaves the pages of all directories alone. -/
theorem keep (invariant : DirectoriesInvariant text boot kernelTables tables st) {after : Machine}
    (kernel : ∀ page ∈ boot.initPageDir :: kernelTables,
      after.word page = st.machine.word page ∧ page ∈ after.used)
    (own : ∀ number directory, st.directory number = some directory →
      ∀ page ∈ ownPages directory.pd (tables number),
        after.word page = st.machine.word page ∧ page ∈ after.used)
    (once : after.used.Nodup)
    (active : after.cr3 = boot.initPageDir - physBase ∨
      ∃ number directory, st.directory number = some directory ∧
        after.cr3 = directory.pd - physBase)
    (low : after.cr3 < physBase) :
    DirectoriesInvariant text boot kernelTables tables
      { st with machine := after } where
  mapped := invariant.mapped_kept fun page member => (kernel page member).1
  kernelUsed := fun page member => (kernel page member).2
  user := fun index small => by
    change after.word boot.initPageDir index = 0#32
    rw [(kernel _ List.mem_cons_self).1]
    exact invariant.user index small
  once := once
  active := active
  fresh := invariant.fresh
  sound := fun number directory live =>
    invariant.directory_kept live
      (fun page member => (own number directory live page member).1)
      (kernel _ List.mem_cons_self).1 low once
      (fun page member => (own number directory live page member).2)
  kernelApart := invariant.kernelApart
  apart := invariant.apart

theorem booted (invariant : DirectoriesInvariant text boot kernelTables tables st) :
    Booted boot st.machine where
  valid := invariant.mapped.pages _ List.mem_cons_self
  directory := invariant.kernelUsed _ List.mem_cons_self
  tables := by
    intro index pt high present
    rw [invariant.mapped.directory index high] at present
    cases known : kernelTables[index - 768]? with
    | none =>
        rw [known] at present
        cases present
    | some other =>
        have member := List.mem_cons_of_mem boot.initPageDir (List.mem_of_getElem? known)
        have same : pdeGetPt (tableEntry other) = some other :=
          pdeGetPt_created (invariant.mapped.pages other member)
        rw [known] at present
        have equal : other = pt := Option.some.inj (same.symm.trans present)
        exact equal ▸ invariant.kernelUsed other member
  user := invariant.user
  active := invariant.low
  usedOnce := invariant.once

/-- A directory joins the others, or takes the place of one of them. -/
theorem replace (invariant : DirectoriesInvariant text boot kernelTables tables st)
    (directory : UserDirectory) {after : Machine} {number count : Nat} {table : Nat → Option Word}
    (kernel : ∀ page ∈ boot.initPageDir :: kernelTables,
      after.word page = st.machine.word page ∧ page ∈ after.used ∧
        page ∉ ownPages directory.pd table)
    (others : ∀ other otherDirectory, other ≠ number →
      st.directory other = some otherDirectory →
      ∀ page ∈ ownPages otherDirectory.pd (tables other),
        after.word page = st.machine.word page ∧ page ∈ after.used ∧
          page ∉ ownPages directory.pd table)
    (once : after.used.Nodup) (cr3 : after.cr3 = st.machine.cr3)
    (same : ∀ old, st.directory number = some old → old.pd = directory.pd)
    (fresh : number < count ∧ st.count ≤ count) {before : Machine}
    (sound : DirSound boot before directory.pd table after (entryOf directory.events))
    (high : ∀ index, 768 ≤ index →
      after.word directory.pd index = st.machine.word boot.initPageDir index) :
    DirectoriesInvariant text boot kernelTables
      (Function.update tables number table)
      { machine := after
        directory := Function.update st.directory number (some directory)
        count := count } := by
  have init := (kernel _ List.mem_cons_self).1
  have low : after.cr3 < physBase := by
    rw [cr3]
    exact invariant.low
  constructor
  · exact invariant.mapped_kept fun page member => (kernel page member).1
  · exact fun page member => (kernel page member).2.1
  · intro index small
    change after.word boot.initPageDir index = 0#32
    rw [init]
    exact invariant.user index small
  · exact once
  · rcases invariant.active with ofKernel | ⟨other, old, live, active⟩
    · exact Or.inl (cr3.trans ofKernel)
    · by_cases here : other = number
      · refine Or.inr ⟨number, directory, Function.update_self _ _ _, ?_⟩
        rw [here] at live
        rw [← same old live]
        exact cr3.trans active
      · refine Or.inr ⟨other, old, ?_, cr3.trans active⟩
        exact (Function.update_of_ne here _ _).trans live
  · intro other late
    have elsewhere : other ≠ number := by
      change count ≤ other at late
      omega
    change Function.update st.directory number _ other = none
    rw [Function.update_of_ne elsewhere]
    exact invariant.fresh other (Nat.le_trans fresh.2 late)
  · intro other otherDirectory live
    change Function.update st.directory number _ other = _ at live
    by_cases here : other = number
    · rw [here, Function.update_self, Option.some.injEq] at live
      rw [here, Function.update_self, ← live]
      apply sound.rebase (fun _ _ => rfl) _ low once (fun _ => sound.own_used)
      intro index isHigh
      rw [init]
      exact high index isHigh
    · rw [Function.update_of_ne here] at live ⊢
      have kept := others other otherDirectory here live
      exact invariant.directory_kept live (fun page own => (kept page own).1) init
        low once (fun page own => (kept page own).2.1)
  · intro other otherDirectory live page member
    change Function.update st.directory number _ other = _ at live
    by_cases here : other = number
    · rw [here, Function.update_self, Option.some.injEq] at live
      rw [here, Function.update_self, ← live]
      exact (kernel page member).2.2
    · rw [Function.update_of_ne here] at live ⊢
      exact invariant.kernelApart other otherDirectory live page member
  · intro first firstDirectory second secondDirectory firstLive secondLive different page own
    change Function.update st.directory number _ first = _ at firstLive
    change Function.update st.directory number _ second = _ at secondLive
    by_cases here : first = number
    · have there : second ≠ number := fun back => different (here.trans back.symm)
      rw [here, Function.update_self] at own firstLive
      rw [Function.update_of_ne there] at secondLive ⊢
      intro foreign
      rw [← Option.some.inj firstLive] at own
      exact (others second secondDirectory there secondLive page foreign).2.2 own
    · rw [Function.update_of_ne here] at own firstLive
      by_cases there : second = number
      · rw [there, Function.update_self] at secondLive ⊢
        rw [← Option.some.inj secondLive]
        exact (others first firstDirectory here firstLive page own).2.2
      · rw [Function.update_of_ne there] at secondLive ⊢
        exact invariant.apart first firstDirectory second secondDirectory firstLive
          secondLive different page own

/-- `pagedir_create`. -/
theorem create (invariant : DirectoriesInvariant text boot kernelTables tables st)
    {grant : Option Word} (moved : st.step boot (.create grant) = some target) :
    ∃ tables, DirectoriesInvariant text boot kernelTables tables target := by
  obtain ⟨may, moved⟩ := Option.ite_none_right_eq_some.mp moved
  cases grant with
  | none =>
      cases moved
      exact ⟨tables, invariant⟩
  | some pd =>
      have granted : Granted st.machine pd := may
      let after := (st.machine.obtain pd).fillPage pd (st.machine.word boot.initPageDir)
      have start : PagedirStart boot st.machine ⟨pd, after, []⟩ := ⟨granted, rfl, rfl⟩
      have sound := start_sound invariant.booted start
      have elsewhere : ∀ page ∈ st.machine.used,
          after.word page = st.machine.word page ∧ page ∈ after.used ∧
            page ∉ ownPages pd fun _ => none := by
        intro page used
        have different : page ≠ pd := fun same => granted.2 (same ▸ used)
        refine ⟨fillPage_word_other _ different, List.mem_cons_of_mem pd used, ?_⟩
        intro own
        rcases sound.mem_own.mp own with same | ⟨index, impossible⟩
        · exact different same
        · cases impossible
      cases moved
      refine ⟨_, invariant.replace ⟨pd, []⟩ ?_ ?_ sound.usedOnce rfl ?_
        ⟨Nat.lt_succ_self _, Nat.le_succ _⟩ sound sound.kernel⟩
      · exact fun page member => elsewhere page (invariant.kernelUsed page member)
      · exact fun other otherDirectory _ live page own =>
          elsewhere page (invariant.own_used live own)
      · intro old live
        rw [invariant.fresh st.count (Nat.le_refl _)] at live
        cases live

/-- A call on a directory. -/
theorem call (invariant : DirectoriesInvariant text boot kernelTables tables st)
    {number : Nat} {call : PagedirCall} (moved : st.step boot (.call number call) = some target) :
    ∃ tables, DirectoriesInvariant text boot kernelTables tables target := by
  obtain ⟨directory, live, moved⟩ := Option.bind_eq_some_iff.mp moved
  obtain ⟨allowed, moved⟩ := Option.ite_none_right_eq_some.mp moved
  have sound := invariant.sound number directory live
  obtain ⟨reply, after, table, performed, kept, -⟩ :=
    perform_sound (s := ⟨directory.pd, st.machine, directory.events⟩) sound allowed
  -- the pages of the others were in use before
  have elsewhere : ∀ page ∈ st.machine.used,
      page ∉ ownPages directory.pd (tables number) →
        after.word page = st.machine.word page ∧ page ∈ after.used ∧
          page ∉ ownPages directory.pd table := by
    intro page used foreign
    have before : page ∈ (st.machine.without
        (ownPages directory.pd (tables number))).used :=
      mem_without.mpr ⟨used, foreign⟩
    have notOwn := kept.not_own_before before
    rw [kept.mem_own, not_or, not_exists] at notOwn
    refine ⟨kept.outside notOwn.1 notOwn.2, ?_, kept.not_own_before before⟩
    exact kept.own_perm.mem_iff.mpr (List.mem_append_right _ before)
  rw [performed] at moved
  cases moved
  refine ⟨_, invariant.replace ⟨directory.pd, directory.events ++ [⟨call, reply⟩]⟩
    ?_ ?_ kept.usedOnce (perform_cr3 sound.valid performed) ?_ ⟨?_, Nat.le_refl _⟩
    kept kept.kernel⟩
  · exact fun page member => elsewhere page (invariant.kernelUsed page member)
      (invariant.kernelApart number directory live page member)
  · exact fun other otherDirectory different otherLive page own =>
      elsewhere page (invariant.own_used otherLive own)
        (invariant.apart other otherDirectory number directory otherLive live different page own)
  · intro old isOld
    rw [live] at isOld
    cases isOld
    rfl
  · by_contra late
    rw [invariant.fresh number (Nat.not_lt.mp late)] at live
    cases live

/-- A directory is gone. -/
theorem remove (invariant : DirectoriesInvariant text boot kernelTables tables st)
    {after : Machine} {number : Nat} {directory : UserDirectory}
    (live : st.directory number = some directory)
    (kernel : ∀ page ∈ boot.initPageDir :: kernelTables,
      after.word page = st.machine.word page ∧ page ∈ after.used)
    (others : ∀ other otherDirectory, other ≠ number →
      st.directory other = some otherDirectory →
      ∀ page ∈ ownPages otherDirectory.pd (tables other),
        after.word page = st.machine.word page ∧ page ∈ after.used)
    (once : after.used.Nodup) (cr3 : after.cr3 = st.machine.cr3)
    (inactive : st.machine.cr3 ≠ directory.pd - physBase) :
    DirectoriesInvariant text boot kernelTables tables
      { st with
        machine := after
        directory := Function.update st.directory number none } := by
  have init := (kernel _ List.mem_cons_self).1
  have low : after.cr3 < physBase := by
    rw [cr3]
    exact invariant.low
  have still : ∀ other otherDirectory,
      Function.update st.directory number none other = some otherDirectory →
        other ≠ number ∧ st.directory other = some otherDirectory := by
    intro other otherDirectory remains
    by_cases here : other = number
    · rw [here, Function.update_self] at remains
      cases remains
    · rw [Function.update_of_ne here] at remains
      exact ⟨here, remains⟩
  constructor
  · exact invariant.mapped_kept fun page member => (kernel page member).1
  · exact fun page member => (kernel page member).2
  · intro index small
    change after.word boot.initPageDir index = 0#32
    rw [init]
    exact invariant.user index small
  · exact once
  · rcases invariant.active with ofKernel | ⟨other, old, otherLive, active⟩
    · exact Or.inl (cr3.trans ofKernel)
    · have different : other ≠ number := by
        intro same
        rw [same, live] at otherLive
        cases otherLive
        exact inactive active
      exact Or.inr ⟨other, old,
        (Function.update_of_ne different _ _).trans otherLive, cr3.trans active⟩
  · intro other late
    by_cases here : other = number
    · rw [here]
      exact Function.update_self _ _ _
    · exact (Function.update_of_ne here _ _).trans (invariant.fresh other late)
  · intro other otherDirectory remains
    obtain ⟨different, otherLive⟩ := still other otherDirectory remains
    have kept := others other otherDirectory different otherLive
    exact invariant.directory_kept otherLive (fun page own => (kept page own).1) init
      low once (fun page own => (kept page own).2)
  · intro other otherDirectory remains
    exact invariant.kernelApart other otherDirectory (still other otherDirectory remains).2
  · intro first firstDirectory second secondDirectory firstRemains secondRemains
    exact invariant.apart first firstDirectory second secondDirectory
      (still first firstDirectory firstRemains).2
      (still second secondDirectory secondRemains).2

/-- `pagedir_destroy`. -/
theorem destroy (invariant : DirectoriesInvariant text boot kernelTables tables st)
    {number : Nat} (moved : st.step boot (.destroy number) = some target) :
    DirectoriesInvariant text boot kernelTables tables target := by
  obtain ⟨directory, live, moved⟩ := Option.bind_eq_some_iff.mp moved
  obtain ⟨⟨inactive, frames⟩, moved⟩ := Option.ite_none_right_eq_some.mp moved
  simp only [DirectoriesState.ownFrames, List.all_eq_true, Bool.and_eq_true,
    List.contains_iff_mem] at frames
  obtain ⟨after, destroyed, same⟩ := Option.map_eq_some_iff.mp moved
  cases same
  have sound := invariant.sound number directory live
  have mapped : ∀ {place frame}, place < 768 * 1024 →
      frameOf (entryOf directory.events place) = some frame →
        frame ∈ mappedFrames directory.events := by
    intro place frame inside found
    exact List.mem_filterMap.mpr ⟨place, List.mem_range.mpr inside, found⟩
  have foreign : DirSound.Foreign
      (st.machine.without (ownPages directory.pd (tables number)))
      (entryOf directory.events) := by
    intro place frame inside found
    obtain ⟨used, ordinary⟩ := frames frame (mapped inside found)
    have notOwn := (invariant.ordinary_apart ordinary).2 number directory live
    exact mem_without.mpr ⟨used, notOwn⟩
  rw [sound.destroy_eq foreign] at destroyed
  obtain ⟨cr3, used, kept⟩ := freeAll_keeps destroyed
  have elsewhere : ∀ page ∈ st.machine.used,
      page ∉ ownPages directory.pd (tables number) →
      (st.ordinary boot page = true → False) →
        after.word page = st.machine.word page ∧ page ∈ after.used := by
    intro page inUse notOwn special
    have outside : page ∉ (List.range 768).flatMap
        (tablePages (tables number) (entryOf directory.events)) ++
          [directory.pd] := by
      intro freed
      rw [(DirSound.tablePages_perm _ _).append_right _ |>.mem_iff, List.append_assoc,
        List.mem_append] at freed
      rcases freed with frame | own
      · exact special (frames page frame).2
      · exact notOwn own
    exact ⟨freeAll_word destroyed outside, kept page inUse outside⟩
  refine invariant.remove live ?_ ?_ (invariant.once.sublist used) cr3 inactive
  · intro page member
    exact elsewhere page (invariant.kernelUsed page member)
      (invariant.kernelApart number directory live page member)
      fun ordinary => (invariant.ordinary_apart ordinary).1 member
  · intro other otherDirectory different otherLive page own
    exact elsewhere page (invariant.own_used otherLive own)
      (invariant.apart other otherDirectory number directory otherLive live different page own)
      fun ordinary =>
        (invariant.ordinary_apart ordinary).2 other otherDirectory otherLive own

/-- The other moves. -/
theorem plain (invariant : DirectoriesInvariant text boot kernelTables tables st) {after : Machine}
    (special : ∀ page ∈ st.machine.used,
      ¬st.ordinary boot page = true → after.word page = st.machine.word page ∧ page ∈ after.used)
    (once : after.used.Nodup) (cr3 : after.cr3 = st.machine.cr3) :
    DirectoriesInvariant text boot kernelTables tables
      { st with machine := after } := by
  refine invariant.keep ?_ ?_ once ?_ ?_
  · intro page member
    exact special page (invariant.kernelUsed page member)
      fun ordinary => (invariant.ordinary_apart ordinary).1 member
  · intro number directory live page own
    exact special page (invariant.own_used live own)
      fun ordinary =>
        (invariant.ordinary_apart ordinary).2 number directory live own
  · rw [cr3]
    exact invariant.active
  · rw [cr3]
    exact invariant.low

/-- `pagedir_activate`. -/
theorem activate (invariant : DirectoriesInvariant text boot kernelTables tables st)
    {number : Option Nat} (moved : st.step boot (.activate number) = some target) :
    DirectoriesInvariant text boot kernelTables tables target := by
  obtain ⟨pd, found, moved⟩ := Option.bind_eq_some_iff.mp moved
  obtain ⟨after, activated, same⟩ := Option.map_eq_some_iff.mp moved
  cases same
  have valid := invariant.mapped.pages _ List.mem_cons_self
  -- the directory that becomes active
  have chosen : ∃ page, IsPage page ∧
      after = { st.machine with cr3 := page - physBase } ∧
        (page = boot.initPageDir ∨ ∃ number directory,
          st.directory number = some directory ∧ page = directory.pd) := by
    cases number with
    | none =>
        cases found
        rw [Machine.pagedirActivate, if_pos rfl, vtop_eq valid.2] at activated
        cases activated
        exact ⟨_, valid, rfl, Or.inl rfl⟩
    | some number =>
        obtain ⟨directory, live, same⟩ := Option.map_eq_some_iff.mp found
        have page := (invariant.sound number directory live).valid
        rw [← same, Machine.pagedirActivate, if_neg page.ne_zero, vtop_eq page.2] at activated
        cases activated
        exact ⟨_, page, rfl, Or.inr ⟨number, directory, live, rfl⟩⟩
  obtain ⟨page, isPage, rfl, active⟩ := chosen
  refine invariant.keep ?_ ?_ invariant.once ?_ ?_
  · exact fun page member => ⟨rfl, invariant.kernelUsed page member⟩
  · exact fun number directory live page own =>
      ⟨rfl, invariant.own_used live own⟩
  · rcases active with rfl | ⟨number, directory, live, rfl⟩
    · exact Or.inl rfl
    · exact Or.inr ⟨number, directory, live, rfl⟩
  · have physical := toNat_physical isPage.2
    have base : physBase.toNat = 3221225472 := rfl
    have bound := page.isLt
    change page - physBase < physBase
    rw [BitVec.lt_def]
    omega

theorem step (invariant : DirectoriesInvariant text boot kernelTables tables st)
    {move : DirectoriesMove} (moved : st.step boot move = some target) :
    ∃ tables, DirectoriesInvariant text boot kernelTables tables target := by
  cases move with
  | create grant => exact invariant.create moved
  | call number call => exact invariant.call moved
  | activate number => exact ⟨tables, invariant.activate moved⟩
  | destroy number => exact ⟨tables, invariant.destroy moved⟩
  | obtain page =>
      obtain ⟨granted, moved⟩ := Option.ite_none_right_eq_some.mp moved
      cases moved
      refine ⟨tables, invariant.plain ?_ ?_ rfl⟩
      · exact fun other used _ => ⟨rfl, List.mem_cons_of_mem page used⟩
      · exact List.nodup_cons.mpr ⟨granted.2, invariant.once⟩
  | release page =>
      obtain ⟨ordinary, moved⟩ := Option.ite_none_right_eq_some.mp moved
      obtain ⟨after, freed, same⟩ := Option.map_eq_some_iff.mp moved
      cases same
      obtain ⟨cr3, used, kept⟩ := freePage_keeps freed
      refine ⟨tables, invariant.plain ?_ (invariant.once.sublist used) cr3⟩
      intro other inUse special
      have different : other ≠ page := fun same => special (same ▸ ordinary)
      exact ⟨freePage_word freed different, kept other inUse different⟩
  | store page index value =>
      obtain ⟨ordinary, moved⟩ := Option.ite_none_right_eq_some.mp moved
      cases moved
      refine ⟨tables, invariant.plain ?_ invariant.once rfl⟩
      intro other inUse special
      refine ⟨?_, inUse⟩
      funext place
      exact store_word_other fun same => absurd (same ▸ ordinary) special

end DirectoriesInvariant

end Steps

/-! ## All address spaces -/

section Spaces

variable {text : KernelText} {boot : Boot} {kernelTables : List Word}
variable {tables : Nat → Nat → Option Word} {st : DirectoriesState}

/-- What a directory maps below `PHYS_BASE`. -/
theorem DirSound.translate_user {before m : Machine} {pd va : Word}
    {table : Nat → Option Word} {events : List PagedirEvent} {write : Bool}
    (sound : DirSound boot before pd table m (entryOf events)) (user : isUserVaddr va = true) :
    Machine.translate { m with cr3 := pd - physBase } ⟨false, write⟩ va =
      calledMap events write va := by
  have small := (isUserVaddr_iff va).mp user
  have inTable := ptNo_lt va
  rw [calledMap, pgNo_indices]
  let active : Machine := { m with cr3 := pd - physBase }
  cases found : table (pdNo va) with
  | none =>
      have walked : active.translate ⟨false, write⟩ va = none :=
        translate_missing sound.valid rfl (sound.missing small found)
      rw [sound.unknown small found inTable]
      exact walked
  | some pt =>
      obtain ⟨-, valid, -, entry⟩ := sound.table found
      have shows := sound.entries found inTable
      have walked : active.translate ⟨false, write⟩ va =
          if Access.permits ⟨false, write⟩ (m.word pt (ptNo va)) then
            some ((m.word pt (ptNo va) &&& pteAddr) + pgOfs va)
          else none :=
        translate_table sound.valid rfl valid entry
      refine walked.trans ?_
      cases isKnown : entryOf events (pdNo va * 1024 + ptNo va) with
      | none =>
          rw [isKnown] at shows
          have absent : hasFlag (m.word pt (ptNo va)) pteP = false := shows
          simp [Access.permits, absent]
      | some known =>
          rw [isKnown] at shows
          have reads : PageEntry.ofPte (m.word pt (ptNo va)) = known := shows
          have frame : known.frame - physBase = m.word pt (ptNo va) &&& pteAddr := by
            rw [← reads, PageEntry.ofPte_frame, BitVec.add_sub_cancel]
          have present : known.present = hasFlag (m.word pt (ptNo va)) pteP := by
            rw [← reads, PageEntry.ofPte_present]
          have writable : known.writable = hasFlag (m.word pt (ptNo va)) pteW := by
            rw [← reads]
            rfl
          simp [Access.permits, frame, present, writable]

namespace DirectoriesInvariant

/-- Every directory has the tables of the kernel. -/
theorem mapped_in
    (invariant : DirectoriesInvariant text boot kernelTables tables st) {number : Nat}
    {directory : UserDirectory} (live : st.directory number = some directory) :
    KernelTables text boot.initRamPages directory.pd kernelTables st.machine where
  pages := by
    intro page member
    rcases List.mem_cons.mp member with same | table
    · rw [same]
      exact (invariant.sound number directory live).valid
    · exact invariant.mapped.pages page (List.mem_cons_of_mem _ table)
  enough := invariant.mapped.enough
  few := invariant.mapped.few
  directory := by
    intro index high
    rw [invariant.init_word live high]
    exact invariant.mapped.directory index high
  entries := invariant.mapped.entries

theorem directories_sound
    (invariant : DirectoriesInvariant text boot kernelTables tables st) :
    DirectoriesSound text boot st where
  current := by
    intro access va kernel
    rcases invariant.active with active | ⟨number, directory, live, active⟩
    · exact invariant.mapped.translate active kernel
    · exact (invariant.mapped_in live).translate active kernel
  kernel := by
    intro number directory live access va kernel
    have mapped := invariant.mapped_in live
    exact KernelTables.translate
      { pages := mapped.pages
        enough := mapped.enough
        few := mapped.few
        directory := mapped.directory
        entries := mapped.entries } rfl kernel
  user := fun number directory live write va user =>
    (invariant.sound number directory live).translate_user user
  less := by
    intro number directory live write va physical passes
    have mapped := invariant.mapped_in live
    by_cases user : isUserVaddr va = true
    · refine ⟨user, ?_⟩
      rw [← (invariant.sound number directory live).translate_user user]
      exact Machine.translate_less passes
    · have kernel : isKernelVaddr va = true := by
        rw [isKernelVaddr_iff]
        rw [isUserVaddr_iff] at user
        exact Nat.not_lt.mp user
      have refused : (whileActive st directory.pd).translate ⟨true, write⟩ va =
          linearMap text boot.initRamPages ⟨true, write⟩ va :=
        KernelTables.translate
          { pages := mapped.pages
            enough := mapped.enough
            few := mapped.few
            directory := mapped.directory
            entries := mapped.entries } rfl kernel
      rw [refused] at passes
      simp [linearMap] at passes
  calls := by
    intro number directory live call allowed
    obtain ⟨reply, after, table, performed, -⟩ :=
      perform_sound (s := ⟨directory.pd, st.machine, directory.events⟩)
        (invariant.sound number directory live) allowed
    have done : call.perform boot directory.pd st.machine = some (reply, after) := performed
    rw [DirectoriesState.step, live, Option.bind_some, if_pos allowed, done]
    rfl

end DirectoriesInvariant

/-- In every run after `paging_init` the kernel's mapping is in force, and each
address space is what the calls on its own directory say. -/
theorem address_spaces_sound {initRamPages : Nat} {before start : Machine}
    {grants : List Word} (granted : MayGrant before initRamPages grants)
    (ram : initRamPages ≤ 262144)
    (init : pagingInit text initRamPages before grants = some (boot, start))
    (reachable : (directoriesSystem boot start).Reachable st) :
    DirectoriesSound text boot st := by
  obtain ⟨madeBoot, m, kernelTables, run, pages, booted, mapped, used, active⟩ :=
    pagingInit_spec text granted ram
  rw [run, Option.some.injEq, Prod.mk.injEq] at init
  obtain ⟨rfl, rfl⟩ := init
  have invariant : ∃ tables, DirectoriesInvariant text madeBoot kernelTables tables st := by
    refine reachable.invariant
      (fun st => ∃ tables, DirectoriesInvariant text madeBoot kernelTables tables st) ?_ ?_
    · rintro first ⟨machine, directory, count⟩
      have noDirectory : ∀ {number found}, first.directory number = some found →
          False := by
        intro number found live
        rw [directory] at live
        cases live
      refine ⟨fun _ _ => none, ?_⟩
      constructor
      · rw [machine, pages]
        exact mapped
      · intro page member
        rw [machine]
        rcases List.mem_cons.mp member with same | table
        · rw [same]
          exact booted.directory
        · exact (used page table).1
      · rw [machine]
        exact booted.user
      · rw [machine]
        exact booted.usedOnce
      · rw [machine]
        exact Or.inl active
      · intro number _
        rw [directory]
      · exact fun number found live => (noDirectory live).elim
      · exact fun number found live => (noDirectory live).elim
      · exact fun number found other otherFound live => (noDirectory live).elim
    · rintro st move target _ ⟨tables, invariant⟩ moved
      exact invariant.step moved
  obtain ⟨tables, invariant⟩ := invariant
  exact invariant.directories_sound

/-- A machine with one page of memory, before and after `paging_init`. -/
def emptyPage : Machine where
  word := fun _ _ => 0#32
  cr3 := 0xf000#32
  used := []

def onePage : Machine :=
  let directory := (emptyPage.obtain 0xc0001000#32).fillPage 0xc0001000#32 fun _ => 0#32
  let table := (directory.obtain 0xc0002000#32).fillPage 0xc0002000#32 fun _ => 0#32
  { (table.store 0xc0001000#32 768 0x2007#32).store 0xc0002000#32 0 0x3#32 with
    cr3 := 0x1000#32 }

/-- Two processes are made, get the page at different addresses, and the second one is
switched to. -/
def onePageMoves : List DirectoriesMove :=
  [.create (some 0xc0003000#32),
    .call 0 (.setPage 0x08048000#32 0xc0000000#32 true (some 0xc0004000#32)),
    .create (some 0xc0005000#32),
    .activate (some 0),
    .call 1 (.setPage 0x08049000#32 0xc0000000#32 false (some 0xc0006000#32)),
    .activate (some 1)]

theorem onePage_init :
    pagingInit ⟨0xc0000000#32, 0xc0000000#32⟩ 1 emptyPage
        [0xc0001000#32, 0xc0002000#32] =
      some (⟨0xc0001000#32, 1⟩, onePage) := by
  rfl

theorem onePage_runs :
    ((directoriesSystem ⟨0xc0001000#32, 1⟩ onePage).run
      ⟨onePage, fun _ => none, 0⟩ onePageMoves).any (fun st =>
        (st.directory 0).isSome && (st.directory 1).isSome) = true := by
  rfl

theorem onePage_granted : MayGrant emptyPage 1 [0xc0001000#32, 0xc0002000#32] where
  pages := by
    intro page member
    have each : page = 0xc0001000#32 ∨ page = 0xc0002000#32 := by
      simpa using member
    rcases each with rfl | rfl
    · decide
    · decide
  distinct := by decide
  enough := by decide

theorem address_spaces_sound_one_page :
    ∃ st, (directoriesSystem ⟨0xc0001000#32, 1⟩ onePage).run
        ⟨onePage, fun _ => none, 0⟩ onePageMoves = some st ∧
      (st.directory 0).isSome = true ∧ (st.directory 1).isSome = true ∧
      DirectoriesSound ⟨0xc0000000#32, 0xc0000000#32⟩ ⟨0xc0001000#32, 1⟩ st := by
  obtain ⟨st, execution, both⟩ := (Option.any_eq_true _ _).mp onePage_runs
  obtain ⟨first, second⟩ := Bool.and_eq_true_iff.mp both
  have start : (directoriesSystem ⟨0xc0001000#32, 1⟩ onePage).Reachable
      ⟨onePage, fun _ => none, 0⟩ :=
    TransitionSystem.Reachable.initial ⟨rfl, rfl, rfl⟩
  exact ⟨st, execution, first, second,
    address_spaces_sound onePage_granted (by omega) onePage_init (start.of_run execution)⟩

end Spaces

end CS162.Userprog
