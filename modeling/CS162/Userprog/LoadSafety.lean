import CS162.Filesys.Handles
import CS162.Userprog.PagedirMap
import CS162.Userprog.Process

/-!
# The pages of a process that is loaded

From `pagedir_create` on, the pages in use are those that were in use before, the
directory, its page tables, one frame for each page that is mapped, and the page
that is being filled.  No other page is written to.
-/

namespace CS162.Userprog

open CS162.Foundation CS162.Filesys Machine

/-! ## Pages beside the directory -/

theorem cons_perm_inside (page pd : Word) (front back : List Word) :
    (page :: (front ++ pd :: back)).Perm (front ++ pd :: page :: back) := by
  have first : (page :: (front ++ pd :: back)).Perm (front ++ page :: pd :: back) :=
    List.perm_middle.symm
  exact first.trans ((List.Perm.swap pd page back).append_left front)

namespace DirSound

variable {boot : Boot} {before : Machine} {pd page : Word}
variable {tables : Nat → Option Word} {m : Machine}
variable {known : Nat → Option PageEntry}

/-- Another page is taken into use. -/
theorem obtain_page (sound : DirSound boot before pd tables m known) (fresh : page ∉ m.used) :
    DirSound boot (before.obtain page) pd tables (m.obtain page) known :=
  { valid := sound.valid
    notInit := sound.notInit
    active := sound.active
    kernel := sound.kernel
    missing := sound.missing
    table := sound.table
    apart := sound.apart
    entries := sound.entries
    unknown := sound.unknown
    frames := sound.frames
    outside := sound.outside
    used := by
      have moved := cons_perm_inside page pd ((List.range 768).filterMap tables) before.used
      exact (sound.used.cons page).trans moved
    usedOnce := List.nodup_cons.mpr ⟨fresh, sound.usedOnce⟩ }

/-- A page beside the directory is filled. -/
theorem fill_page (sound : DirSound boot before pd tables m known)
    (beside : page ∈ before.used) (notInit : page ≠ boot.initPageDir) (contents : Nat → Word) :
    DirSound boot (before.fillPage page contents) pd tables
      (m.fillPage page contents) known := by
  rcases sound.not_own beside with ⟨notDirectory, notTable⟩
  have directory : (m.fillPage page contents).word pd = m.word pd :=
    fillPage_word_other contents (Ne.symm notDirectory)
  have tablesKept : ∀ index pt, tables index = some pt →
      (m.fillPage page contents).word pt = m.word pt := by
    intro index pt table
    exact fillPage_word_other contents fun same => notTable index (same ▸ table)
  exact
    { valid := sound.valid
      notInit := sound.notInit
      active := sound.active
      kernel := fun index large => by
        rw [directory, fillPage_word_other contents (Ne.symm notInit)]
        exact sound.kernel index large
      missing := fun small none => by
        rw [directory]
        exact sound.missing small none
      table := fun table => by
        rw [directory]
        exact sound.table table
      apart := sound.apart
      entries := fun table inTable => by
        rw [tablesKept _ _ table]
        exact sound.entries table inTable
      unknown := sound.unknown
      frames := sound.frames
      outside := fun {other} first second => by
        by_cases same : other = page
        · subst same
          funext index
          rw [fillPage_word_same, fillPage_word_same]
        · rw [fillPage_word_other contents same, fillPage_word_other contents same]
          exact sound.outside first second
      used := sound.used
      usedOnce := sound.usedOnce }

/-- A page beside the directory is freed. -/
theorem free_page (sound : DirSound boot before pd tables m known)
    (beside : page ∈ before.used) (notInit : page ≠ boot.initPageDir)
    {after : Machine} (freed : m.pallocFreePage page = some after) (valid : IsPage page) :
    DirSound boot
      { before.fillPage page fun _ => 0xcccccccc#32 with
        used := before.used.erase page } pd tables after known := by
  have filled := sound.fill_page beside notInit fun _ => 0xcccccccc#32
  rcases sound.not_own beside with ⟨notDirectory, notTable⟩
  have inUse : page ∈ m.used := by
    apply sound.used.mem_iff.mpr
    exact List.mem_append_right _ (List.mem_cons_of_mem pd beside)
  rw [Machine.pallocFreePage, if_neg (not_not_intro valid.1), if_neg valid.ne_zero,
    if_pos inUse, Option.some.injEq] at freed
  subst freed
  have notListed : page ∉ (List.range 768).filterMap tables := by
    intro member
    rcases List.mem_filterMap.mp member with ⟨index, _, table⟩
    exact notTable index table
  exact
    { valid := filled.valid
      notInit := filled.notInit
      active := filled.active
      kernel := filled.kernel
      missing := filled.missing
      table := filled.table
      apart := filled.apart
      entries := filled.entries
      unknown := filled.unknown
      frames := filled.frames
      outside := filled.outside
      used := by
        have erased := sound.used.erase page
        rw [List.erase_append_right _ notListed,
          List.erase_cons_tail (by simpa using Ne.symm notDirectory)] at erased
        exact erased
      usedOnce := sound.usedOnce.erase page }

/-- `pagedir_set_page`, when its assertions hold. -/
theorem setPage_of_some (sound : DirSound boot before pd tables m known)
    {upage kpage : Word} {writable done : Bool} {grant : Option Word} {after : Machine}
    (unmapped : frameOf (known (pgNo upage)) = none) (valid : IsPage kpage)
    (granted : MayReturn m grant)
    (set : m.pagedirSetPage boot pd upage kpage writable grant = some (done, after)) :
    isUserVaddr upage = true ∧
      ((done = false ∧ after = m) ∨
        done = true ∧ ∃ tables, DirSound boot before pd tables after
          (Function.update known (pgNo upage) (some
            { frame := kpage
              writable := writable
              dirty := false
              accessed := false
              present := true }))) := by
  have asserted := set
  rw [Machine.pagedirSetPage] at asserted
  by_cases aligned : pgOfs upage ≠ 0#32
  · rw [if_pos aligned] at asserted
    cases asserted
  · rw [if_neg aligned, if_neg (not_not_intro valid.1)] at asserted
    cases user : isUserVaddr upage with
    | false =>
        rw [user, Bool.not_false, if_pos rfl] at asserted
        cases asserted
    | true =>
        rw [user, Bool.not_true, if_neg Bool.false_ne_true] at asserted
        cases ram : (vtop kpage).any
            (fun paddr => decide (pgNo paddr < boot.initRamPages)) with
        | false =>
            rw [ram, Bool.not_false, if_pos rfl] at asserted
            cases asserted
        | true =>
            refine ⟨rfl, ?_⟩
            rcases sound.setPage writable (not_not.mp aligned) user
              unmapped valid ram granted with refused | ⟨later, tables, made, kept⟩
            · rw [refused] at set
              cases set
              exact Or.inl ⟨rfl, rfl⟩
            · rw [made] at set
              cases set
              exact Or.inr ⟨rfl, tables, kept⟩

end DirSound

/-! ## The frames that are mapped -/

/-- The frames of all pages that are mapped, of which this is known. -/
def framesOf (known : Nat → Option PageEntry) : List Word :=
  (List.range (768 * 1024)).filterMap fun number => frameOf (known number)

theorem framesOf_update {known : Nat → Option PageEntry} {number : Nat}
    (entry : PageEntry) (inRange : number < 768 * 1024)
    (new : frameOf (known number) = none) (present : entry.present = true) :
    (framesOf (Function.update known number (some entry))).Perm
      (entry.frame :: framesOf known) := by
  have composed : (fun place => frameOf
      (Function.update known number (some entry) place)) =
        Function.update (fun place => frameOf (known place)) number
          (some entry.frame) := by
    funext place
    by_cases same : place = number
    · subst same
      rw [Function.update_self, Function.update_self]
      simp only [frameOf, Option.bind_some, present, if_true]
    · rw [Function.update_of_ne same, Function.update_of_ne same]
  rw [framesOf, composed]
  exact filterMap_update entry.frame inRange new

theorem pgNo_lt_of_user {va : Word} (user : isUserVaddr va = true) : pgNo va < 768 * 1024 := by
  have directory := (isUserVaddr_iff va).mp user
  have place := ptNo_lt va
  rw [pgNo_indices]
  omega

/-! ## The pages in use -/

/-- A process that is being loaded into a memory where `base` are the pages of
others; `pending` is the page that has been obtained and not yet installed. -/
structure Loads (boot : Boot) (base : Machine) (pd : Word) (pending : List Word)
    (before : Machine) (tables : Nat → Option Word)
    (known : Nat → Option PageEntry) (m : Machine) : Prop where
  sound : DirSound boot before pd tables m known
  used : before.used.Perm (pending ++ (framesOf known ++ base.used))
  kept : ∀ page ∈ base.used, before.word page = base.word page
  init : boot.initPageDir ∈ base.used

/-- What `load` keeps: the tables and frames are some. -/
def Loading (boot : Boot) (base : Machine) (pd : Word) (pending : List Word) (m : Machine) : Prop :=
  ∃ before tables known, Loads boot base pd pending before tables known m

namespace Loads

variable {boot : Boot} {base before : Machine} {pd page : Word}
variable {pending : List Word} {tables : Nat → Option Word}
variable {known : Nat → Option PageEntry} {m : Machine}

theorem once (loads : Loads boot base pd pending before tables known m) :
    (pending ++ (framesOf known ++ base.used)).Nodup := by
  have parts := List.nodup_append.mp loads.sound.allOnce
  exact loads.used.nodup_iff.mp (List.nodup_cons.mp parts.2.1).2

theorem base_used (loads : Loads boot base pd pending before tables known m)
    (member : page ∈ base.used) : page ∈ before.used := by
  apply loads.used.mem_iff.mpr
  exact List.mem_append_right pending (List.mem_append_right _ member)

/-- `palloc_get_page` has returned a page. -/
theorem obtain_page (loads : Loads boot base pd pending before tables known m)
    (fresh : page ∉ m.used) :
    Loads boot base pd (page :: pending) (before.obtain page) tables known
      (m.obtain page) :=
  { sound := loads.sound.obtain_page fresh
    used := loads.used.cons page
    kept := loads.kept
    init := loads.init }

/-- The pending page is filled. -/
theorem fill_page
    (loads : Loads boot base pd (page :: pending) before tables known m) (contents : Nat → Word) :
    Loads boot base pd (page :: pending) (before.fillPage page contents) tables known
      (m.fillPage page contents) := by
  have beside : page ∈ before.used := loads.used.mem_iff.mpr List.mem_cons_self
  have notBase : page ∉ base.used := by
    intro member
    have parts := (List.nodup_cons.mp loads.once).1
    exact parts (List.mem_append_right pending (List.mem_append_right _ member))
  exact
    { sound := loads.sound.fill_page beside
        (fun same => notBase (same ▸ loads.init)) contents
      used := loads.used
      kept := fun other member => by
        have different : other ≠ page := fun same => notBase (same ▸ member)
        rw [fillPage_word_other contents different]
        exact loads.kept other member
      init := loads.init }

/-- The pending page is freed. -/
theorem free_page
    (loads : Loads boot base pd (page :: pending) before tables known m)
    (valid : IsPage page) {after : Machine} (freed : m.pallocFreePage page = some after) :
    Loading boot base pd pending after := by
  have filled := loads.fill_page fun _ => 0xcccccccc#32
  have beside : page ∈ before.used := loads.used.mem_iff.mpr List.mem_cons_self
  have notInit : page ≠ boot.initPageDir := by
    intro same
    have parts := (List.nodup_cons.mp loads.once).1
    apply parts
    rw [same]
    exact List.mem_append_right pending (List.mem_append_right _ loads.init)
  refine ⟨_, tables, known, loads.sound.free_page beside notInit freed valid, ?_, ?_, loads.init⟩
  · have erased := loads.used.erase page
    rw [List.cons_append, List.erase_cons_head] at erased
    exact erased
  · exact filled.kept

/-- The pending page is installed, or `pagedir_set_page` has failed. -/
theorem set_page_known
    (loads : Loads boot base pd [page] before tables known m)
    {upage : Word} {writable done : Bool} {grant : Option Word} {after : Machine}
    (unmapped : frameOf (known (pgNo upage)) = none) (valid : IsPage page)
    (granted : MayReturn m grant)
    (set : m.pagedirSetPage boot pd upage page writable grant = some (done, after)) :
    (done = false ∧ after = m) ∨
      done = true ∧ ∃ tables, Loads boot base pd [] before tables
        (Function.update known (pgNo upage) (some
          { frame := page
            writable := writable
            dirty := false
            accessed := false
            present := true })) after := by
  rcases loads.sound.setPage_of_some unmapped valid granted set with
    ⟨user, refused | ⟨made, tables, kept⟩⟩
  · exact Or.inl refused
  · refine Or.inr ⟨made, tables, kept, ?_, loads.kept, loads.init⟩
    have added := framesOf_update
      { frame := page
        writable := writable
        dirty := false
        accessed := false
        present := true } (pgNo_lt_of_user user) unmapped rfl
    have start := loads.used
    rw [List.singleton_append, ← List.cons_append] at start
    rw [List.nil_append]
    exact start.trans (added.append_right base.used).symm

end Loads

/-! ## The functions of `load` -/

section Functions

variable {env : ExecEnv} {base : Machine} {pd page upage : Word}
variable {fs : Fs} {blocks : List HeapBlock} {pending : List Word}
variable {st after : LoadState} {writable done : Bool} {file later : File}

/-- What the functions of `load` keep: the pages as above, and what is open and
allocated in `fs` and `blocks`. -/
structure LoadKeeps (env : ExecEnv) (base : Machine) (pd : Word) (fs : Fs)
    (blocks : List HeapBlock) (pending : List Word) (st : LoadState) : Prop where
  loading : Loading env.boot base pd pending st.machine
  fs : st.fs = fs
  blocks : st.blocks = blocks

/-- Handles of one file that differ in their positions only. -/
def SameFile (file later : File) : Prop :=
  later.inode = file.inode ∧ later.denyWrite = file.denyWrite

theorem SameFile.refl (file : File) : SameFile file file := ⟨rfl, rfl⟩

theorem SameFile.trans {middle : File} (first : SameFile file middle)
    (second : SameFile middle later) : SameFile file later :=
  ⟨second.1.trans first.1, second.2.trans first.2⟩

theorem mayReturn (env : ExecEnv) (calls : Nat) (m : Machine) :
    MayReturn m (env.palloc.get calls m.used) := by
  cases got : env.palloc.get calls m.used with
  | none => trivial
  | some page => exact env.palloc.fresh got

/-- `install_page` fails where a page is there, and else does what `pagedir_set_page`
does. -/
theorem installPage_cases
    (installed : st.installPage env pd upage page writable = some (done, after)) :
    (done = false ∧ after = st) ∨
      isUserVaddr upage = true ∧ st.machine.pagedirGetPage pd upage = some none ∧
        ∃ machine,
          st.machine.pagedirSetPage env.boot pd upage page writable
            (env.palloc.get st.calls st.machine.used) = some (done, machine) ∧
          after = { st with machine := machine, calls := st.calls + 1 } := by
  rw [LoadState.installPage, Option.bind_eq_some_iff] at installed
  rcases installed with ⟨found, looked, rest⟩
  cases found with
  | some frame =>
      cases rest
      exact Or.inl ⟨rfl, rfl⟩
  | none =>
      rcases Option.map_eq_some_iff.mp rest with ⟨⟨set, machine⟩, setPage, same⟩
      cases same
      have user : isUserVaddr upage = true := by
        by_contra outside
        rw [Bool.not_eq_true] at outside
        rw [Machine.pagedirGetPage, outside] at looked
        cases looked
      exact Or.inr ⟨user, looked, machine, setPage, rfl⟩

theorem installPage_keeps (keeps : LoadKeeps env base pd fs blocks [page] st) (valid : IsPage page)
    (installed : st.installPage env pd upage page writable = some (done, after)) :
    (done = false ∧ LoadKeeps env base pd fs blocks [page] after) ∨
      done = true ∧ LoadKeeps env base pd fs blocks [] after := by
  rcases installPage_cases installed with ⟨failed, rfl⟩ | ⟨user, looked, machine, setPage, rfl⟩
  · exact Or.inl ⟨failed, keeps⟩
  · rcases keeps.loading with ⟨before, tables, known, loads⟩
    have unmapped : frameOf (known (pgNo upage)) = none := by
      rw [loads.sound.getPage user, Option.some.injEq, Option.map_eq_none_iff]
        at looked
      exact looked
    rcases loads.set_page_known unmapped valid (mayReturn env st.calls st.machine)
      setPage with ⟨refused, rfl⟩ | ⟨made, tables, installed⟩
    · exact Or.inl ⟨refused, keeps.loading, keeps.fs, keeps.blocks⟩
    · exact Or.inr ⟨made, ⟨before, tables, _, installed⟩, keeps.fs, keeps.blocks⟩

theorem pallocFreePage_keeps (keeps : LoadKeeps env base pd fs blocks [page] st)
    (valid : IsPage page) (freed : st.pallocFreePage page = some after) :
    LoadKeeps env base pd fs blocks [] after := by
  rcases keeps.loading with ⟨before, tables, known, loads⟩
  rcases Option.map_eq_some_iff.mp freed with ⟨machine, freedPage, rfl⟩
  exact ⟨loads.free_page valid freedPage, keeps.fs, keeps.blocks⟩

theorem installOrFree_keeps (keeps : LoadKeeps env base pd fs blocks [page] st)
    (valid : IsPage page)
    (installed : st.installOrFree env pd upage page writable = some (done, after)) :
    LoadKeeps env base pd fs blocks [] after := by
  rw [LoadState.installOrFree, Option.bind_eq_some_iff] at installed
  rcases installed with ⟨⟨made, middle⟩, tried, rest⟩
  rcases installPage_keeps keeps valid tried with ⟨rfl, pending⟩ | ⟨rfl, settled⟩
  · rw [if_neg Bool.false_ne_true] at rest
    rcases Option.map_eq_some_iff.mp rest with ⟨freed, freedPage, same⟩
    cases same
    exact pallocFreePage_keeps pending valid freedPage
  · rw [if_pos rfl] at rest
    cases rest
    exact settled

theorem fileRead_keeps {buffer result : Memory} {size count : Nat}
    (keeps : LoadKeeps env base pd fs blocks pending st)
    (read : st.fileRead env file buffer size = some (result, count, later, after)) :
    LoadKeeps env base pd fs blocks pending after ∧ SameFile file later := by
  rcases Option.map_eq_some_iff.mp read with ⟨_, _, same⟩
  cases same
  exact ⟨⟨keeps.loading, keeps.fs, keeps.blocks⟩, rfl, rfl⟩

theorem fileSeek_same {pos : Int} (sought : LoadState.fileSeek file pos = some later) :
    SameFile file later := by
  rw [LoadState.fileSeek] at sought
  split at sought
  · cases sought
    exact ⟨rfl, rfl⟩
  · cases sought

/-- The pending page is filled. -/
theorem LoadKeeps.fill (keeps : LoadKeeps env base pd fs blocks [page] st) (contents : Nat → Word) :
    LoadKeeps env base pd fs blocks [page]
      { st with machine := st.machine.fillPage page contents } := by
  rcases keeps.loading with ⟨before, tables, known, loads⟩
  exact ⟨⟨_, tables, known, loads.fill_page contents⟩, keeps.fs, keeps.blocks⟩

theorem pallocGetPage_keeps {zero : Bool} {found : Option Word}
    (keeps : LoadKeeps env base pd fs blocks [] st)
    (got : st.pallocGetPage env zero = (found, after)) :
    match found with
    | none => LoadKeeps env base pd fs blocks [] after
    | some page => IsPage page ∧ LoadKeeps env base pd fs blocks [page] after := by
  rw [LoadState.pallocGetPage] at got
  cases given : env.palloc.get st.calls st.machine.used with
  | none =>
      rw [given] at got
      cases got
      exact ⟨keeps.loading, keeps.fs, keeps.blocks⟩
  | some page =>
      rw [given] at got
      cases got
      rcases env.palloc.fresh given with ⟨valid, fresh⟩
      rcases keeps.loading with ⟨before, tables, known, loads⟩
      have obtained := loads.obtain_page fresh
      cases zero with
      | true =>
          have zeroed := obtained.fill_page fun _ => 0#32
          exact ⟨valid, ⟨_, tables, known, zeroed⟩, keeps.fs, keeps.blocks⟩
      | false => exact ⟨valid, ⟨_, tables, known, obtained⟩, keeps.fs, keeps.blocks⟩

theorem loadPage_keeps {pageReadBytes : Nat} (keeps : LoadKeeps env base pd fs blocks [] st)
    (loaded : st.loadPage env pd file upage pageReadBytes writable = some (done, later, after)) :
    LoadKeeps env base pd fs blocks [] after ∧ SameFile file later := by
  rw [LoadState.loadPage] at loaded
  rcases got : st.pallocGetPage env false with ⟨found, middle⟩
  rw [got] at loaded
  have obtained := pallocGetPage_keeps keeps got
  cases found with
  | none =>
      cases loaded
      exact ⟨obtained, SameFile.refl _⟩
  | some kpage =>
      rcases obtained with ⟨valid, pending⟩
      rcases Option.bind_eq_some_iff.mp loaded with ⟨⟨buffer, count, moved, next⟩, read, rest⟩
      dsimp only at rest
      rcases fileRead_keeps pending read with ⟨readKeeps, same⟩
      have filled := readKeeps.fill fun index =>
        loadWord
          (if count = pageReadBytes then
            buffer.fill pageReadBytes (pgSize - pageReadBytes) 0
          else buffer) (4 * index)
      by_cases short : count ≠ pageReadBytes
      · rw [if_pos short] at rest
        rcases Option.map_eq_some_iff.mp rest with ⟨freed, freedPage, equal⟩
        cases equal
        exact ⟨pallocFreePage_keeps filled valid freedPage, same⟩
      · rw [if_neg short] at rest
        rcases Option.map_eq_some_iff.mp rest with ⟨⟨made, installed⟩, tried, equal⟩
        cases equal
        exact ⟨installOrFree_keeps filled valid tried, same⟩

theorem loadPages_keeps {rounds : Nat} {readBytes zeroBytes : Word}
    (keeps : LoadKeeps env base pd fs blocks [] st)
    (loaded : LoadState.loadPages env pd writable rounds upage readBytes zeroBytes file
      st = some (done, later, after)) :
    LoadKeeps env base pd fs blocks [] after ∧ SameFile file later := by
  induction rounds generalizing upage readBytes zeroBytes file st with
  | zero =>
      cases loaded
      exact ⟨keeps, SameFile.refl _⟩
  | succ rounds inductionHypothesis =>
      rw [LoadState.loadPages] at loaded
      by_cases finished : readBytes = 0#32 ∧ zeroBytes = 0#32
      · rw [if_pos finished] at loaded
        cases loaded
        exact ⟨keeps, SameFile.refl _⟩
      · rw [if_neg finished, Option.bind_eq_some_iff] at loaded
        rcases loaded with ⟨⟨went, moved, middle⟩, page, rest⟩
        rcases loadPage_keeps keeps page with ⟨kept, same⟩
        cases went with
        | true =>
            rcases inductionHypothesis kept rest with ⟨all, remaining⟩
            exact ⟨all, same.trans remaining⟩
        | false =>
            cases rest
            exact ⟨kept, same⟩

theorem loadSegment_keeps {plan : SegmentPlan} (keeps : LoadKeeps env base pd fs blocks [] st)
    (loaded : st.loadSegment env pd file plan = some (done, later, after)) :
    LoadKeeps env base pd fs blocks [] after ∧ SameFile file later := by
  rw [LoadState.loadSegment] at loaded
  split at loaded
  · cases loaded
  · split at loaded
    · cases loaded
    · split at loaded
      · cases loaded
      · rcases Option.bind_eq_some_iff.mp loaded with ⟨moved, sought, pages⟩
        rcases loadPages_keeps keeps pages with ⟨kept, same⟩
        exact ⟨kept, (fileSeek_same sought).trans same⟩

theorem loadHeader_keeps {length : Int} {phdr : Elf32Phdr}
    (keeps : LoadKeeps env base pd fs blocks [] st)
    (loaded : st.loadHeader env pd file length phdr = some (done, later, after)) :
    LoadKeeps env base pd fs blocks [] after ∧ SameFile file later := by
  rw [LoadState.loadHeader] at loaded
  split at loaded
  · cases loaded
    exact ⟨keeps, SameFile.refl _⟩
  · split at loaded
    · cases loaded
      exact ⟨keeps, SameFile.refl _⟩
    · split at loaded
      · exact loadSegment_keeps keeps loaded
      · cases loaded
        exact ⟨keeps, SameFile.refl _⟩

theorem loadHeaders_keeps {count : Nat} {fileOfs : Int}
    (keeps : LoadKeeps env base pd fs blocks [] st)
    (loaded : LoadState.loadHeaders env pd count fileOfs file st = some (done, later, after)) :
    LoadKeeps env base pd fs blocks [] after ∧ SameFile file later := by
  induction count generalizing fileOfs file st with
  | zero =>
      cases loaded
      exact ⟨keeps, SameFile.refl _⟩
  | succ count inductionHypothesis =>
      rw [LoadState.loadHeaders, Option.bind_eq_some_iff] at loaded
      rcases loaded with ⟨length, _, rest⟩
      by_cases outside : fileOfs < 0 ∨ length < fileOfs
      · rw [if_pos outside] at rest
        cases rest
        exact ⟨keeps, SameFile.refl _⟩
      · rw [if_neg outside, Option.bind_eq_some_iff] at rest
        rcases rest with ⟨moved, sought, rest⟩
        rcases Option.bind_eq_some_iff.mp rest with ⟨⟨buffer, number, readFile, next⟩, read, rest⟩
        dsimp only at rest
        rcases fileRead_keeps keeps read with ⟨readKeeps, readSame⟩
        have same := (fileSeek_same sought).trans readSame
        by_cases short : number ≠ phdrSize
        · rw [if_pos short] at rest
          cases rest
          exact ⟨readKeeps, same⟩
        · rw [if_neg short, Option.bind_eq_some_iff] at rest
          rcases rest with ⟨⟨went, headerFile, middle⟩, header, rest⟩
          rcases loadHeader_keeps readKeeps header with ⟨kept, headerSame⟩
          have upTo := same.trans headerSame
          cases went with
          | true =>
              rcases inductionHypothesis kept rest with ⟨all, remaining⟩
              exact ⟨all, upTo.trans remaining⟩
          | false =>
              cases rest
              exact ⟨kept, upTo⟩

theorem setupStack_keeps (keeps : LoadKeeps env base pd fs blocks [] st)
    (loaded : st.setupStack env pd = some (done, after)) :
    LoadKeeps env base pd fs blocks [] after := by
  rw [LoadState.setupStack] at loaded
  rcases got : st.pallocGetPage env true with ⟨found, middle⟩
  rw [got] at loaded
  have obtained := pallocGetPage_keeps keeps got
  cases found with
  | none =>
      cases loaded
      exact obtained
  | some kpage =>
      exact installOrFree_keeps obtained.2 obtained.1 loaded

theorem loadFile_keeps {entry : Option Word} (keeps : LoadKeeps env base pd fs blocks [] st)
    (loaded : st.loadFile env pd file = some (entry, later, after)) :
    LoadKeeps env base pd fs blocks [] after ∧ SameFile file later := by
  rw [LoadState.loadFile, Option.bind_eq_some_iff] at loaded
  rcases loaded with ⟨⟨buffer, number, moved, next⟩, read, rest⟩
  dsimp only at rest
  rcases fileRead_keeps keeps read with ⟨readKeeps, same⟩
  split at rest
  · cases rest
    exact ⟨readKeeps, same⟩
  · rcases Option.bind_eq_some_iff.mp rest with ⟨⟨went, headersFile, middle⟩, headers, rest⟩
    rcases loadHeaders_keeps readKeeps headers with ⟨kept, headersSame⟩
    cases went with
    | true =>
        rw [if_pos rfl] at rest
        rcases Option.map_eq_some_iff.mp rest with ⟨⟨made, stacked⟩, stack, equal⟩
        cases equal
        exact ⟨setupStack_keeps kept stack, same.trans headersSame⟩
    | false =>
        cases rest
        exact ⟨kept, same.trans headersSame⟩

/-- A file has been opened by its name and closed again, or could not be opened. -/
def OpenedClosed (env : ExecEnv) (name : List UInt8) (before after : Fs) : Prop :=
  ∃ opened file, before.filesysOpen name env.mallocs = some (opened, file) ∧
    match file with
    | none => after = opened
    | some file => ∃ later, SameFile file later ∧
        opened.fileClose later env.closing = some after

/-- The open inodes and their counts are the same again. -/
theorem OpenedClosed.counted {name : List UInt8} {before after : Fs}
    (both : OpenedClosed env name before after) {refs denies : Nat → Nat}
    (counted : Counted before refs denies) (bounded : ∀ sector, denies sector ≤ refs sector) :
    Counted after refs denies := by
  rcases both with ⟨opened, file, open_, rest⟩
  have held := (counted.filesysOpen bounded open_).1
  cases file with
  | none =>
      rw [Option.map_none, hold_none] at held
      exact rest ▸ held
  | some file =>
      rcases rest with ⟨later, same, closed⟩
      have clear : file.denyWrite = false := by
        rcases Option.bind_eq_some_iff.mp open_ with ⟨root, _, rest⟩
        rcases Option.bind_eq_some_iff.mp rest with ⟨looked, _, rest⟩
        rcases Option.bind_eq_some_iff.mp rest with ⟨closedDir, _, last⟩
        exact HandlesSound.clear_of_fileOpen last file rfl
      have allowed : opened.fileAllowWrite later = some (opened, later) := by
        rw [Fs.fileAllowWrite, same.2, clear, if_neg Bool.false_ne_true]
      rw [Fs.fileClose, allowed, Option.bind_some] at closed
      dsimp only at closed
      rw [same.1] at closed
      exact (OpenSound.inodeClose held closed).1

/-- `load` closes the file that it has opened: in the end nothing more is on the
heap, and the file system has done an open and a close. -/
theorem loadInto_keeps {entry : Option Word} {name : List UInt8}
    (loading : Loading env.boot base pd [] st.machine)
    (loaded : st.loadInto env pd name = some (entry, after)) :
    Loading env.boot base pd [] after.machine ∧ after.blocks = st.blocks ∧
      OpenedClosed env name st.fs after.fs := by
  rw [LoadState.loadInto, Option.bind_eq_some_iff] at loaded
  rcases loaded with ⟨⟨opened, found⟩, open_, rest⟩
  cases found with
  | none =>
      cases rest
      exact ⟨loading, rfl, opened, none, open_, rfl⟩
  | some file =>
      rcases Option.bind_eq_some_iff.mp rest with ⟨⟨got, later, middle⟩, loaded, rest⟩
      rcases Option.map_eq_some_iff.mp rest with ⟨closed, close, equal⟩
      cases equal
      have keeps : LoadKeeps env base pd opened (.file file.inode :: st.blocks) []
          { st with fs := opened, blocks := .file file.inode :: st.blocks } :=
        ⟨loading, rfl, rfl⟩
      rcases loadFile_keeps keeps loaded with ⟨kept, same⟩
      refine ⟨kept.loading, ?_, opened, some file, open_, later, same, ?_⟩
      · dsimp only
        rw [kept.blocks, same.1, List.erase_cons_head]
      · rw [← kept.fs]
        exact close

end Functions

end CS162.Userprog
