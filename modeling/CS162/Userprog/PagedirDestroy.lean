import CS162.Userprog.PagedirRuns

/-!
# The end of a page directory

`pagedir_destroy` reads the entries of the tables while it frees the pages they
refer to.  Where no frame is a page of the directory itself, what it reads is what
was there, so the pages are freed as if they had been listed first.
-/

namespace CS162.Userprog

open CS162.Foundation Machine

/-! ## Freeing a list of pages -/

/-- The pages of a list are freed one after the other. -/
def Machine.freeAll (m : Machine) (pages : List Word) : Option Machine :=
  pages.foldlM Machine.pallocFreePage m

section Freeing

variable {m after : Machine} {page other : Word} {pages : List Word}

theorem freePage_word (freed : m.pallocFreePage page = some after)
    (different : other ≠ page) : after.word other = m.word other := by
  rw [Machine.pallocFreePage] at freed
  by_cases aligned : pgOfs page ≠ 0#32
  · rw [if_pos aligned] at freed
    cases freed
  · rw [if_neg aligned] at freed
    by_cases null : page = 0#32
    · rw [if_pos null, Option.some.injEq] at freed
      rw [freed]
    · rw [if_neg null] at freed
      by_cases used : page ∈ m.used
      · rw [if_pos used, Option.some.injEq] at freed
        subst freed
        exact fillPage_word_other _ different
      · rw [if_neg used] at freed
        cases freed

theorem freePage_of_used (valid : IsPage page) (used : page ∈ m.used) :
    ∃ after, m.pallocFreePage page = some after ∧
      after.used = m.used.erase page := by
  rw [Machine.pallocFreePage, if_neg (not_not_intro valid.1), if_neg valid.ne_zero, if_pos used]
  exact ⟨_, rfl, rfl⟩

theorem freeAll_cons (m : Machine) (page : Word) (pages : List Word) :
    m.freeAll (page :: pages) = (m.pallocFreePage page).bind fun after => after.freeAll pages :=
  List.foldlM_cons

theorem freeAll_append (m : Machine) (front back : List Word) :
    m.freeAll (front ++ back) = (m.freeAll front).bind fun after => after.freeAll back :=
  List.foldlM_append

theorem freeAll_word (freed : m.freeAll pages = some after)
    (outside : other ∉ pages) : after.word other = m.word other := by
  induction pages generalizing m with
  | nil =>
      cases freed
      rfl
  | cons page rest inductionHypothesis =>
      rw [freeAll_cons, Option.bind_eq_some_iff] at freed
      rcases freed with ⟨middle, first, remainder⟩
      rw [List.mem_cons, not_or] at outside
      rw [inductionHypothesis remainder outside.2]
      exact freePage_word first outside.1

/-- Pages that are in use and listed once are all freed. -/
theorem freeAll_of_used (once : pages.Nodup) (usedOnce : m.used.Nodup)
    (used : ∀ page ∈ pages, IsPage page ∧ page ∈ m.used) :
    ∃ after, m.freeAll pages = some after ∧
      m.used.Perm (pages ++ after.used) := by
  induction pages generalizing m with
  | nil => exact ⟨m, rfl, List.Perm.refl _⟩
  | cons page rest inductionHypothesis =>
      rcases used page List.mem_cons_self with ⟨valid, first⟩
      rcases freePage_of_used valid first with ⟨middle, freed, left⟩
      rcases List.nodup_cons.mp once with ⟨new, restOnce⟩
      have restUsed : ∀ other ∈ rest, IsPage other ∧ other ∈ middle.used := by
        intro other member
        rcases used other (List.mem_cons_of_mem page member) with ⟨otherValid, inUse⟩
        have different : other ≠ page := fun same => new (same ▸ member)
        rw [left]
        exact ⟨otherValid, (List.mem_erase_of_ne different).mpr inUse⟩
      have middleOnce : middle.used.Nodup := left ▸ usedOnce.erase page
      rcases inductionHypothesis restOnce middleOnce restUsed with ⟨after, restFreed, all⟩
      refine ⟨after, ?_, ?_⟩
      · rw [freeAll_cons, freed]
        exact restFreed
      · rw [left] at all
        exact (List.perm_cons_erase first).trans (all.cons page)

end Freeing

/-! ## The loops of `pagedir_destroy` -/

/-- What the loop over a page table reads from an entry. -/
def EntryReads (pte : Word) : Option Word → Prop
  | none => hasFlag pte pteP = false
  | some frame => hasFlag pte pteP = true ∧ pteGetPage pte = some frame

theorem destroyEntries {m : Machine} {pt : Word} {places : List Nat} {frame : Nat → Option Word}
    (reads : ∀ place ∈ places, EntryReads (m.word pt place) (frame place))
    (foreign : ∀ place ∈ places, frame place ≠ some pt) :
    places.foldlM (destroyEntry pt) m = m.freeAll (places.filterMap frame) := by
  induction places generalizing m with
  | nil => rfl
  | cons place rest inductionHypothesis =>
      have read := reads place List.mem_cons_self
      have restForeign : ∀ place ∈ rest, frame place ≠ some pt := by
        intro other member
        exact foreign other (List.mem_cons_of_mem place member)
      rw [List.foldlM_cons]
      cases found : frame place with
      | none =>
          rw [found] at read
          have absent : hasFlag (m.word pt place) pteP = false := read
          have skipped : destroyEntry pt m place = some m := by
            rw [destroyEntry, absent, if_neg Bool.false_ne_true]
          rw [skipped, List.filterMap_cons_none found]
          apply inductionHypothesis _ restForeign
          intro other member
          exact reads other (List.mem_cons_of_mem place member)
      | some page =>
          rw [found] at read
          have step : destroyEntry pt m place = m.pallocFreePage page := by
            rw [destroyEntry, read.1, if_pos rfl, read.2]
            rfl
          rw [step, List.filterMap_cons_some found, freeAll_cons]
          cases freed : m.pallocFreePage page with
          | none => rfl
          | some after =>
              apply inductionHypothesis _ restForeign
              intro other member
              have different : pt ≠ page := by
                intro same
                apply foreign place List.mem_cons_self
                rw [found, same]
              rw [freePage_word freed different]
              exact reads other (List.mem_cons_of_mem place member)

/-- The pages that the loop over the directory frees for one of its entries. -/
def tablePages (tables : Nat → Option Word) (known : Nat → Option PageEntry)
    (index : Nat) : List Word :=
  ((List.range 1024).filterMap fun place => frameOf (known (index * 1024 + place))) ++
    (tables index).toList

namespace DirSound

variable {boot : Boot} {before : Machine} {pd : Word}
variable {tables : Nat → Option Word} {m : Machine}
variable {known : Nat → Option PageEntry}

/-- The frames that are mapped were in use before the directory was made. -/
def Foreign (before : Machine) (known : Nat → Option PageEntry) : Prop :=
  ∀ number frame, number < 768 * 1024 → frameOf (known number) = some frame → frame ∈ before.used

theorem allOnce (sound : DirSound boot before pd tables m known) :
    ((List.range 768).filterMap tables ++ pd :: before.used).Nodup :=
  sound.used.nodup_iff.mp sound.usedOnce

/-- A page that was in use before is neither the directory nor one of its
tables. -/
theorem not_own (sound : DirSound boot before pd tables m known) {page : Word}
    (used : page ∈ before.used) :
    page ≠ pd ∧ ∀ index, tables index ≠ some page := by
  have once := List.nodup_append.mp sound.allOnce
  constructor
  · intro same
    subst same
    exact (List.nodup_cons.mp once.2.1).1 used
  · intro index table
    have listed : page ∈ (List.range 768).filterMap tables :=
      List.mem_filterMap.mpr ⟨index, List.mem_range.mpr (sound.table table).1, table⟩
    exact once.2.2 page listed page (List.mem_cons_of_mem pd used) rfl

theorem entry_reads (sound : DirSound boot before pd tables m known)
    {index place : Nat} {pt : Word} (table : tables index = some pt) (inTable : place < 1024) :
    EntryReads (m.word pt place) (frameOf (known (index * 1024 + place))) := by
  have shows := sound.entries table inTable
  cases isKnown : known (index * 1024 + place) with
  | none =>
      rw [isKnown] at shows
      exact shows
  | some entry =>
      rw [isKnown] at shows
      have present : hasFlag (m.word pt place) pteP = entry.present :=
        congrArg PageEntry.present shows
      have page := sound.pteGetPage_eq isKnown shows
      cases set : entry.present with
      | false =>
          simp only [frameOf, Option.bind_some, set, Bool.false_eq_true, if_false]
          exact present.trans set
      | true =>
          simp only [frameOf, Option.bind_some, set, if_true]
          exact ⟨present.trans set, page⟩

theorem tablePages_missing (sound : DirSound boot before pd tables m known)
    {index : Nat} (small : index < 768) (table : tables index = none) :
    tablePages tables known index = [] := by
  rw [tablePages, table, Option.toList_none, List.append_nil, List.filterMap_eq_nil_iff]
  intro place member
  rw [sound.unknown small table (List.mem_range.mp member)]
  rfl

theorem not_mem_tablePages (sound : DirSound boot before pd tables m known)
    (foreign : Foreign before known) {index : Nat} {page : Word}
    (small : index < 768) (own : page = pd ∨ ∃ other, other ≠ index ∧
      tables other = some page) : page ∉ tablePages tables known index := by
  intro member
  rw [tablePages, List.mem_append] at member
  rcases member with frame | table
  · rcases List.mem_filterMap.mp frame with ⟨place, inTable, mapped⟩
    have bound := List.mem_range.mp inTable
    have inRange : index * 1024 + place < 768 * 1024 := by omega
    have notOwn := sound.not_own (foreign _ page inRange mapped)
    rcases own with same | ⟨other, _, otherTable⟩
    · exact notOwn.1 same
    · exact notOwn.2 other otherTable
  · have isTable := Option.mem_toList.mp table
    rcases own with same | ⟨other, different, otherTable⟩
    · exact (sound.table isTable).2.2.1 same
    · exact different (sound.apart otherTable isTable)

/-- One round of the loop over the directory, in a memory that agrees with the
directory and with the table. -/
theorem destroyTable_eq (sound : DirSound boot before pd tables m known)
    (foreign : Foreign before known) {now : Machine} {index : Nat}
    (small : index < 768) (directory : now.word pd = m.word pd)
    (table : ∀ pt, tables index = some pt → now.word pt = m.word pt) :
    destroyTable pd now index = now.freeAll (tablePages tables known index) := by
  cases found : tables index with
  | none =>
      have absent : hasFlag (now.word pd index) pteP = false := by
        rw [directory, sound.missing small found]
        decide
      rw [destroyTable, absent, if_neg Bool.false_ne_true, sound.tablePages_missing small found]
      rfl
  | some pt =>
      have entry := (sound.table found).2.2.2
      have valid := (sound.table found).2.1
      have words := table pt found
      have rows : (List.range 1024).foldlM (destroyEntry pt) now =
          now.freeAll ((List.range 1024).filterMap fun place =>
            frameOf (known (index * 1024 + place))) := by
        apply destroyEntries
        · intro place member
          rw [words]
          exact sound.entry_reads found (List.mem_range.mp member)
        · intro place member mapped
          have bound := List.mem_range.mp member
          have inRange : index * 1024 + place < 768 * 1024 := by omega
          exact (sound.not_own (foreign _ pt inRange mapped)).2 index found
      have single : ∀ after : Machine, after.pallocFreePage pt = after.freeAll [pt] := by
        intro after
        rw [freeAll_cons]
        exact Option.bind_fun_some _ |>.symm
      rw [destroyTable, directory, entry, tableEntry, created_present, if_pos rfl,
        pdeGetPt_created valid, Option.bind_some, rows, tablePages, found,
        freeAll_append]
      exact congrArg (Option.bind _) (funext single)

theorem destroyTables (sound : DirSound boot before pd tables m known)
    (foreign : Foreign before known) {indices : List Nat} {now : Machine}
    (once : indices.Nodup) (small : ∀ index ∈ indices, index < 768)
    (directory : now.word pd = m.word pd)
    (table : ∀ index ∈ indices, ∀ pt, tables index = some pt → now.word pt = m.word pt) :
    indices.foldlM (destroyTable pd) now =
      now.freeAll (indices.flatMap (tablePages tables known)) := by
  induction indices generalizing now with
  | nil => rfl
  | cons index rest inductionHypothesis =>
      have first := small index List.mem_cons_self
      rcases List.nodup_cons.mp once with ⟨new, restOnce⟩
      rw [List.foldlM_cons, List.flatMap_cons, freeAll_append,
        sound.destroyTable_eq foreign first directory (table index List.mem_cons_self)]
      cases freed : now.freeAll (tablePages tables known index) with
      | none => rfl
      | some after =>
          apply inductionHypothesis restOnce
          · intro other member
            exact small other (List.mem_cons_of_mem index member)
          · rw [freeAll_word freed (sound.not_mem_tablePages foreign first (Or.inl rfl))]
            exact directory
          · intro other member pt otherTable
            have different : other ≠ index := fun same => new (same ▸ member)
            rw [freeAll_word freed (sound.not_mem_tablePages foreign first
              (Or.inr ⟨other, different, otherTable⟩))]
            exact table other (List.mem_cons_of_mem index member) pt otherTable

theorem destroy_eq (sound : DirSound boot before pd tables m known)
    (foreign : Foreign before known) :
    m.pagedirDestroy boot pd =
      m.freeAll ((List.range 768).flatMap (tablePages tables known) ++ [pd]) := by
  have rounds := sound.destroyTables foreign List.nodup_range
    (fun index member => List.mem_range.mp member) (rfl : m.word pd = m.word pd)
    (fun _ _ _ _ => rfl)
  have single : ∀ after : Machine, after.pallocFreePage pd = after.freeAll [pd] := by
    intro after
    rw [freeAll_cons]
    exact Option.bind_fun_some _ |>.symm
  have entries : pdNo physBase = 768 := rfl
  rw [Machine.pagedirDestroy, if_neg sound.valid.ne_zero, if_neg sound.notInit,
    entries, rounds, freeAll_append]
  exact congrArg (Option.bind _) (funext single)

end DirSound

/-! ## What is freed -/

/-- The page tables of a directory. -/
def pageTables (m : Machine) (pd : Word) : List Word :=
  (List.range 768).filterMap fun index => pdeGetPt (m.word pd index)

/-- A range of pages is a range of tables with a range of pages each. -/
theorem filterMap_range_mul {Item : Type} (item : Nat → Option Item) (count width : Nat) :
    (List.range (count * width)).filterMap item = (List.range count).flatMap fun index =>
        (List.range width).filterMap fun place => item (index * width + place) := by
  induction count with
  | zero =>
      rw [Nat.zero_mul]
      rfl
  | succ count inductionHypothesis =>
      rw [Nat.succ_mul, List.range_add, List.filterMap_append, inductionHypothesis,
        List.range_succ, List.flatMap_append, List.flatMap_singleton,
        List.filterMap_map]
      rfl

namespace DirSound

variable {boot : Boot} {before : Machine} {pd : Word}
variable {tables : Nat → Option Word} {m : Machine}
variable {known : Nat → Option PageEntry}

theorem pageTables_eq (sound : DirSound boot before pd tables m known) :
    pageTables m pd = (List.range 768).filterMap tables := by
  apply List.filterMap_congr
  intro index member
  have small := List.mem_range.mp member
  cases table : tables index with
  | none =>
      rw [sound.missing small table]
      rfl
  | some pt =>
      rw [(sound.table table).2.2.2]
      exact pdeGetPt_created (sound.table table).2.1

theorem tablePages_perm (tables : Nat → Option Word) (known : Nat → Option PageEntry) :
    ((List.range 768).flatMap (tablePages tables known)).Perm
      ((List.range (768 * 1024)).filterMap (fun number => frameOf (known number)) ++
        (List.range 768).filterMap tables) := by
  rw [filterMap_range_mul, List.filterMap_eq_flatMap_toList tables]
  exact (List.flatMap_append_perm _ _ _).symm

/-- `pagedir_destroy` frees the frames that are mapped, the page tables and the
directory, where each frame was in use before and is mapped once. -/
theorem destroy (sound : DirSound boot before pd tables m known)
    (once : ((List.range (768 * 1024)).filterMap fun number => frameOf (known number)).Nodup)
    (foreign : Foreign before known) :
    ∃ after, m.pagedirDestroy boot pd = some after ∧
      m.used.Perm ((List.range (768 * 1024)).filterMap
        (fun number => frameOf (known number)) ++ pageTables m pd ++
          pd :: after.used) := by
  have order := (tablePages_perm tables known).append_right [pd]
  have inUse := List.nodup_append.mp sound.allOnce
  have own : ∀ page ∈ (List.range 768).filterMap tables ++ [pd], IsPage page ∧ page ∈ m.used := by
    intro page member
    rw [List.mem_append] at member
    rcases member with table | directory
    · rcases List.mem_filterMap.mp table with ⟨index, _, found⟩
      refine ⟨(sound.table found).2.1, sound.used.mem_iff.mpr ?_⟩
      exact List.mem_append_left _ table
    · rw [List.mem_singleton] at directory
      subst directory
      refine ⟨sound.valid, sound.used.mem_iff.mpr ?_⟩
      exact List.mem_append_right _ List.mem_cons_self
  have frames : ∀ page ∈ (List.range (768 * 1024)).filterMap
      (fun number => frameOf (known number)),
      IsPage page ∧ page ∈ before.used := by
    intro page member
    rcases List.mem_filterMap.mp member with ⟨number, inRange, mapped⟩
    have used := foreign number page (List.mem_range.mp inRange) mapped
    refine ⟨?_, used⟩
    rcases Option.bind_eq_some_iff.mp mapped with ⟨entry, isKnown, present⟩
    by_cases set : entry.present = true
    · rw [if_pos set, Option.some.injEq] at present
      exact present ▸ sound.frames isKnown
    · rw [if_neg set] at present
      cases present
  have ownOnce : ((List.range 768).filterMap tables ++ [pd]).Nodup := by
    apply List.Nodup.sublist _ sound.allOnce
    apply List.Sublist.append_left
    exact List.Sublist.cons_cons pd (List.nil_sublist _)
  have distinct : ((List.range (768 * 1024)).filterMap
      (fun number => frameOf (known number)) ++
        ((List.range 768).filterMap tables ++ [pd])).Nodup := by
    apply List.nodup_append.mpr
    refine ⟨once, ownOnce, ?_⟩
    intro page frame other member same
    subst same
    have notOwn := sound.not_own (frames page frame).2
    rw [List.mem_append] at member
    rcases member with table | directory
    · rcases List.mem_filterMap.mp table with ⟨index, _, found⟩
      exact notOwn.2 index found
    · exact notOwn.1 (List.mem_singleton.mp directory)
  rw [← List.append_assoc] at distinct
  have all : ∀ page ∈ (List.range 768).flatMap (tablePages tables known) ++ [pd],
      IsPage page ∧ page ∈ m.used := by
    intro page member
    have listed := order.mem_iff.mp member
    rw [List.append_assoc, List.mem_append] at listed
    rcases listed with frame | mine
    · refine ⟨(frames page frame).1, sound.used.mem_iff.mpr ?_⟩
      exact List.mem_append_right _ (List.mem_cons_of_mem pd (frames page frame).2)
    · exact own page mine
  rcases freeAll_of_used (order.nodup_iff.mpr distinct) sound.usedOnce all with ⟨after, freed, rest⟩
  refine ⟨after, ?_, ?_⟩
  · rw [sound.destroy_eq foreign]
    exact freed
  · have listed := rest.trans (order.append_right after.used)
    rw [sound.pageTables_eq]
    rw [List.append_assoc _ [pd]] at listed
    exact listed

end DirSound

end CS162.Userprog
