import CS162.Userprog.LoadSafety

/-!
# A process and the pages it occupies

When `process_execute` has run `start_process` to its end, the thread has its page.
Once the page directory has been made, the directory, its page tables and the frames
that have been installed are in use as well, whether `load` has succeeded or not: the
failure path frees the process control block and not the page directory in it.
-/

namespace CS162.Userprog

open CS162.Foundation CS162.Filesys Machine

section Kernel

variable {boot : Boot} {m base : Machine}

/-- The kernel is still there when other pages are in use as well. -/
theorem Booted.of_more (booted : Booted boot m)
    (directory : base.word boot.initPageDir = m.word boot.initPageDir)
    (more : ∀ page ∈ m.used, page ∈ base.used) (once : base.used.Nodup)
    (active : base.cr3 = m.cr3) : Booted boot base where
  valid := booted.valid
  directory := more _ booted.directory
  tables := fun index pt large table => by
    rw [directory] at table
    exact more pt (booted.tables index pt large table)
  user := fun index small => by
    rw [directory]
    exact booted.user index small
  active := active ▸ booted.active
  usedOnce := once

end Kernel

/-! ## Before and after `load` -/

namespace Loads

variable {boot : Boot} {base before : Machine} {pd page : Word}
variable {tables : Nat → Option Word}
variable {known : Nat → Option PageEntry} {m : Machine}

theorem all_used (loads : Loads boot base pd [] before tables known m) :
    m.used.Perm ((List.range 768).filterMap tables ++
      pd :: (framesOf known ++ base.used)) := by
  have start := loads.used
  rw [List.nil_append] at start
  exact loads.sound.used.trans ((start.cons pd).append_left _)

/-- A page of the others is freed. -/
theorem free_base (loads : Loads boot base pd [] before tables known m)
    (member : page ∈ base.used) (notInit : page ≠ boot.initPageDir)
    (valid : IsPage page) {after : Machine} (freed : m.pallocFreePage page = some after) :
    Loads boot
      { base.fillPage page fun _ => 0xcccccccc#32 with
        used := base.used.erase page } pd []
      { before.fillPage page fun _ => 0xcccccccc#32 with
        used := before.used.erase page } tables known after := by
  have once := loads.once
  rw [List.nil_append] at once
  have notFrame : page ∉ framesOf known := by
    intro frame
    exact (List.nodup_append.mp once).2.2 page frame page member rfl
  have baseOnce := (List.nodup_append.mp once).2.1
  exact
    { sound := loads.sound.free_page (loads.base_used member) notInit freed valid
      used := by
        have erased := loads.used.erase page
        rw [List.nil_append, List.erase_append_right _ notFrame] at erased
        rw [List.nil_append]
        exact erased
      kept := fun other otherMember => by
        have different : other ≠ page := by
          intro same
          subst same
          exact baseOnce.not_mem_erase otherMember
        have old := loads.kept other (List.mem_of_mem_erase otherMember)
        change (before.fillPage page _).word other = (base.fillPage page _).word other
        rw [fillPage_word_other _ different, fillPage_word_other _ different]
        exact old
      init := (List.mem_erase_of_ne (Ne.symm notInit)).mpr loads.init }

end Loads

/-- Another value in the page directory base register. -/
theorem DirSound.with_cr3 {boot : Boot} {before m : Machine} {pd cr3 : Word}
    {tables : Nat → Option Word} {known : Nat → Option PageEntry}
    (sound : DirSound boot before pd tables m known) (small : cr3 < physBase) :
    DirSound boot before pd tables { m with cr3 := cr3 } known :=
  { sound with active := small }

theorem framesOf_nothing : framesOf (fun _ => none) = [] :=
  List.filterMap_eq_nil_iff.mpr fun _ _ => rfl

/-- The page directory has been made and activated: nothing is mapped. -/
theorem created_loads {boot : Boot} {base machine : Machine} {pd : Word}
    (booted : Booted boot base) (granted : Granted base pd)
    (activated : ((base.pagedirCreate boot (some pd)).2).pagedirActivate boot pd = some machine) :
    Loads boot base pd [] base (fun _ => none) (fun _ => none) machine := by
  have start : PagedirStart boot base
      { pd := pd
        machine := (base.pagedirCreate boot (some pd)).2
        events := [] } := ⟨granted, rfl, rfl⟩
  have sound : DirSound boot base pd (fun _ => none)
      (base.pagedirCreate boot (some pd)).2 (fun _ => none) :=
    start_sound booted start
  have physical : pd - physBase < physBase := by
    have bound := pd.isLt
    have number : physBase.toNat = 3221225472 := rfl
    rw [BitVec.lt_def, toNat_physical granted.1.2, number]
    omega
  rw [Machine.pagedirActivate, if_neg granted.1.ne_zero, vtop_eq granted.1.2,
    Option.map_some, Option.some.injEq] at activated
  subst activated
  refine ⟨sound.with_cr3 physical, ?_, fun _ _ => rfl, booted.directory⟩
  rw [framesOf_nothing]
  exact List.Perm.refl _

theorem created_loading {boot : Boot} {base machine : Machine} {pd : Word}
    (booted : Booted boot base) (granted : Granted base pd)
    (activated : ((base.pagedirCreate boot (some pd)).2).pagedirActivate boot pd =
      some machine) : Loading boot base pd [] machine :=
  ⟨_, _, _, created_loads booted granted activated⟩

/-! ## `process_execute` -/

section Execute

variable {env : ExecEnv} {st : LoadState} {name : List UInt8}

/-- What `palloc_get_page` returns for the page directory. -/
def directoryPage (env : ExecEnv) (st : LoadState) : Option Word :=
  let named := (st.pallocGetPage env false).2
  let created := (named.pallocGetPage env true).2
  env.palloc.get created.calls created.machine.used

/-- A thread with its page and a page directory with all that belongs to it, beside
the pages that were in use before. -/
def Occupies (env : ExecEnv) (st : LoadState) (thread pd : Word) (m : Machine) :
    Prop :=
  ∃ base, base.used = thread :: st.machine.used ∧ Booted env.boot base ∧
    (∀ page ∈ st.machine.used, base.word page = st.machine.word page) ∧
      Loading env.boot base pd [] m

/-- The pages, the heap and the open inodes are as they were, but for the page of
the thread. -/
def Released (before after : LoadState) (thread : Word) : Prop :=
  after.machine.used.Perm (thread :: before.machine.used) ∧
    after.blocks = before.blocks ∧ after.fs.openInodes = before.fs.openInodes

/-- The state in which the new thread starts. -/
structure ThreadStarts (env : ExecEnv) (st created : LoadState)
    (thread fileName : Word) : Prop where
  named : IsPage fileName
  used : created.machine.used = thread :: fileName :: st.machine.used
  once : created.machine.used.Nodup
  kept : ∀ page ∈ st.machine.used, created.machine.word page = st.machine.word page
  active : created.machine.cr3 = st.machine.cr3
  fs : created.fs = st.fs
  blocks : created.blocks = st.blocks
  directory : directoryPage env st = env.palloc.get created.calls created.machine.used

theorem threadStarts {named created : LoadState} {thread fileName : Word}
    (once : st.machine.used.Nodup) (first : st.pallocGetPage env false = (some fileName, named))
    (second : named.pallocGetPage env true = (some thread, created)) :
    ThreadStarts env st created thread fileName := by
  have directory : directoryPage env st = env.palloc.get created.calls created.machine.used := by
    rw [directoryPage, first]
    dsimp only
    rw [second]
  rw [LoadState.pallocGetPage] at first second
  cases firstGiven : env.palloc.get st.calls st.machine.used with
  | none =>
      rw [firstGiven] at first
      cases first
  | some page =>
      rw [firstGiven] at first
      cases first
      rcases env.palloc.fresh firstGiven with ⟨valid, fresh⟩
      have namedOnce : (fileName :: st.machine.used).Nodup := List.nodup_cons.mpr ⟨fresh, once⟩
      cases secondGiven : env.palloc.get (st.calls + 1)
          (fileName :: st.machine.used) with
      | none =>
          dsimp only [Machine.obtain] at second
          rw [if_neg Bool.false_ne_true] at second
          dsimp only at second
          rw [secondGiven] at second
          cases second
      | some other =>
          dsimp only [Machine.obtain] at second
          rw [if_neg Bool.false_ne_true] at second
          dsimp only at second
          rw [secondGiven] at second
          cases second
          rcases env.palloc.fresh secondGiven with ⟨_, otherFresh⟩
          exact
            { named := valid
              used := rfl
              once := List.nodup_cons.mpr ⟨otherFresh, namedOnce⟩
              kept := fun page member => by
                have different : page ≠ thread := by
                  intro same
                  subst same
                  exact otherFresh (List.mem_cons_of_mem fileName member)
                rw [if_pos rfl]
                exact fillPage_word_other _ different
              active := rfl
              fs := rfl
              blocks := rfl
              directory := directory }

variable {created : LoadState} {thread fileName : Word}

theorem ThreadStarts.booted (starts : ThreadStarts env st created thread fileName)
    (booted : Booted env.boot st.machine) : Booted env.boot created.machine := by
  apply booted.of_more (starts.kept _ booted.directory) ?_ starts.once starts.active
  intro page member
  rw [starts.used]
  exact List.mem_cons_of_mem thread (List.mem_cons_of_mem fileName member)

/-- `start_process` frees the page with the name at its end. -/
theorem ThreadStarts.finish {pd : Word} {m after : Machine}
    (starts : ThreadStarts env st created thread fileName) (booted : Booted env.boot st.machine)
    (loading : Loading env.boot created.machine pd [] m)
    (freed : m.pallocFreePage fileName = some after) :
    Occupies env st thread pd after := by
  rcases loading with ⟨before, tables, known, loads⟩
  have once := starts.once
  rw [starts.used] at once
  rcases List.nodup_cons.mp once with ⟨threadNew, rest⟩
  rcases List.nodup_cons.mp rest with ⟨nameNew, _⟩
  have member : fileName ∈ created.machine.used := by
    rw [starts.used]
    exact List.mem_cons_of_mem thread List.mem_cons_self
  have notInit : fileName ≠ env.boot.initPageDir := by
    intro same
    rw [same] at nameNew
    exact nameNew booted.directory
  have freedLoads := loads.free_base member notInit starts.named freed
  have different : thread ≠ fileName := fun same => threadNew (same ▸ List.mem_cons_self)
  have used : created.machine.used.erase fileName = thread :: st.machine.used := by
    rw [starts.used, List.erase_cons_tail (by simpa using different), List.erase_cons_head]
  have words : ∀ page ∈ st.machine.used,
      (created.machine.fillPage fileName fun _ => 0xcccccccc#32).word page =
        st.machine.word page := by
    intro page inUse
    have other : page ≠ fileName := by
      intro same
      subst same
      exact nameNew inUse
    rw [fillPage_word_other _ other]
    exact starts.kept page inUse
  have baseBooted : Booted env.boot
      { created.machine.fillPage fileName fun _ => 0xcccccccc#32 with
        used := created.machine.used.erase fileName } := by
    apply booted.of_more
    · exact words _ booted.directory
    · intro page inUse
      change page ∈ created.machine.used.erase fileName
      rw [used]
      exact List.mem_cons_of_mem thread inUse
    · exact starts.once.erase fileName
    · exact starts.active
  exact ⟨_, used, baseBooted, words, _, tables, known, freedLoads⟩

/-- What holds when `process_execute` has come to its end. -/
def Outcome (env : ExecEnv) (st : LoadState) (name : List UInt8) : ExecResult → Prop
  | .refused _ => True
  | .failed thread after =>
      (env.mallocPcb = false ∨ directoryPage env st = none) ∧
          Released st after thread ∨
        env.mallocPcb = true ∧
          (∃ pd, directoryPage env st = some pd ∧ Occupies env st thread pd after.machine) ∧
          after.blocks = st.blocks ∧ OpenedClosed env name st.fs after.fs
  | .started thread process after =>
      Occupies env st thread process.pagedir after.machine

/-- The failure path where no page directory has been made. -/
theorem ThreadStarts.released
    (starts : ThreadStarts env st created thread fileName)
    {now after : LoadState} (freed : now.pallocFreePage fileName = some after)
    (machine : now.machine = created.machine)
    (fs : now.fs = created.fs) (blocks : now.blocks = created.blocks) :
    Released st after thread := by
  have once := starts.once
  rw [starts.used] at once
  rcases List.nodup_cons.mp once with ⟨threadNew, _⟩
  have member : fileName ∈ created.machine.used := by
    rw [starts.used]
    exact List.mem_cons_of_mem thread List.mem_cons_self
  have different : thread ≠ fileName := by
    intro same
    rw [same] at threadNew
    exact threadNew List.mem_cons_self
  rcases Option.map_eq_some_iff.mp freed with ⟨later, freedPage, rfl⟩
  rcases freePage_of_used starts.named member with ⟨other, again, used⟩
  rw [machine, again, Option.some.injEq] at freedPage
  subst freedPage
  refine ⟨?_, blocks.trans starts.blocks, congrArg Fs.openInodes (fs.trans starts.fs)⟩
  change other.used.Perm _
  rw [used, starts.used, List.erase_cons_tail (by simpa using different), List.erase_cons_head]

/-- How `start_process` ends. -/
theorem ThreadStarts.startProcess
    (starts : ThreadStarts env st created thread fileName)
    (booted : Booted env.boot st.machine) {result : ExecResult}
    (ran : created.startProcess env thread fileName name = some result) :
    Outcome env st name result := by
  rw [LoadState.startProcess] at ran
  cases pcb : env.mallocPcb with
  | false =>
      rw [pcb, if_neg Bool.false_ne_true] at ran
      rcases Option.map_eq_some_iff.mp ran with ⟨after, freed, rfl⟩
      exact Or.inl ⟨Or.inl pcb, starts.released freed rfl rfl rfl⟩
  | true =>
      rw [pcb, if_pos rfl] at ran
      rcases Option.bind_eq_some_iff.mp ran with ⟨loaded, load, rest⟩
      rw [LoadState.load] at load
      dsimp only at load
      cases given : env.palloc.get created.calls created.machine.used with
      | none =>
          have denied := starts.directory.trans given
          rw [given, Option.some.injEq] at load
          subst load
          rcases Option.map_eq_some_iff.mp rest with ⟨after, freed, rfl⟩
          refine Or.inl ⟨Or.inr denied, starts.released freed rfl rfl ?_⟩
          exact List.erase_cons_head HeapBlock.pcb created.blocks
      | some pd =>
          have directory := starts.directory.trans given
          have granted := env.palloc.fresh given
          rw [given] at load
          rcases Option.bind_eq_some_iff.mp load with ⟨machine, activated, load⟩
          rcases Option.map_eq_some_iff.mp load with ⟨⟨entry, now⟩, into, rfl⟩
          have fresh := created_loading (starts.booted booted) granted activated
          rcases loadInto_keeps fresh into with ⟨kept, blocks, closed⟩
          cases entry with
          | none =>
              rcases Option.map_eq_some_iff.mp rest with ⟨after, freed, rfl⟩
              rcases Option.map_eq_some_iff.mp freed with ⟨later, freedPage, rfl⟩
              refine Or.inr ⟨pcb, ⟨pd, directory, starts.finish booted kept freedPage⟩, ?_, ?_⟩
              · change now.blocks.erase .pcb = st.blocks
                rw [blocks]
                exact (List.erase_cons_head HeapBlock.pcb created.blocks).trans starts.blocks
              · rw [← starts.fs]
                exact closed
          | some entry =>
              rcases Option.map_eq_some_iff.mp rest with ⟨after, freed, rfl⟩
              rcases Option.map_eq_some_iff.mp freed with ⟨later, freedPage, rfl⟩
              exact starts.finish booted kept freedPage

theorem processExecute_outcome (booted : Booted env.boot st.machine)
    {result : ExecResult} (ran : st.processExecute env name = some result) :
    Outcome env st (name.take (pgSize - 1)) result := by
  rw [LoadState.processExecute] at ran
  rcases first : st.pallocGetPage env false with ⟨found, named⟩
  rw [first] at ran
  cases found with
  | none =>
      cases ran
      trivial
  | some fileName =>
      dsimp only at ran
      rcases second : named.pallocGetPage env true with ⟨found, created⟩
      rw [second] at ran
      cases found with
      | none =>
          rcases Option.map_eq_some_iff.mp ran with ⟨_, _, rfl⟩
          trivial
      | some thread =>
          exact (threadStarts booted.usedOnce first second).startProcess booted ran

/-- What a process occupies is more than the page of its thread. -/
theorem Occupies.more {thread pd : Word} {m : Machine} (occupies : Occupies env st thread pd m) :
    ¬m.used.Perm (thread :: st.machine.used) := by
  intro same
  rcases occupies with ⟨base, used, _, _, before, tables, known, loads⟩
  have length := loads.all_used.length_eq
  rw [same.length_eq, List.length_append, List.length_cons, List.length_cons,
    List.length_append, used, List.length_cons] at length
  omega

/-- When `start_process` fails, everything has been released exactly if the failure
came before there was a page directory. -/
theorem failed_exec_released_iff (booted : Booted env.boot st.machine)
    {thread : Word} {after : LoadState}
    (ran : st.processExecute env name = some (.failed thread after)) :
    Released st after thread ↔ env.mallocPcb = false ∨ directoryPage env st = none := by
  rcases processExecute_outcome booted ran with
    ⟨early, released⟩ | ⟨pcb, ⟨pd, directory, occupies⟩, _⟩
  · exact ⟨fun _ => early, fun _ => released⟩
  · constructor
    · intro released
      exact absurd released.1 occupies.more
    · intro early
      rcases early with noMemory | denied
      · rw [pcb] at noMemory
        cases noMemory
      · rw [directory] at denied
        cases denied

/-- The process control block and the file are released by every failure. -/
theorem failed_exec_closes (booted : Booted env.boot st.machine)
    {thread : Word} {after : LoadState} {refs denies : Nat → Nat}
    (ran : st.processExecute env name = some (.failed thread after))
    (counted : Counted st.fs refs denies) (bounded : ∀ sector, denies sector ≤ refs sector) :
    after.blocks = st.blocks ∧ Counted after.fs refs denies := by
  rcases processExecute_outcome booted ran with ⟨_, released⟩ | ⟨_, _, blocks, closed⟩
  · refine ⟨released.2.1, ?_⟩
    unfold Counted
    rw [released.2.2]
    exact counted
  · exact ⟨blocks, closed.counted counted bounded⟩

end Execute

/-! ## Small runs -/

/-- Eight pages, the first one that is not in use at each call. -/
def eightPages : List Word :=
  [0xc0102000#32, 0xc0103000#32, 0xc0104000#32, 0xc0105000#32, 0xc0106000#32,
    0xc0107000#32, 0xc0108000#32, 0xc0109000#32]

def smallAllocator : Allocator where
  get := fun _ used =>
    eightPages.find? fun page => decide (IsPage page) && !used.contains page
  fresh := by
    intro _ used page found
    have passes : (decide (IsPage page) && !used.contains page) = true := by
      have tested := List.find?_some found
      exact tested
    rw [Bool.and_eq_true, decide_eq_true_eq, Bool.not_eq_true',
      ← Bool.not_eq_true, List.contains_iff_mem] at passes
    exact passes

/-- Memory is never short, but perhaps for the process control block. -/
def smallEnv (mallocPcb : Bool) : ExecEnv where
  boot := smallBoot
  palloc := smallAllocator
  mallocPcb := mallocPcb
  mallocs := .plenty
  bounce := always
  closing := always

/-- A root directory without entries. -/
def smallStart : LoadState where
  machine := smallMachine
  fs :=
    { deviceSize := 16
      disk := zeros
      freeMap := { bitCnt := 16, bits := [3#32], sized := by decide }
      freeMapFile := none
      openInodes := []
      stack := zeros }
  blocks := []
  calls := 0

/-- There is no memory for the process control block. -/
theorem failed_exec_released_early : ∃ thread after,
      smallStart.processExecute (smallEnv false) [97] = some (.failed thread after) ∧
        Released smallStart after thread := by
  have failed : ((smallStart.processExecute (smallEnv false) [97]).any fun result =>
      match result with
      | .failed _ _ => true
      | _ => false) = true := by
    decide +kernel
  rcases (Option.any_eq_true _ _).mp failed with ⟨result, ran, isFailed⟩
  cases result with
  | refused _ => cases isFailed
  | started _ _ _ => cases isFailed
  | failed thread after =>
      refine ⟨thread, after, ran, ?_⟩
      exact (failed_exec_released_iff smallMachine_booted ran).mpr (Or.inl rfl)

/-- The file does not exist: the page directory stays in use. -/
theorem missing_file_leaks : ∃ thread after,
      smallStart.processExecute (smallEnv true) [97] = some (.failed thread after) ∧
        after.machine.used.length = smallStart.machine.used.length + 2 ∧
        ¬Released smallStart after thread := by
  have failed : ((smallStart.processExecute (smallEnv true) [97]).any fun result =>
      match result with
      | .failed _ after =>
          after.machine.used.length = smallStart.machine.used.length + 2
      | _ => false) = true := by
    decide +kernel
  rcases (Option.any_eq_true _ _).mp failed with ⟨result, ran, isFailed⟩
  cases result with
  | refused _ => cases isFailed
  | started _ _ _ => cases isFailed
  | failed thread after =>
      have length : after.machine.used.length = smallStart.machine.used.length + 2 :=
        of_decide_eq_true isFailed
      refine ⟨thread, after, ran, length, ?_⟩
      intro released
      have same := released.1.length_eq
      rw [length, List.length_cons] at same
      omega

end CS162.Userprog
