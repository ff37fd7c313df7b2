import CS162.Filesys.FilesysStart
import CS162.Filesys.Handles

/-!
# Runs of the file system

Every call keeps the invariant.  What follows for the free map, for the sectors
of the files and for a call that fails holds in every state that a run reaches.
-/

namespace CS162.Filesys

open CS162.Foundation
open CS162.Kernel
open CS162.Devices (blockSectorSize)

/-- The references of the open files and of the free map file. -/
def fileRefs (files : List File) : Nat → Nat := (Handles.mk files [] []).refs (some freeMapSector)

/-- A handle for a file that is neither the free map nor the directory. -/
def plainFile (file : File) : Prop :=
  file.inode ≠ freeMapSector ∧ file.inode ≠ rootDirSector ∧ file.denyWrite = false

/-- The invariant of a file system with the files that are open. -/
structure RunSound (fs : Fs) (files : List File) : Prop where
  root : RootSound fs (fileRefs files)
  plain : ∀ file ∈ files, plainFile file

/-- What `file_close` does to the free map: the last close of a file that has
been removed frees its sectors. -/
structure MapAfterClose (fs : Fs) (files : List File) (file : File)
    (after : Fs) : Prop where
  keeps :
    named fs.disk rootDirSector rootEntries file.inode ∨
        (∃ other ∈ files.erase file, other.inode = file.inode) →
      after.freeMap = fs.freeMap
  frees :
    ¬named fs.disk rootDirSector rootEntries file.inode →
      (∀ other ∈ files.erase file, other.inode ≠ file.inode) →
        ∀ place,
          after.freeMap.bit place = true ↔
            fs.freeMap.bit place = true ∧ ¬region fs.disk file.inode place

section References

variable {files : List File} {file changed : File}

theorem fileRefs_nil : fileRefs [] = onlyMap := by
  funext sector
  unfold fileRefs Handles.refs onlyMap hold
  simp only [List.countP_nil, List.count_nil]

theorem fileRefs_append (file : Option File) (files : List File) :
    fileRefs (file.toList ++ files) = hold (fileRefs files) (file.map File.inode) :=
  @Handles.refs_addFile ⟨files, [], []⟩ (some freeMapSector) file

theorem fileRefs_erase (member : file ∈ files) :
    fileRefs files = hold (fileRefs (files.erase file)) (some file.inode) := by
  have here : file ∈ (Handles.mk files [] []).files := member
  exact Handles.refs_dropFile (some freeMapSector) here

theorem fileRefs_replace (member : file ∈ files) (same : changed.inode = file.inode) :
    fileRefs (changed :: files.erase file) = fileRefs files := by
  have here : file ∈ (Handles.mk files [] []).files := member
  exact Handles.refs_replace here same

theorem fileRefs_map (files : List File) : 0 < fileRefs files freeMapSector := by
  unfold fileRefs Handles.refs
  rw [if_pos rfl]
  omega

theorem fileRefs_pos (member : file ∈ files) : 0 < fileRefs files file.inode := by
  rw [fileRefs_erase member, hold_self]
  omega

theorem fileRefs_pos_iff {sector : Nat} (notMap : sector ≠ freeMapSector) :
    0 < fileRefs files sector ↔ ∃ other ∈ files, other.inode = sector := by
  constructor
  · intro held
    unfold fileRefs Handles.refs at held
    rw [if_neg (fun same => notMap (Option.some.inj same).symm)] at held
    simp only [List.countP_nil, List.count_nil, Nat.add_zero] at held
    rcases List.countP_pos_iff.mp held with ⟨other, member, same⟩
    exact ⟨other, member, of_decide_eq_true same⟩
  · intro here
    rcases here with ⟨other, member, same⟩
    rw [← same]
    exact fileRefs_pos member

end References

namespace RunSound

variable {fs : Fs} {files : List File} {file : File}

theorem erase (plain : ∀ file ∈ files, plainFile file) (file : File) :
    ∀ other ∈ files.erase file, plainFile other :=
  fun other member => plain other (List.mem_of_mem_erase member)

/-- A file whose position has changed takes the place of the old one. -/
theorem replace {after : Fs} {changed : File} (sound : RunSound fs files)
    (member : file ∈ files) (same : changed.inode = file.inode)
    (allowed : changed.denyWrite = file.denyWrite) (root : RootSound after (fileRefs files)) :
    RunSound after (changed :: files.erase file) := by
  constructor
  · rw [fileRefs_replace member same]
    exact root
  · intro other here
    rcases List.mem_cons.mp here with rfl | old
    · unfold plainFile
      rw [same, allowed]
      exact sound.plain file member
    · exact erase sound.plain file other old

/-- `file_reopen`. -/
theorem fileReopen (sound : RunSound fs files) (member : file ∈ files) : ∃ after,
      fs.fileReopen file true always = some (after, some ⟨file.inode, 0, false⟩) ∧
        RunSound after (⟨file.inode, 0, false⟩ :: files) ∧
          after.deviceSize = fs.deviceSize ∧ after.disk = fs.disk := by
  have held := fileRefs_pos member
  have opens := sound.root.opens.inodeReopen held
  generalize reopened : fs.inodeReopen file.inode = after at opens
  have sameSize : after.deviceSize = fs.deviceSize := by
    rw [← reopened]
    rfl
  have sameDisk : after.disk = fs.disk := by
    rw [← reopened]
    rfl
  have sameMap : after.freeMap = fs.freeMap := by
    rw [← reopened]
    rfl
  have sameFile : after.freeMapFile = fs.freeMapFile := by
    rw [← reopened]
    rfl
  refine ⟨after, ?_, ?_, sameSize, sameDisk⟩
  · rw [Fs.fileReopen, reopened]
    rfl
  constructor
  · have more := fileRefs_append (some ⟨file.inode, 0, false⟩) files
    change fileRefs (_ :: files) = _ at more
    rw [more]
    apply FsSound.recount sound.root sameSize sameDisk sameMap sameFile
    · exact Nat.lt_of_lt_of_le (fileRefs_map files) (le_hold _ _ _)
    · intro other some
      by_cases this : other = file.inode
      · rw [this]
        exact FsSound.ownerOpen held
      · rw [Option.map_some, hold_of_ne _ this] at some
        exact FsSound.ownerOpen some
    · exact opens
  · intro other here
    rcases List.mem_cons.mp here with rfl | old
    · rcases sound.plain file member with ⟨notMap, notRoot, -⟩
      exact ⟨notMap, notRoot, rfl⟩
    · exact sound.plain other old

/-- `file_read`. -/
theorem fileRead (sound : RunSound fs files) (member : file ∈ files)
    (buffer : Memory) (size : Int) :
    ∃ moved count,
      fs.fileRead file buffer size = some (moved, count, { file with pos := file.pos + count }) ∧
        RunSound fs ({ file with pos := file.pos + count } ::
          files.erase file) := by
  have held := fileRefs_pos member
  rcases sound.root.opens.find held with ⟨found, there, -, -, -, data, -⟩
  have within := sound.root.layout.within file.inode (FsSound.ownerOpen held)
  rw [← data] at within
  rw [Fs.fileRead, Fs.inodeReadAt_eq there within, Option.map_some]
  exact ⟨_, _, rfl, sound.replace member rfl rfl sound.root⟩

/-- `file_write`. -/
theorem fileWrite (sound : RunSound fs files) (member : file ∈ files)
    (buffer : Memory) (size : Int) :
    ∃ after count,
      fs.fileWrite file true buffer size =
          some (after, count, { file with pos := file.pos + count }) ∧
        RunSound after ({ file with pos := file.pos + count } ::
            files.erase file) ∧
          after.deviceSize = fs.deviceSize ∧
            OpensKept fs after (fileRefs files) := by
  have held := fileRefs_pos member
  rcases sound.plain file member with ⟨notMap, notRoot, -⟩
  rcases sound.root.inodeWriteAt held notMap notRoot buffer size file.pos with
    ⟨after, count, written, kept, undisturbed, -⟩
  refine ⟨after, count, ?_, sound.replace member rfl rfl kept, undisturbed.size,
      undisturbed.opensKept⟩
  rw [Fs.fileWrite, written, Option.map_some]

/-- `file_close`. -/
theorem fileClose (sound : RunSound fs files) (member : file ∈ files) : ∃ after,
      fs.fileClose file always = some after ∧
        RunSound after (files.erase file) ∧
          after.deviceSize = fs.deviceSize ∧
            OpensKept fs after (fileRefs (files.erase file)) ∧
              MapAfterClose fs files file after := by
  rcases sound.plain file member with ⟨notMap, notRoot, allowed⟩
  have closing : fs.fileClose file always = fs.inodeClose (some file.inode) always := by
    simp only [Fs.fileClose, Fs.fileAllowWrite, allowed, Bool.false_eq_true,
      if_false, Option.bind_some]
  have root := sound.root
  rw [fileRefs_erase member] at root
  have mapOpen := fileRefs_map (files.erase file)
  have plain := erase sound.plain file
  have held := hold_self (fileRefs (files.erase file)) file.inode
  have here : 0 < hold (fileRefs (files.erase file)) (some file.inode) file.inode := by
    omega
  rcases root.opens.find here with ⟨found, there, -, -, -, -, unlinked⟩
  have others := @fileRefs_pos_iff (files.erase file) file.inode notMap
  rw [closing]
  by_cases kept :
      named fs.disk rootDirSector rootEntries file.inode ∨
        ∃ other ∈ files.erase file, other.inode = file.inode
  · have stays :
        0 < fileRefs (files.erase file) file.inode ∨
          ∃ found, fs.findInode file.inode = some found ∧
            found.removed = false := by
      rcases kept with linked | more
      · right
        refine ⟨found, there, ?_⟩
        cases flag : found.removed with
        | false => rfl
        | true => exact absurd linked (unlinked.mp flag).2.2
      · exact Or.inl (others.mpr more)
    rcases FsSound.inodeClose_keep root mapOpen stays with ⟨after, closed, result, size, disk, map⟩
    refine ⟨after, closed, ⟨result, plain⟩, size, OpensKept.of_disk disk, ?_⟩
    constructor
    · intro still
      exact map
    · intro gone last
      rcases kept with linked | ⟨other, member, same⟩
      · exact absurd linked gone
      · exact absurd same (last other member)
  · have only := kept
    rw [not_or, ← others] at only
    have last : fileRefs (files.erase file) file.inode = 0 := by omega
    have removed := unlinked.mpr ⟨notMap, notRoot, only.1⟩
    rcases FsSound.inodeClose_last root mapOpen last there removed with
      ⟨after, closed, result, size, unchanged, bits⟩
    refine ⟨after, closed, ⟨result, plain⟩, size, unchanged, ?_⟩
    constructor
    · intro still
      exact absurd still kept
    · intro gone unheld
      exact bits

end RunSound

/-- The inodes that stay open keep their data. -/
def DataKept (fs after : Fs) (files files' : List File) : Prop :=
  ∀ sector, 0 < fileRefs files sector → 0 < fileRefs files' sector →
    diskInode after.disk sector = diskInode fs.disk sector

/-- What one call does to a sound file system. -/
inductive CallSound (fs : Fs) (files : List File) (call : FsCall) : FsState → Prop
  | running {after : Fs} {files' : List File} (sound : RunSound after files')
      (size : after.deviceSize = fs.deviceSize)
      (kept : DataKept fs after files files') :
      CallSound fs files call (.running after files')
  | panicked {name : List UInt8} {size : Int}
      (negative : call = .create name size ∧ size < 0) :
      CallSound fs files call .panicked

/-- One call. -/
theorem RunSound.step {fs : Fs} {files : List File} {call : FsCall}
    {target : FsState} (sound : RunSound fs files)
    (moved : FsState.step (.running fs files) call = some target) :
    CallSound fs files call target := by
  cases call with
  | create name size =>
      simp only [FsState.step] at moved
      split at moved
      · rename_i valid
        rcases valid with ⟨text, lower, upper⟩
        cases moved
        rcases Int.lt_or_le size 0 with negative | nonneg
        · rcases sound.root.filesysCreate_negative negative with
            none | ⟨after, created, root, unchanged, same⟩
          · rw [none]
            exact .panicked ⟨rfl, negative⟩
          · rw [created]
            exact .running ⟨root, sound.plain⟩ same (fun sector before _ => unchanged sector before)
        · rcases sound.root.filesysCreate text nonneg upper with
            ⟨after, success, created, root, unchanged, same, -⟩
          rw [created]
          exact .running ⟨root, sound.plain⟩ same (fun sector before _ => unchanged sector before)
      · cases moved
  | «open» name =>
      simp only [FsState.step] at moved
      split at moved
      · rename_i text
        cases moved
        rcases sound.root.filesysOpen text with ⟨after, file, opened, root, same, disk, fresh, -⟩
        rw [opened]
        refine .running ⟨?_, ?_⟩ same ?_
        · rw [fileRefs_append]
          exact root
        · intro other member
          rcases List.mem_append.mp member with new | old
          · exact fresh other (Option.mem_toList.mp new)
          · exact sound.plain other old
        · intro sector before later
          rw [disk]
      · cases moved
  | remove name =>
      simp only [FsState.step] at moved
      split at moved
      · rename_i text
        cases moved
        rcases sound.root.filesysRemove text with ⟨after, success, removed, root, unchanged, same⟩
        rw [removed]
        exact .running ⟨root, sound.plain⟩ same (fun sector before _ => unchanged sector before)
      · cases moved
  | reopen file =>
      simp only [FsState.step] at moved
      split at moved
      · rename_i member
        cases moved
        rcases sound.fileReopen member with ⟨after, reopened, result, same, disk⟩
        rw [reopened]
        refine .running result same ?_
        intro sector before later
        rw [disk]
      · cases moved
  | read file buffer size =>
      simp only [FsState.step] at moved
      split at moved
      · rename_i member
        cases moved
        rcases sound.fileRead member buffer size with ⟨bytes, count, read, result⟩
        rw [read]
        exact .running result rfl (fun _ _ _ => rfl)
      · cases moved
  | write file buffer size =>
      simp only [FsState.step] at moved
      split at moved
      · rename_i member
        cases moved
        rcases sound.fileWrite member buffer size with
          ⟨after, count, written, result, same, unchanged⟩
        rw [written]
        exact .running result same (fun sector before _ => unchanged sector before)
      · cases moved
  | close file =>
      simp only [FsState.step] at moved
      split at moved
      · rename_i member
        cases moved
        rcases sound.fileClose member with ⟨after, closed, result, same, unchanged, -⟩
        rw [closed]
        exact .running result same (fun sector _ later => unchanged sector later)
      · cases moved

/-- Shutting down and starting again. -/
theorem RunSound.reboot {fs : Fs} {files : List File} (sound : RunSound fs files)
    (stack : Memory) (memory : Nat → Elem) :
    ∃ done after,
      fs.filesysDone = some done ∧
        Fs.filesysInit done.deviceSize done.disk stack memory false = some after ∧
          RunSound after [] ∧ after.deviceSize = fs.deviceSize ∧
            ∀ idx,
              after.freeMap.bit idx = (decide (idx < fs.deviceSize) && fs.freeMap.bit idx) := by
  rcases reboot_sound sound.root stack memory with
    ⟨done, fresh, after, closes, init, opens, kept, size, -, bits⟩
  refine ⟨done, after, closes, ?_, ⟨?_, ?_⟩, size, bits⟩
  · rw [Fs.filesysInit, init, Option.bind_some]
    simp only [Bool.false_eq_true, if_false, Option.bind_some]
    exact opens
  · rw [fileRefs_nil]
    exact kept
  · intro file member
    cases member

/-- What every event preserves. -/
def FsState.Sound : FsState → Prop
  | .running fs files => RunSound fs files
  | .panicked => True

theorem FsState.Sound.react {state target : FsState} {event : FsEvent}
    (sound : state.Sound) (moved : state.react event = some target) :
    target.Sound := by
  cases state with
  | panicked => cases event <;> cases moved
  | running fs files =>
      cases event with
      | call call =>
          cases RunSound.step sound moved with
          | running result => exact result
          | panicked => trivial
      | reboot stack memory =>
          rcases RunSound.reboot sound stack memory with ⟨done, after, closes, started, result, -⟩
          simp only [FsState.react, closes, Option.bind_some, started, Option.map_some] at moved
          cases moved
          exact result

theorem runSound_of_reachable {fs : Fs} {files : List File}
    (reachable : filesysSystem.Reachable (.running fs files)) :
    RunSound fs files := by
  have sound : FsState.Sound (.running fs files) := by
    apply TransitionSystem.Reachable.invariant FsState.Sound _ _ reachable
    · intro state start
      rcases start with ⟨deviceSize, disk, stack, memory, first, small, started, rfl⟩
      have root := (filesysInit_sound small started).1
      refine ⟨?_, fun file member => by cases member⟩
      rw [fileRefs_nil]
      exact root
    · intro state event target reached sound moved
      exact sound.react moved
  exact sound

/-- The inodes whose sectors must not be given away: those of the free map, of
the root directory, of the files that it names and of the files that are
open. -/
def inUse (fs : Fs) (sector : Nat) : Prop :=
  sector = freeMapSector ∨ sector = rootDirSector ∨
    named fs.disk rootDirSector rootEntries sector ∨ ∃ inode ∈ fs.openInodes, inode.sector = sector

/-- The files have their sectors to themselves, whatever calls come next. -/
structure SectorsGuarantee (fs : Fs) (files : List File) : Prop where
  marked :
    ∀ sector, inUse fs sector →
      ∀ place, region fs.disk sector place → place < fs.deviceSize ∧ fs.freeMap.bit place = true
  disjoint :
    ∀ first second, inUse fs first → inUse fs second → first ≠ second →
      ∀ place, region fs.disk first place → ¬region fs.disk second place
  data : ∀ inode ∈ fs.openInodes, inode.data = diskInode fs.disk inode.sector
  removed : ∀ inode ∈ fs.openInodes,
      (inode.removed = true ↔
        inode.sector ≠ freeMapSector ∧ ¬named fs.disk rootDirSector rootEntries inode.sector)
  held : ∀ file ∈ files, ∃ inode ∈ fs.openInodes, inode.sector = file.inode
  calls :
    ∀ call target, FsState.step (.running fs files) call = some target →
      (∃ name size,
          call = .create name size ∧ size < 0 ∧ target = .panicked) ∨
        ∃ after files',
          target = .running after files' ∧
            ∀ inode ∈ fs.openInodes, ∀ later ∈ after.openInodes,
              later.sector = inode.sector → later.data = inode.data
  closes : ∀ file ∈ files, ∃ after,
      fs.fileClose file always = some after ∧ MapAfterClose fs files file after

namespace RunSound

variable {fs : Fs} {files : List File}

theorem held_of_open (sound : RunSound fs files) {inode : Inode}
    (member : inode ∈ fs.openInodes) : 0 < fileRefs files inode.sector :=
  (Registry.present_iff sound.root.opens inode.sector).mpr ⟨inode, member, rfl⟩

theorem faithful_of_open (sound : RunSound fs files) {inode : Inode}
    (member : inode ∈ fs.openInodes) :
    faithful fs.disk rootDirSector rootEntries inode.sector inode.removed
      inode.data :=
  (Registry.good sound.root.opens inode member).2.2

theorem owner_of_inUse (sound : RunSound fs files) {sector : Nat} (here : inUse fs sector) :
    owner fs rootDirSector rootEntries (fileRefs files) sector := by
  rcases here with map | root | linked | ⟨inode, member, same⟩
  · exact Or.inl map
  · exact Or.inr (Or.inl root)
  · exact Or.inr (Or.inr (Or.inl linked))
  · rw [← same]
    exact FsSound.ownerOpen (sound.held_of_open member)

theorem sectorsGuarantee (sound : RunSound fs files) : SectorsGuarantee fs files where
  marked := by
    intro sector here
    exact sound.root.layout.owned.covered sector (sound.owner_of_inUse here)
  disjoint := by
    intro first second here there
    exact
      sound.root.layout.owned.disjoint first second (sound.owner_of_inUse here)
        (sound.owner_of_inUse there)
  data := fun inode member => (sound.faithful_of_open member).1
  removed := by
    intro inode member
    have held := sound.held_of_open member
    rw [(sound.faithful_of_open member).2]
    constructor
    · intro gone
      exact ⟨gone.1, gone.2.2⟩
    · intro gone
      refine ⟨gone.1, ?_, gone.2⟩
      rcases (fileRefs_pos_iff gone.1).mp held with ⟨file, here, same⟩
      rw [← same]
      exact (sound.plain file here).2.1
  held := by
    intro file member
    exact (Registry.present_iff sound.root.opens file.inode).mp (fileRefs_pos member)
  calls := by
    intro call target moved
    cases sound.step moved with
    | panicked negative =>
        left
        exact ⟨_, _, negative.1, negative.2, rfl⟩
    | running result size kept =>
        right
        refine ⟨_, _, rfl, ?_⟩
        intro inode member later remains same
        have before := sound.held_of_open member
        have still := result.held_of_open remains
        rw [(sound.faithful_of_open member).1, (result.faithful_of_open remains).1]
        rw [same] at still ⊢
        exact kept inode.sector before still
  closes := by
    intro file member
    rcases sound.fileClose member with ⟨after, closed, -, -, -, map⟩
    exact ⟨after, closed, map⟩

end RunSound

/-- In every run the files that are named or open have their sectors to
themselves, also those that have been removed, up to their last close, which
frees the sectors. -/
theorem sectors_owned (fs : Fs) (files : List File)
    (reachable : filesysSystem.Reachable (.running fs files)) :
    SectorsGuarantee fs files :=
  (runSound_of_reachable reachable).sectorsGuarantee

/-- A file of one sector is created, opened and removed. -/
def removingEvents : List FsEvent :=
  [.call (.create [97] 512), .call (.open [97]), .call (.remove [97])]

/-- A file that has been removed is open. -/
def opensRemoved : FsState → Bool
  | .running fs files =>
      files = [⟨4, 0, false⟩] ∧
        fs.openInodes.map (fun inode => (inode.sector, inode.removed)) =
          [(4, true), (freeMapSector, false)]
  | .panicked => false

/-- A run from a fresh disk that passes a test which a panic fails. -/
theorem exists_run_of_passes {sectors : Nat} {events : List FsEvent} {test : FsState → Bool}
    (small : sectors < deviceLimit) (panics : test .panicked = false)
    (runs : ((Fs.filesysInit sectors zeros zeros (fun _ => 0) true).bind fun fs =>
      filesysSystem.run (.running fs []) events).any test = true) :
    ∃ start fs files, filesysSystem.initial start ∧
      filesysSystem.run start events = some (.running fs files) ∧
        test (.running fs files) = true := by
  rcases (Option.any_eq_true _ _).mp runs with ⟨state, result, passes⟩
  rcases Option.bind_eq_some_iff.mp result with ⟨first, started, execution⟩
  cases state with
  | panicked =>
      rw [panics] at passes
      cases passes
  | running fs files =>
      exact ⟨_, fs, files, ⟨sectors, zeros, zeros, fun _ => 0, first, small, started, rfl⟩,
        execution, passes⟩

theorem sectors_owned_removed : ∃ start fs files,
      filesysSystem.initial start ∧
        filesysSystem.run start removingEvents = some (.running fs files) ∧
          opensRemoved (.running fs files) = true ∧
            SectorsGuarantee fs files := by
  have runs : ((Fs.filesysInit 8 zeros zeros (fun _ => 0) true).bind fun fs =>
      filesysSystem.run (.running fs []) removingEvents).any opensRemoved = true := by
    decide +kernel
  rcases exists_run_of_passes (by decide) rfl runs with
    ⟨start, fs, files, initial, execution, passes⟩
  exact ⟨start, fs, files, initial, execution, passes,
    sectors_owned fs files (.of_run (.initial initial) execution)⟩

/-- There is a sector for the inode and a run of sectors for the data. -/
def roomForFile (fs : Fs) (size : Int) : Prop :=
  ∃ sector start, FirstFree fs sector ∧ RoomFor fs sector (sectorsFor size.toNat) start

/-- The free map and the contents of the root directory are as before. -/
def NoTrace (fs after : Fs) : Prop :=
  after.freeMap = fs.freeMap ∧ SameContents fs.disk after.disk rootDirSector

/-- A `filesys_create` that fails leaves no trace exactly when it fails for
lack of sectors, or when no sectors are wanted for the data. -/
theorem failed_create_noTrace_iff (fs after : Fs) (files : List File)
    (name : List UInt8) (size : Int) (reachable : filesysSystem.Reachable (.running fs files))
    (text : 0 ∉ name) (nonneg : 0 ≤ size) (bounded : size < 2147483648)
    (failed : fs.filesysCreate name size = some (after, false)) :
    NoTrace fs after ↔ size = 0 ∨ ¬roomForFile fs size := by
  have sound := runSound_of_reachable reachable
  rcases sound.root.filesysCreate text nonneg bounded with
    ⟨after', success, created, -, -, -, failure⟩
  rw [failed] at created
  cases created
  rcases failure rfl with ⟨contents, undone | leaked⟩
  · constructor
    · intro clean
      right
      intro room
      rcases room with ⟨sector, start, first, room⟩
      exact undone.2 sector start first room
    · intro reason
      exact ⟨undone.1, contents⟩
  · rcases leaked with ⟨sector, start, first, room, cnt, bits⟩
    have wanted : size ≠ 0 → 0 < sectorsFor size.toNat := by
      intro some
      unfold sectorsFor divRoundUp blockSectorSize
      omega
    constructor
    · intro clean
      left
      by_contra some
      -- The first sector of the run was free and is not any more.
      have inside : start < start + sectorsFor size.toNat := by
        have positive := wanted some
        omega
      have before := (room.free start (le_refl start) inside).2
      have later := bits start
      rw [if_pos ⟨le_refl start, inside⟩, clean.1, before] at later
      cases later
    · intro reason
      rcases reason with none | full
      · refine ⟨?_, contents⟩
        have empty : sectorsFor size.toNat = 0 := by
          rw [none]
          decide
        apply Bitmap.eq_of_bit _ cnt
        intro other
        rw [bits, if_neg]
        rw [empty]
        omega
      · exact absurd ⟨sector, start, first, room⟩ full

/-- A file of 1000 bytes. -/
def creatingEvents : List FsEvent := [.call (.create [97] 1000)]

/-- To create the file again with 700 bytes fails and takes two sectors. -/
def leaksSectors : FsState → Bool
  | .running fs _ =>
      (fs.filesysCreate [97] 700).any fun result =>
        !result.2 && !fs.freeMap.bit 8 && !fs.freeMap.bit 9 &&
          result.1.freeMap.bit 8 && result.1.freeMap.bit 9
  | .panicked => false

theorem leaksSectors_reachable : ∃ start fs files,
      filesysSystem.initial start ∧
        filesysSystem.run start creatingEvents = some (.running fs files) ∧
          leaksSectors (.running fs files) = true := by
  have runs : ((Fs.filesysInit 16 zeros zeros (fun _ => 0) true).bind fun fs =>
      filesysSystem.run (.running fs []) creatingEvents).any leaksSectors = true := by
    decide +kernel
  exact exists_run_of_passes (by decide) rfl runs

theorem failed_create_leaves_trace : ∃ fs files after,
      filesysSystem.Reachable (.running fs files) ∧
        fs.filesysCreate [97] 700 = some (after, false) ∧
          ¬NoTrace fs after := by
  rcases leaksSectors_reachable with ⟨start, fs, files, initial, execution, passes⟩
  rcases (Option.any_eq_true _ _).mp passes with ⟨⟨after, success⟩, created, bits⟩
  simp only [Bool.and_eq_true, Bool.not_eq_true'] at bits
  rcases bits with ⟨⟨⟨⟨failure, before⟩, -⟩, later⟩, -⟩
  cases failure
  refine ⟨fs, files, after, .of_run (.initial initial) execution, created, ?_⟩
  intro clean
  rw [clean.1, before] at later
  cases later

theorem failed_create_noTrace_iff_leak : ∃ fs files after,
      filesysSystem.Reachable (.running fs files) ∧
        fs.filesysCreate [97] 700 = some (after, false) ∧
          (NoTrace fs after ↔ (700 : Int) = 0 ∨ ¬roomForFile fs 700) := by
  rcases leaksSectors_reachable with ⟨start, fs, files, initial, execution, passes⟩
  rcases (Option.any_eq_true _ _).mp passes with ⟨⟨after, success⟩, created, bits⟩
  simp only [Bool.and_eq_true, Bool.not_eq_true'] at bits
  rcases bits with ⟨⟨⟨⟨failure, -⟩, -⟩, -⟩, -⟩
  cases failure
  have reached := TransitionSystem.Reachable.of_run (.initial initial) execution
  exact ⟨fs, files, after, reached, created,
      failed_create_noTrace_iff fs after files [97] 700 reached (by decide)
        (by decide) (by decide) created⟩

/-- The free map is on the disk, and is found there again. -/
structure SavedGuarantee (fs : Fs) : Prop where
  saved : ∀ idx, idx < fs.deviceSize → (storedMap fs).bit idx = fs.freeMap.bit idx
  reboot : ∀ stack memory, ∃ done after,
      fs.filesysDone = some done ∧
        Fs.filesysInit done.deviceSize done.disk stack memory false = some after ∧
          after.deviceSize = fs.deviceSize ∧
            (∀ idx, idx < fs.deviceSize →
              after.freeMap.bit idx = fs.freeMap.bit idx) ∧
              ∀ idx, fs.deviceSize ≤ idx → after.freeMap.bit idx = false

/-- After every call the free map file holds the free map, and starting again
reads it back. -/
theorem free_map_survives (fs : Fs) (files : List File)
    (reachable : filesysSystem.Reachable (.running fs files)) :
    SavedGuarantee fs where
  saved := (runSound_of_reachable reachable).root.saved
  reboot := by
    intro stack memory
    rcases (runSound_of_reachable reachable).reboot stack memory with
      ⟨done, after, closes, started, -, size, bits⟩
    refine ⟨done, after, closes, started, size, ?_, ?_⟩
    · intro idx inside
      rw [bits, decide_eq_true inside, Bool.true_and]
    · intro idx beyond
      rw [bits, decide_eq_false (by omega), Bool.false_and]

theorem free_map_survives_create : ∃ start fs files,
      filesysSystem.initial start ∧
        filesysSystem.run start creatingEvents = some (.running fs files) ∧
          leaksSectors (.running fs files) = true ∧ SavedGuarantee fs := by
  rcases leaksSectors_reachable with ⟨start, fs, files, initial, execution, passes⟩
  exact ⟨start, fs, files, initial, execution, passes,
      free_map_survives fs files (.of_run (.initial initial) execution)⟩

end CS162.Filesys
