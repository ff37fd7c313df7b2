import CS162.Filesys.OpenInodes

/-!
# Handles

Callers hold file handles, directory handles and plain pointers to inodes, and
memory may run out at any allocation.  The counts of an open inode are those of
what the callers hold.
-/

namespace CS162.Filesys

open CS162.Foundation
open CS162.Kernel

/-- What the callers hold. -/
structure Handles where
  files : List File
  dirs : List Dir
  inodes : List Nat

namespace Handles

/-- The live references to an inode, with the one of `free_map_file`. -/
def refs (handles : Handles) (freeMapFile : Option Nat) (sector : Nat) : Nat :=
  handles.files.countP (·.inode = sector) +
      handles.dirs.countP (·.inode = sector) +
    handles.inodes.count sector + if freeMapFile = some sector then 1 else 0

/-- The file handles that deny writes to an inode. -/
def denies (handles : Handles) (sector : Nat) : Nat :=
  handles.files.countP fun file => file.inode = sector ∧ file.denyWrite

/-- Every inode that a caller has a pointer to. -/
def pointers (handles : Handles) : List Nat :=
  handles.files.map File.inode ++ handles.dirs.map Dir.inode ++ handles.inodes

def addFile (handles : Handles) (file : Option File) : Handles :=
  { handles with files := file.toList ++ handles.files }

def dropFile (handles : Handles) (file : File) : Handles :=
  { handles with files := handles.files.erase file }

def addDir (handles : Handles) (dir : Option Dir) : Handles :=
  { handles with dirs := dir.toList ++ handles.dirs }

def dropDir (handles : Handles) (dir : Dir) : Handles :=
  { handles with dirs := handles.dirs.erase dir }

def addInode (handles : Handles) (pointer : Option Nat) : Handles :=
  { handles with inodes := pointer.toList ++ handles.inodes }

def dropInode (handles : Handles) (pointer : Option Nat) : Handles :=
  { handles with inodes := pointer.elim handles.inodes handles.inodes.erase }

end Handles

/-- The calls that open and close, with the allocations that succeed. -/
inductive HandleCall where
  | inodeOpen (sector : Nat) (memory : Bool)
  | inodeReopen (inode : Nat)
  | inodeClose (pointer : Option Nat) (bounce : Nat → Bool)
  | fileOpen (pointer : Option Nat) (memory : Bool) (bounce : Nat → Bool)
  | fileReopen (file : File) (memory : Bool) (bounce : Nat → Bool)
  | fileClose (file : File) (bounce : Nat → Bool)
  | fileDenyWrite (file : File)
  | fileAllowWrite (file : File)
  | dirOpen (pointer : Option Nat) (memory : Bool) (bounce : Nat → Bool)
  | dirReopen (dir : Dir) (memory : Bool) (bounce : Nat → Bool)
  | dirClose (dir : Dir) (bounce : Nat → Bool)
  | dirLookup (dir : Dir) (name : List UInt8) (malloc : Mallocs)
  | dirRemove (dir : Dir) (name : List UInt8) (malloc : Mallocs)
  | filesysOpen (name : List UInt8) (malloc : Mallocs)

namespace HandleCall

/-- A caller uses only what it holds. -/
def allowed (handles : Handles) : HandleCall → Bool
  | .inodeOpen _ _ => true
  | .inodeReopen inode => inode ∈ handles.pointers
  | .inodeClose pointer _ => pointer.all (· ∈ handles.inodes)
  | .fileOpen pointer _ _ => pointer.all (· ∈ handles.inodes)
  | .fileReopen file _ _ => file ∈ handles.files
  | .fileClose file _ => file ∈ handles.files
  | .fileDenyWrite file => file ∈ handles.files
  | .fileAllowWrite file => file ∈ handles.files
  | .dirOpen pointer _ _ => pointer.all (· ∈ handles.inodes)
  | .dirReopen dir _ _ => dir ∈ handles.dirs
  | .dirClose dir _ => dir ∈ handles.dirs
  | .dirLookup dir _ _ => dir ∈ handles.dirs
  | .dirRemove dir _ _ => dir ∈ handles.dirs
  | .filesysOpen _ _ => true

/-- The effect of a call on the file system and on what the callers hold. -/
def perform (fs : Fs) (handles : Handles) : HandleCall → Option (Fs × Handles)
  | .inodeOpen sector memory =>
      (fs.inodeOpen sector memory).map fun
        | (fs, pointer) => (fs, handles.addInode pointer)
  | .inodeReopen inode =>
      some (fs.inodeReopen inode, handles.addInode (some inode))
  | .inodeClose pointer bounce =>
      (fs.inodeClose pointer bounce).map (·, handles.dropInode pointer)
  | .fileOpen pointer memory bounce =>
      (fs.fileOpen pointer memory bounce).map fun
        | (fs, file) => (fs, (handles.dropInode pointer).addFile file)
  | .fileReopen file memory bounce =>
      (fs.fileReopen file memory bounce).map fun
        | (fs, file) => (fs, handles.addFile file)
  | .fileClose file bounce =>
      (fs.fileClose file bounce).map (·, handles.dropFile file)
  | .fileDenyWrite file =>
      (fs.fileDenyWrite file).map fun
        | (fs, after) => (fs, (handles.dropFile file).addFile (some after))
  | .fileAllowWrite file =>
      (fs.fileAllowWrite file).map fun
        | (fs, after) => (fs, (handles.dropFile file).addFile (some after))
  | .dirOpen pointer memory bounce =>
      (fs.dirOpen pointer memory bounce).map fun
        | (fs, dir) => (fs, (handles.dropInode pointer).addDir dir)
  | .dirReopen dir memory bounce =>
      (fs.dirReopen dir memory bounce).map fun
        | (fs, dir) => (fs, handles.addDir dir)
  | .dirClose dir bounce =>
      (fs.dirClose (some dir) bounce).map (·, handles.dropDir dir)
  | .dirLookup dir name malloc =>
      (fs.dirLookup dir name malloc).map fun
        | (fs, pointer) => (fs, handles.addInode pointer)
  | .dirRemove dir name malloc =>
      (fs.dirRemove dir name malloc).map fun
        | (fs, _) => (fs, handles)
  | .filesysOpen name malloc =>
      (fs.filesysOpen name malloc).map fun
        | (fs, file) => (fs, handles.addFile file)

end HandleCall

/-- A file system and what the callers hold, or the end of the kernel. -/
inductive HandleState where
  | running (fs : Fs) (handles : Handles)
  | panicked

namespace HandleState

def after : Option (Fs × Handles) → HandleState
  | some (fs, handles) => .running fs handles
  | none => .panicked

def step : HandleState → HandleCall → Option HandleState
  | .running fs handles, call =>
      if call.allowed handles then some (after (call.perform fs handles))
      else none
  | .panicked, _ => none

end HandleState

/-- All runs after `filesys_init`, of a new file system or of an old one with
whatever is on the disk. -/
def handleSystem : TransitionSystem HandleState HandleCall where
  initial state :=
    ∃ deviceSize disk stack memory format fs,
      Fs.filesysInit deviceSize disk stack memory format = some fs ∧
        state = .running fs ⟨[], [], []⟩
  step := HandleState.step

section Counting

variable {handles : Handles} {freeMapFile : Option Nat}

theorem countP_toList_append {Handle : Type} (inode : Handle → Nat)
    (handle : Option Handle) (rest : List Handle) (sector : Nat) :
    (handle.toList ++ rest).countP (inode · = sector) =
      rest.countP (inode · = sector) +
        if handle.map inode = some sector then 1 else 0 := by
  cases handle with
  | none => rfl
  | some handle =>
      simp [List.countP_cons]

theorem countP_erase_add {Handle : Type} [DecidableEq Handle]
    (test : Handle → Bool) {handle : Handle} {rest : List Handle} (member : handle ∈ rest) :
    rest.countP test = (rest.erase handle).countP test + if test handle then 1 else 0 := by
  rw [(List.perm_cons_erase member).countP_eq test, List.countP_cons]

theorem Handles.refs_addFile (file : Option File) :
    (handles.addFile file).refs freeMapFile =
      hold (handles.refs freeMapFile) (file.map File.inode) := by
  funext sector
  have count := countP_toList_append File.inode file handles.files sector
  unfold Handles.refs Handles.addFile hold
  simp only [count]
  omega

theorem Handles.refs_addDir (dir : Option Dir) :
    (handles.addDir dir).refs freeMapFile =
      hold (handles.refs freeMapFile) (dir.map Dir.inode) := by
  funext sector
  have count := countP_toList_append Dir.inode dir handles.dirs sector
  unfold Handles.refs Handles.addDir hold
  simp only [count]
  omega

theorem Handles.refs_addInode (pointer : Option Nat) :
    (handles.addInode pointer).refs freeMapFile = hold (handles.refs freeMapFile) pointer := by
  funext sector
  unfold Handles.refs Handles.addInode hold
  cases pointer with
  | none => simp
  | some inode =>
      simp [List.count_cons]
      omega

theorem Handles.refs_dropFile (freeMapFile : Option Nat)
    {file : File} (member : file ∈ handles.files) :
    handles.refs freeMapFile =
      hold ((handles.dropFile file).refs freeMapFile) (some file.inode) := by
  funext sector
  have count := countP_erase_add (fun file => file.inode = sector) member
  unfold Handles.refs Handles.dropFile hold
  simp only [count, Option.some.injEq, decide_eq_true_eq]
  omega

theorem Handles.refs_dropDir (freeMapFile : Option Nat) {dir : Dir} (member : dir ∈ handles.dirs) :
    handles.refs freeMapFile = hold ((handles.dropDir dir).refs freeMapFile) (some dir.inode) := by
  funext sector
  have count := countP_erase_add (fun dir => dir.inode = sector) member
  unfold Handles.refs Handles.dropDir hold
  simp only [count, Option.some.injEq, decide_eq_true_eq]
  omega

theorem Handles.refs_dropInode (freeMapFile : Option Nat) {pointer : Option Nat}
    (held : pointer.all (· ∈ handles.inodes) = true) :
    handles.refs freeMapFile = hold ((handles.dropInode pointer).refs freeMapFile) pointer := by
  cases pointer with
  | none => rw [hold_none]; rfl
  | some inode =>
      funext sector
      have member : inode ∈ handles.inodes := by simpa using held
      have count := countP_erase_add (· == sector) member
      unfold Handles.refs Handles.dropInode hold
      simp only [List.count, count, Option.some.injEq, beq_iff_eq, Option.elim_some]
      omega

theorem Handles.denies_addFile (handles : Handles) (file : Option File) (sector : Nat) :
    (handles.addFile file).denies sector =
      handles.denies sector +
        if file.any fun file => file.inode = sector ∧ file.denyWrite then 1
        else 0 := by
  cases file with
  | none => rfl
  | some file =>
      simp [Handles.denies, Handles.addFile, List.countP_cons]

theorem Handles.denies_dropFile {file : File} (member : file ∈ handles.files) (sector : Nat) :
    handles.denies sector =
      (handles.dropFile file).denies sector +
        if file.inode = sector ∧ file.denyWrite then 1 else 0 := by
  have count := countP_erase_add (fun file => file.inode = sector ∧ file.denyWrite) member
  unfold Handles.denies Handles.dropFile
  simp only [count, decide_eq_true_eq]

/-- A file handle changes but keeps its inode. -/
theorem Handles.refs_replace {file changed : File}
    (member : file ∈ handles.files) (same : changed.inode = file.inode) :
    ((handles.dropFile file).addFile (some changed)).refs freeMapFile =
      handles.refs freeMapFile := by
  rw [Handles.refs_addFile, Option.map_some, same, ← Handles.refs_dropFile freeMapFile member]

theorem Handles.denies_replace {file changed : File}
    (member : file ∈ handles.files) (same : changed.inode = file.inode) :
    ((handles.dropFile file).addFile (some changed)).denies file.inode +
          file.denyWrite.toNat =
        handles.denies file.inode + changed.denyWrite.toNat ∧
      ∀ other, other ≠ file.inode →
        ((handles.dropFile file).addFile (some changed)).denies other = handles.denies other := by
  have replaced : ∀ sector,
        ((handles.dropFile file).addFile (some changed)).denies sector +
            (if file.inode = sector ∧ file.denyWrite then 1 else 0) =
          handles.denies sector +
            if file.inode = sector ∧ changed.denyWrite then 1 else 0 := by
    intro sector
    have added := Handles.denies_addFile (handles.dropFile file) (some changed) sector
    have dropped := Handles.denies_dropFile member sector
    simp only [Option.any_some, decide_eq_true_eq, same] at added
    omega
  constructor
  · have here := replaced file.inode
    simp only [true_and] at here
    unfold Bool.toNat
    simpa [Bool.cond_eq_ite] using here
  · intro other different
    have there := replaced other
    rw [if_neg (fun both => different both.1.symm),
      if_neg (fun both => different both.1.symm)] at there
    exact there

/-- Each handle that denies writes is a reference. -/
theorem Handles.denies_le (handles : Handles) (freeMapFile : Option Nat) (sector : Nat) :
    handles.denies sector ≤ handles.refs freeMapFile sector := by
  have fewer : handles.denies sector ≤ handles.files.countP (·.inode = sector) := by
    apply List.countP_mono_left
    intro file member passes
    simp only [decide_eq_true_eq] at passes ⊢
    exact passes.1
  unfold Handles.refs
  omega

theorem Handles.refs_pos_of_file {file : File} (member : file ∈ handles.files) :
    0 < handles.refs freeMapFile file.inode := by
  rw [Handles.refs_dropFile freeMapFile member, hold_self]
  omega

theorem Handles.refs_pos_of_dir {dir : Dir} (member : dir ∈ handles.dirs) :
    0 < handles.refs freeMapFile dir.inode := by
  rw [Handles.refs_dropDir freeMapFile member, hold_self]
  omega

theorem Handles.refs_pos_of_pointer {inode : Nat} (member : inode ∈ handles.pointers) :
    0 < handles.refs freeMapFile inode := by
  rcases List.mem_append.mp member with handle | plain
  · rcases List.mem_append.mp handle with file | dir
    · rcases List.mem_map.mp file with ⟨file, here, rfl⟩
      exact Handles.refs_pos_of_file here
    · rcases List.mem_map.mp dir with ⟨dir, here, rfl⟩
      exact Handles.refs_pos_of_dir here
  · have count := List.count_pos_iff.mpr plain
    unfold Handles.refs
    omega

end Counting

/-- The open inodes have these counts. -/
def Counted (fs : Fs) (refs denies : Nat → Nat) : Prop :=
  OpenSound fs.openInodes refs denies fun _ _ _ => True

namespace Counted

variable {fs after : Fs} {refs denies : Nat → Nat} {pointer : Option Nat}
variable {bounce : Nat → Bool} {malloc : Mallocs}

theorem of_same (counted : Counted fs refs denies) (same : SameInodes fs after) :
    Counted after refs denies ∧ after.freeMapFile = fs.freeMapFile := by
  unfold Counted
  rw [same.openInodes]
  exact ⟨counted, same.freeMapFile⟩

theorem inodeOpen (counted : Counted fs refs denies)
    (bounded : ∀ other, denies other ≤ refs other) {sector : Nat} {memory : Bool}
    (opened : fs.inodeOpen sector memory = some (after, pointer)) :
    Counted after (hold refs pointer) denies ∧
      after.freeMapFile = fs.freeMapFile := by
  have result := OpenSound.inodeOpen counted bounded (fun _ => trivial) opened
  exact ⟨result.1, result.2.1⟩

theorem dirOpenRoot (counted : Counted fs refs denies)
    (bounded : ∀ other, denies other ≤ refs other) {dir : Option Dir}
    (opened : fs.dirOpenRoot malloc = some (after, dir)) :
    Counted after (hold refs (dir.map Dir.inode)) denies ∧
      after.freeMapFile = fs.freeMapFile := by
  rcases Option.bind_eq_some_iff.mp opened with ⟨⟨middle, pointer⟩, inode, handle⟩
  have first := counted.inodeOpen bounded inode
  have second := OpenSound.dirOpen first.1 handle
  exact ⟨second.1, second.2.trans first.2⟩

theorem dirClose {dir : Option Dir} (counted : Counted fs (hold refs (dir.map Dir.inode)) denies)
    (closed : fs.dirClose dir bounce = some after) :
    Counted after refs denies ∧ after.freeMapFile = fs.freeMapFile :=
  OpenSound.inodeClose counted closed

/-- `dir_lookup` gives a reference to the inode it finds. -/
theorem dirLookup (counted : Counted fs refs denies)
    (bounded : ∀ other, denies other ≤ refs other) {dir : Dir} {name : List UInt8}
    (found : fs.dirLookup dir name malloc = some (after, pointer)) :
    Counted after (hold refs pointer) denies ∧
      after.freeMapFile = fs.freeMapFile := by
  rcases Option.bind_eq_some_iff.mp found with ⟨entry, looked, rest⟩
  cases entry with
  | none =>
      cases rest
      rw [hold_none]
      exact ⟨counted, rfl⟩
  | some entry => exact counted.inodeOpen bounded rest

theorem inodeRemove (counted : Counted fs refs denies) {sector : Nat}
    (here : 0 < refs sector) : Counted (fs.inodeRemove sector) refs denies := by
  apply OpenSound.update counted
  · intro inode
    rfl
  · exact ⟨here, here⟩
  · intro inode sameRefs sameDenies fine
    exact ⟨sameRefs, sameDenies, trivial⟩
  · intro other different
    exact ⟨rfl, rfl, fun _ _ _ => trivial⟩

/-- `dir_remove` gives its reference up again. -/
theorem dirRemove (counted : Counted fs refs denies) (bounded : ∀ other, denies other ≤ refs other)
    {dir : Dir} {name : List UInt8} {success : Bool}
    (removed : fs.dirRemove dir name malloc = some (after, success)) :
    Counted after refs denies ∧ after.freeMapFile = fs.freeMapFile := by
  rcases Option.bind_eq_some_iff.mp removed with ⟨entry, looked, rest⟩
  cases entry with
  | none =>
      cases rest
      exact ⟨counted, rfl⟩
  | some entry =>
      rcases Option.bind_eq_some_iff.mp rest with ⟨⟨opened, pointer⟩, opening, tail⟩
      have first := counted.inodeOpen bounded opening
      cases pointer with
      | none =>
          cases tail
          rw [hold_none] at first
          exact first
      | some inode =>
          rcases Option.bind_eq_some_iff.mp tail with ⟨⟨written, count⟩, writing, last⟩
          have second := first.1.of_same (SameInodes.of_onlyDisk (.inodeWriteAt writing))
          have here : 0 < hold refs (some inode) inode := by
            rw [hold_self]
            omega
          rcases Option.map_eq_some_iff.mp last with ⟨closed, closing, result⟩
          cases result
          split at closing
          · have third := OpenSound.inodeClose (second.1.inodeRemove here) closing
            exact ⟨third.1, third.2.trans (second.2.trans first.2)⟩
          · have third := OpenSound.inodeClose second.1 closing
            exact ⟨third.1, third.2.trans (second.2.trans first.2)⟩

/-- `filesys_open` closes the root directory again. -/
theorem filesysOpen (counted : Counted fs refs denies)
    (bounded : ∀ other, denies other ≤ refs other) {name : List UInt8} {file : Option File}
    (opened : fs.filesysOpen name malloc = some (after, file)) :
    Counted after (hold refs (file.map File.inode)) denies ∧
      after.freeMapFile = fs.freeMapFile := by
  rcases Option.bind_eq_some_iff.mp opened with ⟨⟨root, dir⟩, opening, rest⟩
  have first := counted.dirOpenRoot bounded opening
  rcases Option.bind_eq_some_iff.mp rest with ⟨⟨looked, pointer⟩, looking, tail⟩
  have second :
      Counted looked (hold (hold refs pointer) (dir.map Dir.inode)) denies ∧
        looked.freeMapFile = root.freeMapFile := by
    rw [hold_comm]
    cases dir with
    | none =>
        cases looking
        rw [hold_none (hold refs _)]
        exact ⟨first.1, rfl⟩
    | some dir =>
        apply first.1.dirLookup _ looking
        intro other
        exact (bounded other).trans (le_hold refs _ other)
  rcases Option.bind_eq_some_iff.mp tail with ⟨closed, closing, last⟩
  have third := second.1.dirClose closing
  have fourth := OpenSound.fileOpen third.1 last
  exact ⟨fourth.1, fourth.2.trans (third.2.trans (second.2.trans first.2))⟩

theorem fileReopen (counted : Counted fs refs denies) {file : File}
    (here : 0 < refs file.inode) {memory : Bool} {result : Option File}
    (opened : fs.fileReopen file memory bounce = some (after, result)) :
    Counted after (hold refs (result.map File.inode)) denies ∧
      after.freeMapFile = fs.freeMapFile :=
  OpenSound.fileOpen (OpenSound.inodeReopen counted here) opened

theorem dirReopen (counted : Counted fs refs denies) {dir : Dir}
    (here : 0 < refs dir.inode) {memory : Bool} {result : Option Dir}
    (opened : fs.dirReopen dir memory bounce = some (after, result)) :
    Counted after (hold refs (result.map Dir.inode)) denies ∧
      after.freeMapFile = fs.freeMapFile :=
  OpenSound.dirOpen (OpenSound.inodeReopen counted here) opened

/-- One more handle may deny writes than do so already. -/
theorem inodeDenyWrite (counted : Counted fs refs denies) {sector : Nat}
    {denies' : Nat → Nat} (room : denies sector < refs sector)
    (more : denies' sector = denies sector + 1)
    (others : ∀ other, other ≠ sector → denies' other = denies other) :
    ∃ after,
      fs.inodeDenyWrite sector = some after ∧ Counted after refs denies' ∧
        after.freeMapFile = fs.freeMapFile := by
  have here : 0 < refs sector := by omega
  rcases OpenSound.find counted here with ⟨inode, found, same, opens, denied, -⟩
  have redenied := OpenSound.redeny counted here (· + 1) more.symm others
  refine ⟨_, ?_, redenied, rfl⟩
  rw [Fs.inodeDenyWrite, found, Option.bind_some, if_pos (by omega)]

/-- A handle that denies writes may allow them again. -/
theorem inodeAllowWrite (counted : Counted fs refs denies) {sector : Nat}
    {denies' : Nat → Nat} (bounded : denies sector ≤ refs sector)
    (fewer : denies sector = denies' sector + 1)
    (others : ∀ other, other ≠ sector → denies' other = denies other) :
    ∃ after,
      fs.inodeAllowWrite sector = some after ∧ Counted after refs denies' ∧
        after.freeMapFile = fs.freeMapFile := by
  have here : 0 < refs sector := by omega
  rcases OpenSound.find counted here with ⟨inode, found, same, opens, denied, -⟩
  have count : denies sector - 1 = denies' sector := by omega
  have redenied := OpenSound.redeny counted here (· - 1) count others
  refine ⟨_, ?_, redenied, rfl⟩
  rw [Fs.inodeAllowWrite, found, Option.bind_some, if_pos (by omega)]

end Counted

/-- The counts of the open inodes are those of what the callers hold. -/
def HandlesSound (fs : Fs) (handles : Handles) : Prop :=
  Counted fs (handles.refs fs.freeMapFile) handles.denies

namespace HandlesSound

variable {fs after : Fs} {handles : Handles}

theorem bounded (handles : Handles) (fs : Fs) (sector : Nat) :
    handles.denies sector ≤ handles.refs fs.freeMapFile sector :=
  handles.denies_le fs.freeMapFile sector

/-- Nothing changes when a file is put back as it was. -/
theorem replace_self (sound : HandlesSound fs handles) {file : File}
    (member : file ∈ handles.files) :
    HandlesSound fs ((handles.dropFile file).addFile (some file)) := by
  rcases Handles.denies_replace member (rfl : file.inode = file.inode)
    with ⟨here, others⟩
  have denies :
      ((handles.dropFile file).addFile (some file)).denies =
        handles.denies := by
    funext sector
    by_cases this : sector = file.inode
    · rw [this]
      omega
    · exact others sector this
  unfold HandlesSound
  rw [Handles.refs_replace member rfl, denies]
  exact sound

/-- `file_deny_write` passes its assertion. -/
theorem fileDenyWrite (sound : HandlesSound fs handles) {file : File}
    (member : file ∈ handles.files) :
    ∃ after changed,
      fs.fileDenyWrite file = some (after, changed) ∧
        HandlesSound after
          ((handles.dropFile file).addFile (some changed)) := by
  unfold Fs.fileDenyWrite
  by_cases already : file.denyWrite = true
  · exact ⟨fs, file, if_pos already, sound.replace_self member⟩
  · generalize written : { file with denyWrite := true } = changed
    have same : changed.inode = file.inode := by rw [← written]
    have flag : changed.denyWrite = true := by rw [← written]
    have clear : file.denyWrite = false := by simpa using already
    rcases Handles.denies_replace member same with ⟨here, others⟩
    have bound := bounded (handles.dropFile file) fs file.inode
    have dropped := Handles.denies_dropFile member file.inode
    have count :
        handles.refs fs.freeMapFile file.inode =
          (handles.dropFile file).refs fs.freeMapFile file.inode + 1 := by
      rw [Handles.refs_dropFile fs.freeMapFile member, hold_self]
    rw [flag, clear, Bool.toNat_true, Bool.toNat_false, Nat.add_zero] at here
    rw [if_neg (fun both => already both.2)] at dropped
    have room : handles.denies file.inode < handles.refs fs.freeMapFile file.inode := by
      omega
    rcases sound.inodeDenyWrite room here others with ⟨after, denied, counted, sameFile⟩
    refine ⟨after, changed, ?_, ?_⟩
    · rw [if_neg already, denied, Option.map_some]
    · unfold HandlesSound
      rw [sameFile, Handles.refs_replace member same]
      exact counted

/-- `file_allow_write` passes its assertions. -/
theorem fileAllowWrite (sound : HandlesSound fs handles) {file : File}
    (member : file ∈ handles.files) :
    ∃ after changed,
      fs.fileAllowWrite file = some (after, changed) ∧
        changed.inode = file.inode ∧ changed.denyWrite = false ∧
          HandlesSound after
            ((handles.dropFile file).addFile (some changed)) := by
  unfold Fs.fileAllowWrite
  by_cases denying : file.denyWrite = true
  · generalize written : { file with denyWrite := false } = changed
    have same : changed.inode = file.inode := by rw [← written]
    have flag : changed.denyWrite = false := by rw [← written]
    rcases Handles.denies_replace member same with ⟨here, others⟩
    rw [flag, denying, Bool.toNat_true, Bool.toNat_false, Nat.add_zero]
      at here
    rcases sound.inodeAllowWrite (bounded handles fs file.inode) here.symm
        others with
      ⟨after, allowed, counted, sameFile⟩
    refine ⟨after, changed, ?_, same, flag, ?_⟩
    · rw [if_pos denying, allowed, Option.map_some]
    · unfold HandlesSound
      rw [sameFile, Handles.refs_replace member same]
      exact counted
  · have clear : file.denyWrite = false := by simpa using denying
    exact ⟨fs, file, if_neg denying, rfl, clear, sound.replace_self member⟩

theorem of_counted {refs denies : Nat → Nat} {changed : Handles}
    (counted : Counted after refs denies ∧ after.freeMapFile = fs.freeMapFile)
    (sameRefs : changed.refs fs.freeMapFile = refs)
    (sameDenies : changed.denies = denies) : HandlesSound after changed := by
  unfold HandlesSound
  rw [counted.2, sameRefs, sameDenies]
  exact counted.1

/-- A handle that allows writes takes part in the references only. -/
theorem addFile {file : Option File}
    (counted :
      Counted after
          (hold (handles.refs fs.freeMapFile) (file.map File.inode))
          handles.denies ∧
        after.freeMapFile = fs.freeMapFile)
    (clear : ∀ opened ∈ file, opened.denyWrite = false) :
    HandlesSound after (handles.addFile file) := by
  apply of_counted counted (Handles.refs_addFile file)
  funext sector
  rw [Handles.denies_addFile]
  cases file with
  | none => rfl
  | some opened =>
      have flag := clear opened rfl
      simp [flag]

/-- `file_open` gives a handle that allows writes. -/
theorem clear_of_fileOpen {pointer : Option Nat} {memory : Bool}
    {bounce : Nat → Bool} {file : Option File}
    (opened : fs.fileOpen pointer memory bounce = some (after, file)) :
    ∀ result ∈ file, result.denyWrite = false := by
  intro result member
  cases member
  unfold Fs.fileOpen Fs.openHandle at opened
  split at opened
  · cases opened
    rfl
  · rcases Option.map_eq_some_iff.mp opened with ⟨next, closed, impossible⟩
    cases impossible

theorem fileClose (sound : HandlesSound fs handles) {file : File}
    {bounce : Nat → Bool} (member : file ∈ handles.files)
    (closed : fs.fileClose file bounce = some after) :
    HandlesSound after (handles.dropFile file) := by
  rcases sound.fileAllowWrite member with ⟨middle, changed, allowed, same, flag, replaced⟩
  have sameFile : middle.freeMapFile = fs.freeMapFile := by
    unfold Fs.fileAllowWrite at allowed
    split at allowed
    · rcases Option.map_eq_some_iff.mp allowed with ⟨next, inner, result⟩
      cases result
      rcases Option.bind_eq_some_iff.mp inner with ⟨found, here, rest⟩
      split at rest
      · cases rest
        rfl
      · cases rest
    · cases allowed
      rfl
  unfold Fs.fileClose at closed
  rw [allowed, Option.bind_some] at closed
  unfold HandlesSound at replaced
  rw [Handles.refs_addFile, Option.map_some] at replaced
  have closing := OpenSound.inodeClose replaced closed
  apply of_counted ⟨closing.1, closing.2⟩ rfl
  funext sector
  rw [Handles.denies_addFile, Option.any_some, flag]
  simp

/-- Every call keeps the counts. -/
theorem perform (sound : HandlesSound fs handles) {call : HandleCall}
    {changed : Handles} (allowed : call.allowed handles = true)
    (performed : call.perform fs handles = some (after, changed)) :
    HandlesSound after changed := by
  have bound := bounded handles fs
  cases call with
  | inodeOpen sector memory =>
      rcases Option.map_eq_some_iff.mp performed with ⟨⟨next, pointer⟩, opened, result⟩
      cases result
      exact
        of_counted (sound.inodeOpen bound opened)
          (Handles.refs_addInode pointer) rfl
  | inodeReopen inode =>
      have member : inode ∈ handles.pointers := of_decide_eq_true allowed
      have counted :
          OpenSound fs.openInodes (handles.refs fs.freeMapFile)
            handles.denies fun _ _ _ => True :=
        sound
      have reopened := counted.inodeReopen (Handles.refs_pos_of_pointer member)
      cases performed
      exact of_counted ⟨reopened, rfl⟩ (Handles.refs_addInode (some inode)) rfl
  | inodeClose pointer bounce =>
      rcases Option.map_eq_some_iff.mp performed with ⟨next, closed, result⟩
      cases result
      unfold HandlesSound at sound
      rw [Handles.refs_dropInode fs.freeMapFile allowed] at sound
      exact of_counted (OpenSound.inodeClose sound closed) rfl rfl
  | fileOpen pointer memory bounce =>
      rcases Option.map_eq_some_iff.mp performed with ⟨⟨next, file⟩, opened, result⟩
      cases result
      unfold HandlesSound at sound
      rw [Handles.refs_dropInode fs.freeMapFile allowed] at sound
      exact addFile (OpenSound.fileOpen sound opened) (clear_of_fileOpen opened)
  | fileReopen file memory bounce =>
      have member : file ∈ handles.files := of_decide_eq_true allowed
      rcases Option.map_eq_some_iff.mp performed with ⟨⟨next, again⟩, opened, result⟩
      cases result
      exact
        addFile (sound.fileReopen (Handles.refs_pos_of_file member) opened)
          (clear_of_fileOpen opened)
  | fileClose file bounce =>
      have member : file ∈ handles.files := of_decide_eq_true allowed
      rcases Option.map_eq_some_iff.mp performed with ⟨next, closed, result⟩
      cases result
      exact sound.fileClose member closed
  | fileDenyWrite file =>
      have member : file ∈ handles.files := of_decide_eq_true allowed
      rcases sound.fileDenyWrite member with ⟨next, denying, denied, kept⟩
      simp only [HandleCall.perform, denied] at performed
      cases performed
      exact kept
  | fileAllowWrite file =>
      have member : file ∈ handles.files := of_decide_eq_true allowed
      rcases sound.fileAllowWrite member with ⟨next, allowing, done, -, -, kept⟩
      simp only [HandleCall.perform, done] at performed
      cases performed
      exact kept
  | dirOpen pointer memory bounce =>
      rcases Option.map_eq_some_iff.mp performed with ⟨⟨next, dir⟩, opened, result⟩
      cases result
      unfold HandlesSound at sound
      rw [Handles.refs_dropInode fs.freeMapFile allowed] at sound
      exact
        of_counted (OpenSound.dirOpen sound opened) (Handles.refs_addDir dir)
          rfl
  | dirReopen dir memory bounce =>
      have member : dir ∈ handles.dirs := of_decide_eq_true allowed
      rcases Option.map_eq_some_iff.mp performed with ⟨⟨next, again⟩, opened, result⟩
      cases result
      exact
        of_counted (sound.dirReopen (Handles.refs_pos_of_dir member) opened)
          (Handles.refs_addDir again) rfl
  | dirClose dir bounce =>
      have member : dir ∈ handles.dirs := of_decide_eq_true allowed
      rcases Option.map_eq_some_iff.mp performed with ⟨next, closed, result⟩
      cases result
      unfold HandlesSound at sound
      rw [Handles.refs_dropDir fs.freeMapFile member] at sound
      exact of_counted (OpenSound.inodeClose sound closed) rfl rfl
  | dirLookup dir name malloc =>
      rcases Option.map_eq_some_iff.mp performed with ⟨⟨next, pointer⟩, found, result⟩
      cases result
      exact
        of_counted (sound.dirLookup bound found)
          (Handles.refs_addInode pointer) rfl
  | dirRemove dir name malloc =>
      rcases Option.map_eq_some_iff.mp performed with ⟨⟨next, success⟩, removed, result⟩
      cases result
      exact of_counted (sound.dirRemove bound removed) rfl rfl
  | filesysOpen name malloc =>
      rcases Option.map_eq_some_iff.mp performed with ⟨⟨next, file⟩, opened, result⟩
      cases result
      apply addFile (sound.filesysOpen bound opened)
      rcases Option.bind_eq_some_iff.mp opened with ⟨⟨root, dir⟩, -, rest⟩
      rcases Option.bind_eq_some_iff.mp rest with ⟨⟨looked, inode⟩, -, tail⟩
      rcases Option.bind_eq_some_iff.mp tail with ⟨closed, -, last⟩
      exact clear_of_fileOpen last

end HandlesSound

section Start

variable {fs after : Fs}

/-- Nobody has a pointer to an inode. -/
theorem counted_nil (empty : fs.openInodes = []) : Counted fs (fun _ => 0) fun _ => 0 := by
  unfold Counted OpenSound
  rw [empty]
  exact Registry.nil fun wanted here => Nat.lt_irrefl 0 here

/-- The free map file is opened, and nothing else is open. -/
theorem counted_openMapFile
    (counted : Counted fs (fun _ => 0) fun _ => 0) (opened : fs.openMapFile = some after) :
    Counted after (hold (fun _ => 0) after.freeMapFile) fun _ => 0 := by
  rcases Option.map_eq_some_iff.mp opened with ⟨⟨next, file⟩, inode, result⟩
  cases result
  exact (counted.inodeOpen (fun _ => le_refl 0) inode).1

theorem counted_freeMapOpen
    (counted : Counted fs (fun _ => 0) fun _ => 0) (opened : fs.freeMapOpen = some after) :
    Counted after (hold (fun _ => 0) after.freeMapFile) fun _ => 0 := by
  rcases Option.bind_eq_some_iff.mp opened with ⟨middle, file, rest⟩
  have first := counted_openMapFile counted file
  rcases Option.bind_eq_some_iff.mp rest with ⟨⟨read, success⟩, reading, last⟩
  have same : SameInodes middle read := by
    unfold Fs.bitmapRead at reading
    split at reading
    · rcases Option.map_eq_some_iff.mp reading with ⟨bytes, here, result⟩
      cases result
      exact ⟨rfl, rfl⟩
    · cases reading
      exact SameInodes.refl _
  cases success with
  | false => cases last
  | true =>
      cases last
      rw [same.freeMapFile]
      exact (first.of_same same).1

/-- Formatting closes the free map file again. -/
theorem counted_doFormat (counted : Counted fs (fun _ => 0) fun _ => 0)
    (formatted : fs.doFormat = some after) :
    Counted after (fun _ => 0) fun _ => 0 := by
  rcases doFormat_steps formatted with ⟨mapped, made, mapping, root, closing⟩
  rcases freeMapCreate_steps mapping with ⟨stored, opened, creating, opening, writing⟩
  have same := SameInodes.inodeCreate creating
  have first := counted_openMapFile (counted.of_same same).1 opening
  have sameWritten := SameInodes.of_onlyDisk (.bitmapWrite writing)
  rw [← sameWritten.freeMapFile] at first
  have sameRoot := SameInodes.inodeCreate root
  have second := ((first.of_same sameWritten).1.of_same sameRoot).1
  rw [← sameRoot.freeMapFile] at second
  exact (OpenSound.inodeClose second closing).1

theorem handlesSound_filesysInit {deviceSize : Nat} {disk stack : Memory}
    {memory : Nat → Elem} {format : Bool}
    (started : Fs.filesysInit deviceSize disk stack memory format = some fs) :
    HandlesSound fs ⟨[], [], []⟩ := by
  rcases Option.bind_eq_some_iff.mp started with ⟨init, initial, rest⟩
  rcases Option.map_eq_some_iff.mp initial with ⟨map, created, result⟩
  have empty : Counted init (fun _ => 0) fun _ => 0 := by
    apply counted_nil
    rw [← result]
  rcases Option.bind_eq_some_iff.mp rest with ⟨ready, formatting, opening⟩
  have closed : Counted ready (fun _ => 0) fun _ => 0 := by
    cases format with
    | false =>
        cases formatting
        exact empty
    | true => exact counted_doFormat empty formatting
  have counted := counted_freeMapOpen closed opening
  have refs : (Handles.mk [] [] []).refs fs.freeMapFile = hold (fun _ => 0) fs.freeMapFile := by
    funext sector
    simp [Handles.refs, hold]
  unfold HandlesSound
  rw [refs]
  exact counted

end Start

/-- What the counts of the open inodes guarantee. -/
structure CountsGuarantee (fs : Fs) (handles : Handles) : Prop where
  once : (fs.openInodes.map Inode.sector).Nodup
  present : ∀ sector,
      (∃ inode ∈ fs.openInodes, inode.sector = sector) ↔ 0 < handles.refs fs.freeMapFile sector
  counts : ∀ inode ∈ fs.openInodes,
      0 < inode.openCnt ∧
        inode.openCnt = handles.refs fs.freeMapFile inode.sector ∧
          inode.denyWriteCnt = handles.denies inode.sector ∧ inode.denyWriteCnt ≤ inode.openCnt
  assertions : ∀ file ∈ handles.files,
      (fs.fileDenyWrite file).isSome = true ∧ (fs.fileAllowWrite file).isSome = true
  refused : ∀ inode ∈ fs.openInodes, ∀ bounce buffer size offset,
      fs.inodeWriteAt inode.sector bounce buffer size offset = if handles.files.any fun file =>
            file.inode = inode.sector ∧ file.denyWrite then
          some (fs, 0)
        else
          Fs.inodeWriteLoop inode.data bounce buffer size.toNat fs size offset 0

theorem HandlesSound.guarantee {fs : Fs} {handles : Handles}
    (sound : HandlesSound fs handles) : CountsGuarantee fs handles where
  once := Registry.once sound
  present := fun sector => (Registry.present_iff sound sector).symm
  counts := by
    intro inode member
    rcases Registry.good sound inode member with ⟨opens, denied, -⟩
    have here := (Registry.present_iff sound inode.sector).mpr ⟨inode, member, rfl⟩
    have bound := HandlesSound.bounded handles fs inode.sector
    exact ⟨by omega, opens, denied, by omega⟩
  assertions := by
    intro file member
    rcases sound.fileDenyWrite member with ⟨after, changed, denied, -⟩
    rcases sound.fileAllowWrite member with ⟨next, again, allowed, -⟩
    rw [denied, allowed]
    exact ⟨rfl, rfl⟩
  refused := by
    intro inode member bounce buffer size offset
    have found : fs.findInode inode.sector = some inode :=
      (Registry.find?_eq_some_iff sound).mpr ⟨member, rfl⟩
    have denied := (Registry.good sound inode member).2.1
    have any : (handles.files.any fun file =>
            file.inode = inode.sector ∧ file.denyWrite) = true ↔
          inode.denyWriteCnt ≠ 0 := by
      rw [denied, Handles.denies, ← Nat.pos_iff_ne_zero, List.countP_pos_iff, List.any_eq_true]
    rw [Fs.inodeWriteAt, found, Option.bind_some]
    by_cases refused : inode.denyWriteCnt ≠ 0
    · rw [if_pos refused, if_pos (any.mpr refused)]
    · rw [if_neg refused, if_neg (fun there => refused (any.mp there))]

/-- What every call preserves. -/
def HandleState.Sound : HandleState → Prop
  | .running fs handles => HandlesSound fs handles
  | .panicked => True

theorem HandleState.Sound.step {state target : HandleState} {call : HandleCall}
    (sound : state.Sound) (moved : state.step call = some target) :
    target.Sound := by
  cases state with
  | panicked => cases moved
  | running fs handles =>
      change
        (if call.allowed handles then
            some (HandleState.after (call.perform fs handles))
          else none) =
          some target at moved
      split at moved
      · rename_i allowed
        cases moved
        cases performed : call.perform fs handles with
        | none => trivial
        | some result => exact HandlesSound.perform sound allowed performed
      · cases moved

/-- In every run the counts of an open inode are those of the live references
to it and of the file handles that deny writes, whichever allocations fail: so
the assertions on the counts never fail, and a write is refused exactly while
some open handle denies it. -/
theorem handle_counts (fs : Fs) (handles : Handles)
    (reachable : handleSystem.Reachable (.running fs handles)) :
    CountsGuarantee fs handles := by
  have sound : HandleState.Sound (.running fs handles) := by
    apply TransitionSystem.Reachable.invariant HandleState.Sound _ _ reachable
    · intro state start
      rcases start with ⟨deviceSize, disk, stack, memory, format, first, started, rfl⟩
      exact handlesSound_filesysInit started
    · intro state call target reached sound moved
      exact sound.step moved
  exact HandlesSound.guarantee sound

/-- The root directory is opened as a file that denies writes, and opened again
twice, the first time without memory for the handle. -/
def denyingCalls : List HandleCall :=
  [.inodeOpen rootDirSector true, .fileOpen (some rootDirSector) true always,
    .fileDenyWrite ⟨rootDirSector, 0, false⟩,
    .fileReopen ⟨rootDirSector, 0, true⟩ false always,
    .fileReopen ⟨rootDirSector, 0, true⟩ true always]

/-- What the calls lead to. -/
def deniesOnce : HandleState → Bool
  | .running fs handles =>
      handles.files = [⟨rootDirSector, 0, false⟩, ⟨rootDirSector, 0, true⟩] ∧
        fs.openInodes.map
            (fun inode => (inode.sector, inode.openCnt, inode.denyWriteCnt)) =
          [(rootDirSector, 2, 1), (freeMapSector, 1, 0)]
  | .panicked => false

theorem handle_counts_denied : ∃ start fs handles,
      handleSystem.initial start ∧
        handleSystem.run start denyingCalls = some (.running fs handles) ∧
        deniesOnce (.running fs handles) = true ∧
          CountsGuarantee fs handles := by
  have runs : ((Fs.filesysInit 8 zeros zeros (fun _ => 0) true).bind fun fs =>
            handleSystem.run (.running fs ⟨[], [], []⟩) denyingCalls).any
          deniesOnce =
        true := by
    decide +kernel
  rcases (Option.any_eq_true _ _).mp runs with ⟨state, result, passes⟩
  rcases Option.bind_eq_some_iff.mp result with ⟨first, started, execution⟩
  cases state with
  | panicked => cases passes
  | running fs handles =>
      have start : handleSystem.initial (.running first ⟨[], [], []⟩) :=
        ⟨8, zeros, zeros, fun _ => 0, true, first, started, rfl⟩
      exact ⟨_, fs, handles, start, execution, passes,
          handle_counts fs handles (.of_run (.initial start) execution)⟩

end CS162.Filesys
