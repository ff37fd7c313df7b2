import CS162.Filesys.FilesysCalls
import CS162.Foundation.Tally
import CS162.Foundation.TransitionSystem

/-!
# Threads that open, read and close files

`inode_open` and `inode_close` of `filesys/inode.c` in the statements between which
another thread may run, and what `filesys_open`, `file_read` and `file_close` do with
them.  No file is written or removed.  A pointer that dangles, a search that has come
to an inode which has left the list, or the removal of an inode that is in no list
leaves everything undefined.
-/

namespace CS162.Filesys.OpenSteps

open CS162.Foundation
open CS162.Devices (blockSectorSize)

/-- A `struct inode` in memory. -/
structure InodeCell where
  sector : Nat
  openCnt : Int
  data : InodeDisk

/-- A pointer that `inode_open` has returned, and the sector that it was called
with. -/
structure Reference where
  inode : Nat
  sector : Nat
  deriving DecidableEq

/-- What an inode is opened for. -/
inductive Purpose where
  /-- `dir_open_root`, called by `filesys_open`. -/
  | root (name : List UInt8)
  /-- `dir_lookup`, with the root directory open. -/
  | file (root : Reference)

/-- The next statement of `inode_open`. -/
inductive OpenStage where
  | enter
  /-- The loop looks at this inode, or is at the end of the list. -/
  | search (e : Option Nat)
  /-- `inode_reopen` is called. -/
  | found (inode : Nat)
  /-- `malloc` is called. -/
  | allocate
  /-- `list_push_front` is called. -/
  | link (inode : Nat)
  /-- The fields of the new inode are set. -/
  | assign (inode : Nat)
  /-- `block_read` sleeps. -/
  | sleep (inode : Nat)

/-- The next statement of `inode_close`. -/
inductive CloseStage where
  | drop (reference : Reference)
  /-- `list_remove` is called. -/
  | unlink (inode : Nat)
  /-- `free` is called. -/
  | free (inode : Nat)

/-- What a thread is doing. -/
inductive Doing where
  | idle
  | opening (purpose : Purpose) (sector : Nat) (stage : OpenStage)
  /-- `dir_open` has the inode of the root directory and calls `calloc`. -/
  | dirOpen (name : List UInt8) (root : Reference)
  /-- The loop of `lookup` is at an entry. -/
  | lookup (name : List UInt8) (root : Reference) (entry : Nat)
  /-- A file is opened afterwards if `filesys_open` has found one. -/
  | closing (found : Option Reference) (stage : CloseStage)
  /-- `file_open` has an inode and calls `calloc`. -/
  | fileOpen (file : Reference)

/-- A byte that `file_read` has read, or the end of the file. -/
structure ReadByte where
  reference : Reference
  offset : Nat
  byte : Option UInt8

/-- A kernel thread: what it does, its open files and what it has read last. -/
structure Thread where
  doing : Doing := .idle
  files : List Reference := []
  read : Option ReadByte := none

namespace Purpose

/-- The references that are held meanwhile. -/
def references : Purpose → List Reference
  | root _ => []
  | file dir => [dir]

/-- What follows when `inode_open` returns. -/
def opened : Purpose → Option Reference → Doing
  | root _, none => .idle
  | root name, some dir => .dirOpen name dir
  | file dir, result => .closing result (.drop dir)

end Purpose

/-- What follows when `inode_close` returns. -/
def closed : Option Reference → Doing
  | none => .idle
  | some file => .fileOpen file

namespace Doing

def references : Doing → List Reference
  | idle => []
  | opening purpose _ _ => purpose.references
  | dirOpen _ root => [root]
  | lookup _ root _ => [root]
  | closing found (.drop reference) => found.toList ++ [reference]
  | closing found _ => found.toList
  | fileOpen file => [file]

/-- The inode that `block_read` is reading. -/
def sleepsOn : Doing → Option Nat
  | opening _ _ (.sleep inode) => some inode
  | _ => none

/-- The inode whose fields are being set. -/
def assigns : Doing → Option Nat
  | opening _ _ (.assign inode) => some inode
  | _ => none

/-- Between two statements of `inode_open` or `inode_close`, but for the
`block_read`. -/
def busy : Doing → Bool
  | opening _ _ .enter => false
  | opening _ _ (.sleep _) => false
  | opening _ _ _ => true
  | closing _ (.drop _) => false
  | closing _ _ => true
  | _ => false

/-- The sector that `inode_open` has been called with. -/
def sector : Doing → Option Nat
  | opening _ sector _ => some sector
  | _ => none

end Doing

namespace Thread

/-- The pointers that the thread has got from `inode_open` and not closed. -/
def references (thread : Thread) : List Reference := thread.doing.references ++ thread.files

/-- How often the thread counts among those that have an inode open. -/
def count (inode : Nat) (thread : Thread) : Nat :=
  (thread.references.map Reference.inode).count inode +
    if thread.doing.sleepsOn = some inode then 1 else 0

end Thread

/-- Memory, the list of open inodes and the threads. -/
structure OpenState (Index : Type) where
  heap : Nat → Option InodeCell
  openInodes : List Nat
  threads : Index → Thread

/-- A state, or nothing that the language defines. -/
inductive OpenPhase (Index : Type) where
  | running (state : OpenState Index)
  | undefined

/-- What a thread can do next.  `malloc` and `calloc` find memory or not; a new
inode is where they say and holds what was there before. -/
inductive OpenAction where
  | filesysOpen (name : List UInt8)
  | fileRead (reference : Reference) (offset : Nat)
  | fileClose (reference : Reference)
  | advance (memory : Option (Nat × InodeCell))

/-- The byte of a file that `inode_read_at` reads. -/
def byteAt (disk : Memory) (data : InodeDisk) (offset : Nat) : Option UInt8 :=
  if offset < data.length.toNat then
    some (disk (data.start * blockSectorSize + offset))
  else none

/-- `list_next`. -/
def nextInode (openInodes : List Nat) (inode : Nat) : Option Nat :=
  (openInodes.dropWhile (· ≠ inode)).tail.head?

namespace OpenState

variable {Index : Type} [DecidableEq Index]

/-- A thread that has gone on. -/
def setThread (state : OpenState Index) (i : Index) (thread : Thread) : OpenState Index :=
  { state with threads := Function.update state.threads i thread }

/-- Another thing that a thread is doing. -/
def doThen (state : OpenState Index) (i : Index) (doing : Doing) : OpenState Index :=
  state.setThread i { state.threads i with doing := doing }

/-- An inode in memory, or none, at an address. -/
def store (state : OpenState Index) (inode : Nat) (cell : Option InodeCell) : OpenState Index :=
  { state with heap := Function.update state.heap inode cell }

/-- What a pointer points to is used. -/
def deref (state : OpenState Index) (inode : Nat)
    (use : InodeCell → OpenState Index) : OpenPhase Index :=
  (state.heap inode).elim .undefined fun cell => .running (use cell)

/-- The next statement of `inode_open`. -/
def openStep (disk : Memory) (state : OpenState Index) (i : Index)
    (memory : Option (Nat × InodeCell)) (purpose : Purpose) (sector : Nat) :
    OpenStage → Option (OpenPhase Index)
  | .enter =>
      some (.running (state.doThen i
        (.opening purpose sector (.search state.openInodes.head?))))
  | .search none =>
      some (.running (state.doThen i (.opening purpose sector .allocate)))
  | .search (some e) =>
      if e ∈ state.openInodes then
        some (state.deref e fun cell =>
          state.doThen i (.opening purpose sector
            (if cell.sector = sector then .found e
              else .search (nextInode state.openInodes e))))
      else some .undefined
  | .found inode =>
      some (state.deref inode fun cell =>
        (state.store inode
            (some { cell with openCnt := cell.openCnt + 1 })).doThen i
          (purpose.opened (some ⟨inode, sector⟩)))
  | .allocate =>
      match memory with
      | none => some (.running (state.doThen i (purpose.opened none)))
      | some (inode, garbage) =>
          if (state.heap inode).isNone then
            some (.running ((state.store inode (some garbage)).doThen i
              (.opening purpose sector (.link inode))))
          else none
  | .link inode =>
      some (.running
        (({ state with openInodes := inode :: state.openInodes } : OpenState Index).doThen i
          (.opening purpose sector (.assign inode))))
  | .assign inode =>
      some (state.deref inode fun cell =>
        (state.store inode
            (some { cell with sector := sector, openCnt := 1 })).doThen i
          (.opening purpose sector (.sleep inode)))
  | .sleep inode =>
      some (state.deref inode fun cell =>
        (state.store inode
            (some { cell with data := diskInode disk sector })).doThen i
          (purpose.opened (some ⟨inode, sector⟩)))

/-- The next statement of `inode_close`. -/
def closeStep (state : OpenState Index) (i : Index)
    (found : Option Reference) : CloseStage → OpenPhase Index
  | .drop reference =>
      state.deref reference.inode fun cell =>
        (state.store reference.inode
            (some { cell with openCnt := cell.openCnt - 1 })).doThen i
          (if cell.openCnt - 1 = 0 then .closing found (.unlink reference.inode)
            else closed found)
  | .unlink inode =>
      if inode ∈ state.openInodes then
        .running
          (({ state with openInodes := state.openInodes.erase inode } : OpenState Index).doThen i
            (.closing found (.free inode)))
      else .undefined
  | .free inode =>
      state.deref inode fun _ => (state.store inode none).doThen i (closed found)

/-- `lookup` reads an entry, and `dir_lookup` opens the file that it finds. -/
def lookupStep (disk : Memory) (name : List UInt8) (root : Reference)
    (entry : Nat) (cell : InodeCell) : Doing :=
  if cell.data.length.toNat < (entry + 1) * direntSize then
    .closing none (.drop root)
  else
    match entryOf (slot disk cell.data.start entry) with
    | some (found, sector) =>
        if found = name then .opening (.file root) sector .enter
        else .lookup name root (entry + 1)
    | none => .lookup name root (entry + 1)

/-- A thread goes on. -/
def advance (disk : Memory) (state : OpenState Index) (i : Index)
    (memory : Option (Nat × InodeCell)) : Option (OpenPhase Index) :=
  match (state.threads i).doing with
  | .idle => none
  | .opening purpose sector stage =>
      state.openStep disk i memory purpose sector stage
  | .dirOpen name root =>
      some (.running (state.doThen i
        (if memory.isSome then .lookup name root 0
          else .closing none (.drop root))))
  | .lookup name root entry =>
      some (state.deref root.inode fun cell =>
        state.doThen i (lookupStep disk name root entry cell))
  | .closing found stage => some (state.closeStep i found stage)
  | .fileOpen file =>
      some (.running
        (if memory.isSome then
          state.setThread i
            { state.threads i with
              doing := .idle
              files := file :: (state.threads i).files }
        else state.doThen i (.closing none (.drop file))))

/-- A thread that does nothing else begins with a call, or a thread goes on. -/
def step (disk : Memory) (state : OpenState Index) (i : Index) :
    OpenAction → Option (OpenPhase Index)
  | .filesysOpen name =>
      match (state.threads i).doing with
      | .idle =>
          some (.running (state.doThen i
            (.opening (.root name) rootDirSector .enter)))
      | _ => none
  | .fileRead reference offset =>
      match (state.threads i).doing with
      | .idle =>
          if reference ∈ (state.threads i).files then
            some (state.deref reference.inode fun cell =>
              state.setThread i
                { state.threads i with
                  read := some ⟨reference, offset, byteAt disk cell.data offset⟩ })
          else none
      | _ => none
  | .fileClose reference =>
      match (state.threads i).doing with
      | .idle =>
          if reference ∈ (state.threads i).files then
            some (.running (state.setThread i
              { state.threads i with
                doing := .closing none (.drop reference)
                files := (state.threads i).files.erase reference }))
          else none
      | _ => none
  | .advance memory => state.advance disk i memory

end OpenState

variable {Index : Type} [DecidableEq Index]

/-- After the start of the kernel one thread has the free map file open. -/
def started (disk : Memory) (state : OpenState Index) : Prop :=
  ∃ first inode,
    state.heap = Function.update (fun _ => none) inode
        (some ⟨freeMapSector, 1, diskInode disk freeMapSector⟩) ∧
      state.openInodes = [inode] ∧
        state.threads = Function.update (fun _ => {}) first
          { files := [⟨inode, freeMapSector⟩] }

/-- A thread is not in the way of another one that is in `inode_open` or
`inode_close`: it is not between two statements of them, and if it sleeps in
`block_read` it reads another sector. -/
def Doing.clear (other : Doing) (sector : Option Nat) : Bool :=
  !other.busy && (other.sleepsOn.isNone || decide (other.sector ≠ sector))

/-- A statement of `inode_open` or `inode_close`, but for the end of its
`block_read`, that is executed while no other thread is in the way. -/
def undisturbed [Fintype Index] (phase : OpenPhase Index) (label : Index × OpenAction) : Bool :=
  match phase, label.2 with
  | .running state, .advance _ =>
      match (state.threads label.1).doing with
      | .opening _ _ (.sleep _) => true
      | .opening _ sector _ =>
          decide (∀ other, other ≠ label.1 →
            (state.threads other).doing.clear (some sector) = true)
      | .closing _ _ =>
          decide (∀ other, other ≠ label.1 →
            (state.threads other).doing.clear none = true)
      | _ => true
  | _, _ => true

/-- What the concurrent use of files is to guarantee: the list of open inodes is
in order and has one inode for a sector, each of them is counted by those who have
it open, and whoever has it open finds the inode of the sector that was asked for
and reads the bytes of that file.  An inode whose fields are being set is left
out. -/
structure OpenGuarantee [Fintype Index] (disk : Memory) (state : OpenState Index) : Prop where
  nodup : state.openInodes.Nodup
  allocated : ∀ inode ∈ state.openInodes, ∃ cell, state.heap inode = some cell
  once : ∀ inode ∈ state.openInodes, ∀ other ∈ state.openInodes, ∀ cell otherCell,
      state.heap inode = some cell → state.heap other = some otherCell →
        (∀ i, (state.threads i).doing.assigns ≠ some inode) →
          (∀ i, (state.threads i).doing.assigns ≠ some other) →
            cell.sector = otherCell.sector → inode = other
  counted :
    ∀ inode ∈ state.openInodes, ∀ cell, state.heap inode = some cell →
      (∀ i, (state.threads i).doing.assigns ≠ some inode) →
        cell.openCnt = total (Thread.count inode) state.threads
  faithful : ∀ i, ∀ reference ∈ (state.threads i).references,
      reference.inode ∈ state.openInodes ∧
        ∃ cell, state.heap reference.inode = some cell ∧
          cell.sector = reference.sector ∧ cell.data = diskInode disk reference.sector
  read : ∀ i, ∀ result ∈ (state.threads i).read,
      result.byte = byteAt disk (diskInode disk result.reference.sector) result.offset

/-- The guarantee where there is a state. -/
def OpenPhase.Guarantee [Fintype Index] (disk : Memory) : OpenPhase Index → Prop
  | .running state => OpenGuarantee disk state
  | .undefined => False

/-- Any threads that open, read and close files. -/
def openSystem (disk : Memory) (Index : Type) [DecidableEq Index] :
    TransitionSystem (OpenPhase Index) (Index × OpenAction) where
  initial
    | .running state => started disk state
    | .undefined => False
  step
    | .running state, label => state.step disk label.1 label.2
    | .undefined, _ => none

end CS162.Filesys.OpenSteps
