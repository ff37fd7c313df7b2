import CS162.Filesys.Directory
import CS162.Foundation.TransitionSystem

/-!
# The file system

`filesys/filesys.c` and `filesys/file.c`, for one caller after the other.
-/

namespace CS162.Filesys

open CS162.Foundation
open CS162.Kernel

/-- `struct file`. -/
structure File where
  inode : Nat
  pos : Nat
  denyWrite : Bool
  deriving DecidableEq, Repr

namespace Fs

/-- `do_format`. -/
def doFormat (fs : Fs) : Option Fs :=
  fs.freeMapCreate.bind fun fs =>
    (fs.dirCreate rootDirSector 16).bind fun
      | (_, false) => none
      | (fs, true) => fs.freeMapClose

/-- The state of `filesys_init` after `free_map_init`. -/
def freeMapInit (deviceSize : Nat) (disk stack : Memory) (memory : Nat → Elem) : Option Fs :=
  (bitmapCreate deviceSize memory).map fun map =>
    { deviceSize := deviceSize
      disk := disk
      freeMap := (map.bitmapMark freeMapSector).bitmapMark rootDirSector
      freeMapFile := none
      openInodes := []
      stack := stack }

/-- `filesys_init`. -/
def filesysInit (deviceSize : Nat) (disk stack : Memory)
    (memory : Nat → Elem) (format : Bool) : Option Fs :=
  (freeMapInit deviceSize disk stack memory).bind fun fs =>
    (if format then fs.doFormat else some fs).bind Fs.freeMapOpen

/-- `filesys_done`. -/
def filesysDone (fs : Fs) : Option Fs := fs.freeMapClose

/-- What `filesys_create` does once the root directory is open, where memory
is not short: the sector it has taken, 0 if none, and whether it succeeds. -/
def createIn (fs : Fs) (dir : Dir) (name : List UInt8) (initialSize : Int) :
    Option (Fs × Nat × Bool) :=
  (fs.freeMapAllocate 1).bind fun
    | (fs, none) => some (fs, 0, false)
    | (fs, some inodeSector) =>
        (fs.inodeCreate inodeSector initialSize).bind fun
          | (fs, false) => some (fs, inodeSector, false)
          | (fs, true) =>
              (fs.dirAdd dir name inodeSector .plenty).map fun
                | (fs, success) => (fs, inodeSector, success)

/-- `filesys_create`, where memory is not short. -/
def filesysCreate (fs : Fs) (name : List UInt8) (initialSize : Int) : Option (Fs × Bool) :=
  (fs.dirOpenRoot .plenty).bind fun
    | (fs, dir) =>
        (dir.elim (some (fs, 0, false)) fun dir =>
            fs.createIn dir name initialSize).bind fun
          | (fs, inodeSector, success) =>
              (if success = false ∧ inodeSector ≠ 0 then
                  fs.freeMapRelease inodeSector 1 true
                else some fs).bind fun fs =>
                  (fs.dirClose dir always).map (·, success)

/-- `file_open`. -/
def fileOpen (fs : Fs) (inode : Option Nat) (memory : Bool)
    (bounce : Nat → Bool) : Option (Fs × Option File) :=
  fs.openHandle inode memory bounce fun inode =>
    { inode := inode, pos := 0, denyWrite := false }

/-- `filesys_open`. -/
def filesysOpen (fs : Fs) (name : List UInt8) (malloc : Mallocs) : Option (Fs × Option File) :=
  (fs.dirOpenRoot malloc).bind fun
    | (fs, dir) =>
        (dir.elim (some (fs, none)) fun dir =>
            fs.dirLookup dir name malloc).bind fun
          | (fs, inode) =>
              (fs.dirClose dir malloc.closeDir).bind fun fs =>
                fs.fileOpen inode malloc.file malloc.close

/-- `filesys_remove`. -/
def filesysRemove (fs : Fs) (name : List UInt8) (malloc : Mallocs) : Option (Fs × Bool) :=
  (fs.dirOpenRoot malloc).bind fun
    | (fs, dir) =>
        (dir.elim (some (fs, false)) fun dir =>
            fs.dirRemove dir name malloc).bind fun
          | (fs, success) =>
              (fs.dirClose dir malloc.closeDir).map (·, success)

/-- `file_reopen`. -/
def fileReopen (fs : Fs) (file : File) (memory : Bool) (bounce : Nat → Bool) :
    Option (Fs × Option File) :=
  (fs.inodeReopen file.inode).fileOpen (some file.inode) memory bounce

/-- `file_read`: the buffer, the number of bytes read and the file. -/
def fileRead (fs : Fs) (file : File) (buffer : Memory) (size : Int) :
    Option (Memory × Nat × File) :=
  (fs.inodeReadAt file.inode true buffer size file.pos).map fun
    | (buffer, bytesRead) =>
        (buffer, bytesRead, { file with pos := file.pos + bytesRead })

/-- `file_write`: the number of bytes written and the file. -/
def fileWrite (fs : Fs) (file : File) (bounce : Bool) (buffer : Memory)
    (size : Int) : Option (Fs × Nat × File) :=
  (fs.inodeWriteAt file.inode bounce buffer size file.pos).map fun
    | (fs, bytesWritten) =>
        (fs, bytesWritten, { file with pos := file.pos + bytesWritten })

/-- `file_deny_write`. -/
def fileDenyWrite (fs : Fs) (file : File) : Option (Fs × File) :=
  if file.denyWrite then some (fs, file)
  else (fs.inodeDenyWrite file.inode).map (·, { file with denyWrite := true })

/-- `file_allow_write`. -/
def fileAllowWrite (fs : Fs) (file : File) : Option (Fs × File) :=
  if file.denyWrite then
    (fs.inodeAllowWrite file.inode).map (·, { file with denyWrite := false })
  else some (fs, file)

/-- `file_close`. -/
def fileClose (fs : Fs) (file : File) (bounce : Nat → Bool) : Option Fs :=
  (fs.fileAllowWrite file).bind fun
    | (fs, file) => fs.inodeClose (some file.inode) bounce

end Fs

/-- What a caller may do with names and with its open files. -/
inductive FsCall where
  | create (name : List UInt8) (initialSize : Int)
  | open (name : List UInt8)
  | remove (name : List UInt8)
  | reopen (file : File)
  | read (file : File) (buffer : Memory) (size : Int)
  | write (file : File) (buffer : Memory) (size : Int)
  | close (file : File)

/-- A file system with the files that are open, or the end of the kernel. -/
inductive FsState where
  | running (fs : Fs) (files : List File)
  | panicked

namespace FsState

/-- The state after a call that gives a file system and open files. -/
def after : Option (Fs × List File) → FsState
  | some (fs, files) => .running fs files
  | none => .panicked

/-- One call where memory is not short.  Names are strings, and sizes are values
of `off_t`. -/
def step : FsState → FsCall → Option FsState
  | .running fs files, .create name initialSize =>
      if 0 ∉ name ∧ -2147483648 ≤ initialSize ∧ initialSize < 2147483648 then
        some (after ((fs.filesysCreate name initialSize).map (·.1, files)))
      else none
  | .running fs files, .open name =>
      if 0 ∉ name then
        some <| after <| (fs.filesysOpen name .plenty).map fun opened =>
              (opened.1, opened.2.toList ++ files)
      else none
  | .running fs files, .remove name =>
      if 0 ∉ name then
        some (after ((fs.filesysRemove name .plenty).map (·.1, files)))
      else none
  | .running fs files, .reopen file =>
      if file ∈ files then
        some <| after <| (fs.fileReopen file true always).map fun opened =>
              (opened.1, opened.2.toList ++ files)
      else none
  | .running fs files, .read file buffer size =>
      if file ∈ files then
        some <| after <| (fs.fileRead file buffer size).map fun read =>
              (fs, read.2.2 :: files.erase file)
      else none
  | .running fs files, .write file buffer size =>
      if file ∈ files then
        some <| after <| (fs.fileWrite file true buffer size).map fun written =>
              (written.1, written.2.2 :: files.erase file)
      else none
  | .running fs files, .close file =>
      if file ∈ files then
        some (after ((fs.fileClose file always).map (·, files.erase file)))
      else none
  | .panicked, _ => none

end FsState

/-- A call, or `filesys_done` and then `filesys_init` without formatting on the
same device. -/
inductive FsEvent where
  | call (call : FsCall)
  | reboot (stack : Memory) (memory : Nat → Elem)

/-- One event; the files that were open are gone after starting again. -/
def FsState.react : FsState → FsEvent → Option FsState
  | state, .call call => state.step call
  | .running fs _, .reboot stack memory =>
      some <| after <| (fs.filesysDone.bind fun done =>
            Fs.filesysInit done.deviceSize done.disk stack memory false).map
            (·, [])
  | .panicked, .reboot _ _ => none

/-- All runs of a file system after the device has been formatted. -/
def filesysSystem : TransitionSystem FsState FsEvent where
  initial state :=
    ∃ deviceSize disk stack memory fs,
      deviceSize < deviceLimit ∧
        Fs.filesysInit deviceSize disk stack memory true = some fs ∧ state = .running fs []
  step := FsState.react

end CS162.Filesys
