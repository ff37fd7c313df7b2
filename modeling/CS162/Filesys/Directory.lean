import CS162.Filesys.FreeMap

/-!
# Directories

`filesys/directory.c`.  A name is its characters without the terminator.
-/

namespace CS162.Filesys

open CS162.Foundation
open CS162.Kernel

/-- `NAME_MAX`. -/
def nameMax : Nat := 14

/-- `sizeof(struct dir_entry)`. -/
def direntSize : Nat := 20

/-- `struct dir`. -/
structure Dir where
  inode : Nat
  pos : Nat
  deriving DecidableEq, Repr

/-- Which allocations succeed during one call: the inode and the handle of the
root directory, the bounce buffers for the entries that `lookup` and `dir_add`
read and for the one that is written, the inode and the handle that are opened
by name, and the bounce buffers for the free map when these and the root
directory are closed. -/
structure Mallocs where
  rootInode : Bool
  dir : Bool
  lookup : Nat → Bool
  slot : Nat → Bool
  write : Bool
  inode : Bool
  file : Bool
  close : Nat → Bool
  closeDir : Nat → Bool

/-- Memory is never short. -/
def Mallocs.plenty : Mallocs where
  rootInode := true
  dir := true
  lookup := always
  slot := always
  write := true
  inode := true
  file := true
  close := always
  closeDir := always

/-- `e.in_use`. -/
def entryInUse (e : Memory) : Bool := e 19 != 0

/-- `e.inode_sector`. -/
def entrySector (e : Memory) : Nat := e.load32 0

/-- `!strcmp(name, ..)` for the string that starts at the offset. -/
def sameName : List UInt8 → Memory → Nat → Bool
  | [], e, offset => e offset == 0
  | c :: rest, e, offset => e offset == c && sameName rest e (offset + 1)

/-- `e.name` as `strlcpy` copies it. -/
def entryName (e : Memory) : List UInt8 :=
  ((List.range nameMax).map fun i => e (4 + i)).takeWhile (· != 0)

/-- A name as a string in memory. -/
def nameBytes (name : List UInt8) : Memory := fun offset => name.getD offset 0

/-- The entry that `dir_add` writes over an old one: `strlcpy` copies as many
characters as there is room for and terminates them. -/
def newEntry (e : Memory) (name : List UInt8) (inodeSector : Nat) : Memory :=
  let dstLen := min name.length nameMax
  let named := (e.fill 19 1 1).splice 4 dstLen (nameBytes name)
  (named.fill (4 + dstLen) 1 0).store32 0 inodeSector

namespace Fs

/-- The rounds after which a search has passed the end of a directory. -/
def searchRounds (fs : Fs) (dir : Nat) : Nat :=
  (fs.findInode dir).elim 0 fun inode =>
    inode.data.length.toNat / direntSize + 1

/-- The loops of `lookup` and `dir_add`: go on to the first entry that passes
the test, and end with the last entry read, its offset and whether it
passes. -/
def searchLoop (fs : Fs) (dir : Nat) (bounce : Nat → Bool) (test : Memory → Bool) :
    Nat → Nat → Memory → Option (Memory × Nat × Bool)
  | 0, i, e => some (e, direntSize * i, false)
  | rounds + 1, i, e =>
      (fs.inodeReadAt dir (bounce i) e direntSize (direntSize * i)).bind
        fun
          | (e, count) =>
              if count = direntSize then
                if test e then some (e, direntSize * i, true)
                else fs.searchLoop dir bounce test rounds (i + 1) e
              else some (e, direntSize * i, false)

/-- `dir_create`. -/
def dirCreate (fs : Fs) (sector entryCnt : Nat) : Option (Fs × Bool) :=
  fs.inodeCreate sector (wrapSigned ((wrap (entryCnt * direntSize) : Nat) : Int))

/-- A handle for an inode, of which it takes ownership: the inode is closed
when there is no memory for the handle. -/
def openHandle {Handle : Type} (fs : Fs) (inode : Option Nat) (memory : Bool)
    (bounce : Nat → Bool) (handle : Nat → Handle) :
    Option (Fs × Option Handle) :=
  match inode, memory with
  | some inode, true => some (fs, some (handle inode))
  | inode, _ => (fs.inodeClose inode bounce).map (·, none)

/-- `dir_open`. -/
def dirOpen (fs : Fs) (inode : Option Nat) (memory : Bool)
    (bounce : Nat → Bool) : Option (Fs × Option Dir) :=
  fs.openHandle inode memory bounce fun inode => { inode := inode, pos := 0 }

/-- `dir_open_root`. -/
def dirOpenRoot (fs : Fs) (malloc : Mallocs) : Option (Fs × Option Dir) :=
  (fs.inodeOpen rootDirSector malloc.rootInode).bind fun
    | (fs, inode) => fs.dirOpen inode malloc.dir malloc.closeDir

/-- `dir_reopen`. -/
def dirReopen (fs : Fs) (dir : Dir) (memory : Bool) (bounce : Nat → Bool) :
    Option (Fs × Option Dir) :=
  (fs.inodeReopen dir.inode).dirOpen (some dir.inode) memory bounce

/-- `dir_close`. -/
def dirClose (fs : Fs) (dir : Option Dir) (bounce : Nat → Bool) : Option Fs :=
  fs.inodeClose (dir.map Dir.inode) bounce

/-- `lookup`: the entry and its offset. -/
def lookup (fs : Fs) (dir : Dir) (name : List UInt8) (bounce : Nat → Bool) :
    Option (Option (Memory × Nat)) :=
  (fs.searchLoop dir.inode bounce
      (fun e => entryInUse e && sameName name e 4)
      (fs.searchRounds dir.inode) 0 fs.stack).map
    fun
      | (e, ofs, true) => some (e, ofs)
      | (_, _, false) => none

/-- `dir_lookup`: the inode, opened. -/
def dirLookup (fs : Fs) (dir : Dir) (name : List UInt8) (malloc : Mallocs) :
    Option (Fs × Option Nat) :=
  (fs.lookup dir name malloc.lookup).bind fun
    | some (e, _) => fs.inodeOpen (entrySector e) malloc.inode
    | none => some (fs, none)

/-- `dir_add`. -/
def dirAdd (fs : Fs) (dir : Dir) (name : List UInt8) (inodeSector : Nat)
    (malloc : Mallocs) : Option (Fs × Bool) :=
  if name = [] ∨ name.length > nameMax then some (fs, false)
  else
    (fs.lookup dir name malloc.lookup).bind fun
      | some _ => some (fs, false)
      | none =>
          (fs.searchLoop dir.inode malloc.slot (fun e => !entryInUse e)
              (fs.searchRounds dir.inode) 0 fs.stack).bind fun
            | (e, ofs, _) =>
                (fs.inodeWriteAt dir.inode malloc.write
                    (newEntry e name inodeSector) direntSize ofs).map
                  fun written => (written.1, written.2 = direntSize)

/-- `dir_remove`. -/
def dirRemove (fs : Fs) (dir : Dir) (name : List UInt8) (malloc : Mallocs) : Option (Fs × Bool) :=
  (fs.lookup dir name malloc.lookup).bind fun
    | none => some (fs, false)
    | some (e, ofs) =>
        (fs.inodeOpen (entrySector e) malloc.inode).bind fun
          | (fs, none) => some (fs, false)
          | (fs, some inode) =>
              (fs.inodeWriteAt dir.inode malloc.write (e.fill 19 1 0)
                  direntSize ofs).bind fun
                | (fs, count) =>
                    let success := count = direntSize
                    ((if success then fs.inodeRemove inode
                        else fs).inodeClose (some inode) malloc.close).map
                      (·, decide success)

/-- The loop of `dir_readdir`. -/
def readdirLoop (fs : Fs) (bounce : Nat → Bool) :
    Nat → Dir → Memory → Option (Dir × Option (List UInt8))
  | 0, dir, _ => some (dir, none)
  | rounds + 1, dir, e =>
      (fs.inodeReadAt dir.inode (bounce dir.pos) e direntSize dir.pos).bind
        fun
          | (e, count) =>
              if count = direntSize then
                let dir := { dir with pos := dir.pos + direntSize }
                if entryInUse e then some (dir, some (entryName e))
                else fs.readdirLoop bounce rounds dir e
              else some (dir, none)

/-- `dir_readdir`: the name, if there is another one. -/
def dirReaddir (fs : Fs) (dir : Dir) (bounce : Nat → Bool) : Option (Dir × Option (List UInt8)) :=
  fs.readdirLoop bounce (fs.searchRounds dir.inode) dir fs.stack

end Fs

end CS162.Filesys
