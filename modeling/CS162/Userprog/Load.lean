import CS162.Userprog.Elf
import CS162.Userprog.Pagedir

/-!
# Loading an executable

`load` of `userprog/process.c` with its helpers.  The results of the allocations
are a part of the environment: `palloc_get_page` returns a page that is not in use
or fails, at each call as it likes, and so does `malloc`.
-/

namespace CS162.Userprog

open CS162.Foundation CS162.Filesys Machine

/-- `palloc_get_page`: what it returns at a call, given the pages in use. -/
structure Allocator where
  get : Nat → List Word → Option Word
  fresh : ∀ {call used page}, get call used = some page → IsPage page ∧ page ∉ used

/-- What the code around `load` decides: the globals of the memory, what
`palloc_get_page` returns, whether `malloc` has memory for the process control
block, for what `filesys_open` allocates, for the bounce buffers of each read, and
when the file is closed. -/
structure ExecEnv where
  boot : Boot
  palloc : Allocator
  mallocPcb : Bool
  mallocs : Mallocs
  bounce : Nat → Bool
  closing : Nat → Bool

/-- Blocks of the heap: a process control block, and the handle of a file.  The
inodes that are open are in the list of the file system. -/
inductive HeapBlock where
  | pcb
  | file (inode : Nat)
deriving DecidableEq

/-- Memory, the file system, the blocks of the heap and the number of calls of
`palloc_get_page` and `file_read` so far. -/
structure LoadState where
  machine : Machine
  fs : Fs
  blocks : List HeapBlock
  calls : Nat

namespace LoadState

/-- `palloc_get_page`, with `PAL_ZERO` or without. -/
def pallocGetPage (st : LoadState) (env : ExecEnv) (zero : Bool) : Option Word × LoadState :=
  match env.palloc.get st.calls st.machine.used with
  | none => (none, { st with calls := st.calls + 1 })
  | some page =>
      (some page,
        { st with
          calls := st.calls + 1
          machine :=
            if zero then (st.machine.obtain page).fillPage page fun _ => 0#32
            else st.machine.obtain page })

/-- `palloc_free_page`. -/
def pallocFreePage (st : LoadState) (page : Word) : Option LoadState :=
  (st.machine.pallocFreePage page).map fun machine =>
    { st with machine := machine }

/-- `file_read`: the buffer, the number of bytes read and the file. -/
def fileRead (st : LoadState) (env : ExecEnv) (file : File) (buffer : Memory)
    (size : Nat) : Option (Memory × Nat × File × LoadState) :=
  (st.fs.inodeReadAt file.inode (env.bounce st.calls) buffer size file.pos).map
    fun done =>
      (done.1, done.2, { file with pos := file.pos + done.2 }, { st with calls := st.calls + 1 })

/-- `file_length`. -/
def fileLength (st : LoadState) (file : File) : Option Int :=
  (st.fs.findInode file.inode).map fun inode => inode.data.length

/-- `file_seek`. -/
def fileSeek (file : File) (pos : Int) : Option File :=
  if 0 ≤ pos then some { file with pos := pos.toNat } else none

/-- The bytes of a page. -/
def pageBytes (m : Machine) (page : Word) : Memory := fun offset =>
  Memory.byteOf (m.word page (offset / 4)).toNat (offset % 4)

/-- `install_page`. -/
def installPage (st : LoadState) (env : ExecEnv) (pd upage kpage : Word)
    (writable : Bool) : Option (Bool × LoadState) :=
  (st.machine.pagedirGetPage pd upage).bind fun found =>
    match found with
    | some _ => some (false, st)
    | none =>
        (st.machine.pagedirSetPage env.boot pd upage kpage writable
            (env.palloc.get st.calls st.machine.used)).map fun done =>
          (done.1, { st with machine := done.2, calls := st.calls + 1 })

/-- `install_page`, after which the page is freed where this fails. -/
def installOrFree (st : LoadState) (env : ExecEnv) (pd upage kpage : Word)
    (writable : Bool) : Option (Bool × LoadState) :=
  (st.installPage env pd upage kpage writable).bind fun installed =>
    if installed.1 then some installed
    else (installed.2.pallocFreePage kpage).map fun st => (false, st)

/-- One round of the loop of `load_segment`: a page is read from the file, the
rest of it is zeroed, and it is installed. -/
def loadPage (st : LoadState) (env : ExecEnv) (pd : Word) (file : File)
    (upage : Word) (pageReadBytes : Nat) (writable : Bool) :
    Option (Bool × File × LoadState) :=
  match st.pallocGetPage env false with
  | (none, st) => some (false, file, st)
  | (some kpage, st) =>
      (st.fileRead env file (pageBytes st.machine kpage) pageReadBytes).bind
        fun read =>
          let filled : LoadState :=
            { read.2.2.2 with
              machine := read.2.2.2.machine.fillPage kpage fun index =>
                loadWord
                  (if read.2.1 = pageReadBytes then
                    read.1.fill pageReadBytes (pgSize - pageReadBytes) 0
                  else read.1) (4 * index) }
          if read.2.1 ≠ pageReadBytes then
            (filled.pallocFreePage kpage).map fun st => (false, read.2.2.1, st)
          else
            (filled.installOrFree env pd upage kpage writable).map fun done =>
              (done.1, read.2.2.1, done.2)

/-- The loop of `load_segment`, which ends after as many rounds as there are
pages. -/
def loadPages (env : ExecEnv) (pd : Word) (writable : Bool) :
    Nat → Word → Word → Word → File → LoadState → Option (Bool × File × LoadState)
  | 0, _, _, _, file, st => some (true, file, st)
  | rounds + 1, upage, readBytes, zeroBytes, file, st =>
      if readBytes = 0#32 ∧ zeroBytes = 0#32 then some (true, file, st)
      else
        let pageReadBytes :=
          if readBytes < BitVec.ofNat 32 pgSize then readBytes
          else BitVec.ofNat 32 pgSize
        let pageZeroBytes := BitVec.ofNat 32 pgSize - pageReadBytes
        (st.loadPage env pd file upage pageReadBytes.toNat writable).bind
          fun done =>
            if done.1 then
              loadPages env pd writable rounds (upage + BitVec.ofNat 32 pgSize)
                (readBytes - pageReadBytes) (zeroBytes - pageZeroBytes) done.2.1
                done.2.2
            else some done

/-- `load_segment`. -/
def loadSegment (st : LoadState) (env : ExecEnv) (pd : Word) (file : File)
    (plan : SegmentPlan) : Option (Bool × File × LoadState) :=
  if (plan.readBytes + plan.zeroBytes).toNat % pgSize ≠ 0 then none
  else if pgOfs plan.memPage ≠ 0#32 then none
  else if plan.filePage.toNat % pgSize ≠ 0 then none
  else
    (fileSeek file plan.filePage.toInt).bind fun file =>
      loadPages env pd plan.writable
        ((plan.readBytes + plan.zeroBytes).toNat / pgSize) plan.memPage
        plan.readBytes plan.zeroBytes file st

/-- What `load` does with one program header: whether it goes on. -/
def loadHeader (st : LoadState) (env : ExecEnv) (pd : Word) (file : File)
    (length : Int) (phdr : Elf32Phdr) : Option (Bool × File × LoadState) :=
  if phdr.type ∈ rejectedTypes then some (false, file, st)
  else if phdr.type ≠ ptLoad then some (true, file, st)
  else if validateSegment phdr length then
    st.loadSegment env pd file (segmentPlan phdr)
  else some (false, file, st)

/-- The loop of `load` over the program headers. -/
def loadHeaders (env : ExecEnv) (pd : Word) :
    Nat → Int → File → LoadState → Option (Bool × File × LoadState)
  | 0, _, file, st => some (true, file, st)
  | count + 1, fileOfs, file, st =>
      (st.fileLength file).bind fun length =>
        if fileOfs < 0 ∨ length < fileOfs then some (false, file, st)
        else
          (fileSeek file fileOfs).bind fun file =>
            (st.fileRead env file st.fs.stack phdrSize).bind fun read =>
              if read.2.1 ≠ phdrSize then some (false, read.2.2.1, read.2.2.2)
              else
                (read.2.2.2.loadHeader env pd read.2.2.1 length
                    (.ofBytes read.1)).bind fun done =>
                  if done.1 then
                    loadHeaders env pd count (wrapSigned (fileOfs + phdrSize)) done.2.1 done.2.2
                  else some done

/-- `setup_stack`. -/
def setupStack (st : LoadState) (env : ExecEnv) (pd : Word) : Option (Bool × LoadState) :=
  match st.pallocGetPage env true with
  | (none, st) => some (false, st)
  | (some kpage, st) =>
      st.installOrFree env pd (physBase - BitVec.ofNat 32 pgSize) kpage true

/-- The part of `load` after the file has been opened: the entry point, if it
succeeds, and the file. -/
def loadFile (st : LoadState) (env : ExecEnv) (pd : Word) (file : File) :
    Option (Option Word × File × LoadState) :=
  (st.fileRead env file st.fs.stack ehdrSize).bind fun read =>
    let ehdr := Elf32Ehdr.ofBytes read.1
    if read.2.1 ≠ ehdrSize ∨ ehdr.valid = false then
      some (none, read.2.2.1, read.2.2.2)
    else
      (loadHeaders env pd ehdr.phnum ehdr.phoff.toInt read.2.2.1
          read.2.2.2).bind fun done =>
        if done.1 then
          (done.2.2.setupStack env pd).map fun stack =>
            (if stack.1 then some ehdr.entry else none, done.2.1, stack.2)
        else some (none, done.2.1, done.2.2)

end LoadState

/-- What `load` leaves behind: the page directory in the process control block, and
the entry point if it succeeds.  The initial stack pointer is then
`PHYS_BASE`. -/
structure Loaded where
  pagedir : Option Word
  entry : Option Word
  state : LoadState

namespace LoadState

/-- The part of `load` after the page directory has been activated. -/
def loadInto (st : LoadState) (env : ExecEnv) (pd : Word) (name : List UInt8) :
    Option (Option Word × LoadState) :=
  (st.fs.filesysOpen name env.mallocs).bind fun opened =>
    match opened.2 with
    | none => some (none, { st with fs := opened.1 })
    | some file =>
        (LoadState.loadFile
            { st with fs := opened.1, blocks := .file file.inode :: st.blocks } env pd
            file).bind fun done =>
          (done.2.2.fs.fileClose done.2.1 env.closing).map fun fs =>
            (done.1,
              { done.2.2 with
                fs := fs
                blocks := done.2.2.blocks.erase (.file done.2.1.inode) })

/-- `load`. -/
def load (st : LoadState) (env : ExecEnv) (name : List UInt8) : Option Loaded :=
  match env.palloc.get st.calls st.machine.used with
  | none => some ⟨none, none, { st with calls := st.calls + 1 }⟩
  | some pd =>
      (((st.machine.pagedirCreate env.boot (some pd)).2).pagedirActivate env.boot
          pd).bind fun machine =>
        (LoadState.loadInto { st with machine := machine, calls := st.calls + 1 } env
            pd name).map fun done => ⟨some pd, done.1, done.2⟩

end LoadState

end CS162.Userprog
