import Mathlib
import CS162.Filesys.Filesys
import CS162.Userprog.Pte

/-!
# Executable files

The headers that `load` of `userprog/process.c` reads, and `validate_segment`.
-/

namespace CS162.Userprog

open CS162.Foundation

/-- A little-endian 16-bit number in memory. -/
def load16 (buffer : Memory) (address : Nat) : Nat :=
  (buffer address).toNat + 256 * (buffer (address + 1)).toNat

/-- A 32-bit number in memory. -/
def loadWord (buffer : Memory) (address : Nat) : Word := BitVec.ofNat 32 (buffer.load32 address)

/-- The fields of `struct Elf32_Ehdr` that `load` uses. -/
structure Elf32Ehdr where
  ident : List UInt8
  type : Nat
  machine : Nat
  version : Word
  entry : Word
  phoff : Word
  phentsize : Nat
  phnum : Nat

/-- `sizeof(struct Elf32_Ehdr)`. -/
def ehdrSize : Nat := 52

def Elf32Ehdr.ofBytes (buffer : Memory) : Elf32Ehdr where
  ident := (List.range 7).map buffer
  type := load16 buffer 16
  machine := load16 buffer 18
  version := loadWord buffer 20
  entry := loadWord buffer 24
  phoff := loadWord buffer 28
  phentsize := load16 buffer 42
  phnum := load16 buffer 44

/-- The fields of `struct Elf32_Phdr` that `load` uses. -/
structure Elf32Phdr where
  type : Word
  offset : Word
  vaddr : Word
  filesz : Word
  memsz : Word
  flags : Word

/-- `sizeof(struct Elf32_Phdr)`. -/
def phdrSize : Nat := 32

def Elf32Phdr.ofBytes (buffer : Memory) : Elf32Phdr where
  type := loadWord buffer 0
  offset := loadWord buffer 4
  vaddr := loadWord buffer 8
  filesz := loadWord buffer 16
  memsz := loadWord buffer 20
  flags := loadWord buffer 24

/-- The check of the executable header in `load`, apart from the number of bytes
that have been read. -/
def Elf32Ehdr.valid (ehdr : Elf32Ehdr) : Bool :=
  ehdr.ident = [0x7f, 0x45, 0x4c, 0x46, 1, 1, 1] && ehdr.type = 2 &&
    ehdr.machine = 3 && ehdr.version = 1#32 && ehdr.phentsize = phdrSize && ehdr.phnum ≤ 1024

/-- `PT_LOAD`. -/
def ptLoad : Word := 1#32

/-- `PT_DYNAMIC`, `PT_INTERP` and `PT_SHLIB`, which `load` rejects. -/
def rejectedTypes : List Word := [2#32, 3#32, 5#32]

instance (type : Word) : Decidable (type ∈ rejectedTypes) :=
  decidable_of_iff (type = 2#32 ∨ type = 3#32 ∨ type = 5#32) (by simp [rejectedTypes])

/-- `PF_W`. -/
def pfW : Word := 2#32

/-- `validate_segment`, with the length of the file. -/
def validateSegment (phdr : Elf32Phdr) (length : Int) : Bool :=
  !(pgOfs phdr.offset ≠ pgOfs phdr.vaddr ||
    BitVec.ofNat 32 (toUnsigned length) < phdr.offset ||
    phdr.memsz < phdr.filesz ||
    phdr.memsz = 0#32 ||
    !isUserVaddr phdr.vaddr ||
    !isUserVaddr (phdr.vaddr + phdr.memsz) ||
    phdr.vaddr + phdr.memsz < phdr.vaddr ||
    phdr.vaddr < BitVec.ofNat 32 pgSize)

/-- What `load` computes for `load_segment`. -/
structure SegmentPlan where
  filePage : Word
  memPage : Word
  readBytes : Word
  zeroBytes : Word
  writable : Bool

/-- `ROUND_UP`. -/
def roundUp (size : Word) : Word :=
  (size + BitVec.ofNat 32 pgSize - 1#32) / BitVec.ofNat 32 pgSize * BitVec.ofNat 32 pgSize

def segmentPlan (phdr : Elf32Phdr) : SegmentPlan where
  filePage := phdr.offset &&& ~~~pgMask
  memPage := phdr.vaddr &&& ~~~pgMask
  readBytes := if 0#32 < phdr.filesz then pgOfs phdr.vaddr + phdr.filesz else 0#32
  zeroBytes :=
    if 0#32 < phdr.filesz then
      roundUp (pgOfs phdr.vaddr + phdr.memsz) - (pgOfs phdr.vaddr + phdr.filesz)
    else roundUp (pgOfs phdr.vaddr + phdr.memsz)
  writable := phdr.flags &&& pfW ≠ 0#32

end CS162.Userprog
