import CS162.Foundation.RealMode

/-!
# The kernel loader

`loader.S`, which the BIOS starts in real mode.  A step of the scan for a kernel partition
or of the loading of the kernel runs the instructions from one label to the next jump.
What is printed on the serial port as well is left out, and the services of the BIOS keep
the registers.
-/

namespace CS162.Threads

open CS162.Foundation
open CS162.Foundation.RealMode

/-- `putc`: print the character in `AL`, and a line feed behind a carriage return. -/
def putc (m : Machine) (character : BitVec 8) : Machine :=
  let last := if character = 13 then 10#8 else character
  { m.cmp 13#8 last with
    screen := m.screen ++ UInt8.ofBitVec character :: if character = 13 then [10] else [] }

@[simp]
theorem putc_si (m : Machine) (character : BitVec 8) : (putc m character).si = m.si := rfl

@[simp]
theorem putc_load8 (m : Machine) (character : BitVec 8) (offset : BitVec 16) :
    (putc m character).load8 offset = m.load8 offset := rfl

/-- The characters of a string that `puts` prints. -/
def printed (string : String) : List UInt8 :=
  string.toList.flatMap fun ch =>
    if ch = '\r' then [13, 10] else [UInt8.ofNat ch.toNat]

/-- `puts`: the last thing that it tests is the zero byte at the end of the string. -/
def puts (m : Machine) (string : String) : Machine :=
  { m.test 0#8 0#8 with screen := m.screen ++ printed string }

/-- `read_sector` -/
def readSector (bios : Bios) (m : Machine) : Machine := m.extendedRead bios

/-! ## The scan for a kernel partition -/

/-- The labels from `read_mbr` to `load_kernel`, and the end of the loader behind
`no_boot_partition`. -/
inductive ScanPoint where
  | readMbr
  | checkPartition
  | nextPartition
  | nextDrive
  | noSuchDrive
  | notFound
  | loadKernel
  deriving DecidableEq

/-- The first instructions behind `read_mbr`. -/
def readFirst (bios : Bios) (m : Machine) : Machine :=
  let m := { m.clearFlags with ebx := 0 }
  let m := { m with ax := 0x2000 }
  let m := { m with es := m.ax }
  readSector bios m

/-- Print hd[a-z]. -/
def printDisk (m : Machine) : Machine :=
  let m := puts m " hd"
  let m := { m with ax := withLow m.ax m.dl }
  let m := { m.addFlags (0x61 - 0x80) m.al with
    ax := withLow m.ax (m.al + (0x61 - 0x80)) }
  putc m m.al

/-- From one label to the next. -/
def scanStep (bios : Bios) : ScanPoint × Machine → Option (ScanPoint × Machine)
  | (.readMbr, m) =>
      let m := readFirst bios m
      if m.carry then some (.noSuchDrive, m)
      else
        let m := printDisk m
        let m := m.cmp 0xaa55 (m.load16 510)
        if !m.zero then some (.nextDrive, m)
        else
          let m := { m with si := 446 }
          let m := { m with ax := withLow m.ax 0x31#8 }
          some (.checkPartition, m)
  | (.checkPartition, m) =>
      let m := m.cmp 0 (m.load32 m.si)
      if m.zero then some (.nextPartition, m)
      else
        let m := putc m m.al
        let m := m.cmp 0x20 (m.load8 (m.si + 4))
        if !m.zero then some (.nextPartition, m)
        else
          let m := m.cmp 0x80 (m.load8 m.si)
          if m.zero then some (.loadKernel, m) else some (.nextPartition, m)
  | (.nextPartition, m) =>
      let m := { m.addFlags 16 m.si with si := m.si + 16 }
      let m := { m.incFlags m.al with ax := withLow m.ax (m.al + 1) }
      let m := m.cmp 510 m.si
      if m.carry then some (.checkPartition, m) else some (.nextDrive, m)
  | (.nextDrive, m) =>
      let m := { m.incFlags m.dl with dx := withLow m.dx (m.dl + 1) }
      if !m.carry then some (.readMbr, m) else some (.noSuchDrive, m)
  | (.noSuchDrive, m) => some (.notFound, puts m "\rNot found\r")
  | (.notFound, _) => none
  | (.loadKernel, _) => none

/-! ## Loading the kernel -/

/-- The labels from `load_kernel` to the jump to the kernel, and the end of the loader
behind `read_failed`.  A buffer that is not in the memory from 0x10000 to 0xa0000, which
nothing else uses, is not followed further. -/
inductive LoadPoint where
  | loadKernel
  | nextSector
  | transfer
  | readFailed
  | badRead
  | lost
  deriving DecidableEq

/-- Cap size at 512 kB. -/
def capSize (m : Machine) : Machine :=
  let m := m.cmp 1024 m.ecx
  if m.carry || m.zero then m else { m with ecx := withLow m.ecx 1024#16 }

/-- The first instructions behind `load_kernel`. -/
def startLoading (m : Machine) : Machine :=
  let m := puts m "\rLoading"
  let m := { m with ecx := m.load32 (m.si + 12) }
  let m := capSize m
  let m := { m with ebx := m.load32 (m.si + 8) }
  { m with ax := 0x2000 }

/-- Print '.' as progress indicator once every 16 sectors. -/
def printProgress (m : Machine) : Machine :=
  let m := m.test 15 (low 8 m.ebx)
  if !m.zero then m else puts m "."

/-- Advance memory pointer and disk sector, and count down for `loop`. -/
def advance (m : Machine) : Machine :=
  let m := { m.addFlags 0x20 m.ax with ax := m.ax + 0x20 }
  let m := { m.incFlags (low 16 m.ebx) with
    ebx := withLow m.ebx (low 16 m.ebx + 1) }
  { m with ecx := withLow m.ecx (m.cx - 1) }

/-- From one label to the next. -/
def loadStep (bios : Bios) : LoadPoint × Machine → Option (LoadPoint × Machine)
  | (.loadKernel, m) => some (.nextSector, startLoading m)
  | (.nextSector, m) =>
      let m := { m with es := m.ax }
      if m.extra 0 < 0x10000 ∨ 0xa0000 < m.extra 0 + 512 then some (.lost, m)
      else
        let m := readSector bios m
        if m.carry then some (.readFailed, m)
        else
          let m := advance (printProgress m)
          if m.cx ≠ 0 then some (.nextSector, m) else some (.transfer, puts m "\r")
  | (.readFailed, m) => some (.badRead, puts m "\rBad read\r")
  | (.transfer, _) => none
  | (.badRead, _) => none
  | (.lost, _) => none

end CS162.Threads
