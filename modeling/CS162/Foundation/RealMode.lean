import Mathlib.Computability.StateTransition
import CS162.Foundation.Memory

/-!
# A processor in real mode

The general registers, `ES`, the carry and the zero flag of a processor in 16-bit mode,
with the instructions that set flags and the BIOS service that reads a sector.  An address
is 16 times the segment plus the offset.
-/

namespace CS162.Foundation.RealMode

/-- The low bits of a register. -/
def low (n : Nat) {w : Nat} (register : BitVec w) : BitVec n := register.setWidth n

/-- A register with other low bits. -/
def withLow {w n : Nat} (register : BitVec w) (part : BitVec n) : BitVec w :=
  BitVec.ofNat w (register.toNat / 2 ^ n * 2 ^ n + part.toNat)

/-- A sector that was read, with the address of its buffer. -/
structure Read where
  drive : BitVec 8
  sector : Nat
  address : Nat
  deriving DecidableEq

/-- The state of the processor and the memory, with what has been printed and read. -/
structure Machine where
  ax : BitVec 16
  ebx : BitVec 32
  ecx : BitVec 32
  dx : BitVec 16
  si : BitVec 16
  es : BitVec 16
  carry : Bool
  zero : Bool
  memory : Memory
  screen : List UInt8
  reads : List Read

/-- The sectors of all drives.  A sector that cannot be read has no contents. -/
abbrev Bios := BitVec 8 → BitVec 32 → Option Memory

namespace Machine

/-- `AL` -/
def al (m : Machine) : BitVec 8 := low 8 m.ax

/-- `DL` -/
def dl (m : Machine) : BitVec 8 := low 8 m.dx

/-- `CX` -/
def cx (m : Machine) : BitVec 16 := low 16 m.ecx

/-- The address of an offset in the segment of `ES`. -/
def extra (m : Machine) (offset : BitVec 16) : Nat := m.es.toNat * 16 + offset.toNat

/-- The byte at `ES:offset`. -/
def load8 (m : Machine) (offset : BitVec 16) : BitVec 8 := (m.memory (m.extra offset)).toBitVec

/-- The word at `ES:offset`. -/
def load16 (m : Machine) (offset : BitVec 16) : BitVec 16 :=
  BitVec.ofNat 16 ((m.memory (m.extra offset)).toNat + 256 * (m.memory (m.extra offset + 1)).toNat)

/-- The double word at `ES:offset`. -/
def load32 (m : Machine) (offset : BitVec 16) : BitVec 32 :=
  BitVec.ofNat 32 (m.memory.load32 (m.extra offset))

/-- `cmp right, left` -/
def cmp {w : Nat} (m : Machine) (right left : BitVec w) : Machine :=
  { m with carry := decide (left.toNat < right.toNat), zero := decide (left = right) }

/-- `test right, left` -/
def test {w : Nat} (m : Machine) (right left : BitVec w) : Machine :=
  { m with carry := false, zero := decide (left &&& right = 0) }

/-- The flags of `add right, left`. -/
def addFlags {w : Nat} (m : Machine) (right left : BitVec w) : Machine :=
  { m with
    carry := decide (2 ^ w ≤ left.toNat + right.toNat)
    zero := decide (left + right = 0) }

/-- The flags of `inc value`, which leaves the carry flag as it is. -/
def incFlags {w : Nat} (m : Machine) (value : BitVec w) : Machine :=
  { m with zero := decide (value + 1 = 0) }

/-- The flags of `sub value, value`. -/
def clearFlags (m : Machine) : Machine := { m with carry := false, zero := true }

/-- `int $0x13`, for an extended read of the sector in `EBX` from the drive in `DL` to
`ES:0000`. -/
def extendedRead (bios : Bios) (m : Machine) : Machine :=
  match bios m.dl m.ebx with
  | none => { m with carry := true }
  | some sector =>
      { m with
        carry := false
        memory := m.memory.splice (m.extra 0) 512 sector
        reads := m.reads ++ [⟨m.dl, m.ebx.toNat, m.extra 0⟩] }

section Flags

variable {w : Nat} (m : Machine) (right left : BitVec w) (offset : BitVec 16)

@[simp]
theorem cmp_zero : (m.cmp right left).zero = decide (left = right) := rfl

@[simp]
theorem cmp_carry : (m.cmp right left).carry = decide (left.toNat < right.toNat) := rfl

@[simp]
theorem cmp_si : (m.cmp right left).si = m.si := rfl

@[simp]
theorem cmp_load8 : (m.cmp right left).load8 offset = m.load8 offset := rfl

end Flags

theorem load32_congr {before after : Machine} (es : after.es = before.es)
    (memory : after.memory = before.memory) (offset : BitVec 16) :
    after.load32 offset = before.load32 offset := by
  rw [load32, load32, extra, extra, es, memory]

section Reading

variable {bios : Bios} {m : Machine} {sector : Memory}

theorem extendedRead_none (absent : bios m.dl m.ebx = none) :
    m.extendedRead bios = { m with carry := true } := by
  rw [extendedRead, absent]

theorem extendedRead_some (present : bios m.dl m.ebx = some sector) :
    m.extendedRead bios =
      { m with
        carry := false
        memory := m.memory.splice (m.extra 0) 512 sector
        reads := m.reads ++ [⟨m.dl, m.ebx.toNat, m.extra 0⟩] } := by
  rw [extendedRead, present]

end Reading

end Machine

/-! ## Parts of registers -/

@[simp]
theorem toNat_low (n : Nat) {w : Nat} (register : BitVec w) :
    (low n register).toNat = register.toNat % 2 ^ n :=
  BitVec.toNat_setWidth n register

theorem toNat_withLow_16 (register : BitVec 32) (part : BitVec 16) :
    (withLow register part).toNat = register.toNat / 65536 * 65536 + part.toNat := by
  have bound := register.isLt
  have small := part.isLt
  rw [withLow, BitVec.toNat_ofNat]
  omega

theorem toNat_withLow_8 (register : BitVec 16) (part : BitVec 8) :
    (withLow register part).toNat = register.toNat / 256 * 256 + part.toNat := by
  have bound := register.isLt
  have small := part.isLt
  rw [withLow, BitVec.toNat_ofNat]
  omega

theorem low_withLow_16 (register : BitVec 32) (part : BitVec 16) :
    low 16 (withLow register part) = part := by
  have small := part.isLt
  apply BitVec.eq_of_toNat_eq
  rw [toNat_low, toNat_withLow_16]
  omega

theorem low_withLow_8 (register : BitVec 16) (part : BitVec 8) :
    low 8 (withLow register part) = part := by
  have small := part.isLt
  apply BitVec.eq_of_toNat_eq
  rw [toNat_low, toNat_withLow_8]
  omega

end CS162.Foundation.RealMode
