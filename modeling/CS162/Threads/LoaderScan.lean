import Mathlib.Data.List.Basic
import Mathlib.Data.Nat.Find
import CS162.Threads.Loader

/-!
# The scan of the loader

Which partition the loader finds, and how many disks it reads.
-/

namespace CS162.Threads

open CS162.Foundation
open CS162.Foundation.RealMode
open StateTransition

/-! ## Partition tables -/

/-- The word at the end of a sector. -/
def signature (sector : Memory) : Nat := (sector 510).toNat + 256 * (sector 511).toNat

/-- An entry of the partition table for a bootable partition of the kernel's type. -/
def KernelEntry (sector : Memory) (entry : Nat) : Prop :=
  sector (446 + 16 * entry) = 0x80 ∧ sector (446 + 16 * entry + 4) = 0x20

instance (sector : Memory) (entry : Nat) : Decidable (KernelEntry sector entry) :=
  inferInstanceAs (Decidable (_ ∧ _))

/-- A disk with a partition table and such an entry in it. -/
def KernelAt (disks : List Memory) (disk entry : Nat) : Prop :=
  ∃ sector, disks[disk]? = some sector ∧ signature sector = 0xaa55 ∧ entry < 4 ∧
    KernelEntry sector entry

/-- The first one, in the order of the disks and then of the entries. -/
structure FirstKernel (disks : List Memory) (disk entry : Nat) : Prop where
  here : KernelAt disks disk entry
  first : ∀ otherDisk otherEntry, KernelAt disks otherDisk otherEntry →
    disk < otherDisk ∨ (disk = otherDisk ∧ entry ≤ otherEntry)

/-! ## One block after another -/

/-- What no block of the scan changes but reading a sector and going to the next drive. -/
structure Kept (before after : Machine) : Prop where
  es : after.es = before.es
  dx : after.dx = before.dx
  memory : after.memory = before.memory
  reads : after.reads = before.reads

theorem Kept.trans {first second third : Machine} (kept : Kept first second)
    (keptToo : Kept second third) : Kept first third where
  es := keptToo.es.trans kept.es
  dx := keptToo.dx.trans kept.dx
  memory := keptToo.memory.trans kept.memory
  reads := keptToo.reads.trans kept.reads

theorem kept_cmp {w : Nat} (m : Machine) (right left : BitVec w) :
    Kept m (m.cmp right left) := ⟨rfl, rfl, rfl, rfl⟩

theorem kept_putc (m : Machine) (character : BitVec 8) : Kept m (putc m character) :=
  ⟨rfl, rfl, rfl, rfl⟩

theorem kept_puts (m : Machine) (string : String) : Kept m (puts m string) := ⟨rfl, rfl, rfl, rfl⟩

theorem kept_inc {w : Nat} (m : Machine) (value : BitVec w) (ax : BitVec 16) :
    Kept m { m.incFlags value with ax := ax } := ⟨rfl, rfl, rfl, rfl⟩

theorem kept_add {w : Nat} (m : Machine) (right left : BitVec w) (ax si : BitVec 16) :
    Kept m { m.addFlags right left with ax := ax, si := si } := ⟨rfl, rfl, rfl, rfl⟩

theorem kept_set (m : Machine) (si ax : BitVec 16) : Kept m { m with si := si, ax := ax } :=
  ⟨rfl, rfl, rfl, rfl⟩

/-- The sector is in the buffer at 0x20000, which `ES` stands for. -/
structure Holding (sector : Memory) (m : Machine) : Prop where
  segment : m.es = 0x2000
  buffer : ∀ offset < 512, m.memory (0x20000 + offset) = sector offset

theorem Holding.keep {sector : Memory} {before after : Machine}
    (holding : Holding sector before) (kept : Kept before after) :
    Holding sector after where
  segment := kept.es.trans holding.segment
  buffer := by
    rw [kept.memory]
    exact holding.buffer

section Blocks

variable {sector : Memory} {m : Machine} {entry : Nat}

theorem extra_eq (segment : m.es = 0x2000) (offset : BitVec 16) :
    m.extra offset = 0x20000 + offset.toNat := by
  rw [Machine.extra, segment]
  rfl

theorem Holding.load8 (holding : Holding sector m) {offset : BitVec 16}
    (inside : offset.toNat < 512) : m.load8 offset = (sector offset.toNat).toBitVec := by
  rw [Machine.load8, extra_eq holding.segment, ← holding.buffer _ inside]

/-- An entry that begins with four zero bytes is not bootable. -/
theorem load32_ne_zero (holding : Holding sector m) {offset : BitVec 16}
    (inside : offset.toNat < 512) (used : sector offset.toNat ≠ 0) :
    m.load32 offset ≠ 0 := by
  intro zero
  have value := congrArg BitVec.toNat zero
  have small : m.memory.load32 (m.extra offset) < 2 ^ 32 := m.memory.load32_lt _
  rw [Machine.load32, BitVec.toNat_ofNat, Nat.mod_eq_of_lt small, Memory.load32] at value
  change _ = 0 at value
  have byte : (m.memory (m.extra offset)).toNat = 0 := by omega
  have there : m.memory (m.extra offset) = sector offset.toNat := by
    rw [extra_eq holding.segment, ← holding.buffer _ inside]
  rw [there] at byte
  exact used (UInt8.toNat_inj.mp byte)

/-- The check of an entry. -/
theorem checkPartition_step (bios : Bios) (holding : Holding sector m)
    (place : m.si.toNat = 446 + 16 * entry) (inTable : entry < 4) :
    ∃ after, scanStep bios (.checkPartition, m) =
        some (if KernelEntry sector entry then .loadKernel else .nextPartition, after) ∧
      Kept m after ∧ after.si = m.si := by
  have flagAt : m.load8 m.si = (sector (446 + 16 * entry)).toBitVec := by
    rw [holding.load8 (by omega), place]
  have next : (m.si + 4).toNat = 446 + 16 * entry + 4 := by
    rw [BitVec.toNat_add, place]
    change (_ + 4) % 65536 = _
    omega
  have typeAt : m.load8 (m.si + 4) = (sector (446 + 16 * entry + 4)).toBitVec := by
    rw [holding.load8 (by omega), next]
  have signs : KernelEntry sector entry ↔ m.load8 m.si = 0x80 ∧ m.load8 (m.si + 4) = 0x20 := by
    rw [flagAt, typeAt]
    exact Iff.and UInt8.toBitVec_inj.symm UInt8.toBitVec_inj.symm
  have used : KernelEntry sector entry → m.load32 m.si ≠ 0 := by
    intro kernel
    refine load32_ne_zero holding (by omega) ?_
    rw [place, kernel.1]
    decide
  simp only [scanStep, Machine.cmp_zero, Machine.cmp_si, Machine.cmp_load8, putc_si,
    putc_load8, decide_eq_true_eq, Bool.not_eq_true', decide_eq_false_iff_not]
  have started := kept_cmp m 0 (m.load32 m.si)
  have typed := (started.trans (kept_putc _ (m.cmp 0 (m.load32 m.si)).al)).trans
    (kept_cmp _ 0x20 (m.load8 (m.si + 4)))
  have flagged := typed.trans (kept_cmp _ 0x80 (m.load8 m.si))
  by_cases unused : m.load32 m.si = 0
  · rw [if_pos unused, if_neg fun kernel => used kernel unused]
    exact ⟨_, rfl, started, by simp⟩
  · rw [if_neg unused]
    by_cases kernelType : m.load8 (m.si + 4) = 0x20
    · rw [if_neg (not_not_intro kernelType)]
      by_cases bootable : m.load8 m.si = 0x80
      · rw [if_pos bootable, if_pos (signs.mpr ⟨bootable, kernelType⟩)]
        exact ⟨_, rfl, flagged, by simp⟩
      · rw [if_neg bootable, if_neg fun kernel => bootable (signs.mp kernel).1]
        exact ⟨_, rfl, flagged, by simp⟩
    · rw [if_pos kernelType, if_neg fun kernel => kernelType (signs.mp kernel).2]
      exact ⟨_, rfl, typed, by simp⟩

/-- Going on to the next entry. -/
theorem nextPartition_step (bios : Bios) (place : m.si.toNat = 446 + 16 * entry)
    (inTable : entry < 4) :
    ∃ after, scanStep bios (.nextPartition, m) =
        some (if entry + 1 < 4 then .checkPartition else .nextDrive, after) ∧
      Kept m after ∧ after.si.toNat = 446 + 16 * (entry + 1) ∧
        after.carry = decide (entry + 1 < 4) := by
  have next : (m.si + 16).toNat = 446 + 16 * (entry + 1) := by
    rw [BitVec.toNat_add, place]
    change (_ + 16) % 65536 = _
    omega
  have below : (m.si + 16).toNat < (510 : BitVec 16).toNat ↔ entry + 1 < 4 := by
    rw [next]
    change _ < 510 ↔ _
    omega
  have kept := ((kept_add m 16 m.si m.ax (m.si + 16)).trans
    (kept_inc _ m.al (withLow m.ax (m.al + 1)))).trans (kept_cmp _ 510 (m.si + 16))
  rw [scanStep]
  by_cases more : entry + 1 < 4
  · rw [if_pos more, decide_eq_true more]
    refine ⟨_, if_pos (decide_eq_true (below.mpr more)), kept, next, ?_⟩
    exact decide_eq_true (below.mpr more)
  · rw [if_neg more, decide_eq_false more]
    refine ⟨_, if_neg fun taken => more (below.mp (of_decide_eq_true taken)), kept, next, ?_⟩
    exact decide_eq_false fun taken => more (below.mp taken)

/-- Going on to the next drive. -/
theorem nextDrive_step (bios : Bios) (m : Machine) :
    ∃ after, scanStep bios (.nextDrive, m) =
        some (if m.carry then .noSuchDrive else .readMbr, after) ∧
      after.dl = m.dl + 1 ∧ after.reads = m.reads := by
  have next : low 8 (withLow m.dx (m.dl + 1)) = m.dl + 1 := low_withLow_8 _ _
  rw [scanStep]
  cases carry : m.carry with
  | true => exact ⟨_, if_neg (by simp [Machine.incFlags, carry]), next, rfl⟩
  | false => exact ⟨_, if_pos (by simp [Machine.incFlags, carry]), next, rfl⟩

/-- There is no such drive. -/
theorem readMbr_none {bios : Bios} (absent : bios m.dl 0 = none) :
    ∃ after, scanStep bios (.readMbr, m) = some (.noSuchDrive, after) ∧
      after.reads = m.reads := by
  have failed : (readFirst bios m).carry = true ∧ (readFirst bios m).reads = m.reads := by
    rw [readFirst, readSector, Machine.extendedRead_none absent]
    exact ⟨rfl, rfl⟩
  exact ⟨_, if_pos failed.1, failed.2⟩

theorem kept_printDisk (m : Machine) : Kept m (printDisk m) :=
  ((kept_puts m " hd").trans (kept_add _ (0x61 - 0x80) (low 8 (withLow m.ax m.dl))
    (withLow (withLow m.ax m.dl) (low 8 (withLow m.ax m.dl) + (0x61 - 0x80))) m.si)).trans
      (kept_putc _ _)

/-- The first sector of a drive. -/
theorem readFirst_some {bios : Bios} (present : bios m.dl 0 = some sector) :
    (readFirst bios m).carry = false ∧ Holding sector (readFirst bios m) ∧
      (readFirst bios m).dx = m.dx ∧
        (readFirst bios m).reads = m.reads ++ [⟨m.dl, 0, 0x20000⟩] := by
  have base : { m.clearFlags with ebx := 0, ax := 0x2000, es := 0x2000 }.extra 0 =
      0x20000 + (0 : BitVec 16).toNat := extra_eq rfl 0
  rw [readFirst, readSector, Machine.extendedRead_some present, base]
  refine ⟨rfl, ⟨rfl, ?_⟩, rfl, rfl⟩
  intro offset inside
  exact Memory.splice_apply_add inside

theorem Holding.load16 (holding : Holding sector m) : (m.load16 510).toNat = signature sector := by
  have low := (sector 510).toNat_lt
  have high := (sector 511).toNat_lt
  have first : m.memory (m.extra 510) = sector 510 := by
    rw [extra_eq holding.segment]
    exact holding.buffer 510 (by omega)
  have second : m.memory (m.extra 510 + 1) = sector 511 := by
    rw [extra_eq holding.segment]
    exact holding.buffer 511 (by omega)
  rw [Machine.load16, first, second, BitVec.toNat_ofNat, signature]
  omega

theorem readMbr_some {bios : Bios} (present : bios m.dl 0 = some sector) :
    ∃ after, scanStep bios (.readMbr, m) =
        some (if signature sector = 0xaa55 then .checkPartition else .nextDrive, after) ∧
      Holding sector after ∧ after.dx = m.dx ∧
        after.reads = m.reads ++ [⟨m.dl, 0, 0x20000⟩] ∧
          (signature sector = 0xaa55 → after.si = 446) ∧
            (signature sector ≠ 0xaa55 →
              after.carry = decide (signature sector < 0xaa55)) := by
  rcases readFirst_some present with ⟨success, holding, sameDrive, read⟩
  have kept := kept_printDisk (readFirst bios m)
  have sameSignature := (holding.keep kept).load16
  have signed : (printDisk (readFirst bios m)).load16 510 = 0xaa55 ↔ signature sector = 0xaa55 := by
    rw [← sameSignature, ← BitVec.toNat_inj]
    rfl
  have after := kept.trans (kept_cmp _ 0xaa55 ((printDisk (readFirst bios m)).load16 510))
  have flag : ((printDisk (readFirst bios m)).cmp 0xaa55
      ((printDisk (readFirst bios m)).load16 510)).zero =
        decide (signature sector = 0xaa55) := decide_eq_decide.mpr signed
  rw [scanStep]
  simp only [success, Bool.false_eq_true, if_false]
  by_cases table : signature sector = 0xaa55
  · have entered := after.trans (kept_set _ 446 (withLow (Machine.cmp (printDisk
      (readFirst bios m)) 0xaa55 ((printDisk (readFirst bios m)).load16 510)).ax 0x31#8))
    rw [if_pos table]
    exact ⟨_, if_neg (by rw [flag, decide_eq_true table]; decide), holding.keep entered,
      entered.dx.trans sameDrive, entered.reads.trans read, fun _ => rfl,
      fun other => absurd table other⟩
  · rw [if_neg table]
    refine ⟨_, if_pos (by rw [flag, decide_eq_false table]; rfl), holding.keep after,
      after.dx.trans sameDrive, after.reads.trans read,
      fun same => absurd same table, fun _ => ?_⟩
    rw [Machine.cmp_carry, sameSignature]
    rfl

end Blocks

/-! ## The entries of one table -/

/-- An entry that is no kernel is skipped. -/
theorem entry_skipped (bios : Bios) {sector : Memory} {entry : Nat} {m : Machine}
    (holding : Holding sector m) (place : m.si.toNat = 446 + 16 * entry)
    (inTable : entry < 4) (other : ¬KernelEntry sector entry) :
    ∃ after, Reaches (scanStep bios) (.checkPartition, m)
        (if entry + 1 < 4 then .checkPartition else .nextDrive, after) ∧
      Kept m after ∧ after.si.toNat = 446 + 16 * (entry + 1) ∧
        after.carry = decide (entry + 1 < 4) := by
  rcases checkPartition_step bios holding place inTable with ⟨checked, check, keptFirst, sameEntry⟩
  rw [if_neg other] at check
  rw [← sameEntry] at place
  rcases nextPartition_step bios place inTable with ⟨after, next, keptNext, moved, carry⟩
  exact ⟨after, .head check (.single next), keptFirst.trans keptNext, moved, carry⟩

/-- The scan stops at an entry for a kernel. -/
theorem entry_found (bios : Bios) {sector : Memory} {entry : Nat} {m : Machine}
    (holding : Holding sector m) (place : m.si.toNat = 446 + 16 * entry)
    (inTable : entry < 4) (kernel : KernelEntry sector entry) :
    ∃ after, Reaches (scanStep bios) (.checkPartition, m) (.loadKernel, after) ∧
      Kept m after ∧ after.si.toNat = 446 + 16 * entry := by
  rcases checkPartition_step bios holding place inTable with ⟨after, check, kept, sameEntry⟩
  rw [if_pos kernel] at check
  rw [← sameEntry] at place
  exact ⟨after, .single check, kept, place⟩

/-- What holds of one number and of all behind it holds of all from it on. -/
theorem forall_from {p : Nat → Prop} {first : Nat} (here : p first)
    (later : ∀ other, first + 1 ≤ other → p other) : ∀ other, first ≤ other → p other := by
  intro other lower
  rcases Nat.eq_or_lt_of_le lower with same | behind
  · rw [← same]
    exact here
  · exact later other behind

/-- The scan of the entries from one on ends at the first one for a kernel, or it goes on
to the next drive with the carry flag clear. -/
theorem entries_scanned (bios : Bios) {sector : Memory} {left entry : Nat} {m : Machine}
    (more : entry + (left + 1) = 4) (holding : Holding sector m)
    (place : m.si.toNat = 446 + 16 * entry) :
    (∃ found after, entry ≤ found ∧ found < 4 ∧ KernelEntry sector found ∧
      (∀ other, entry ≤ other → other < found → ¬KernelEntry sector other) ∧
        Reaches (scanStep bios) (.checkPartition, m) (.loadKernel, after) ∧
          Kept m after ∧ after.si.toNat = 446 + 16 * found) ∨
    (∀ other, entry ≤ other → other < 4 → ¬KernelEntry sector other) ∧
      ∃ after, Reaches (scanStep bios) (.checkPartition, m) (.nextDrive, after) ∧
        Kept m after ∧ after.carry = false := by
  induction left generalizing entry m with
  | zero =>
      by_cases kernel : KernelEntry sector entry
      · rcases entry_found bios holding place (by omega) kernel with ⟨after, run, kept, there⟩
        exact Or.inl ⟨entry, after, Nat.le_refl entry, by omega, kernel,
          fun other lower upper => absurd upper (Nat.not_lt.mpr lower), run, kept, there⟩
      · rcases entry_skipped bios holding place (by omega) kernel with
          ⟨after, skipped, kept, _, carry⟩
        have last : ¬entry + 1 < 4 := by omega
        rw [if_neg last] at skipped
        rw [decide_eq_false last] at carry
        refine Or.inr ⟨forall_from (fun _ => kernel) ?_, after, skipped, kept, carry⟩
        intro other lower upper
        omega
  | succ left inductionHypothesis =>
      by_cases kernel : KernelEntry sector entry
      · rcases entry_found bios holding place (by omega) kernel with ⟨after, run, kept, there⟩
        exact Or.inl ⟨entry, after, Nat.le_refl entry, by omega, kernel,
          fun other lower upper => absurd upper (Nat.not_lt.mpr lower), run, kept, there⟩
      · rcases entry_skipped bios holding place (by omega) kernel with
          ⟨middle, skipped, kept, moved, _⟩
        rw [if_pos (by omega)] at skipped
        rcases inductionHypothesis (by omega) (holding.keep kept) moved with
          ⟨found, after, lower, upper, entryFound, first, run, keptLater, there⟩ |
          ⟨noEntry, after, run, keptLater, carry⟩
        · exact Or.inl ⟨found, after, Nat.le_of_succ_le lower, upper, entryFound,
            forall_from (fun _ => kernel) first, skipped.trans run, kept.trans keptLater,
            there⟩
        · exact Or.inr ⟨forall_from (fun _ => kernel) noEntry, after, skipped.trans run,
            kept.trans keptLater, carry⟩

/-! ## The disks -/

/-- A disk behind which the scan goes on. -/
def Passed (disks : List Memory) (disk : Nat) : Prop :=
  ∃ sector, disks[disk]? = some sector ∧ 0xaa55 ≤ signature sector ∧
    ∀ entry, ¬KernelAt disks disk entry

/-- A disk without a partition table behind which the scan stops. -/
def Stops (disks : List Memory) (disk : Nat) : Prop :=
  ∃ sector, disks[disk]? = some sector ∧ signature sector < 0xaa55

/-- The reading of the first sector of a disk. -/
def mbrRead (disk : Nat) : Read := ⟨BitVec.ofNat 8 (0x80 + disk), 0, 0x20000⟩

/-- The scan of the disks from one on has found a kernel. -/
structure KernelFound (disks : List Memory) (first disk entry : Nat) (after : Machine) : Prop where
  start : first ≤ disk
  here : KernelAt disks disk entry
  least : ∀ other, other < entry → ¬KernelAt disks disk other
  passed : ∀ other, first ≤ other → other < disk → Passed disks other
  drive : after.dl.toNat = 0x80 + disk
  place : after.si.toNat = 446 + 16 * entry

/-- The scan of the disks from one on has stopped in front of a disk or at the end. -/
structure NothingFound (disks : List Memory) (first stop : Nat) (before after : Machine) :
    Prop where
  start : first ≤ stop
  bound : stop ≤ disks.length
  passed : ∀ other, first ≤ other → other + 1 < stop → Passed disks other
  last : ∀ other, first ≤ other → other < stop → ∀ entry, ¬KernelAt disks other entry
  behind : stop = disks.length ∨ ∃ other, first ≤ other ∧ other + 1 = stop ∧ Stops disks other
  reads : after.reads = before.reads ++ (List.range' first (stop - first)).map mbrRead

/-- All drives that the BIOS has, by their first sectors. -/
def Connected (bios : Bios) (disks : List Memory) : Prop :=
  ∀ disk, disk < 128 → bios (BitVec.ofNat 8 (0x80 + disk)) 0 = disks[disk]?

theorem kernelAt_iff {disks : List Memory} {disk entry : Nat} {sector : Memory}
    (there : disks[disk]? = some sector) :
    KernelAt disks disk entry ↔
      signature sector = 0xaa55 ∧ entry < 4 ∧ KernelEntry sector entry := by
  constructor
  · rintro ⟨other, same, kernel⟩
    rw [there] at same
    cases same
    exact kernel
  · intro kernel
    exact ⟨sector, there, kernel⟩

theorem KernelFound.of_next {disks : List Memory} {first disk entry : Nat}
    {after : Machine} (here : Passed disks first)
    (found : KernelFound disks (first + 1) disk entry after) :
    KernelFound disks first disk entry after where
  start := Nat.le_of_succ_le found.start
  here := found.here
  least := found.least
  passed := forall_from (fun _ => here) found.passed
  drive := found.drive
  place := found.place

theorem NothingFound.of_next {disks : List Memory} {first stop : Nat}
    {before middle after : Machine} (here : Passed disks first)
    (reads : middle.reads = before.reads ++ [mbrRead first])
    (nothing : NothingFound disks (first + 1) stop middle after) :
    NothingFound disks first stop before after where
  start := Nat.le_of_succ_le nothing.start
  bound := nothing.bound
  passed := forall_from (fun _ => here) nothing.passed
  last := by
    rcases here with ⟨_, _, _, none⟩
    exact forall_from (fun _ => none) nothing.last
  behind := by
    rcases nothing.behind with whole | ⟨other, lower, next, stops⟩
    · exact Or.inl whole
    · exact Or.inr ⟨other, by omega, next, stops⟩
  reads := by
    have start := nothing.start
    have longer : stop - first = stop - (first + 1) + 1 := by omega
    rw [nothing.reads, reads, longer, List.range'_succ, List.map_cons, List.append_assoc]
    rfl

/-- The scan has read all disks. -/
theorem NothingFound.of_end {disks : List Memory} {first : Nat} {before after : Machine}
    (whole : first = disks.length) (reads : after.reads = before.reads) :
    NothingFound disks first first before after where
  start := Nat.le_refl first
  bound := Nat.le_of_eq whole
  passed := by
    intro other lower upper
    omega
  last := by
    intro other lower upper
    omega
  behind := Or.inl whole
  reads := by
    rw [Nat.sub_self, List.range'_zero, List.map_nil, List.append_nil]
    exact reads

/-- The scan stops behind a disk without a partition table. -/
theorem NothingFound.of_stop {disks : List Memory} {first : Nat} {before after : Machine}
    (inside : first < disks.length) (none : ∀ entry, ¬KernelAt disks first entry)
    (stops : Stops disks first) (reads : after.reads = before.reads ++ [mbrRead first]) :
    NothingFound disks first (first + 1) before after where
  start := Nat.le_succ first
  bound := inside
  passed := by
    intro other lower upper
    omega
  last := by
    intro other lower upper
    have same : other = first := by omega
    rw [same]
    exact none
  behind := Or.inr ⟨first, Nat.le_refl first, rfl, stops⟩
  reads := by
    rw [Nat.add_sub_cancel_left]
    exact reads

theorem notFound_run (bios : Bios) (m : Machine) :
    Reaches (scanStep bios) (.noSuchDrive, m) (.notFound, puts m "\rNot found\r") :=
  .single rfl

/-- What the scan does with one disk: it finds a kernel there, or it goes to the next
drive, where the carry flag is set exactly behind a signature that is too small. -/
theorem disk_scanned {bios : Bios} {sector : Memory} {m : Machine}
    (present : bios m.dl 0 = some sector) :
    (∃ entry after, signature sector = 0xaa55 ∧ entry < 4 ∧ KernelEntry sector entry ∧
      (∀ other, other < entry → ¬KernelEntry sector other) ∧
        Reaches (scanStep bios) (.readMbr, m) (.loadKernel, after) ∧
          after.dl = m.dl ∧ after.si.toNat = 446 + 16 * entry) ∨
    (∀ entry, entry < 4 → signature sector = 0xaa55 → ¬KernelEntry sector entry) ∧
      ∃ after, Reaches (scanStep bios) (.readMbr, m) (.nextDrive, after) ∧
        after.dl = m.dl ∧ after.reads = m.reads ++ [⟨m.dl, 0, 0x20000⟩] ∧
          after.carry = decide (signature sector < 0xaa55) := by
  rcases readMbr_some present with ⟨begun, read, holding, drive, reads, entered, skipped⟩
  by_cases table : signature sector = 0xaa55
  · rw [if_pos table] at read
    have place : begun.si.toNat = 446 + 16 * 0 := by
      rw [entered table]
      rfl
    rcases entries_scanned bios (Nat.zero_add 4) holding place with
      ⟨entry, after, _, inTable, kernel, first, run, kept, there⟩ |
      ⟨none, after, run, kept, carry⟩
    · refine Or.inl ⟨entry, after, table, inTable, kernel,
        fun other below => first other (Nat.zero_le other) below, .head read run, ?_, there⟩
      rw [Machine.dl, kept.dx, drive]
      rfl
    · refine Or.inr ⟨fun entry inTable _ => none entry (Nat.zero_le entry) inTable, after,
        .head read run, ?_, kept.reads.trans reads, ?_⟩
      · rw [Machine.dl, kept.dx, drive]
        rfl
      · rw [carry, table]
        rfl
  · rw [if_neg table] at read
    refine Or.inr ⟨fun entry _ same => absurd same table, begun, .single read, ?_, reads,
      skipped table⟩
    rw [Machine.dl, drive]
    rfl

theorem dl_eq {register : BitVec 8} {disk : Nat} (value : register.toNat = 0x80 + disk) :
    register = BitVec.ofNat 8 (0x80 + disk) := by
  rw [← value, BitVec.ofNat_toNat, BitVec.setWidth_eq]

theorem disks_scanned {bios : Bios} {disks : List Memory} (few : disks.length < 128)
    (connected : Connected bios disks) {left first : Nat} {m : Machine}
    (more : first + left = disks.length) (drive : m.dl.toNat = 0x80 + first) :
    (∃ disk entry after, Reaches (scanStep bios) (.readMbr, m) (.loadKernel, after) ∧
      KernelFound disks first disk entry after) ∨
    (∃ stop after, Reaches (scanStep bios) (.readMbr, m) (.notFound, after) ∧
      NothingFound disks first stop m after) := by
  induction left generalizing first m with
  | zero =>
      have contents := connected first (by omega)
      rw [← dl_eq drive, List.getElem?_eq_none (by omega)] at contents
      rcases readMbr_none contents with ⟨failed, read, reads⟩
      exact Or.inr ⟨first, _, .head read (notFound_run bios failed), .of_end more reads⟩
  | succ left inductionHypothesis =>
      have inside : first < disks.length := by omega
      have contents := connected first (by omega)
      have there := List.getElem?_eq_getElem inside
      rw [← dl_eq drive, there] at contents
      rcases disk_scanned contents with
        ⟨entry, after, table, inTable, kernel, least, run, sameDrive, place⟩ |
        ⟨noKernel, skipped, run, sameDrive, reads, carry⟩
      · refine Or.inl ⟨first, entry, after, run, ?_⟩
        constructor
        · exact Nat.le_refl first
        · exact (kernelAt_iff there).mpr ⟨table, inTable, kernel⟩
        · intro other below kernelToo
          exact least other below ((kernelAt_iff there).mp kernelToo).2.2
        · intro other lower upper
          omega
        · rw [sameDrive, drive]
        · exact place
      · have none : ∀ entry, ¬KernelAt disks first entry := by
          intro entry kernel
          rcases (kernelAt_iff there).mp kernel with ⟨table, inTable, found⟩
          exact noKernel entry inTable table found
        rw [dl_eq drive] at reads
        rcases nextDrive_step bios skipped with ⟨next, step, nextDrive, nextReads⟩
        have readsNext := nextReads.trans reads
        by_cases small : signature disks[first] < 0xaa55
        · rw [carry, decide_eq_true small, if_pos rfl] at step
          exact Or.inr ⟨first + 1, _, run.trans (.head step (notFound_run bios next)),
            .of_stop inside none ⟨_, there, small⟩ readsNext⟩
        · rw [carry, decide_eq_false small, if_neg Bool.false_ne_true] at step
          have passed : Passed disks first := ⟨_, there, Nat.le_of_not_lt small, none⟩
          have driveNext : next.dl.toNat = 0x80 + (first + 1) := by
            rw [nextDrive, sameDrive, BitVec.toNat_add, drive]
            change (_ + 1) % 256 = _
            omega
          rcases inductionHypothesis (by omega) driveNext with
            ⟨disk, entry, after, runLater, found⟩ | ⟨stop, after, runLater, nothing⟩
          · exact Or.inl ⟨disk, entry, after, run.trans (.head step runLater), found.of_next passed⟩
          · exact Or.inr ⟨stop, after, run.trans (.head step runLater),
              nothing.of_next passed readsNext⟩

/-! ## What the scan is for -/

/-- The scan goes on to load the first kernel.  If there is none, it ends when it has read
the first sectors of all disks. -/
structure ScanRight (disks : List Memory) (before : Machine) (last : ScanPoint × Machine) :
    Prop where
  found : ∀ disk entry, FirstKernel disks disk entry →
    last.1 = .loadKernel ∧ last.2.dl.toNat = 0x80 + disk ∧ last.2.si.toNat = 446 + 16 * entry
  nothing : (∀ disk entry, ¬KernelAt disks disk entry) →
    last.1 = .notFound ∧ last.2.reads = before.reads ++ (List.range disks.length).map mbrRead

theorem exists_firstKernel {disks : List Memory} {disk entry : Nat}
    (kernel : KernelAt disks disk entry) :
    ∃ firstDisk firstEntry, FirstKernel disks firstDisk firstEntry := by
  classical
  have someDisk : ∃ disk entry, KernelAt disks disk entry := ⟨disk, entry, kernel⟩
  have someEntry := Nat.find_spec someDisk
  refine ⟨Nat.find someDisk, Nat.find someEntry, Nat.find_spec someEntry, ?_⟩
  intro otherDisk otherEntry other
  have least : Nat.find someDisk ≤ otherDisk := Nat.find_min' someDisk ⟨otherEntry, other⟩
  rcases Nat.lt_or_eq_of_le least with before | same
  · exact Or.inl before
  · rw [← same] at other
    exact Or.inr ⟨same, Nat.find_min' someEntry other⟩

theorem KernelFound.unique {disks : List Memory} {disk entry firstDisk firstEntry : Nat}
    {after : Machine} (found : KernelFound disks 0 disk entry after)
    (first : FirstKernel disks firstDisk firstEntry) :
    firstDisk = disk ∧ firstEntry = entry := by
  have order := first.first disk entry found.here
  have notBefore : ¬firstDisk < disk := by
    intro before
    rcases found.passed firstDisk (Nat.zero_le _) before with ⟨_, _, _, none⟩
    exact none firstEntry first.here
  have sameDisk : firstDisk = disk := by omega
  have notSmaller : ¬firstEntry < entry := by
    intro smaller
    apply found.least firstEntry smaller
    rw [← sameDisk]
    exact first.here
  exact ⟨sameDisk, by omega⟩

theorem not_stops {disks : List Memory} {disk : Nat} {sector : Memory}
    (there : disks[disk]? = some sector) (large : 0xaa55 ≤ signature sector) :
    ¬Stops disks disk := by
  rintro ⟨same, thereToo, small⟩
  rw [there] at thereToo
  cases thereToo
  omega

theorem not_stops_of_passed {disks : List Memory} {disk : Nat}
    (passed : Passed disks disk) : ¬Stops disks disk := by
  rcases passed with ⟨sector, there, large, _⟩
  exact not_stops there large

theorem not_stops_of_kernelAt {disks : List Memory} {disk entry : Nat}
    (kernel : KernelAt disks disk entry) : ¬Stops disks disk := by
  rcases kernel with ⟨sector, there, table, _⟩
  exact not_stops there (Nat.le_of_eq table.symm)

theorem lt_length_of_kernelAt {disks : List Memory} {disk entry : Nat}
    (kernel : KernelAt disks disk entry) : disk < disks.length := by
  rcases kernel with ⟨sector, there, _⟩
  exact (List.getElem?_eq_some_iff.mp there).1

/-- A scan that stops in front of a disk is not right. -/
theorem NothingFound.not_right {disks : List Memory} {stop : Nat} {before after : Machine}
    (nothing : NothingFound disks 0 stop before after) (early : stop ≠ disks.length) :
    ¬ScanRight disks before (.notFound, after) := by
  intro right
  by_cases kernels : ∃ disk entry, KernelAt disks disk entry
  · rcases kernels with ⟨disk, entry, kernel⟩
    rcases exists_firstKernel kernel with ⟨firstDisk, firstEntry, first⟩
    have goesOn := (right.found firstDisk firstEntry first).1
    cases goesOn
  · have none : ∀ disk entry, ¬KernelAt disks disk entry :=
      fun disk entry kernel => kernels ⟨disk, entry, kernel⟩
    have same := nothing.reads.symm.trans (right.nothing none).2
    have lengths := congrArg List.length same
    simp only [List.length_append, List.length_map, List.length_range,
      List.length_range'] at lengths
    omega

/-- The scan does what it is for exactly if every disk with a signature that is too small,
and another disk behind it, comes after a disk with a kernel. -/
theorem scan_finds_iff (bios : Bios) (disks : List Memory) (m : Machine)
    (few : disks.length < 128) (connected : Connected bios disks) (start : m.dl = 0x80) :
    (∃ last ∈ eval (scanStep bios) (.readMbr, m), ScanRight disks m last) ↔
      ∀ disk, disk + 1 < disks.length → Stops disks disk →
        ∃ earlier entry, earlier < disk ∧ KernelAt disks earlier entry := by
  have drive : m.dl.toNat = 0x80 + 0 := by
    rw [start]
    rfl
  rcases disks_scanned few connected (Nat.zero_add disks.length) drive with
    ⟨disk, entry, after, run, found⟩ | ⟨stop, after, run, nothing⟩
  · -- a kernel is found
    refine iff_of_true ⟨_, mem_eval.mpr ⟨run, rfl⟩, ?_, ?_⟩ ?_
    · intro firstDisk firstEntry first
      rcases found.unique first with ⟨rfl, rfl⟩
      exact ⟨rfl, found.drive, found.place⟩
    · intro none
      exact absurd found.here (none disk entry)
    · intro other _ stops
      rcases Nat.lt_trichotomy other disk with before | same | behind
      · exact absurd stops (not_stops_of_passed (found.passed other (Nat.zero_le _) before))
      · rw [same] at stops
        exact absurd stops (not_stops_of_kernelAt found.here)
      · exact ⟨disk, entry, behind, found.here⟩
  · have ends : (ScanPoint.notFound, after) ∈ eval (scanStep bios) (.readMbr, m) :=
      mem_eval.mpr ⟨run, rfl⟩
    by_cases whole : stop = disks.length
    · -- all disks are read
      have none : ∀ disk entry, ¬KernelAt disks disk entry := by
        intro disk entry kernel
        have inside := lt_length_of_kernelAt kernel
        exact nothing.last disk (Nat.zero_le _) (by omega) entry kernel
      refine iff_of_true ⟨_, ends, ?_, ?_⟩ ?_
      · intro disk entry first
        exact absurd first.here (none disk entry)
      · intro _
        have reads := nothing.reads
        rw [Nat.sub_zero, ← List.range_eq_range', whole] at reads
        exact ⟨rfl, reads⟩
      · intro disk more stops
        exact absurd stops (not_stops_of_passed (nothing.passed disk (Nat.zero_le _) (by omega)))
    · -- the scan stops too early
      have bound := nothing.bound
      rcases nothing.behind.resolve_left whole with ⟨other, _, next, stops⟩
      refine iff_of_false ?_ ?_
      · rintro ⟨last, endsToo, right⟩
        cases Part.mem_unique ends endsToo
        exact nothing.not_right whole right
      · intro condition
        rcases condition other (by omega) stops with ⟨earlier, entry, before, kernel⟩
        exact nothing.last earlier (Nat.zero_le _) (by omega) entry kernel

/-! ## Two disks -/

/-- The BIOS with some disks. -/
def drives (disks : List Memory) : Bios := fun drive _ =>
  if 0x80 ≤ drive.toNat then disks[drive.toNat - 0x80]? else none

theorem connected_drives (disks : List Memory) : Connected (drives disks) disks := by
  intro disk bound
  have value : (BitVec.ofNat 8 (0x80 + disk)).toNat = 0x80 + disk := by
    rw [BitVec.toNat_ofNat]
    omega
  rw [drives, value, if_pos (Nat.le_add_right _ _), Nat.add_sub_cancel_left]

/-- A disk with a kernel in its first partition. -/
def kernelMbr : Memory := fun offset =>
  if offset = 446 then 0x80
  else if offset = 450 then 0x20
  else if offset = 510 then 0x55
  else if offset = 511 then 0xaa
  else 0

/-- The processor in front of `read_mbr`. -/
def bootMachine : Machine where
  ax := 0
  ebx := 0
  ecx := 0
  dx := 0x80
  si := 0
  es := 0
  carry := false
  zero := false
  memory := fun _ => 0
  screen := []
  reads := []

/-- One disk with a kernel. -/
theorem scan_finds_one : ∃ last ∈ eval (scanStep (drives [kernelMbr])) (.readMbr, bootMachine),
      ScanRight [kernelMbr] bootMachine last := by
  apply (scan_finds_iff (drives [kernelMbr]) [kernelMbr] bootMachine (by decide)
    (connected_drives _) rfl).mpr
  intro disk below
  rw [List.length_singleton] at below
  omega

/-- A blank disk in front of the one with the kernel: the kernel is not found. -/
theorem scan_misses_kernel :
    KernelAt [fun _ => 0, kernelMbr] 1 0 ∧
      ∃ last ∈ eval (scanStep (drives [fun _ => 0, kernelMbr])) (.readMbr, bootMachine),
        last.1 = .notFound ∧ ¬ScanRight [fun _ => 0, kernelMbr] bootMachine last := by
  have kernel : KernelAt [fun _ => 0, kernelMbr] 1 0 :=
    ⟨kernelMbr, rfl, by decide, by decide, by decide⟩
  have notPassed : ¬Passed [fun _ => 0, kernelMbr] 0 := by
    rintro ⟨sector, same, large, _⟩
    cases same
    exact absurd large (by decide)
  refine ⟨kernel, ?_⟩
  rcases disks_scanned (by decide) (connected_drives [fun _ => 0, kernelMbr])
    (Nat.zero_add 2) (rfl : bootMachine.dl.toNat = 0x80 + 0) with
    ⟨disk, entry, after, run, found⟩ | ⟨stop, after, run, nothing⟩
  · cases disk with
    | zero =>
        rcases found.here with ⟨sector, same, table, _⟩
        cases same
        exact absurd table (by decide)
    | succ disk => exact absurd (found.passed 0 (Nat.le_refl 0) (Nat.succ_pos disk)) notPassed
  · refine ⟨_, mem_eval.mpr ⟨run, rfl⟩, rfl, nothing.not_right ?_⟩
    intro whole
    rw [whole] at nothing
    exact notPassed (nothing.passed 0 (Nat.le_refl 0) (by decide))

end CS162.Threads
