import Mathlib.Data.List.Basic
import CS162.Threads.Loader

/-!
# The loading of the kernel

Which sectors the loader reads once it has found the kernel's partition, and where they
go.
-/

namespace CS162.Threads

open CS162.Foundation
open CS162.Foundation.RealMode
open StateTransition

/-! ## The sectors that are read -/

/-- The sector that the loop reads after a number of steps, which only count in the low
16 bits. -/
def loopSector (start step : Nat) : Nat := start / 65536 * 65536 + (start % 65536 + step) % 65536

/-- What the loop reads in one step. -/
def loopRead (drive : BitVec 8) (start step : Nat) : Read :=
  ⟨drive, loopSector start step, 0x20000 + 512 * step⟩

/-- The contents of the sectors that the loop reads, one behind another. -/
def loopContents (bios : Bios) (drive : BitVec 8) (start : Nat) : Memory := fun address =>
  match bios drive (BitVec.ofNat 32 (loopSector start (address / 512))) with
  | some sector => sector (address % 512)
  | none => 0

/-- The state of the loop in front of a step, with the steps that are left. -/
structure Looping (start step left : Nat) (m : Machine) : Prop where
  segment : m.ax.toNat = 0x2000 + 0x20 * step
  sector : m.ebx.toNat = loopSector start step
  count : m.cx.toNat = left

section Loop

variable {bios : Bios} {m : Machine} {sector : Memory} {start step left : Nat}

/-- The machine when a sector has been read. -/
def withSector (m : Machine) (sector : Memory) : Machine :=
  { m with
    es := m.ax
    carry := false
    memory := m.memory.splice (m.ax.toNat * 16) 512 sector
    reads := m.reads ++ [⟨m.dl, m.ebx.toNat, m.ax.toNat * 16⟩] }

/-- The buffer is in memory that nothing else uses. -/
def Usable (m : Machine) : Prop :=
  ¬({ m with es := m.ax }.extra 0 < 0x10000 ∨ 0xa0000 < { m with es := m.ax }.extra 0 + 512)

theorem Looping.usable (looping : Looping start step left m) (inside : step < 1024) : Usable m := by
  have address : { m with es := m.ax }.extra 0 = 0x20000 + 512 * step := by
    have none : (0 : BitVec 16).toNat = 0 := rfl
    rw [Machine.extra, looping.segment, none]
    omega
  rw [Usable, address]
  omega

theorem nextSector_none (usable : Usable m) (absent : bios m.dl m.ebx = none) :
    loadStep bios (.nextSector, m) = some (.readFailed, { m with es := m.ax, carry := true }) := by
  have failed : readSector bios { m with es := m.ax } =
      { m with es := m.ax, carry := true } := Machine.extendedRead_none absent
  rw [loadStep, if_neg usable, failed]
  exact if_pos rfl

theorem nextSector_some (usable : Usable m) (present : bios m.dl m.ebx = some sector) :
    loadStep bios (.nextSector, m) =
      if (advance (printProgress (withSector m sector))).cx ≠ 0 then
        some (.nextSector, advance (printProgress (withSector m sector)))
      else
        some (.transfer, puts (advance (printProgress (withSector m sector))) "\r") := by
  have read : readSector bios { m with es := m.ax } = withSector m sector :=
    Machine.extendedRead_some present
  rw [loadStep, if_neg usable, read]
  exact if_neg Bool.false_ne_true

/-- What printing and advancing leave as it is. -/
theorem advance_printProgress (m : Machine) :
    (advance (printProgress m)).dl = m.dl ∧
      (advance (printProgress m)).memory = m.memory ∧
        (advance (printProgress m)).reads = m.reads ∧
          (advance (printProgress m)).ax = m.ax + 0x20 ∧
            (advance (printProgress m)).ebx = withLow m.ebx (low 16 m.ebx + 1) ∧
              (advance (printProgress m)).cx = m.cx - 1 := by
  have kept : (printProgress m).dl = m.dl ∧ (printProgress m).memory = m.memory ∧
      (printProgress m).reads = m.reads ∧ (printProgress m).ax = m.ax ∧
        (printProgress m).ebx = m.ebx ∧ (printProgress m).ecx = m.ecx := by
    rw [printProgress]
    split <;> exact ⟨rfl, rfl, rfl, rfl, rfl, rfl⟩
  rcases kept with ⟨dl, memory, reads, ax, ebx, ecx⟩
  refine ⟨dl, memory, reads, ?_, ?_, ?_⟩
  · rw [← ax]
    rfl
  · rw [← ebx]
    rfl
  · have count : (printProgress m).cx = m.cx := congrArg (low 16) ecx
    rw [← count]
    exact low_withLow_16 _ _

theorem loopSector_succ (start step : Nat) :
    loopSector start step / 65536 * 65536 + (loopSector start step % 65536 + 1) % 65536 =
      loopSector start (step + 1) := by
  unfold loopSector
  omega

/-- The next step of the loop. -/
theorem looping_next (looping : Looping start step (left + 1) m) (inside : step < 1024)
    (sector : Memory) :
    Looping start (step + 1) left (advance (printProgress (withSector m sector))) := by
  rcases advance_printProgress (withSector m sector) with ⟨_, _, _, ax, ebx, cx⟩
  have segment := looping.segment
  have count := looping.count
  constructor
  · rw [ax, BitVec.toNat_add]
    change (m.ax.toNat + 32) % 65536 = _
    omega
  · rw [ebx, toNat_withLow_16, ← loopSector_succ, ← looping.sector, BitVec.toNat_add, toNat_low]
    rfl
  · rw [cx, BitVec.toNat_sub]
    change (65536 - 1 + m.cx.toNat) % 65536 = _
    have small := m.cx.isLt
    omega

theorem Looping.number (looping : Looping start step left m) :
    m.ebx = BitVec.ofNat 32 (loopSector start step) := by
  rw [← looping.sector, BitVec.ofNat_toNat, BitVec.setWidth_eq]

/-- A step that does not fail reads its sector into its buffer. -/
theorem sector_read (looping : Looping start step left m) (inside : step < 1024)
    (good : ∀ failed, ¬Reaches (loadStep bios) (.nextSector, m) (.readFailed, failed)) :
    ∃ sector, bios m.dl m.ebx = some sector ∧
      (withSector m sector).memory =
        m.memory.splice (0x20000 + 512 * step) 512
          ((loopContents bios m.dl start).drop (512 * step)) ∧
      (withSector m sector).reads = m.reads ++ [loopRead m.dl start step] := by
  have address : m.ax.toNat * 16 = 0x20000 + 512 * step := by
    rw [looping.segment]
    omega
  cases present : bios m.dl m.ebx with
  | none =>
      exact absurd (.single (nextSector_none (looping.usable inside) present)) (good _)
  | some sector =>
      refine ⟨sector, rfl, ?_, ?_⟩
      · rw [withSector, address]
        apply Memory.splice_congr
        intro offset below
        have place : (512 * step + offset) / 512 = step := by omega
        have rest : (512 * step + offset) % 512 = offset := by omega
        rw [Memory.drop, loopContents, place, rest, ← looping.number, present]
      · rw [withSector, address, looping.sector]
        rfl

/-- The loop reads the sectors that are left and goes on behind the loop. -/
theorem loop_run (looping : Looping start step (left + 1) m) (inside : step + left < 1024)
    (good : ∀ failed, ¬Reaches (loadStep bios) (.nextSector, m) (.readFailed, failed)) :
    ∃ after, Reaches (loadStep bios) (.nextSector, m) (.transfer, after) ∧
      after.reads = m.reads ++ (List.range' step (left + 1)).map (loopRead m.dl start) ∧
        after.memory = m.memory.splice (0x20000 + 512 * step) (512 * (left + 1))
          ((loopContents bios m.dl start).drop (512 * step)) ∧
          ∀ other, step ≤ other → other < step + (left + 1) →
            ∃ sector, bios m.dl (BitVec.ofNat 32 (loopSector start other)) = some sector := by
  induction left generalizing step m with
  | zero =>
      rcases sector_read looping (by omega) good with ⟨sector, present, memory, reads⟩
      have next := looping_next looping (by omega) sector
      have last := nextSector_some (looping.usable (by omega)) present
      have done : (advance (printProgress (withSector m sector))).cx = 0 :=
        BitVec.eq_of_toNat_eq next.count
      rw [if_neg (not_not_intro done)] at last
      rcases advance_printProgress (withSector m sector) with ⟨_, sameMemory, sameReads, _⟩
      refine ⟨_, .single last, sameReads.trans reads, sameMemory.trans memory, ?_⟩
      intro other lower upper
      have same : other = step := by omega
      rw [same, ← looping.number]
      exact ⟨sector, present⟩
  | succ left inductionHypothesis =>
      rcases sector_read looping (by omega) good with ⟨sector, present, memory, reads⟩
      have next := looping_next looping (by omega) sector
      have goesOn := nextSector_some (looping.usable (by omega)) present
      have more : (advance (printProgress (withSector m sector))).cx ≠ 0 := by
        intro done
        have count := next.count
        rw [done] at count
        cases count
      rw [if_pos more] at goesOn
      rcases advance_printProgress (withSector m sector) with ⟨sameDrive, sameMemory, sameReads, _⟩
      have drive : (advance (printProgress (withSector m sector))).dl = m.dl := sameDrive
      rcases inductionHypothesis next (by omega)
        (fun failed run => good failed (.head goesOn run)) with
        ⟨after, run, readsLater, memoryLater, presentLater⟩
      refine ⟨after, .head goesOn run, ?_, ?_, ?_⟩
      · rw [readsLater, sameReads, reads, drive, List.append_assoc]
        rfl
      · have split := Memory.splice_splice m.memory
          ((loopContents bios m.dl start).drop (512 * step)) (0x20000 + 512 * step) 512
          (512 * (left + 1))
        have place : 0x20000 + 512 * step + 512 = 0x20000 + 512 * (step + 1) := Nat.add_assoc _ _ _
        have size : 512 + 512 * (left + 1) = 512 * (left + 1 + 1) := Nat.add_comm _ _
        have behind : ((loopContents bios m.dl start).drop (512 * step)).drop 512 =
            (loopContents bios m.dl start).drop (512 * (step + 1)) :=
          funext fun offset => congrArg _ (Nat.add_assoc _ _ _).symm
        rw [place, size, behind] at split
        rw [memoryLater, sameMemory, memory, drive, split]
      · intro other lower upper
        by_cases same : other = step
        · rw [same, ← looping.number]
          exact ⟨sector, present⟩
        · rw [← drive]
          exact presentLater other (by omega) (by omega)

end Loop

/-! ## From the start to the end -/

/-- The first sector of the partition whose entry is at `ES:SI`. -/
def kernelStart (m : Machine) : Nat := (m.load32 (m.si + 8)).toNat

/-- The number of sectors of that partition. -/
def kernelLength (m : Machine) : Nat := (m.load32 (m.si + 12)).toNat

/-- The sectors that there are to read: those of the partition, but no more than 512 kB. -/
def kernelSectors (m : Machine) : Nat := min (kernelLength m) 1024

theorem cmp_below_or_equal (m : Machine) (value : BitVec 32) :
    ((m.cmp 1024 value).carry || (m.cmp 1024 value).zero) = decide (value.toNat ≤ 1024) := by
  rw [Machine.cmp_carry, Machine.cmp_zero, ← Bool.decide_or, decide_eq_decide, ← BitVec.toNat_inj]
  change value.toNat < 1024 ∨ value.toNat = 1024 ↔ _
  omega

/-- Capping the size only changes `ECX` and the flags. -/
theorem capSize_kept (m : Machine) :
    (capSize m).dx = m.dx ∧ (capSize m).si = m.si ∧ (capSize m).es = m.es ∧
      (capSize m).memory = m.memory ∧ (capSize m).reads = m.reads ∧
        (capSize m).cx.toNat = min m.ecx.toNat 1024 := by
  rw [capSize]
  simp only [cmp_below_or_equal, decide_eq_true_eq]
  by_cases small : m.ecx.toNat ≤ 1024
  · rw [if_pos small]
    refine ⟨rfl, rfl, rfl, rfl, rfl, ?_⟩
    have count : (m.cmp 1024 m.ecx).cx.toNat = m.ecx.toNat % 2 ^ 16 := toNat_low _ _
    omega
  · rw [if_neg small]
    refine ⟨rfl, rfl, rfl, rfl, rfl, ?_⟩
    have count : low 16 (withLow (m.cmp 1024 m.ecx).ecx 1024#16) = 1024#16 := low_withLow_16 _ _
    rw [Machine.cx, count, Nat.min_eq_right (Nat.le_of_not_le small)]
    rfl

theorem startLoading_kept (m : Machine) :
    (startLoading m).dl = m.dl ∧ (startLoading m).memory = m.memory ∧
      (startLoading m).reads = m.reads ∧
        Looping (kernelStart m) 0 (kernelSectors m) (startLoading m) := by
  rcases capSize_kept { puts m "\rLoading" with ecx := m.load32 (m.si + 12) } with
    ⟨dx, si, es, memory, reads, count⟩
  have drive : (startLoading m).dx = m.dx := dx
  have first : (startLoading m).ebx = m.load32 (m.si + 8) :=
    (Machine.load32_congr es memory _).trans (congrArg (fun si => m.load32 (si + 8)) si)
  refine ⟨congrArg (low 8) drive, memory, reads, rfl, ?_, count⟩
  rw [first, loopSector]
  change kernelStart m = _
  omega

/-- The sectors of the kernel's partition have been read in order, and nothing else.  The
stack of the loader is below 0xf000. -/
structure KernelLoaded (bios : Bios) (before : Machine) (last : LoadPoint × Machine) : Prop where
  point : last.1 = .transfer
  reads : last.2.reads = before.reads ++ (List.range (kernelSectors before)).map fun k =>
    ⟨before.dl, kernelStart before + k, 0x20000 + 512 * k⟩
  contents : ∀ k < kernelSectors before, ∃ sector,
    bios before.dl (BitVec.ofNat 32 (kernelStart before + k)) = some sector ∧
      ∀ offset < 512, last.2.memory (0x20000 + 512 * k + offset) = sector offset
  untouched : ∀ address, 0xf000 ≤ address →
    address < 0x20000 ∨ 0x20000 + 512 * kernelSectors before ≤ address →
      last.2.memory address = before.memory address

/-- What has been read stays read. -/
theorem reads_grow_step {bios : Bios} {before after : LoadPoint × Machine}
    (step : loadStep bios before = some after) : before.2.reads <+: after.2.reads := by
  rcases before with ⟨point, m⟩
  cases point with
  | loadKernel =>
      cases step
      rw [(startLoading_kept m).2.2.1]
  | nextSector =>
      by_cases usable : Usable m
      · cases found : bios m.dl m.ebx with
        | none =>
            rw [nextSector_none usable found] at step
            cases step
            exact List.prefix_rfl
        | some sector =>
            have more : m.reads <+: (advance (printProgress (withSector m sector))).reads := by
              rw [(advance_printProgress _).2.2.1]
              exact List.prefix_append _ _
            rw [nextSector_some usable found] at step
            split at step
            · cases step
              exact more
            · cases step
              exact more
      · rw [loadStep, if_pos (not_not.mp usable)] at step
        cases step
        exact List.prefix_rfl
  | transfer => cases step
  | readFailed =>
      cases step
      exact List.prefix_rfl
  | badRead => cases step
  | lost => cases step

theorem reads_grow {bios : Bios} {before after : LoadPoint × Machine}
    (run : Reaches (loadStep bios) before after) : before.2.reads <+: after.2.reads := by
  induction run with
  | refl => exact List.prefix_rfl
  | tail _ step inductionHypothesis =>
      exact inductionHypothesis.trans (reads_grow_step step)

/-- The sectors are those of the partition as long as they do not run over the low 16 bits
of its first sector. -/
theorem loopSector_eq_iff (start step : Nat) :
    loopSector start step = start + step ↔ start % 65536 + step < 65536 := by
  unfold loopSector
  omega

theorem map_loopRead_eq_iff (drive : BitVec 8) (start count : Nat) :
    (List.range count).map (loopRead drive start) =
        (List.range count).map (fun k => ⟨drive, start + k, 0x20000 + 512 * k⟩) ↔
      count = 0 ∨ start % 65536 + count ≤ 65536 := by
  rw [List.map_inj_left]
  constructor
  · intro same
    by_cases none : count = 0
    · exact Or.inl none
    · have last := congrArg Read.sector (same (count - 1) (List.mem_range.mpr (by omega)))
      have inside := (loopSector_eq_iff start (count - 1)).mp last
      exact Or.inr (by omega)
  · intro inside k below
    have bound := List.mem_range.mp below
    have sector := (loopSector_eq_iff start k).mpr (by omega)
    rw [loopRead, sector]

/-- The loop with no sectors to read goes wrong: it reads one. -/
theorem not_loaded_of_empty {bios : Bios} {m : Machine}
    (good : ∀ failed, ¬Reaches (loadStep bios) (.loadKernel, m) (.readFailed, failed))
    (empty : kernelSectors m = 0) {last : LoadPoint × Machine}
    (ends : last ∈ eval (loadStep bios) (.loadKernel, m)) : ¬KernelLoaded bios m last := by
  intro loaded
  rcases startLoading_kept m with ⟨drive, memory, reads, looping⟩
  have start : loadStep bios (.loadKernel, m) = some (.nextSector, startLoading m) := rfl
  rcases sector_read looping (by omega)
    (fun failed run => good failed (.head start run)) with ⟨sector, present, _, readOne⟩
  have firstStep := nextSector_some (looping.usable (by omega)) present
  have more : ∃ point after, loadStep bios (.nextSector, startLoading m) =
      some (point, after) ∧ after.reads = (withSector (startLoading m) sector).reads := by
    have same := (advance_printProgress (withSector (startLoading m) sector)).2.2.1
    rw [firstStep]
    split
    · exact ⟨_, _, rfl, same⟩
    · exact ⟨_, _, rfl, same⟩
  rcases more with ⟨point, after, firstStep, readsAfter⟩
  have run : Reaches (loadStep bios) (.loadKernel, m) (point, after) :=
    .head start (.single firstStep)
  rw [reaches_eval run] at ends
  have kept := (reads_grow (mem_eval.mp ends).1).length_le
  rw [readsAfter, readOne, reads, loaded.reads, empty] at kept
  simp at kept

/-- What the loop has done when it has read the sectors that there are. -/
structure LoopDone (bios : Bios) (m after : Machine) : Prop where
  ends : (LoadPoint.transfer, after) ∈ eval (loadStep bios) (.loadKernel, m)
  reads : after.reads =
    m.reads ++ (List.range (kernelSectors m)).map (loopRead m.dl (kernelStart m))
  memory : after.memory = m.memory.splice 0x20000 (512 * kernelSectors m)
    (loopContents bios m.dl (kernelStart m))
  present : ∀ k < kernelSectors m, ∃ sector,
    bios m.dl (BitVec.ofNat 32 (loopSector (kernelStart m) k)) = some sector

theorem load_kernel_run {bios : Bios} {m : Machine}
    (good : ∀ failed, ¬Reaches (loadStep bios) (.loadKernel, m) (.readFailed, failed))
    (some : 0 < kernelSectors m) : ∃ after, LoopDone bios m after := by
  have bound : kernelSectors m ≤ 1024 := Nat.min_le_right _ _
  rcases Nat.exists_eq_succ_of_ne_zero (Nat.pos_iff_ne_zero.mp some) with ⟨left, many⟩
  rcases startLoading_kept m with ⟨drive, memory, reads, looping⟩
  have start : loadStep bios (.loadKernel, m) = .some (.nextSector, startLoading m) := rfl
  rw [many] at looping
  rcases loop_run looping (by omega) (fun failed run => good failed (.head start run))
    with ⟨after, run, readsAfter, memoryAfter, presentAll⟩
  refine ⟨after, mem_eval.mpr ⟨.head start run, rfl⟩, ?_, ?_, ?_⟩
  · rw [readsAfter, drive, reads, ← List.range_eq_range', many]
  · have whole : (loopContents bios m.dl (kernelStart m)).drop (512 * 0) =
        loopContents bios m.dl (kernelStart m) :=
      funext fun offset => congrArg _ (Nat.zero_add offset)
    rw [memoryAfter, drive, memory, whole, many]
  · intro k below
    rw [← drive]
    exact presentAll k (Nat.zero_le k) (by omega)

/-- Unless a read fails, the loader loads the kernel right exactly if its partition is not
empty and the sectors to read do not run over the low 16 bits of the first one. -/
theorem load_kernel_reads_iff (bios : Bios) (m : Machine)
    (good : ∀ failed, ¬Reaches (loadStep bios) (.loadKernel, m) (.readFailed, failed)) :
    (∃ last ∈ eval (loadStep bios) (.loadKernel, m), KernelLoaded bios m last) ↔
      0 < kernelLength m ∧ kernelStart m % 65536 + kernelSectors m ≤ 65536 := by
  have sectors : 0 < kernelSectors m ↔ 0 < kernelLength m := by
    rw [kernelSectors]
    omega
  by_cases some : 0 < kernelSectors m
  · rcases load_kernel_run good some with ⟨after, done⟩
    constructor
    · rintro ⟨last, ends, loaded⟩
      cases Part.mem_unique done.ends ends
      have same := List.append_cancel_left (done.reads.symm.trans loaded.reads)
      have inside := (map_loopRead_eq_iff _ _ _).mp same
      exact ⟨sectors.mp some, by omega⟩
    · rintro ⟨_, inside⟩
      refine ⟨_, done.ends, rfl, ?_, ?_, ?_⟩
      · rw [done.reads, (map_loopRead_eq_iff _ _ _).mpr (Or.inr inside)]
      · intro k below
        rcases done.present k below with ⟨sector, present⟩
        refine ⟨sector, ?_, ?_⟩
        · rw [← (loopSector_eq_iff _ _).mpr (by omega)]
          exact present
        · intro offset small
          have here := @Memory.splice_apply_add m.memory
            (loopContents bios m.dl (kernelStart m)) 0x20000
            (512 * kernelSectors m) (512 * k + offset) (by omega)
          have step : (512 * k + offset) / 512 = k := by omega
          have rest : (512 * k + offset) % 512 = offset := by omega
          rw [loopContents, step, rest, present] at here
          rw [done.memory, Nat.add_assoc]
          exact here
      · intro address _ outside
        rw [done.memory]
        exact Memory.splice_agreeOn (by unfold Apart; omega) address (Nat.le_refl _)
          (Nat.lt_succ_self _)
  · refine iff_of_false ?_ fun condition => some (sectors.mpr condition.1)
    rintro ⟨last, ends, loaded⟩
    exact not_loaded_of_empty good (Nat.eq_zero_of_not_pos some) ends loaded

/-! ## A partition of two sectors -/

/-- A read fails only where there is no sector. -/
theorem readFailed_step {bios : Bios} {point : LoadPoint} {m failed : Machine}
    (step : loadStep bios (point, m) = some (.readFailed, failed)) :
    bios m.dl m.ebx = none := by
  cases point with
  | nextSector =>
      by_cases usable : Usable m
      · cases found : bios m.dl m.ebx with
        | none => rfl
        | some sector =>
            rw [nextSector_some usable found] at step
            split at step <;> cases step
      · rw [loadStep, if_pos (not_not.mp usable)] at step
        cases step
  | loadKernel => cases step
  | transfer => cases step
  | readFailed => cases step
  | badRead => cases step
  | lost => cases step

/-- A disk with all sectors, each filled with zero bytes. -/
def zeroDisk : Bios := fun _ _ => some fun _ => 0

theorem zeroDisk_good (m : Machine) :
    ∀ failed, ¬Reaches (loadStep zeroDisk) (.loadKernel, m) (.readFailed, failed) := by
  intro failed run
  rcases Relation.ReflTransGen.cases_tail run with same | ⟨⟨point, before⟩, _, step⟩
  · cases same
  · cases readFailed_step step

/-- The processor at `load_kernel`, with a partition of two sectors from one on. -/
def foundMachine (low high : UInt8) : Machine where
  ax := 0
  ebx := 0
  ecx := 0
  dx := 0x80
  si := 446
  es := 0x2000
  carry := false
  zero := false
  memory := fun address =>
    if address = 0x20000 + 454 then low
    else if address = 0x20000 + 455 then high
    else if address = 0x20000 + 458 then 2
    else 0
  screen := []
  reads := []

/-- A partition that starts at sector 1. -/
theorem load_kernel_reads_one : ∃ last ∈ eval (loadStep zeroDisk) (.loadKernel, foundMachine 1 0),
      KernelLoaded zeroDisk (foundMachine 1 0) last := by
  have first : kernelStart (foundMachine 1 0) = 1 := by decide
  have count : kernelLength (foundMachine 1 0) = 2 := by decide
  apply (load_kernel_reads_iff zeroDisk (foundMachine 1 0) (zeroDisk_good _)).mpr
  rw [kernelSectors, first, count]
  decide

/-- A partition that starts at sector 65535: the second sector that is read is sector 0. -/
theorem load_kernel_wraps :
    kernelStart (foundMachine 0xff 0xff) = 65535 ∧ kernelLength (foundMachine 0xff 0xff) = 2 ∧
      ∃ last ∈ eval (loadStep zeroDisk) (.loadKernel, foundMachine 0xff 0xff),
        last.2.reads = [⟨0x80, 65535, 0x20000⟩, ⟨0x80, 0, 0x20200⟩] ∧
          ¬KernelLoaded zeroDisk (foundMachine 0xff 0xff) last := by
  have first : kernelStart (foundMachine 0xff 0xff) = 65535 := by decide
  have count : kernelLength (foundMachine 0xff 0xff) = 2 := by decide
  have sectors : kernelSectors (foundMachine 0xff 0xff) = 2 := by
    rw [kernelSectors, count]
    rfl
  rcases load_kernel_run (zeroDisk_good (foundMachine 0xff 0xff)) (by omega) with ⟨after, done⟩
  have reads := done.reads
  rw [sectors, first] at reads
  refine ⟨first, count, _, done.ends, reads, ?_⟩
  intro loaded
  have same := reads.symm.trans loaded.reads
  rw [sectors, first] at same
  exact absurd same (by decide)

end CS162.Threads
