import CS162.Filesys.FilesysStart

/-!
# The free map of a new device

On a device that has been formatted the first sectors are in use, and it stays
so as long as files are created and none is removed.
-/

namespace CS162.Filesys

open CS162.Foundation
open CS162.Kernel
open CS162.Devices (blockSectorSize)

/-- The sectors in use are the first ones of the device. -/
structure Compact (fs : Fs) (count : Nat) : Prop where
  size : fs.freeMap.bitCnt = fs.deviceSize
  bits : ∀ place, place < fs.deviceSize → fs.freeMap.bit place = decide (place < count)

/-- The number of sectors that no file has. -/
def freeSectors (fs : Fs) : Nat :=
  ((List.range fs.deviceSize).filter fun place => !fs.freeMap.bit place).length

namespace Compact

variable {fs after : Fs} {count cnt start : Nat}

/-- The sectors behind those in use are free. -/
theorem room (compact : Compact fs count) (fits : count + cnt ≤ fs.deviceSize) :
    fs.freeMap.Uniform count cnt false := by
  intro place lower upper
  rw [compact.bits place (by omega)]
  exact decide_eq_false (by omega)

/-- What is allocated first follows the sectors in use. -/
theorem start_eq (compact : Compact fs count) (positive : 0 < cnt)
    (range : start + cnt ≤ fs.deviceSize) (free : fs.freeMap.Uniform start cnt false)
    (first : ∀ earlier, earlier < start →
      ¬fs.freeMap.Uniform earlier cnt false) : start = count := by
  have here := free start (le_refl start) (by omega)
  rw [compact.bits start (by omega)] at here
  have behind := of_decide_eq_false here
  by_contra different
  apply first count (by omega)
  exact compact.room (by omega)

/-- The sectors in use are the first ones when more have been allocated. -/
theorem allocate (compact : Compact fs count) (sameSize : after.deviceSize = fs.deviceSize)
    (sameCnt : after.freeMap.bitCnt = fs.freeMap.bitCnt) (range : start + cnt ≤ fs.deviceSize)
    (free : fs.freeMap.Uniform start cnt false)
    (first : ∀ earlier, earlier < start → ¬fs.freeMap.Uniform earlier cnt false)
    (bits : ∀ other, after.freeMap.bit other = if start ≤ other ∧ other < start + cnt then true
      else fs.freeMap.bit other) : Compact after (count + cnt) where
  size := by
    rw [sameCnt, sameSize]
    exact compact.size
  bits := by
    intro place onDevice
    rw [sameSize] at onDevice
    rw [bits, compact.bits place onDevice]
    rcases Nat.eq_zero_or_pos cnt with none | positive
    · rw [none, Nat.add_zero, Nat.add_zero, if_neg (by omega)]
    · have same := compact.start_eq positive range free first
      by_cases inside : start ≤ place ∧ place < start + cnt
      · rw [if_pos inside]
        exact (decide_eq_true (by omega)).symm
      · rw [if_neg inside]
        have same' : place < count ↔ place < count + cnt := by omega
        exact decide_eq_decide.mpr same'

theorem congr (compact : Compact fs count) (sameSize : after.deviceSize = fs.deviceSize)
    (sameMap : after.freeMap = fs.freeMap) : Compact after count where
  size := by
    rw [sameMap, sameSize]
    exact compact.size
  bits := by
    rw [sameMap, sameSize]
    exact compact.bits

theorem freeSectors_eq (compact : Compact fs count) : freeSectors fs = fs.deviceSize - count := by
  have same : ((List.range fs.deviceSize).filter fun place =>
        !fs.freeMap.bit place) =
      (List.range fs.deviceSize).filter fun place => decide (count ≤ place) := by
    apply List.filter_congr
    intro place inside
    rw [compact.bits place (List.mem_range.mp inside)]
    by_cases before : place < count
    · rw [decide_eq_true before, decide_eq_false (by omega)]
      rfl
    · rw [decide_eq_false before, decide_eq_true (by omega)]
      rfl
  have counted : ∀ size, ((List.range size).filter fun place =>
      decide (count ≤ place)).length = size - count := by
    intro size
    induction size with
    | zero =>
        rw [Nat.zero_sub]
        rfl
    | succ size inductionHypothesis =>
        rw [List.range_succ, List.filter_append, List.length_append, inductionHypothesis]
        by_cases behind : count ≤ size
        · have last : [size].filter (fun place => decide (count ≤ place)) = [size] := by
            simp [behind]
          rw [last, List.length_singleton]
          omega
        · have last : [size].filter (fun place => decide (count ≤ place)) = [] := by
            simp [behind]
          rw [last, List.length_nil]
          omega
  rw [freeSectors, same, counted]

end Compact

/-- The functions that move bytes leave the free map alone. -/
structure SameMap (fs after : Fs) : Prop where
  freeMap : after.freeMap = fs.freeMap
  deviceSize : after.deviceSize = fs.deviceSize

namespace SameMap

variable {fs middle after : Fs}

theorem refl (fs : Fs) : SameMap fs fs where
  freeMap := rfl
  deviceSize := rfl

theorem trans (first : SameMap fs middle) (second : SameMap middle after) : SameMap fs after where
  freeMap := second.freeMap.trans first.freeMap
  deviceSize := second.deviceSize.trans first.deviceSize

theorem of_onlyDisk (only : OnlyDisk fs after) : SameMap fs after := by
  rcases only with ⟨_, rfl⟩
  exact ⟨rfl, rfl⟩

theorem openMapFile (opened : fs.openMapFile = some after) : SameMap fs after := by
  rcases Option.map_eq_some_iff.mp opened with ⟨⟨next, file⟩, inode, result⟩
  cases result
  rcases Fs.inodeOpen_eq inode with ⟨-, size, -, map, -⟩
  exact ⟨map, size⟩

end SameMap

section Format

variable {fs middle after : Fs} {count cnt start sector : Nat} {length : Int}

/-- What `free_map_allocate` takes, with or without a free map file. -/
theorem Compact.freeMapAllocate (compact : Compact fs count) (fits : fs.freeMap.Fits)
    (allocated : fs.freeMapAllocate cnt = some (middle, some start)) :
    Compact middle (count + cnt) := by
  rcases Bitmap.bitmapScanAndFlip_eq cnt false fits
    (Nat.zero_le fs.freeMap.bitCnt) with
    ⟨result, map, scan, size, outcome⟩
  rw [Fs.freeMapAllocate, scan, Option.bind_some] at allocated
  cases result with
  | none => cases allocated
  | some found =>
      rcases outcome with ⟨-, range, uniform, minimal, bits⟩
      rw [compact.size] at range
      have taken : Compact (fs.setMap map) (count + cnt) :=
        compact.allocate rfl size range uniform
          (fun earlier => minimal earlier (Nat.zero_le earlier)) bits
      simp only at allocated
      split at allocated
      · cases allocated
        exact taken
      · rcases Option.bind_eq_some_iff.mp allocated with ⟨⟨written, success⟩, writing, rest⟩
        have same := SameMap.of_onlyDisk (.bitmapWrite writing)
        cases success with
        | true =>
            cases rest
            exact taken.congr same.deviceSize same.freeMap
        | false =>
            rcases Option.map_eq_some_iff.mp rest with ⟨cleared, -, result⟩
            cases result

theorem Compact.inodeCreate (compact : Compact fs count) (fits : fs.freeMap.Fits)
    (created : fs.inodeCreate sector length = some (after, true)) :
    Compact after (count + bytesToSectors length) := by
  rcases inodeCreate_allocated created with ⟨middle, start, allocated, -, only⟩
  have taken := compact.freeMapAllocate fits allocated
  have same := SameMap.of_onlyDisk only
  exact taken.congr same.deviceSize same.freeMap

theorem Compact.freeMapCreate (compact : Compact fs count)
    (fits : fs.freeMap.Fits) (created : fs.freeMapCreate = some after) :
    ∃ more, Compact after more := by
  rcases freeMapCreate_steps created with ⟨stored, opened, creation, opening, writing⟩
  have taken := compact.inodeCreate fits creation
  have same := (SameMap.openMapFile opening).trans (SameMap.of_onlyDisk (.bitmapWrite writing))
  exact ⟨_, taken.congr same.deviceSize same.freeMap⟩

/-- `free_map_init` marks the first two sectors. -/
theorem freeMapInit_compact {deviceSize : Nat} {disk stack : Memory}
    {memory : Nat → Elem} (small : deviceSize < deviceLimit)
    (started : Fs.freeMapInit deviceSize disk stack memory = some fs) :
    Compact fs 2 := by
  have fits : (rawBitmap deviceSize memory).Fits := by
    unfold deviceLimit blockSectorSize at small
    show deviceSize < unsignedModulus
    unfold unsignedModulus
    omega
  rcases Bitmap.bitmapSetAll_eq false fits with ⟨map, cleared, cnt, bits⟩
  have size : map.bitCnt = deviceSize := cnt
  have sizes : ∀ idx, (map.bitmapMark idx).bitCnt = deviceSize := fun _ => size
  rw [Fs.freeMapInit, bitmapCreate, cleared, Option.map_some] at started
  cases started
  constructor
  · exact size
  · intro place onDevice
    have onDevice : place < deviceSize := onDevice
    have element : ∀ other : Bitmap, other.bitCnt = deviceSize →
        0 < other.bits.length := by
      intro other same
      have stored := other.elemIdx_lt (same.symm ▸ onDevice)
      exact Nat.lt_of_le_of_lt (Nat.zero_le _) stored
    show ((map.bitmapMark freeMapSector).bitmapMark rootDirSector).bit place = _
    rw [Bitmap.bit_bitmapMark_of_element, Bitmap.bit_bitmapMark_of_element, bits]
    rotate_left
    · exact element map size
    · exact element _ (sizes freeMapSector)
    have clear : place < (rawBitmap deviceSize memory).bitCnt := onDevice
    rw [if_pos clear, Bool.or_false, ← Bool.decide_or]
    have first : place = rootDirSector ∨ place = freeMapSector ↔ place < 2 := by
      unfold rootDirSector freeMapSector
      omega
    exact decide_eq_decide.mpr first

/-- On a device that has been formatted the first sectors are in use. -/
theorem filesysInit_compact {deviceSize : Nat} {disk stack : Memory}
    {memory : Nat → Elem} (small : deviceSize < deviceLimit)
    (started : Fs.filesysInit deviceSize disk stack memory true = some fs) :
    ∃ count, Compact fs count := by
  rcases filesysInit_steps small started with
    ⟨first, made, next, ⟨init, fresh, -⟩, ⟨creation, start, ready⟩, root, kept, size, -, bits⟩
  have compact := freeMapInit_compact small init
  rcases compact.freeMapCreate fresh.fits creation with ⟨more, saved⟩
  have created : ∃ total, Compact next total := ⟨_, saved.inodeCreate ready.opened.fits root⟩
  rcases created with ⟨total, directory⟩
  refine ⟨total, (FsSound.layout kept).size, fun place onDevice => ?_⟩
  rw [size] at onDevice
  rw [bits, decide_eq_true onDevice, Bool.true_and]
  exact directory.bits place onDevice

end Format

end CS162.Filesys
