import CS162.Utils.ScratchArchive

/-!
# The scratch partition

`prepare_scratch_disk` of `utils/pintos` from the archive on: how large it makes the
scratch partition, and how much of the archive it copies to a partition that exists.
-/

namespace CS162.Utils

open CS162.Foundation
open CS162.Lib

/-- `$parts{SCRATCH}`: undefined, the source of a partition, or a partition of a disk with
its `START` and `SECTORS`. -/
inductive ScratchSetting where
  | undefined
  | source (part : Part)
  | onDisk (disk : List UInt8) (start sectors : Nat)

/-- `$p->{BYTES} || 0` -/
def ScratchSetting.bytes : ScratchSetting → Nat
  | undefined => 0
  | source part => part.bytes
  | onDisk _ _ _ => 0

/-- `extend_file`. -/
def extendFile (file : List UInt8) (size : Nat) : List UInt8 :=
  if file.length < size then file ++ List.replicate (size - 1 - file.length) 0 ++ [0]
  else file

/-- What is in a file when something has been written at a place, with zeros in front of
the place if the file did not reach there. -/
def writeAt (file : List UInt8) (place : Nat) (data : List UInt8) : List UInt8 :=
  file.take place ++ List.replicate (place - file.length) 0 ++ data ++
    file.drop (place + data.length)

/-- `prepare_scratch_disk`: what `$parts{SCRATCH}` is then. -/
def prepareScratchPartition (puts : List (List UInt8 × List UInt8)) (gets : Nat)
    (setting : ScratchSetting) : Option ScratchSetting :=
  if gets = 0 ∧ puts = [] then some setting
  else
    (prepareScratchDisk puts).bind fun archive =>
      let size := roundUp (max (gets * 1024 * 1024) setting.bytes) 512
      let file := extendFile archive size
      match setting with
      | .onDisk disk start sectors =>
          if sectors * 512 < size then none
          else
            (copyFile file size).map fun data =>
              .onDisk (writeAt disk (start * 512) data) start sectors
      | _ => some (.source ⟨file, 0, file.length⟩)

/-- The bytes of the scratch partition. -/
def ScratchSetting.contents : ScratchSetting → List UInt8
  | undefined => []
  | source part => (part.file.drop part.offset).take part.bytes
  | onDisk disk start sectors => (disk.drop (start * 512)).take (sectors * 512)

/-! ## The pieces -/

theorem prefix_extendFile (file : List UInt8) (size : Nat) : file <+: extendFile file size := by
  rw [extendFile]
  split
  · rw [List.append_assoc]
    exact List.prefix_append _ _
  · exact List.prefix_rfl

theorem le_length_extendFile (file : List UInt8) (size : Nat) :
    size ≤ (extendFile file size).length := by
  rw [extendFile]
  split
  · simp only [List.length_append, List.length_replicate, List.length_singleton]
    omega
  · omega

theorem drop_writeAt (file : List UInt8) (place : Nat) (data : List UInt8) :
    (writeAt file place data).drop place = data ++ file.drop (place + data.length) := by
  have front : (file.take place ++ List.replicate (place - file.length) 0).length =
      place := by
    rw [List.length_append, List.length_take, List.length_replicate]
    omega
  rw [writeAt, List.append_assoc]
  exact List.drop_left' front

/-- The megabytes for the files to get are whole sectors. -/
theorem roundUp_gets (gets : Nat) :
    roundUp (max (gets * 1024 * 1024) 0) 512 = gets * 1024 * 1024 := by
  rw [Nat.max_zero, roundUp, divRoundUp]
  omega

/-! ## The routes -/

section Routes

variable {puts : List (List UInt8 × List UInt8)} {gets : Nat} {archive : List UInt8}

/-- A file becomes the source of the partition. -/
theorem prepare_file (somePuts : puts ≠ []) (prepared : prepareScratchDisk puts = some archive)
    {setting : ScratchSetting} (file : ∀ disk start sectors, setting ≠ .onDisk disk start sectors) :
    ∃ part, prepareScratchPartition puts gets setting = some (.source part) ∧
      part.offset = 0 ∧ part.bytes = part.file.length ∧ archive <+: part.file := by
  have going : ¬(gets = 0 ∧ puts = []) := fun both => somePuts both.2
  rw [prepareScratchPartition, if_neg going, prepared, Option.bind_some]
  cases setting with
  | undefined => exact ⟨_, rfl, rfl, rfl, prefix_extendFile _ _⟩
  | source part => exact ⟨_, rfl, rfl, rfl, prefix_extendFile _ _⟩
  | onDisk disk start sectors => exact absurd rfl (file disk start sectors)

variable {disk : List UInt8} {start sectors : Nat}

/-- A partition on a disk has to have room for the files to get. -/
theorem prepare_onDisk (somePuts : puts ≠ []) (prepared : prepareScratchDisk puts = some archive) :
    prepareScratchPartition puts gets (.onDisk disk start sectors) =
      if sectors * 512 < gets * 1024 * 1024 then none
      else
        (copyFile (extendFile archive (gets * 1024 * 1024)) (gets * 1024 * 1024)).map
          fun data => .onDisk (writeAt disk (start * 512) data) start sectors := by
  have going : ¬(gets = 0 ∧ puts = []) := fun both => somePuts both.2
  rw [prepareScratchPartition, if_neg going, prepared, Option.bind_some]
  simp only [ScratchSetting.bytes, roundUp_gets]

/-- The partition on a disk is too small for the files to get. -/
theorem prepare_small (somePuts : puts ≠ []) (prepared : prepareScratchDisk puts = some archive)
    (small : sectors * 512 < gets * 1024 * 1024) :
    prepareScratchPartition puts gets (.onDisk disk start sectors) = none := by
  rw [prepare_onDisk somePuts prepared, if_pos small]

/-- What is copied to a partition on a disk. -/
theorem prepare_disk (somePuts : puts ≠ []) (prepared : prepareScratchDisk puts = some archive)
    (large : ¬sectors * 512 < gets * 1024 * 1024) :
    prepareScratchPartition puts gets (.onDisk disk start sectors) =
      some (.onDisk (writeAt disk (start * 512)
        ((extendFile archive (gets * 1024 * 1024)).take (gets * 1024 * 1024)))
          start sectors) := by
  rw [prepare_onDisk somePuts prepared, if_neg large, copyFile_take (le_length_extendFile _ _)]
  rfl

/-- What the partition begins with afterwards. -/
theorem prefix_contents_iff (size : Nat) :
    archive <+: (ScratchSetting.onDisk (writeAt disk (start * 512)
        ((extendFile archive size).take size)) start sectors).contents ↔
      archive.length ≤ sectors * 512 ∧
        archive.drop size <+: disk.drop (start * 512 + size) := by
  have copied : ((extendFile archive size).take size).length = size := by
    rw [List.length_take, Nat.min_eq_left (le_length_extendFile archive size)]
  rw [ScratchSetting.contents, drop_writeAt, copied, List.prefix_take_iff, and_comm]
  apply and_congr_right
  intro _
  by_cases whole : archive.length ≤ size
  · -- all of the archive is copied
    have nothing : archive.drop size = [] := List.drop_eq_nil_of_le whole
    have front : archive <+: (extendFile archive size).take size :=
      List.prefix_take_iff.mpr ⟨prefix_extendFile archive size, whole⟩
    rw [nothing]
    exact iff_of_true (front.trans (List.prefix_append _ _)) List.nil_prefix
  · -- only the front is
    have same : extendFile archive size = archive := if_neg (by omega)
    conv_lhs => rw [same, ← List.take_append_drop size archive]
    rw [List.take_append_of_le_length (by rw [List.length_take]; omega), List.take_take,
      Nat.min_self, List.prefix_append_right_inj]

end Routes

/-- The partition begins with the archive of all files that are put. -/
def ArchiveLeft (puts : List (List UInt8 × List UInt8)) (after : ScratchSetting) : Prop :=
  ∃ archive, prepareScratchDisk puts = some archive ∧ archive <+: after.contents

/-- The scratch partition is new, or it is too small for the files to get, or it has room
for the archive, and what the megabytes for these files do not cover of the archive is on
the disk already. -/
def ArchiveCovered (puts : List (List UInt8 × List UInt8)) (gets : Nat)
    (setting : ScratchSetting) : Prop :=
  ∀ archive disk start sectors, prepareScratchDisk puts = some archive →
    setting = .onDisk disk start sectors →
      sectors * 512 < gets * 1024 * 1024 ∨
        (archive.length ≤ sectors * 512 ∧
          archive.drop (gets * 1024 * 1024) <+: disk.drop (start * 512 + gets * 1024 * 1024))

theorem archiveLeft_source {puts : List (List UInt8 × List UInt8)} {archive : List UInt8}
    (prepared : prepareScratchDisk puts = some archive) {part : Part}
    (front : part.offset = 0) (whole : part.bytes = part.file.length)
    (begins : archive <+: part.file) : ArchiveLeft puts (.source part) := by
  refine ⟨archive, prepared, ?_⟩
  rw [ScratchSetting.contents, front, whole, List.drop_zero, List.take_length]
  exact begins

/-- The script dies or leaves the archive exactly if the archive is covered. -/
theorem puts_archive_iff (puts : List (List UInt8 × List UInt8)) (gets : Nat)
    (setting : ScratchSetting) (somePuts : puts ≠ []) :
    (∀ after, prepareScratchPartition puts gets setting = some after →
      ArchiveLeft puts after) ↔ ArchiveCovered puts gets setting := by
  cases prepared : prepareScratchDisk puts with
  | none =>
      refine iff_of_true ?_ ?_
      · intro after left
        rw [prepareScratchPartition, if_neg fun both => somePuts both.2, prepared] at left
        cases left
      · intro archive disk start sectors impossible
        rw [prepared] at impossible
        cases impossible
  | some archive =>
      by_cases file : ∀ disk start sectors, setting ≠ .onDisk disk start sectors
      · -- a new partition
        rcases prepare_file somePuts prepared file with ⟨part, made, front, whole, begins⟩
        refine iff_of_true ?_ ?_
        · intro after left
          rw [made] at left
          cases left
          exact archiveLeft_source prepared front whole begins
        · intro other disk start sectors _ onDisk
          exact absurd onDisk (file disk start sectors)
      · -- a partition of a disk
        simp only [not_forall, not_not] at file
        rcases file with ⟨disk, start, sectors, rfl⟩
        by_cases small : sectors * 512 < gets * 1024 * 1024
        · refine iff_of_true ?_ ?_
          · intro after left
            rw [prepare_small somePuts prepared small] at left
            cases left
          · intro other disk start sectors _ same
            cases same
            exact Or.inl small
        · have begins := @prefix_contents_iff archive disk start sectors (gets * 1024 * 1024)
          constructor
          · intro left other otherDisk otherStart otherSectors preparedToo same
            cases same
            rw [prepared] at preparedToo
            cases preparedToo
            rcases left _ (prepare_disk somePuts prepared small) with ⟨same, preparedAgain, front⟩
            rw [prepared] at preparedAgain
            cases preparedAgain
            exact Or.inr (begins.mp front)
          · intro covered after left
            rw [prepare_disk somePuts prepared small] at left
            cases left
            refine ⟨archive, prepared, begins.mpr ?_⟩
            exact (covered archive disk start sectors prepared rfl).resolve_left small

/-- The partition of the disk that is made from a file begins with the archive. -/
theorem archive_in_partition {args : DiskArgs} (valid : ValidArgs args)
    {disk : List UInt8} (assembled : assembleDisk args = some disk)
    {puts : List (List UInt8 × List UInt8)} {part : Part}
    (given : args.parts .scratch = some part) (left : ArchiveLeft puts (.source part)) :
    ∃ p ∈ (diskLayout args).1, p.role = .scratch ∧
      ∃ archive, prepareScratchDisk puts = some archive ∧
        archive <+: (disk.drop (512 * p.start)).take (512 * p.sectors) := by
  have agree := disk_readers_agree valid assembled
  rcases (agree.roles .scratch).mpr (by rw [given]; rfl) with ⟨p, member, role⟩
  have source := agree.source p member
  rw [role, given] at source
  cases source
  rcases left with ⟨archive, prepared, begins⟩
  refine ⟨p, member, role, archive, prepared, ?_⟩
  rw [agree.data p member]
  exact begins.trans (List.prefix_append _ _)

/-- A file of three bytes. -/
def threeBytes : List (List UInt8 × List UInt8) := [([97], [1, 2, 3])]

/-- A file is put on a new partition. -/
theorem puts_archive_new :
    ∃ after, prepareScratchPartition threeBytes 0 .undefined = some after ∧
      ArchiveLeft threeBytes after := by
  have prepared := prepareScratchDisk_eq
    (by decide : ∀ file ∈ threeBytes, file.1.length ≤ 99 ∧ file.2.length ≤ intMax)
  rcases @prepare_file threeBytes 0 _ (by decide) prepared .undefined
    (by intro _ _ _ same; cases same) with ⟨part, made, -⟩
  refine ⟨_, made, (puts_archive_iff threeBytes 0 .undefined (by decide)).mpr ?_ _ made⟩
  intro archive disk start sectors _ same
  cases same

/-- A boot record whose partition table has a scratch partition of seven sectors. -/
def tableSector : List UInt8 :=
  List.replicate 446 0 ++ packPartition ⟨16, 63⟩ ⟨.scratch, ⟨[], 0, 0⟩, 1, 7⟩ ++
    List.replicate 48 0 ++ packShort 0xaa55

/-- A disk with a scratch partition that is not written yet. -/
def blankDisk : List UInt8 := tableSector ++ List.replicate 3584 0

/-- A file is put on the partition of that disk and none is got: nothing is copied. -/
theorem puts_archive_dropped :
    interpretPartitionTable (Memory.ofBytes blankDisk) .scratch = some (1, 7) ∧
      ∃ after, prepareScratchPartition threeBytes 0 (.onDisk blankDisk 1 7) = some after ∧
        ¬ArchiveLeft threeBytes after := by
  have prepared := prepareScratchDisk_eq
    (by decide : ∀ file ∈ threeBytes, file.1.length ≤ 99 ∧ file.2.length ≤ intMax)
  have behind : blankDisk.drop (1 * 512 + 0 * 1024 * 1024) = List.replicate 3584 0 := by
    apply List.drop_left'
    decide +kernel
  refine ⟨by decide +kernel, _, prepare_disk (by decide) prepared (by decide), ?_⟩
  rintro ⟨archive, preparedToo, begins⟩
  rw [prepared] at preparedToo
  cases preparedToo
  have copied := ((prefix_contents_iff _).mp begins).2
  rw [behind] at copied
  have first : (scratchFiles threeBytes ++ List.replicate 1024 0).head? = some 97 := rfl
  have there := copied.subset (List.mem_of_mem_head? first)
  exact absurd (List.eq_of_mem_replicate there) (by decide)

end CS162.Utils
