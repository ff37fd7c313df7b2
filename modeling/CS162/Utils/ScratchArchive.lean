import Mathlib.Algebra.Order.BigOperators.Group.List
import CS162.Utils.ScratchHeaders

/-!
# The scratch archive

The host puts files on the scratch disk and the kernel extracts them; the kernel
appends files and the host gets them back.
-/

namespace CS162.Utils

open CS162.Foundation
open CS162.Filesys
open CS162.Lib
open CS162.Devices (blockSectorSize)

/-- The header of a file with its checksum. -/
def scratchHeader (name : List UInt8) (size : Nat) : List UInt8 :=
  headerText name size
    (octal 7 (unpackChecksum (headerText name size (List.replicate 8 32))) ++ [0])

/-- A file on the scratch disk. -/
def scratchFile (name contents : List UInt8) : List UInt8 :=
  scratchHeader name contents.length ++ Fs.wholeSectors contents

section Files

variable {name contents : List UInt8} {size : Nat}

theorem unpackChecksum_lt (short : name.length ≤ 99) (fits : size ≤ intMax) :
    unpackChecksum (headerText name size (List.replicate 8 32)) < 8 ^ 7 := by
  have small : size < 8 ^ 11 := by
    rw [intMax] at fits
    omega
  have chksum := calculateChksum_eq (composeHeader zeros name .regular (size : Nat))
  have bound := calculateChksum_lt (composeHeader zeros name .regular (size : Nat))
  rw [chksum, composeHeader_bytes short fits,
    setChksum_headerText small List.length_replicate] at bound
  exact bound

theorem length_scratchHeader (short : name.length ≤ 99) (fits : size ≤ intMax) :
    (scratchHeader name size).length = 512 := by
  have small : size < 8 ^ 11 := by
    rw [intMax] at fits
    omega
  apply length_headerText small
  exact length_octalField (by decide) (unpackChecksum_lt short fits)

theorem length_scratchFile (short : name.length ≤ 99) (fits : contents.length ≤ intMax) :
    (scratchFile name contents).length = (1 + sectorsFor contents.length) * blockSectorSize := by
  rw [scratchFile, List.length_append, length_scratchHeader short fits,
    Fs.length_wholeSectors, Nat.add_mul, Nat.one_mul]
  rfl

/-- `copy_file` copies as much as it is told to. -/
theorem copyFile_take {source : List UInt8} (enough : size ≤ source.length) :
    copyFile source size = some (source.take size) := by
  induction source, size using copyFile.induct with
  | case1 source =>
      rw [copyFile, if_pos rfl]
      rfl
  | case2 source size notZero inductionHypothesis =>
      have chunk := chunkSize_le size
      have read : readFully source (chunkSize size) =
          some (source.take (chunkSize size), source.drop (chunkSize size)) := by
        rw [readFully, if_neg (by omega)]
      rw [copyFile, if_neg notZero, read, Option.bind_some,
        inductionHypothesis _ (by rw [List.length_drop]; omega), Option.map_some,
        ← List.take_add, Nat.add_sub_cancel' chunk]

/-- The bytes that fill up the last sector. -/
theorem padding_eq (size : Nat) :
    (if size % 512 ≠ 0 then List.replicate (512 - size % 512) (0 : UInt8)
      else []) =
      List.replicate (sectorsFor size * blockSectorSize - size) 0 := by
  by_cases partial' : size % 512 ≠ 0
  · rw [if_pos partial']
    congr 1
    unfold sectorsFor divRoundUp blockSectorSize
    omega
  · rw [if_neg partial']
    have none : sectorsFor size * blockSectorSize - size = 0 := by
      unfold sectorsFor divRoundUp blockSectorSize
      omega
    rw [none]
    rfl

/-- `put_scratch_file` writes a header and the file in whole sectors. -/
theorem putScratchFile_eq (short : name.length ≤ 99) (fits : contents.length ≤ intMax) :
    putScratchFile name contents = some (scratchFile name contents) := by
  have small : contents.length < 8 ^ 11 := by
    rw [intMax] at fits
    omega
  have blank : (List.replicate 8 (32 : UInt8)).length = 8 := List.length_replicate
  have whole := @length_headerText name _ _ small blank
  have chksum : calcUstarChksum
      (headerText name contents.length (List.replicate 8 32)) =
        some (unpackChecksum
          (headerText name contents.length (List.replicate 8 32))) := by
    rw [calcUstarChksum, if_neg (fun different => different whole),
      setChksum_headerText small blank]
  rw [putScratchFile, if_neg (by omega), composeUstar_eq small, Option.bind_some,
    chksum, Option.bind_some,
    mkUstarField_eq (by decide) (unpackChecksum_lt short fits), Option.bind_some,
    copyFile_take (Nat.le_refl _), Option.map_some, List.take_length,
    setChksum_headerText small blank, padding_eq, List.append_assoc]
  rfl

/-- `get_scratch_file` accepts the header and reads the size from it. -/
theorem checkHeader_eq (short : name.length ≤ 99) (fits : size ≤ intMax) :
    checkHeader (scratchHeader name size) = some (.ok size) := by
  have small : size < 8 ^ 11 := by
    rw [intMax] at fits
    omega
  have bound := unpackChecksum_lt short fits
  have field := length_octalField (show 0 < 7 by decide) bound
  have whole := length_scratchHeader short fits
  have magic : substr (scratchHeader name size) 257 6 = ustarMagic := by
    rw [scratchHeader, substr_headerText_back small field (by decide)]
    rfl
  have version : substr (scratchHeader name size) 263 2 = [48, 48] := by
    rw [scratchHeader, substr_headerText_back small field (by decide)]
    rfl
  have typeflag : substr (scratchHeader name size) 156 1 = [48] := by
    rw [scratchHeader, substr_headerText_back small field (by decide)]
    rfl
  have notZeros : scratchHeader name size ≠ List.replicate 512 0 := by
    intro zeros
    rw [zeros] at magic
    have first : substr (List.replicate 512 (0 : UInt8)) 257 6 = List.replicate 6 0 := by
      rw [substr, List.drop_replicate, List.take_replicate]
      rfl
    rw [first] at magic
    cases magic
  have chksum : oct (unpackZ (substr (scratchHeader name size) 148 8)) =
      unpackChecksum (headerText name size (List.replicate 8 32)) := by
    rw [scratchHeader, substr_headerText_chksum small field, unpackZ_octal, oct_octal]
  have correct : calcUstarChksum (scratchHeader name size) =
      some (unpackChecksum (headerText name size (List.replicate 8 32))) := by
    rw [calcUstarChksum, if_neg (fun different => different whole), scratchHeader,
      setChksum_headerText small field]
  have sizeField : oct (unpackZ (substr (scratchHeader name size) 124 12)) =
      size := by
    rw [scratchHeader, substr_headerText_size small, unpackZ_octal, oct_octal]
  rw [checkHeader, if_neg notZeros, if_neg (fun wrong => wrong magic),
    if_neg (fun wrong => wrong version), correct, Option.map_some, chksum,
    if_neg (fun wrong => wrong rfl), if_neg (fun wrong => wrong.1 typeflag),
    sizeField]

/-- `get_scratch_file` reads a file back. -/
theorem getScratchFile_eq (short : name.length ≤ 99)
    (fits : contents.length ≤ intMax) (getFileName : List UInt8)
    (host : HostFiles) (rest : List UInt8) :
    getScratchFile getFileName host (scratchFile name contents ++ rest) =
      some (none, host.write getFileName contents, rest) := by
  have whole := length_scratchHeader short fits
  have header : readFully (scratchFile name contents ++ rest) 512 =
      some (scratchHeader name contents.length, Fs.wholeSectors contents ++ rest) := by
    have length : ¬(scratchFile name contents ++ rest).length < 512 := by
      rw [scratchFile, List.length_append, List.length_append, whole]
      omega
    rw [readFully, if_neg length, scratchFile, List.append_assoc, ← whole,
      List.take_left, List.drop_left]
  have data : copyFile (Fs.wholeSectors contents ++ rest) contents.length = some contents := by
    rw [copyFile_take, Fs.wholeSectors, List.append_assoc, List.take_left]
    rw [List.length_append, Fs.length_wholeSectors]
    have bound := Fs.le_wholeSectors contents.length
    omega
  have behind : (Fs.wholeSectors contents ++ rest).drop contents.length =
      (if contents.length % 512 ≠ 0 then
          List.replicate (512 - contents.length % 512) (0 : UInt8) else []) ++
        rest := by
    rw [padding_eq, Fs.wholeSectors, List.append_assoc, List.drop_left]
  rw [getScratchFile, header, Option.bind_some, checkHeader_eq short fits, Option.bind_some]
  simp only [data, Option.bind_some, behind]
  by_cases partial' : contents.length % 512 ≠ 0
  · have skipped : readFully
        (List.replicate (512 - contents.length % 512) (0 : UInt8) ++ rest)
        (512 - contents.length % 512) =
          some (List.replicate (512 - contents.length % 512) 0, rest) := by
      have length : (List.replicate (512 - contents.length % 512)
          (0 : UInt8)).length = 512 - contents.length % 512 :=
        List.length_replicate
      rw [readFully, if_neg]
      · generalize List.replicate (512 - contents.length % 512) (0 : UInt8) = pad at *
        rw [← length, List.take_left, List.drop_left]
      · rw [List.length_append, length]
        omega
    rw [if_pos partial', if_pos partial', skipped, Option.map_some]
  · rw [if_neg partial', if_neg partial', List.nil_append]

end Files

/-! ## From the host to the kernel -/

/-- A name that the kernel can give a file and that it reads back unchanged. -/
structure GuestName (name : List UInt8) : Prop where
  text : 0 ∉ name
  some_name : name ≠ []
  short : name.length ≤ nameMax
  kept : stripAntisocialPrefixes name = name

/-- How many sectors files take on the scratch disk, each with its header. -/
def scratchSectors (files : List (List UInt8 × List UInt8)) : Nat :=
  (files.map fun file => 1 + sectorsFor file.2.length).sum

/-- Files one behind the other. -/
def scratchFiles (files : List (List UInt8 × List UInt8)) : List UInt8 :=
  files.flatMap fun file => scratchFile file.1 file.2

/-- The scratch device holds bytes from a sector on. -/
structure Holds (src : Scratch) (sector : Nat) (bytes : List UInt8) : Prop where
  read : readBytes src.disk (sector * blockSectorSize) bytes.length = bytes
  inside : sector * blockSectorSize + bytes.length ≤ src.size * blockSectorSize

section Extraction

variable {src : Scratch} {fs : Fs} {name contents front back : List UInt8}
variable {count sector sectors : Nat} {files : List (List UInt8 × List UInt8)}

theorem length_scratchFiles
    (short : ∀ file ∈ files, file.1.length ≤ 99 ∧ file.2.length ≤ intMax) :
    (scratchFiles files).length = scratchSectors files * blockSectorSize := by
  induction files with
  | nil => rfl
  | cons file files inductionHypothesis =>
      have first := short file List.mem_cons_self
      have rest := inductionHypothesis fun other member =>
        short other (List.mem_cons_of_mem file member)
      rw [scratchFiles, List.flatMap_cons, List.length_append, length_scratchFile first.1 first.2]
      change _ + (scratchFiles files).length = _
      rw [rest, scratchSectors, scratchSectors, List.map_cons, List.sum_cons,
        Nat.add_mul _ (List.sum _)]

/-- What the host puts on the scratch disk. -/
theorem prepareScratchDisk_eq
    (short : ∀ file ∈ files, file.1.length ≤ 99 ∧ file.2.length ≤ intMax) :
    prepareScratchDisk files = some (scratchFiles files ++ List.replicate 1024 0) := by
  have puts : putScratchFiles files = some (scratchFiles files) := by
    induction files with
    | nil => rfl
    | cons file files inductionHypothesis =>
        have first := short file List.mem_cons_self
        have rest := inductionHypothesis fun other member =>
          short other (List.mem_cons_of_mem file member)
        rw [putScratchFiles, putScratchFile_eq first.1 first.2, Option.bind_some,
          rest, Option.map_some]
        rfl
  rw [prepareScratchDisk, puts, Option.map_some]

namespace Holds

theorem nil (inside : sector * blockSectorSize ≤ src.size * blockSectorSize) :
    Holds src sector [] where
  read := by
    rw [List.length_nil, readBytes, List.range_zero, List.map_nil]
  inside := by
    rw [List.length_nil, Nat.add_zero]
    exact inside

/-- The bytes in the sectors in front. -/
theorem of_front (holds : Holds src sector (front ++ back)) : Holds src sector front where
  read := by
    have bytes := congrArg (List.take front.length) holds.read
    rw [List.length_append, readBytes_append, List.take_left' (length_readBytes _ _ _),
      List.take_left] at bytes
    exact bytes
  inside := by
    have inside := holds.inside
    rw [List.length_append] at inside
    omega

/-- The bytes in the sectors behind. -/
theorem of_back (holds : Holds src sector (front ++ back))
    (whole : front.length = sectors * blockSectorSize) :
    Holds src (sector + sectors) back where
  read := by
    have bytes := congrArg (List.drop front.length) holds.read
    rw [List.length_append, readBytes_append, List.drop_left' (length_readBytes _ _ _),
      List.drop_left, whole, ← Nat.add_mul] at bytes
    exact bytes
  inside := by
    have inside := holds.inside
    rw [List.length_append, whole] at inside
    rw [Nat.add_mul]
    omega

/-- Bytes in front of other bytes that are written later. -/
theorem append {after : Scratch} (holds : Holds src sector front)
    (whole : front.length = sectors * blockSectorSize)
    (before : ∀ place, place < (sector + sectors) * blockSectorSize →
      after.disk place = src.disk place)
    (behind : Holds after (sector + sectors) back) :
    Holds after sector (front ++ back) where
  read := by
    have kept : readBytes after.disk (sector * blockSectorSize) front.length =
        front := by
      rw [← holds.read, length_readBytes]
      apply readBytes_congr
      intro offset inside
      apply before
      rw [Nat.add_mul]
      omega
    have start : sector * blockSectorSize + front.length =
        (sector + sectors) * blockSectorSize := by
      rw [whole, Nat.add_mul]
    rw [List.length_append, readBytes_append, kept, start, behind.read]
  inside := by
    have inside := behind.inside
    rw [Nat.add_mul] at inside
    rw [List.length_append, whole]
    omega

/-- The first sector can be read. -/
theorem blockRead {first : List UInt8} (holds : Holds src sector (first ++ back))
    (whole : first.length = blockSectorSize) :
    src.blockRead sector = some (sectorBytes src.disk sector) ∧
      readBytes (sectorBytes src.disk sector) 0 blockSectorSize = first := by
  have inside := holds.of_front.inside
  have read := holds.of_front.read
  rw [whole] at inside read
  constructor
  · rw [Scratch.blockRead, if_pos]
    apply Nat.lt_of_succ_le
    apply Nat.le_of_mul_le_mul_right _ (show 0 < blockSectorSize by decide)
    rw [Nat.succ_mul]
    exact inside
  · rw [sectorBytes, readBytes_drop, Nat.add_zero]
    exact read

end Holds

theorem agreeOn_of_readBytes {left right : Memory} {length : Nat}
    (same : readBytes left 0 length = readBytes right 0 length) :
    left.AgreeOn right 0 length := by
  intro place _ less
  have inside : place < (readBytes left 0 length).length := by
    rw [length_readBytes]
    exact less
  have byte := getElem_readBytes inside
  simp only [same] at byte
  rw [getElem_readBytes, Nat.zero_add] at byte
  exact byte.symm

/-- The kernel reads the header of the host. -/
theorem parse_scratchHeader {header : Memory} {size : Nat} (guest : GuestName name)
    (fits : size ≤ intMax) (same : readBytes header 0 blockSectorSize = scratchHeader name size) :
    ustarParseHeader header = .ok { fileName := some name, type := .regular, size := size } := by
  have short : name.length ≤ 99 := Nat.le_trans guest.short (by decide)
  have made := @madeHeader_bytes zeros _ _ short fits
  have agree := agreeOn_of_readBytes (same.trans made.symm)
  rw [ustarParseHeader_congr agree,
    parse_madeHeader short guest.text (by decide) (Int.natCast_nonneg size) (Int.ofNat_le.mpr fits),
    guest.kept]
  rfl

theorem rootNames_fst (disk : Memory) :
    (rootNames disk).map Prod.fst = (rootFiles disk).map Prod.fst := by
  rw [rootFiles, List.map_map]
  rfl

/-- One round of `fsutil_extract` makes a file. -/
theorem extractLoop_file (sound : RootSound fs onlyMap) (compact : Compact fs count)
    (guest : GuestName name) (fresh : name ∉ (rootFiles fs.disk).map Prod.fst)
    (room : (rootFiles fs.disk).length < rootEntries)
    (fits : count + (1 + sectorsFor contents.length) ≤ fs.deviceSize)
    (small : contents.length ≤ intMax)
    (holds : Holds src sector (scratchFile name contents)) (rounds : Nat) :
    ∃ after,
      Fs.extractLoop src (rounds + 1) fs sector =
          Fs.extractLoop src rounds after (sector + (1 + sectorsFor contents.length)) ∧
        RootSound after onlyMap ∧ after.deviceSize = fs.deviceSize ∧
          Compact after (count + (1 + sectorsFor contents.length)) ∧
            (rootFiles after.disk).Perm ((name, contents) :: rootFiles fs.disk) := by
  have short : name.length ≤ 99 := Nat.le_trans guest.short (by decide)
  have header := length_scratchHeader short small
  rcases holds.blockRead header with ⟨read, bytes⟩
  have data := @Holds.of_back _ _ _ _ 1 holds (by rw [header]; rfl)
  have onScratch : sector + 1 + sectorsFor contents.length ≤ src.size := by
    have inside := data.inside
    rw [Fs.length_wholeSectors, ← Nat.add_mul] at inside
    exact Nat.le_of_mul_le_mul_right inside (by decide)
  rw [← rootNames_fst] at fresh
  rw [length_rootFiles] at room
  rcases Fs.extractFile_made sound compact guest.text guest.some_name guest.short
    fresh room fits onScratch with
    ⟨after, run, soundAfter, sameSize, compactAfter, made⟩
  have contentsRead : readBytes (sectorBytes src.disk (sector + 1)) 0
      contents.length = contents := by
    rw [sectorBytes, readBytes_drop, Nat.add_zero]
    exact data.of_front.read
  rw [contentsRead] at made
  refine ⟨after, ?_, soundAfter, sameSize, compactAfter, made.files⟩
  have entry : Fs.extractEntry src fs (sector + 1) (sectorBytes src.disk sector) =
      some (true, after, sector + 1 + sectorsFor contents.length) := by
    unfold Fs.extractEntry
    rw [parse_scratchHeader guest small bytes]
    simp only [Option.getD_some, run, Option.map_some]
  rw [Fs.extractLoop, read, Option.bind_some, entry, Option.bind_some, Nat.add_assoc]

/-- `fsutil_extract` stops at the end marker. -/
theorem extractLoop_end {more : Nat}
    (holds : Holds src sector (List.replicate (blockSectorSize + more) 0)) (rounds : Nat) :
    Fs.extractLoop src (rounds + 1) fs sector = some (fs, sector + 1) := by
  rw [List.replicate_add] at holds
  have marker := holds.blockRead List.length_replicate
  have null : isAllZeros (sectorBytes src.disk sector) = true := by
    rw [isAllZeros]
    apply List.all_eq_true.mpr
    intro byte member
    have inMarker : byte ∈ List.replicate blockSectorSize (0 : UInt8) := marker.2 ▸ member
    exact decide_eq_true (List.eq_of_mem_replicate inMarker)
  have eof : ustarParseHeader (sectorBytes src.disk sector) =
      .ok { fileName := none, type := .eof, size := 0 } := by
    rw [ustarParseHeader, if_pos null]
  have entry : Fs.extractEntry src fs (sector + 1) (sectorBytes src.disk sector) =
      some (false, fs, sector + 1) := by
    unfold Fs.extractEntry
    rw [eof]
  rw [Fs.extractLoop, marker.1, Option.bind_some, entry, Option.bind_some]

/-- `fsutil_extract` panics when the root directory is full. -/
theorem extractLoop_full (sound : RootSound fs onlyMap) (guest : GuestName name)
    (full : rootEntries ≤ (rootFiles fs.disk).length) (small : contents.length ≤ intMax)
    (holds : Holds src sector (scratchFile name contents)) (rounds : Nat) :
    Fs.extractLoop src (rounds + 1) fs sector = none := by
  have short : name.length ≤ 99 := Nat.le_trans guest.short (by decide)
  rcases holds.blockRead (length_scratchHeader short small) with ⟨read, bytes⟩
  rw [length_rootFiles] at full
  have bounded : (contents.length : Int) < 2147483648 := by
    unfold intMax at small
    omega
  rcases RootSound.filesysCreate_full sound guest.text full
    (Int.natCast_nonneg contents.length) bounded with ⟨after, failed⟩
  have entry : Fs.extractEntry src fs (sector + 1) (sectorBytes src.disk sector) =
      none := by
    unfold Fs.extractEntry
    rw [parse_scratchHeader guest small bytes]
    simp only [Option.getD_some, Fs.extractFile, failed, Option.bind_some, Option.map_none]
  rw [Fs.extractLoop, read, Option.bind_some, entry, Option.bind_none]

/-- Contents that fit on a device have a length that is an `int`. -/
theorem le_intMax_of_sectors {deviceSize : Nat} (small : deviceSize < deviceLimit)
    (fits : sectorsFor contents.length ≤ deviceSize) :
    contents.length ≤ intMax := by
  have bound := Fs.le_wholeSectors contents.length
  have scaled := Nat.mul_le_mul_right blockSectorSize fits
  unfold deviceLimit blockSectorSize at small
  unfold blockSectorSize at bound scaled
  unfold intMax
  omega

/-- `fsutil_extract` makes the files of the archive one after the other. -/
theorem extractLoop_files (sound : RootSound fs onlyMap) (compact : Compact fs count)
    (guests : ∀ file ∈ files, GuestName file.1)
    (distinct : ((rootFiles fs.disk ++ files).map Prod.fst).Nodup)
    (room : (rootFiles fs.disk).length + files.length ≤ rootEntries)
    (fits : scratchSectors files ≤ fs.deviceSize - count) (small : fs.deviceSize < deviceLimit)
    (holds : Holds src sector (scratchFiles files)) (rounds : Nat) :
    ∃ after,
      Fs.extractLoop src (rounds + files.length) fs sector =
          Fs.extractLoop src rounds after (sector + scratchSectors files) ∧
        RootSound after onlyMap ∧
          (rootFiles after.disk).Perm (rootFiles fs.disk ++ files) := by
  induction files generalizing fs count sector with
  | nil => exact ⟨fs, rfl, sound, List.Perm.of_eq (List.append_nil _).symm⟩
  | cons file files inductionHypothesis =>
      have total : scratchSectors (file :: files) =
          1 + sectorsFor file.2.length + scratchSectors files := by
        rw [scratchSectors, List.map_cons, List.sum_cons]
        rfl
      have fitsInt : file.2.length ≤ intMax := le_intMax_of_sectors small (by omega)
      have guest := guests file List.mem_cons_self
      have short : file.1.length ≤ 99 := Nat.le_trans guest.short (by decide)
      have listed : Holds src sector (scratchFile file.1 file.2 ++ scratchFiles files) := holds
      have fresh : file.1 ∉ (rootFiles fs.disk).map Prod.fst := by
        rw [List.map_append, List.nodup_append] at distinct
        intro member
        exact distinct.2.2 _ member _ List.mem_cons_self rfl
      rw [List.length_cons] at room
      rcases extractLoop_file sound compact guest fresh (by omega) (by omega)
        fitsInt listed.of_front (rounds + files.length) with
        ⟨middle, first, soundMiddle, sameSize, compactMiddle, added⟩
      have behind := listed.of_back (length_scratchFile short fitsInt)
      have moved : (rootFiles middle.disk ++ files).Perm
          (rootFiles fs.disk ++ file :: files) := by
        have front := added.append_right files
        exact front.trans List.perm_middle.symm
      have length := added.length_eq
      rw [List.length_cons] at length
      rcases inductionHypothesis soundMiddle compactMiddle
        (fun other member => guests other (List.mem_cons_of_mem file member))
        ((moved.map Prod.fst).nodup_iff.mpr distinct) (by omega)
        (by rw [sameSize]; omega) (by rw [sameSize]; exact small) behind with
        ⟨after, rest, soundAfter, perm⟩
      refine ⟨after, ?_, soundAfter, perm.trans moved⟩
      rw [List.length_cons, ← Nat.add_assoc, first, rest, total, Nat.add_assoc, Nat.add_assoc]

theorem le_scratchSectors : files.length ≤ scratchSectors files := by
  induction files with
  | nil => exact Nat.le_refl 0
  | cons file files inductionHypothesis =>
      rw [scratchSectors, List.map_cons, List.sum_cons, List.length_cons]
      change files.length ≤ scratchSectors files at inductionHypothesis
      unfold scratchSectors at inductionHypothesis
      omega

theorem sectors_le_scratchSectors {file : List UInt8 × List UInt8} (member : file ∈ files) :
    1 + sectorsFor file.2.length ≤ scratchSectors files :=
  List.single_le_sum (fun _ _ => Nat.zero_le _) _ (List.mem_map_of_mem member)

/-- Files that fit on the device fit into their headers. -/
theorem guests_short (guests : ∀ file ∈ files, GuestName file.1)
    (onDevice : fs.deviceSize < deviceLimit) (fits : scratchSectors files ≤ fs.deviceSize) :
    ∀ file ∈ files, file.1.length ≤ 99 ∧ file.2.length ≤ intMax := by
  intro file member
  have part := sectors_le_scratchSectors member
  exact ⟨Nat.le_trans (guests file member).short (by decide),
    le_intMax_of_sectors onDevice (by omega)⟩

theorem blockWrite_inside (buffer : Memory) (inside : sector < src.size) :
    ∃ after, src.blockWrite sector buffer = some after ∧
      after.size = src.size := by
  rw [Scratch.blockWrite, if_pos inside]
  exact ⟨_, rfl, rfl⟩

/-- A file system that has been formatted has no files. -/
theorem filesysInit_empty {deviceSize : Nat} {disk stack : Memory}
    {memory : Nat → Kernel.Elem} (small : deviceSize < deviceLimit)
    (started : Fs.filesysInit deviceSize disk stack memory true = some fs) :
    rootFiles fs.disk = [] := by
  rcases filesysInit_sound small started with ⟨_, _, unused, -⟩
  apply List.map_eq_nil_iff.mpr
  apply List.eq_nil_iff_forall_not_mem.mpr
  intro entry member
  rcases mem_rootNames.mp member with ⟨i, inside, here⟩
  rw [unused i inside] at here
  cases here

/-- On a file system that has been formatted `fsutil_extract` makes the files that
the host has put on the scratch disk. -/
theorem fsutilExtract_archive {deviceSize : Nat} {disk stack : Memory}
    {memory : Nat → Kernel.Elem} (small : deviceSize < deviceLimit)
    (started : Fs.filesysInit deviceSize disk stack memory true = some fs)
    (guests : ∀ file ∈ files, GuestName file.1)
    (distinct : (files.map Prod.fst).Nodup) (few : files.length ≤ rootEntries)
    (fits : scratchSectors files ≤ freeSectors fs)
    (holds : Holds src 0 (scratchFiles files ++ List.replicate 1024 0)) :
    ∃ after src',
      fs.fsutilExtract src 0 = some (after, src', scratchSectors files + 1) ∧
        RootSound after onlyMap ∧ (rootFiles after.disk).Perm files := by
  rcases filesysInit_compact small started with ⟨count, compact⟩
  rcases filesysInit_sound small started with ⟨sound, sameSize, -⟩
  have empty := filesysInit_empty small started
  rw [compact.freeSectors_eq] at fits
  have onDevice : fs.deviceSize < deviceLimit := by
    rw [sameSize]
    exact small
  have lengths := guests_short guests onDevice (Nat.le_trans fits (Nat.sub_le _ _))
  have whole := length_scratchFiles lengths
  have marker : Holds src (0 + scratchSectors files)
      (List.replicate (blockSectorSize + 512) 0) := holds.of_back whole
  have room : scratchSectors files + 2 ≤ src.size := by
    have inside := holds.inside
    rw [List.length_append, whole, List.length_replicate, Nat.zero_mul, Nat.zero_add] at inside
    apply Nat.le_of_mul_le_mul_right _ (show 0 < blockSectorSize by decide)
    rw [Nat.add_mul]
    exact inside
  have fewer : files.length ≤ scratchSectors files := le_scratchSectors
  rcases extractLoop_files sound compact guests
    (by rw [empty, List.nil_append]; exact distinct)
    (by rw [empty, List.length_nil, Nat.zero_add]; exact few) fits onDevice
    holds.of_front (src.size - files.length + 1) with
    ⟨after, run, soundAfter, perm⟩
  rw [extractLoop_end marker] at run
  have rounds : src.size - files.length + 1 + files.length = src.size + 1 := by
    omega
  rw [rounds, Nat.zero_add] at run
  rw [empty, List.nil_append] at perm
  rcases blockWrite_inside zeros (show 0 < src.size by omega) with
    ⟨middle, first, size⟩
  rcases blockWrite_inside zeros (show 1 < middle.size by omega) with
    ⟨src', second, -⟩
  refine ⟨after, src', ?_, soundAfter, perm⟩
  rw [Fs.fsutilExtract, run, Option.bind_some]
  dsimp only
  rw [first, Option.bind_some, second, Option.map_some]

end Extraction

/-! ## From the kernel to the host -/

section Appending

variable {fs : Fs} {refs : Nat → Nat} {name contents : List UInt8}
variable {sector : Nat} {dst : Scratch} {files : List (List UInt8 × List UInt8)}

/-- A name in the root directory is a short string. -/
theorem rootNames_name {disk : Memory} {entry : List UInt8 × Nat}
    (member : entry ∈ rootNames disk) :
    0 ∉ entry.1 ∧ entry.1.length ≤ nameMax := by
  rcases mem_rootNames.mp member with ⟨i, _, here⟩
  unfold Filesys.entryOf at here
  split at here
  · rw [← Option.some.inj here]
    exact stringAt_text _ 4 nameMax
  · cases here

/-- What `fsutil_append` writes is what `put_scratch_file` does. -/
theorem appendedFile_eq (buffer : Memory) (short : name.length ≤ nameMax)
    (fits : contents.length ≤ intMax) :
    Fs.appendedFile buffer name contents = scratchFile (stripAntisocialPrefixes name) contents := by
  have stripped : (stripAntisocialPrefixes name).length ≤ 99 := by
    have bound := length_strip_le name
    unfold nameMax at short
    omega
  have header := @madeHeader_bytes buffer _ _ stripped fits
  unfold Fs.appendedFile scratchFile scratchHeader
  rw [← header]
  rfl

/-- The files under the names that `fsutil_append` gives them. -/
def strippedFiles (files : List (List UInt8 × List UInt8)) : List (List UInt8 × List UInt8) :=
  files.map fun file => (stripAntisocialPrefixes file.1, file.2)

/-- A file of the root directory has a short name and a length that is an
`int`. -/
theorem rootFiles_bounds {disk : Memory} {file : List UInt8 × List UInt8}
    (listed : file ∈ rootFiles disk) :
    ∃ owning, (file.1, owning) ∈ rootNames disk ∧
      fileContents disk owning = file.2 ∧ 0 ∉ file.1 ∧
        file.1.length ≤ nameMax ∧ file.2.length ≤ intMax := by
  rcases List.mem_map.mp listed with ⟨entry, member, made⟩
  rcases rootNames_name member with ⟨text, short⟩
  have bound : (diskInode disk entry.2).length < 2147483648 := wrapSigned_lt _
  have length : (fileContents disk entry.2).length ≤ intMax := by
    rw [fileContents, length_readBytes, intMax]
    omega
  rcases file with ⟨name, contents⟩
  rcases Prod.mk.inj made with ⟨sameName, sameContents⟩
  subst sameName sameContents
  dsimp only
  exact ⟨entry.2, member, Eq.refl _, text, short, length⟩

/-- Files that are appended one after the other. -/
structure AppendedAll (fs after : Fs) (dst dst' : Scratch) (sector : Nat)
    (files : List (List UInt8 × List UInt8)) (refs : Nat → Nat) : Prop where
  sound : RootSound after refs
  disk : after.disk = fs.disk
  size : dst'.size = dst.size
  holds : Holds dst' sector (scratchFiles (strippedFiles files))
  before : ∀ place, place < sector * blockSectorSize → dst'.disk place = dst.disk place

theorem fsutilAppends_eq {appends : List (List UInt8 × Memory)}
    (sound : RootSound fs refs) (listed : ∀ file ∈ files, file ∈ rootFiles fs.disk)
    (names : appends.map Prod.fst = files.map Prod.fst)
    (room : sector + scratchSectors files + 2 ≤ dst.size) :
    ∃ after dst',
      fs.fsutilAppends dst sector appends = some (after, dst', sector + scratchSectors files) ∧
        AppendedAll fs after dst dst' sector files refs := by
  induction files generalizing fs sector dst appends with
  | nil =>
      have none := List.map_eq_nil_iff.mp names
      subst none
      have inside : sector * blockSectorSize ≤ dst.size * blockSectorSize :=
        Nat.mul_le_mul_right _ (by omega)
      exact ⟨fs, dst, rfl, sound, rfl, rfl, Holds.nil inside, fun _ _ => rfl⟩
  | cons file files inductionHypothesis =>
      cases appends with
      | nil => cases names
      | cons append appends =>
          rw [List.map_cons, List.map_cons, List.cons.injEq] at names
          have total : scratchSectors (file :: files) =
              1 + sectorsFor file.2.length + scratchSectors files := by
            rw [scratchSectors, List.map_cons, List.sum_cons]
            rfl
          rw [total] at room ⊢
          rcases rootFiles_bounds (listed file List.mem_cons_self) with
            ⟨owning, named, contents, text, short, fits⟩
          have stripped : (stripAntisocialPrefixes file.1).length ≤ 99 := by
            have bound := length_strip_le file.1
            unfold nameMax at short
            omega
          have one := @Fs.fsutilAppend_eq _ _ _ sector dst _ append.2
            sound text stripped named (by rw [contents]; omega)
          rw [contents, appendedFile_eq append.2 short fits] at one
          rcases one with ⟨middle, dst', first, appended⟩
          have room' : sector + (1 + sectorsFor file.2.length) +
              scratchSectors files + 2 ≤ dst'.size := by
            rw [appended.size]
            omega
          have listed' : ∀ other ∈ files, other ∈ rootFiles middle.disk := by
            intro other member
            rw [appended.disk]
            exact listed other (List.mem_cons_of_mem file member)
          have later := inductionHypothesis appended.sound listed' names.2 room'
          rcases later with ⟨after, dst'', rest, all⟩
          refine ⟨after, dst'', ?_, ⟨all.sound, all.disk.trans appended.disk,
            all.size.trans appended.size, ?_, ?_⟩⟩
          · rw [Fs.fsutilAppends, names.1, first, Option.bind_some]
            dsimp only
            rw [rest, Nat.add_assoc]
          · have size := length_scratchFile stripped fits
            have front : Holds dst' sector
                (scratchFile (stripAntisocialPrefixes file.1) file.2) := by
              constructor
              · have bytes := congrArg (List.take (scratchFile
                  (stripAntisocialPrefixes file.1) file.2).length) appended.bytes
                rw [readBytes_append, List.take_left' (length_readBytes _ _ _),
                  List.take_left] at bytes
                exact bytes
              · rw [size, ← Nat.add_mul, appended.size]
                exact Nat.mul_le_mul_right _ (by omega)
            exact front.append size all.before all.holds
          · intro place before
            rw [all.before place, appended.before place before]
            rw [Nat.add_mul]
            omega

end Appending

/-! ## Files of the host -/

/-- The files of the host after some have been written. -/
def HostFiles.writeAll (host : HostFiles) : List (List UInt8 × List UInt8) → HostFiles
  | [] => host
  | put :: rest => (host.write put.1 put.2).writeAll rest

section Host

variable {host : HostFiles} {gets : List (List UInt8)}
variable {files puts : List (List UInt8 × List UInt8)} {rest : List UInt8}

theorem writeAll_other {other : List UInt8}
    (absent : other ∉ puts.map Prod.fst) : host.writeAll puts other = host other := by
  induction puts generalizing host with
  | nil => rfl
  | cons put puts inductionHypothesis =>
      rw [List.map_cons, List.mem_cons, not_or] at absent
      rw [HostFiles.writeAll, inductionHypothesis absent.2, HostFiles.write, if_neg absent.1]

/-- No file of the host is longer than what is to be written to it. -/
def HostFiles.Covered (host : HostFiles) (puts : List (List UInt8 × List UInt8)) : Prop :=
  ∀ put ∈ puts, ∀ old, host put.1 = some old → old.length ≤ put.2.length

/-- Files that were not longer have the bytes that have been written. -/
theorem writeAll_put (distinct : (puts.map Prod.fst).Nodup) (covered : host.Covered puts) :
    ∀ put ∈ puts, host.writeAll puts put.1 = some put.2 := by
  induction puts generalizing host with
  | nil =>
      intro put member
      cases member
  | cons put puts inductionHypothesis =>
      rw [List.map_cons, List.nodup_cons] at distinct
      have later : (host.write put.1 put.2).Covered puts := by
        intro other member
        have different : other.1 ≠ put.1 := by
          intro same
          exact distinct.1 (same ▸ List.mem_map_of_mem member)
        rw [HostFiles.write, if_neg different]
        exact covered other (List.mem_cons_of_mem put member)
      intro found member
      rcases List.mem_cons.mp member with first | other
      · subst first
        rw [HostFiles.writeAll, writeAll_other distinct.1, HostFiles.write, if_pos rfl]
        cases there : host found.1 with
        | none => simp
        | some old =>
            have shorter := covered found List.mem_cons_self old there
            simp [List.drop_eq_nil_of_le shorter]
      · exact inductionHypothesis distinct.2 later found other

/-- The loop of `finish_scratch_disk` gets the files one after the other. -/
theorem getScratchFiles_eq (partFn : String) {partBytes diskBytes : Nat}
    (short : ∀ file ∈ files, file.1.length ≤ 99 ∧ file.2.length ≤ intMax)
    (same : gets.length = files.length) (within : diskBytes - rest.length ≤ partBytes) :
    getScratchFiles partFn partBytes diskBytes gets true host
        (scratchFiles files ++ rest) =
      some (true, host.writeAll (gets.zip (files.map Prod.snd))) := by
  induction files generalizing gets host with
  | nil =>
      rw [List.length_eq_zero_iff.mp same]
      rfl
  | cons file files inductionHypothesis =>
      cases gets with
      | nil => cases same
      | cons name gets =>
          have first := short file List.mem_cons_self
          have got := getScratchFile_eq first.1 first.2 name host (scratchFiles files ++ rest)
          have fits : ¬partBytes < diskBytes - (scratchFiles files ++ rest).length := by
            rw [List.length_append]
            omega
          have cells : scratchFiles (file :: files) ++ rest =
              scratchFile file.1 file.2 ++ (scratchFiles files ++ rest) := by
            rw [scratchFiles, List.flatMap_cons, List.append_assoc]
            rfl
          rw [cells, getScratchFiles, got, Option.bind_some]
          simp only [fits, and_false, if_false, Option.isSome_none, Bool.false_eq_true]
          rw [inductionHypothesis
            (fun other member => short other (List.mem_cons_of_mem file member))
            (Nat.succ.inj same)]
          rfl

end Host

section Finish

variable {fs : Fs} {refs : Nat → Nat} {dst : Scratch}
variable {files : List (List UInt8 × List UInt8)}

/-- The host gets back the files that `fsutil_append` has put on the scratch
device. -/
theorem fsutilAppends_archive {appends : List (List UInt8 × Memory)}
    {gets : List (List UInt8)} {host : HostFiles} (sound : RootSound fs refs)
    (listed : ∀ file ∈ files, file ∈ rootFiles fs.disk)
    (names : appends.map Prod.fst = files.map Prod.fst) (room : scratchSectors files + 2 ≤ dst.size)
    (same : gets.length = files.length) (distinct : gets.Nodup)
    (covered : host.Covered (gets.zip (files.map Prod.snd))) (partFn : String) (tail : List UInt8) :
    ∃ after dst' host',
      fs.fsutilAppends dst 0 appends = some (after, dst', scratchSectors files) ∧
        after.disk = fs.disk ∧
          finishScratchDisk partFn dst'.size gets host
              (readBytes dst'.disk 0 (dst'.size * 512) ++ tail) =
            some (true, host') ∧
          (∀ put ∈ gets.zip (files.map Prod.snd), host' put.1 = some put.2) ∧
            ∀ other, other ∉ gets → host' other = host other := by
  rcases fsutilAppends_eq sound listed names (by rw [Nat.zero_add]; exact room) with
    ⟨after, dst', run, all⟩
  have short : ∀ file ∈ strippedFiles files, file.1.length ≤ 99 ∧ file.2.length ≤ intMax := by
    intro file member
    rcases List.mem_map.mp member with ⟨before, there, made⟩
    rcases rootFiles_bounds (listed before there) with ⟨_, _, _, _, short, fits⟩
    have bound := length_strip_le before.1
    unfold nameMax at short
    rw [← made]
    exact ⟨by dsimp only; omega, fits⟩
  have contents : (strippedFiles files).map Prod.snd = files.map Prod.snd := by
    rw [strippedFiles, List.map_map]
    rfl
  have sameStripped : gets.length = (strippedFiles files).length := by
    rw [same, strippedFiles, List.length_map]
  have zipped : (gets.zip (files.map Prod.snd)).map Prod.fst = gets := by
    apply List.map_fst_zip
    rw [List.length_map, same]
  have inside := all.holds.inside
  have read := all.holds.read
  rw [Nat.zero_mul] at read
  rw [Nat.zero_mul, Nat.zero_add] at inside
  have cells : readBytes dst'.disk 0 (dst'.size * 512) ++ tail =
      scratchFiles (strippedFiles files) ++
        (readBytes dst'.disk (0 + (scratchFiles (strippedFiles files)).length)
          (dst'.size * 512 - (scratchFiles (strippedFiles files)).length) ++
            tail) := by
    rw [← Nat.add_sub_cancel' (show (scratchFiles (strippedFiles files)).length ≤
      dst'.size * 512 from inside), readBytes_append, read,
      Nat.add_sub_cancel_left, List.append_assoc]
  refine ⟨after, dst', host.writeAll (gets.zip (files.map Prod.snd)), ?_, all.disk, ?_, ?_, ?_⟩
  · rw [run, Nat.zero_add]
  · rw [finishScratchDisk, cells, getScratchFiles_eq partFn short sameStripped, contents]
    rw [@List.length_append _ (scratchFiles (strippedFiles files)) _, Nat.add_sub_cancel]
    exact inside
  · apply writeAll_put _ covered
    rw [zipped]
    exact distinct
  · intro other absent
    apply writeAll_other
    rw [zipped]
    exact absent

end Finish

/-! ## The two directions -/

theorem freeSectors_le (fs : Fs) : freeSectors fs ≤ fs.deviceSize := by
  have fewer := List.length_filter_le (fun place => !fs.freeMap.bit place)
    (List.range fs.deviceSize)
  rw [List.length_range] at fewer
  exact fewer

/-- The host and the kernel agree on the scratch archive. -/
theorem scratch_archive_agrees :
    (∀ {deviceSize : Nat} {disk stack : Memory} {memory : Nat → Kernel.Elem}
        {fs : Fs} {src : Scratch} {files : List (List UInt8 × List UInt8)}
        {archive : List UInt8},
      deviceSize < deviceLimit →
      Fs.filesysInit deviceSize disk stack memory true = some fs →
      (∀ file ∈ files, GuestName file.1) → (files.map Prod.fst).Nodup →
      files.length ≤ rootEntries → scratchSectors files ≤ freeSectors fs →
      prepareScratchDisk files = some archive → Holds src 0 archive →
      ∃ after src',
        fs.fsutilExtract src 0 = some (after, src', scratchSectors files + 1) ∧
          RootSound after onlyMap ∧ (rootFiles after.disk).Perm files) ∧
    ∀ {fs : Fs} {refs : Nat → Nat} {dst : Scratch}
        {files : List (List UInt8 × List UInt8)}
        {appends : List (List UInt8 × Memory)} {gets : List (List UInt8)}
        {host : HostFiles} (partFn : String) (tail : List UInt8),
      RootSound fs refs → (∀ file ∈ files, file ∈ rootFiles fs.disk) →
      appends.map Prod.fst = files.map Prod.fst →
      scratchSectors files + 2 ≤ dst.size → gets.length = files.length →
      gets.Nodup → host.Covered (gets.zip (files.map Prod.snd)) →
      ∃ after dst' host',
        fs.fsutilAppends dst 0 appends = some (after, dst', scratchSectors files) ∧
          after.disk = fs.disk ∧
            finishScratchDisk partFn dst'.size gets host
                (readBytes dst'.disk 0 (dst'.size * 512) ++ tail) =
              some (true, host') ∧
            (∀ put ∈ gets.zip (files.map Prod.snd),
                host' put.1 = some put.2) ∧
              ∀ other, other ∉ gets → host' other = host other := by
  constructor
  · intro deviceSize disk stack memory fs src files archive small started guests
      distinct few fits prepared holds
    have onDevice : fs.deviceSize < deviceLimit := by
      rw [(filesysInit_sound small started).2.1]
      exact small
    have lengths := guests_short guests onDevice (Nat.le_trans fits (freeSectors_le fs))
    rw [prepareScratchDisk_eq lengths, Option.some.injEq] at prepared
    subst prepared
    exact fsutilExtract_archive small started guests distinct few fits holds
  · intro fs refs dst files appends gets host partFn tail sound listed names room
      same distinct covered
    exact fsutilAppends_archive sound listed names room same distinct covered partFn tail

/-- Bytes at the start of memory. -/
def byteMemory (bytes : List UInt8) : Memory := fun place => bytes.getD place 0

/-- A scratch device with an archive. -/
def scratchWith (size : Nat) (archive : List UInt8) : Scratch where
  size := size
  disk := byteMemory archive

theorem holds_scratchWith {size : Nat} {archive : List UInt8}
    (inside : archive.length ≤ size * blockSectorSize) :
    Holds (scratchWith size archive) 0 archive where
  read := by
    apply List.ext_getElem
    · exact length_readBytes _ _ _
    · intro index first second
      rw [getElem_readBytes, Nat.zero_mul, Nat.zero_add]
      exact (List.getElem_eq_getD 0).symm
  inside := by
    rw [Nat.zero_mul, Nat.zero_add]
    exact inside

/-- An empty file, one that fills a sector and one that is a byte longer. -/
def threeFiles : List (List UInt8 × List UInt8) :=
  [([97], []), ([98], List.replicate 512 1), ([99], List.replicate 513 2)]

/-- A file of the host that is not longer than the one that is written there. -/
def oldHost : HostFiles := fun name => if name = [102] then some [7, 7] else none

/-- Three files go from the host to the kernel and back. -/
theorem scratch_archive_agrees_three : ∃ fs archive after src' later dst' host',
      Fs.filesysInit 16 zeros zeros (fun _ => 0) true = some fs ∧
        prepareScratchDisk threeFiles = some archive ∧
          fs.fsutilExtract (scratchWith 8 archive) 0 = some (after, src', 7) ∧
            (rootFiles after.disk).Perm threeFiles ∧
            after.fsutilAppends { size := 8, disk := zeros } 0
                (threeFiles.map fun file => (file.1, zeros)) = some (later, dst', 6) ∧
              finishScratchDisk "scratch" dst'.size [[100], [101], [102]] oldHost
                  (readBytes dst'.disk 0 (dst'.size * 512) ++ []) =
                some (true, host') ∧
                host' [100] = some [] ∧ host' [101] = some (List.replicate 512 1) ∧
                  host' [102] = some (List.replicate 513 2) := by
  have formats : (Fs.filesysInit 16 zeros zeros (fun _ => 0) true).any
      (fun fs => decide (6 ≤ freeSectors fs)) = true := by
    decide +kernel
  rcases (Option.any_eq_true _ _).mp formats with ⟨fs, started, room⟩
  have guests : ∀ file ∈ threeFiles, GuestName file.1 := by
    have checked : ∀ file ∈ threeFiles, 0 ∉ file.1 ∧ file.1 ≠ [] ∧
        file.1.length ≤ nameMax ∧ stripAntisocialPrefixes file.1 = file.1 := by
      decide
    intro file member
    rcases checked file member with ⟨text, some_name, short, kept⟩
    exact ⟨text, some_name, short, kept⟩
  have short : ∀ file ∈ threeFiles, file.1.length ≤ 99 ∧ file.2.length ≤ intMax := by decide +kernel
  have sectors : scratchSectors threeFiles = 6 := by decide +kernel
  have fits : scratchSectors threeFiles ≤ freeSectors fs := by
    rw [sectors]
    exact of_decide_eq_true room
  have prepared := prepareScratchDisk_eq short
  have length : (scratchFiles threeFiles ++ List.replicate 1024 0).length ≤
      8 * blockSectorSize := by
    rw [List.length_append, length_scratchFiles short, sectors, List.length_replicate]
    decide
  rcases scratch_archive_agrees.1 (show 16 < deviceLimit by decide) started guests
    (by decide) (by decide) fits prepared (holds_scratchWith length) with
    ⟨after, src', extracted, sound, files⟩
  have listed : ∀ file ∈ threeFiles, file ∈ rootFiles after.disk :=
    fun file member => files.mem_iff.mpr member
  have names : (threeFiles.map fun file => (file.1, zeros)).map Prod.fst =
      threeFiles.map Prod.fst := rfl
  have roomy : scratchSectors threeFiles + 2 ≤ (Scratch.mk 8 zeros).size := by
    rw [sectors]
  have nodup : [[100], [101], ([102] : List UInt8)].Nodup := by decide
  have covered : oldHost.Covered
      ([[100], [101], [102]].zip (threeFiles.map Prod.snd)) := by
    intro put member old there
    rw [oldHost] at there
    split_ifs at there with named
    simp only [threeFiles, List.map_cons, List.map_nil, List.zip_cons_cons,
      List.zip_nil_right, List.mem_cons, List.not_mem_nil, or_false] at member
    rcases member with first | second | third
    · rw [first] at named
      exact absurd named (by decide)
    · rw [second] at named
      exact absurd named (by decide)
    · rw [third, ← Option.some.inj there, List.length_replicate]
      decide
  rcases scratch_archive_agrees.2 "scratch" [] sound listed names roomy rfl nodup
    covered with ⟨later, dst', host', appended, -, finished, got, -⟩
  rw [sectors] at extracted appended
  exact ⟨fs, _, after, src', later, dst', host', started, prepared, extracted, files,
    appended, finished, got ([100], []) List.mem_cons_self,
    got ([101], List.replicate 512 1) (List.mem_cons_of_mem _ List.mem_cons_self),
    got ([102], List.replicate 513 2)
      (List.mem_cons_of_mem _ (List.mem_cons_of_mem _ List.mem_cons_self))⟩

/-- One file more than the root directory has entries. -/
def seventeenFiles : List (List UInt8 × List UInt8) :=
  (List.range 17).map fun i => ([UInt8.ofNat (97 + i)], [])

/-- The seventeenth file makes `fsutil_extract` panic, although there are sectors
for it. -/
theorem scratch_archive_seventeen : ∃ fs archive,
      Fs.filesysInit 64 zeros zeros (fun _ => 0) true = some fs ∧
        (∀ file ∈ seventeenFiles, GuestName file.1) ∧
          (seventeenFiles.map Prod.fst).Nodup ∧
            scratchSectors seventeenFiles ≤ freeSectors fs ∧
              prepareScratchDisk seventeenFiles = some archive ∧
                Holds (scratchWith 32 archive) 0 archive ∧
                  fs.fsutilExtract (scratchWith 32 archive) 0 = none := by
  have formats : (Fs.filesysInit 64 zeros zeros (fun _ => 0) true).any
      (fun fs => decide (17 ≤ freeSectors fs)) = true := by
    decide +kernel
  rcases (Option.any_eq_true _ _).mp formats with ⟨fs, started, room⟩
  have guests : ∀ file ∈ seventeenFiles, GuestName file.1 := by
    have checked : ∀ file ∈ seventeenFiles, 0 ∉ file.1 ∧ file.1 ≠ [] ∧
        file.1.length ≤ nameMax ∧ stripAntisocialPrefixes file.1 = file.1 := by
      decide
    intro file member
    rcases checked file member with ⟨text, some_name, short, kept⟩
    exact ⟨text, some_name, short, kept⟩
  have short : ∀ file ∈ seventeenFiles, file.1.length ≤ 99 ∧ file.2.length ≤ intMax := by decide
  have sectors : scratchSectors seventeenFiles = 17 := by decide
  have fits : scratchSectors seventeenFiles ≤ freeSectors fs := by
    rw [sectors]
    exact of_decide_eq_true room
  have prepared := prepareScratchDisk_eq short
  have length : (scratchFiles seventeenFiles ++ List.replicate 1024 0).length ≤
      32 * blockSectorSize := by
    rw [List.length_append, length_scratchFiles short, List.length_replicate]
    decide
  refine ⟨fs, _, started, guests, by decide, fits, prepared, holds_scratchWith length, ?_⟩
  generalize source : scratchWith 32 _ = src
  have holds : Holds src 0
      (scratchFiles seventeenFiles ++ List.replicate 1024 0) :=
    source ▸ holds_scratchWith length
  have size : src.size = 32 := source ▸ rfl
  have split : seventeenFiles = seventeenFiles.take 16 ++ [([113], [])] := by
    decide
  have first : ∀ file ∈ seventeenFiles.take 16, file ∈ seventeenFiles :=
    fun file member => List.mem_of_mem_take member
  rw [split, scratchFiles, List.flatMap_append, List.append_assoc, List.flatMap_singleton] at holds
  change Holds src 0 (scratchFiles (seventeenFiles.take 16) ++ _) at holds
  rcases filesysInit_compact (by decide) started with ⟨count, compact⟩
  rcases filesysInit_sound (by decide) started with ⟨sound, sameSize, -⟩
  have empty := filesysInit_empty (by decide) started
  have device : fs.deviceSize < deviceLimit := by
    rw [sameSize]
    decide
  rw [compact.freeSectors_eq, sectors] at fits
  rcases extractLoop_files sound compact
    (fun file member => guests file (first file member))
    (by rw [empty]; decide) (by rw [empty]; decide)
    (Nat.le_trans (show scratchSectors (seventeenFiles.take 16) ≤ 17 by decide) fits)
    device holds.of_front 17 with ⟨after, run, soundAfter, made⟩
  have whole := length_scratchFiles fun file member =>
    short file (first file member)
  have behind := (holds.of_back whole).of_front
  have full : rootEntries ≤ (rootFiles after.disk).length := by
    rw [made.length_eq, empty]
    decide
  have panics := extractLoop_full soundAfter
    (guests ([113], []) (by decide)) full (by decide) behind 16
  rw [panics] at run
  rw [Fs.fsutilExtract, size]
  change (Fs.extractLoop src (17 + (seventeenFiles.take 16).length) fs 0).bind _ = _
  rw [run, Option.bind_none]

end CS162.Utils
