import CS162.Filesys.Fsutil
import CS162.Utils.DiskReaders

/-!
# The scratch disk on the host

`mk_ustar_field`, `calc_ustar_chksum`, `put_scratch_file` and `get_scratch_file`
of `utils/pintos`, and the loops that call the last two.  A `die` is `none`.
-/

namespace CS162.Utils

open CS162.Foundation
open CS162.Filesys
open CS162.Lib

/-! ## Headers -/

/-- `mk_ustar_field`. -/
def mkUstarField (number size : Nat) : Option (List UInt8) :=
  let out := (paddedOctal (size - 1) number).map octalChar ++ [0]
  if out.length ≠ size then none else some out

/-- `unpack ("%32a*", $s)` -/
def unpackChecksum (s : List UInt8) : Nat := (s.map UInt8.toNat).sum % 2 ^ 32

/-- `substr ($header, 148, 8) = $text` -/
def setChksum (header text : List UInt8) : List UInt8 := header.take 148 ++ text ++ header.drop 156

/-- `calc_ustar_chksum`. -/
def calcUstarChksum (s : List UInt8) : Option Nat :=
  if s.length ≠ 512 then none
  else some (unpackChecksum (setChksum s (List.replicate 8 32)))

/-- `"ustar\0"` -/
def ustarMagic : List UInt8 := [117, 115, 116, 97, 114, 0]

/-- `"root"` -/
def rootText : List UInt8 := [114, 111, 111, 116]

/-- The fields behind the checksum. -/
def headerBack : List UInt8 :=
  [48] ++ List.replicate 100 0 ++ ustarMagic ++ [48, 48] ++
    (rootText ++ List.replicate 28 0) ++ (rootText ++ List.replicate 28 0) ++
      List.replicate 8 0 ++ List.replicate 8 0 ++ List.replicate 155 0 ++ List.replicate 12 0

/-- The header that `put_scratch_file` composes, with blanks for the
checksum. -/
def composeUstar (dstFileName : List UInt8) (size : Nat) : Option (List UInt8) :=
  (mkUstarField 420 8).bind fun mode =>
    (mkUstarField 0 8).bind fun uid =>
      (mkUstarField 0 8).bind fun gid =>
        (mkUstarField size 12).bind fun sizeField =>
          (mkUstarField 1136102400 12).map fun mtime =>
            packA 100 dstFileName ++ mode ++ uid ++ gid ++ sizeField ++ mtime ++
              List.replicate 8 32 ++ headerBack

/-- `put_scratch_file`: what it writes for a file with these bytes. -/
def putScratchFile (dstFileName contents : List UInt8) : Option (List UInt8) :=
  let size := contents.length
  if 99 < dstFileName.length then none
  else
    (composeUstar dstFileName size).bind fun header =>
      (calcUstarChksum header).bind fun chksum =>
        (mkUstarField chksum 8).bind fun field =>
          (copyFile contents size).map fun data =>
            setChksum header field ++ data ++
              (if size % 512 ≠ 0 then List.replicate (512 - size % 512) 0
                else [])

/-- The loop of `prepare_scratch_disk`. -/
def putScratchFiles : List (List UInt8 × List UInt8) → Option (List UInt8)
  | [] => some []
  | put :: rest =>
      (putScratchFile put.1 put.2).bind fun file =>
        (putScratchFiles rest).map (file ++ ·)

/-- What `prepare_scratch_disk` writes before it extends the partition. -/
def prepareScratchDisk (puts : List (List UInt8 × List UInt8)) : Option (List UInt8) :=
  (putScratchFiles puts).map (· ++ List.replicate 1024 0)

/-! ## Reading files back -/

/-- `unpack ("Z*", $s)` -/
def unpackZ (s : List UInt8) : List UInt8 := s.takeWhile (· ≠ 0)

/-- `isSPACE` -/
def isSpace (c : UInt8) : Bool := c = 32 ∨ (9 ≤ c.toNat ∧ c.toNat ≤ 13)

/-- The value of a digit in a base up to 16. -/
def digitValue (base : Nat) (c : UInt8) : Option Nat :=
  let value :=
    if 48 ≤ c.toNat ∧ c.toNat ≤ 57 then some (c.toNat - 48)
    else if 97 ≤ c.toNat ∧ c.toNat ≤ 102 then some (c.toNat - 87)
    else if 65 ≤ c.toNat ∧ c.toNat ≤ 70 then some (c.toNat - 55)
    else none
  value.filter (· < base)

/-- Digits up to the first character that is none; an underscore may stand
before a digit. -/
def scanDigits (base : Nat) : List UInt8 → Nat → Nat
  | [], value => value
  | c :: rest, value =>
      match digitValue base c with
      | some digit => scanDigits base rest (value * base + digit)
      | none =>
          if c = 95 ∧ (rest.head?.bind (digitValue base)).isSome then
            scanDigits base rest value
          else value

/-- `oct`, of what is behind blanks and a zero. -/
def octPrefixed : List UInt8 → Nat
  | [] => 0
  | c :: rest =>
      if c = 120 ∨ c = 88 then scanDigits 16 rest 0
      else if c = 98 ∨ c = 66 then scanDigits 2 rest 0
      else if c = 111 ∨ c = 79 then scanDigits 8 rest 0
      else scanDigits 8 (c :: rest) 0

/-- `oct`. -/
def oct (text : List UInt8) : Nat :=
  let text := text.dropWhile isSpace
  octPrefixed (if text.head? = some 48 then text.drop 1 else text)

/-- The files of the host by their names. -/
abbrev HostFiles := List UInt8 → Option (List UInt8)

/-- `sysopen` with `O_WRONLY | O_CREAT`, and `copy_file` to the file: what was
there before is not cut off. -/
def HostFiles.write (host : HostFiles) (name data : List UInt8) : HostFiles :=
  fun other =>
    if other = name then
      some (data ++ ((host name).getD []).drop data.length)
    else host other

/-- `unlink`. -/
def HostFiles.unlink (host : HostFiles) (name : List UInt8) : HostFiles :=
  fun other => if other = name then none else host other

/-- `substr`. -/
def substr (s : List UInt8) (offset length : Nat) : List UInt8 := (s.drop offset).take length

/-- The checks of `get_scratch_file`: the size of the file, or the error. -/
def checkHeader (header : List UInt8) : Option (Except String Nat) :=
  if header = List.replicate 512 0 then
    some (.error "scratch disk tar archive ends unexpectedly")
  else if substr header 257 6 ≠ ustarMagic then
    some (.error "corrupt ustar signature")
  else if substr header 263 2 ≠ [48, 48] then
    some (.error "invalid ustar version")
  else
    (calcUstarChksum header).map fun correctChksum =>
      if oct (unpackZ (substr header 148 8)) ≠ correctChksum then
        .error "checksum mismatch"
      else if substr header 156 1 ≠ [48] ∧ substr header 156 1 ≠ [0] then
        .error "not a regular file"
      else .ok (oct (unpackZ (substr header 124 12)))

/-- `get_scratch_file`: the error if there is one, the files of the host and
what has not been read of the disk. -/
def getScratchFile (getFileName : List UInt8) (host : HostFiles)
    (disk : List UInt8) : Option (Option String × HostFiles × List UInt8) :=
  (readFully disk 512).bind fun header =>
    (checkHeader header.1).bind fun
      | .error message => some (some message, host, header.2)
      | .ok size =>
          (copyFile header.2 size).bind fun data =>
            let host := host.write getFileName data
            let disk := header.2.drop size
            if size % 512 ≠ 0 then
              (readFully disk (512 - size % 512)).map fun skipped =>
                (none, host, skipped.2)
            else some (none, host, disk)

/-- The loop of `finish_scratch_disk` on a partition of a number of bytes, where
a number of bytes is left of the disk from the partition on: the variable `ok`
and the files of the host. -/
def getScratchFiles (partFn : String) (partBytes diskBytes : Nat) :
    List (List UInt8) → Bool → HostFiles → List UInt8 →
      Option (Bool × HostFiles)
  | [], ok, host, _ => some (ok, host)
  | name :: gets, false, host, disk =>
      getScratchFiles partFn partBytes diskBytes gets false (host.unlink name)
        disk
  | name :: gets, true, host, disk =>
      (getScratchFile name host disk).bind fun result =>
        let error :=
          if result.1 = none ∧ partBytes < diskBytes - result.2.2.length then
            some (partFn ++ ": scratch data overflows partition")
          else result.1
        if error.isSome then
          getScratchFiles partFn partBytes diskBytes gets false (result.2.1.unlink name) result.2.2
        else
          getScratchFiles partFn partBytes diskBytes gets true result.2.1 result.2.2

/-- `finish_scratch_disk`, with the bytes of the disk from the scratch partition
on. -/
def finishScratchDisk (partFn : String) (partSectors : Nat)
    (gets : List (List UInt8)) (host : HostFiles) (disk : List UInt8) :
    Option (Bool × HostFiles) :=
  getScratchFiles partFn (partSectors * 512) disk.length gets true host disk

end CS162.Utils
