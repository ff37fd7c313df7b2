import Mathlib.Data.List.TakeWhile
import Mathlib.Tactic.Ring
import CS162.Utils.DiskReaders

/-!
# The requested disk geometry

`set_geometry` of `utils/Pintos.pm`, and how the scripts `pintos` and `pintos-mkdisk` hand
the geometry to `assemble_disk`.  A scalar is a number or undefined.
-/

namespace CS162.Utils

open CS162.Foundation CS162.Devices

/-! ## Scalars and hashes -/

/-- A hash, by its keys and their values. -/
abbrev PerlHash := List (String × Option Nat)

/-- `$hash{$key} = $value` -/
def setKey (hash : PerlHash) (key : String) (value : Option Nat) : PerlHash :=
  hash.filter (fun entry => entry.1 ≠ key) ++ [(key, value)]

/-- `$hash{$key}` as a number: what is undefined is 0. -/
def numberAt (hash : PerlHash) (key : String) : Nat := ((hash.lookup key).bind id).getD 0

/-- `%hash` in scalar context: the number of keys. -/
def scalarOf (hash : PerlHash) : Option Nat := some hash.length

/-- `my (%geometry) = $args{GEOMETRY} || (H => 16, S => 63);`: a list of one scalar is a key
without a value. -/
def geometryHash (argument : Option Nat) : PerlHash :=
  match argument with
  | none => [("H", some 16), ("S", some 63)]
  | some value =>
      if value = 0 then [("H", some 16), ("S", some 63)] else [(toString value, none)]

/-- The geometry that `cyl_sectors`, `lba_to_chs` and `assemble_disk` find in a hash. -/
def hashGeometry (hash : PerlHash) : Geometry := ⟨numberAt hash "H", numberAt hash "S"⟩

/-! ## The option -/

/-- `\d` -/
def isDigit (character : Char) : Bool := character.isDigit

/-- `[,\s]` -/
def isSeparator (character : Char) : Bool :=
  character = ',' || character.isWhitespace || character = '\x0b' || character = '\x0c'

/-- `/^(\d+)[,\s]+(\d+)$/`, with the numbers that it matches. -/
def matchGeometry (argument : List Char) : Option (Nat × Nat) :=
  let heads := argument.takeWhile isDigit
  let rest := argument.dropWhile isDigit
  let separators := rest.takeWhile isSeparator
  let rest := rest.dropWhile isSeparator
  let sectors := rest.takeWhile isDigit
  let rest := rest.dropWhile isDigit
  if heads ≠ [] ∧ separators ≠ [] ∧ sectors ≠ [] ∧ (rest = [] ∨ rest = ['\n']) then
    some (Nat.ofDigitChars 10 heads 0, Nat.ofDigitChars 10 sectors 0)
  else none

/-- `set_geometry`. -/
def setGeometry (geometry : PerlHash) (argument : List Char) : Option PerlHash :=
  if argument = ['z', 'i', 'p'] then
    some (setKey (setKey geometry "H" (some 64)) "S" (some 32))
  else
    (matchGeometry argument).bind fun found =>
      let geometry := setKey (setKey geometry "H" (some found.1)) "S" (some found.2)
      if ¬found.1 ≤ 255 then none
      else if ¬found.2 ≤ 63 then none
      else some geometry

/-! ## Building a disk -/

/-- `assemble_disk`, which dies when it divides by the size of a cylinder and that is 0. -/
def assembleDiskChecked (args : DiskArgs) : Option (List UInt8) :=
  if cylSectors args.geometry = 0 ∧
      (args.align = .bochs ∨ roleOrder.any fun role => (args.parts role).isSome) then none
  else assembleDisk args

/-- The arguments for `assemble_disk` when `GEOMETRY` is a scalar. -/
def diskArgs (parts : Role → Option Part) (align : Alignment)
    (loader : Option (List UInt8)) (args : List (List UInt8)) (geometry : Option Nat) :
    DiskArgs where
  parts := parts
  geometry := hashGeometry (geometryHash geometry)
  align := align
  loader := loader
  args := args

/-- The disk that `pintos` and `pintos-mkdisk` make with `--geometry`, and the places of
its partitions. -/
def makeDisk (argument : List Char) (parts : Role → Option Part) (align : Alignment)
    (loader : Option (List UInt8)) (args : List (List UInt8)) :
    Option (List PlacedPart × List UInt8) :=
  (setGeometry [] argument).bind fun geometry =>
    let args := diskArgs parts align loader args (scalarOf geometry)
    (assembleDiskChecked args).map fun disk => ((diskLayout args).1, disk)

/-! ## What the geometry is for -/

/-- The sector that three packed bytes stand for. -/
def decodeChs (geometry : Geometry) (bytes : UInt8 × UInt8 × UInt8) : Nat :=
  let cylinder := bytes.2.1.toNat / 64 * 256 + bytes.2.2.toNat
  (cylinder * geometry.heads + bytes.1.toNat) * geometry.sectors + (bytes.2.1.toNat % 64 - 1)

/-- Three bytes in a row. -/
def packedBytes (entry : Memory) (field : Nat) : UInt8 × UInt8 × UInt8 :=
  (entry field, entry (field + 1), entry (field + 2))

/-- Both fields of an entry of the partition table stand for the ends of the partition, as
long as these are not behind cylinder 1023. -/
structure EntryDecodes (geometry : Geometry) (entry : Memory) (p : PlacedPart) : Prop where
  first : p.start / cylSectors geometry ≤ 1023 → decodeChs geometry (packedBytes entry 1) = p.start
  last : (p.start + p.sectors - 1) / cylSectors geometry ≤ 1023 →
    decodeChs geometry (packedBytes entry 5) = p.start + p.sectors - 1

/-- The partitions of a disk begin behind its first track and end with cylinders, and the
partition table says so. -/
structure GeometryHonoured (geometry : Geometry) (placed : List PlacedPart)
    (disk : List UInt8) : Prop where
  first : ∀ p ∈ placed.head?, p.start = geometry.sectors
  ends : ∀ p ∈ placed, (p.start + p.sectors) % cylSectors geometry = 0
  entries : ∀ i p, placed[i]? = some p →
    EntryDecodes geometry ((Memory.ofBytes disk).drop (446 + 16 * i)) p

section Honoured

variable {geometry : Geometry}

/-- The high bits of the cylinder go in front of the sector number. -/
theorem or_high_bits {sector cylinder : Nat} (small : sector < 64) (inside : cylinder ≤ 1023) :
    sector ||| ((cylinder >>> 2) &&& 0xc0) = cylinder / 256 * 64 + sector := by
  have mask : ∀ value < 256, value &&& 0xc0 = value / 64 * 64 := by
    decide +kernel
  have bits : ∀ high < 4, ∀ low < 64, low ||| high * 64 = high * 64 + low := by
    decide +kernel
  have shifted : cylinder >>> 2 = cylinder / 4 := Nat.shiftRight_eq_div_pow cylinder 2
  have high : cylinder / 4 / 64 = cylinder / 256 := Nat.div_div_eq_div_mul cylinder 4 64
  rw [shifted, mask _ (by omega), high, bits _ (by omega) _ small]

/-- The packed bytes of a sector stand for it. -/
theorem decodeChs_packChs {lba : Nat} (headsPos : 1 ≤ geometry.heads)
    (headsSmall : geometry.heads ≤ 255) (sectorsPos : 1 ≤ geometry.sectors)
    (sectorsSmall : geometry.sectors ≤ 63) (inside : lba / cylSectors geometry ≤ 1023) :
    decodeChs geometry ((packChs lba geometry).getD 0 0, (packChs lba geometry).getD 1 0,
      (packChs lba geometry).getD 2 0) = lba := by
  have whole := Nat.div_add_mod lba (geometry.heads * geometry.sectors)
  have inTrack := Nat.mod_lt lba (Nat.mul_pos headsPos sectorsPos)
  rw [cylSectors] at inside
  rw [packChs, lbaToChs]
  dsimp only
  rw [if_pos inside]
  generalize lba / (geometry.heads * geometry.sectors) = cylinder at *
  generalize lba % (geometry.heads * geometry.sectors) = inCylinder at *
  have track := Nat.div_add_mod inCylinder geometry.sectors
  have sectorSmall := Nat.mod_lt inCylinder sectorsPos
  have headSmall : inCylinder / geometry.sectors < geometry.heads :=
    Nat.div_lt_of_lt_mul (by rw [Nat.mul_comm]; exact inTrack)
  generalize inCylinder / geometry.sectors = head at *
  generalize inCylinder % geometry.sectors = sector at *
  have headByte : (packC head).toNat = head := by
    rw [packC, UInt8.toNat_ofNat']
    omega
  have sectorByte : (packC (sector + 1 ||| ((cylinder >>> 2) &&& 0xc0))).toNat =
      cylinder / 256 * 64 + (sector + 1) := by
    rw [or_high_bits (by omega) inside, packC, UInt8.toNat_ofNat']
    omega
  have cylinderByte : (packC (cylinder &&& 0xff)).toNat = cylinder % 256 := by
    have mask : cylinder &&& 0xff = cylinder % 256 := Nat.and_two_pow_sub_one_eq_mod _ 8
    rw [mask, packC, UInt8.toNat_ofNat']
    omega
  have number : (cylinder / 256 * 64 + (sector + 1)) / 64 * 256 + cylinder % 256 =
      cylinder := by omega
  have rest : (cylinder / 256 * 64 + (sector + 1)) % 64 - 1 = sector := by omega
  simp only [decodeChs, List.getD_cons_zero, List.getD_cons_succ, headByte, sectorByte,
    cylinderByte, number, rest]
  calc (cylinder * geometry.heads + head) * geometry.sectors + sector
      = geometry.heads * geometry.sectors * cylinder + (geometry.sectors * head + sector) := by ring
    _ = lba := by rw [track, whole]

/-- The entry that is packed for a partition. -/
theorem packPartition_decodes (headsPos : 1 ≤ geometry.heads)
    (headsSmall : geometry.heads ≤ 255) (sectorsPos : 1 ≤ geometry.sectors)
    (sectorsSmall : geometry.sectors ≤ 63) (p : PlacedPart) :
    EntryDecodes geometry (Memory.ofBytes (packPartition geometry p)) p := by
  constructor
  · intro inside
    exact decodeChs_packChs headsPos headsSmall sectorsPos sectorsSmall inside
  · intro inside
    exact decodeChs_packChs headsPos headsSmall sectorsPos sectorsSmall inside

/-- The bytes of both fields. -/
def chsFields (entry : Memory) : (UInt8 × UInt8 × UInt8) × (UInt8 × UInt8 × UInt8) :=
  (packedBytes entry 1, packedBytes entry 5)

theorem chsFields_congr (memory other : Memory) (agree : memory.AgreeOn other 0 16) :
    chsFields memory = chsFields other := by
  simp only [chsFields, packedBytes, Nat.reduceAdd]
  rw [agree 1 (by omega) (by omega), agree 2 (by omega) (by omega),
    agree 3 (by omega) (by omega), agree 5 (by omega) (by omega),
    agree 6 (by omega) (by omega), agree 7 (by omega) (by omega)]

theorem EntryDecodes.congr {entry other : Memory} {p : PlacedPart}
    (decodes : EntryDecodes geometry entry p) (same : chsFields other = chsFields entry) :
    EntryDecodes geometry other p where
  first := by
    rw [(Prod.mk.inj same).1]
    exact decodes.first
  last := by
    rw [(Prod.mk.inj same).2]
    exact decodes.last

/-- All entries of a table. -/
theorem HasTable.decode {placed : List PlacedPart} {disk : List UInt8}
    (has : HasTable geometry placed disk) (few : placed.length ≤ 4)
    (headsPos : 1 ≤ geometry.heads) (headsSmall : geometry.heads ≤ 255)
    (sectorsPos : 1 ≤ geometry.sectors) (sectorsSmall : geometry.sectors ≤ 63)
    {i : Nat} {p : PlacedPart} (there : placed[i]? = some p) :
    EntryDecodes geometry ((Memory.ofBytes disk).drop (446 + 16 * i)) p := by
  have read := congrArg (fun entries => entries[i]?)
    (has.read_entries few chsFields_congr)
  have inside := (List.getElem?_eq_some_iff.mp there).1
  rw [List.getElem?_append_left (by rw [List.length_map]; exact inside), List.getElem?_map,
    List.getElem?_map, there, List.getElem?_range (by omega)] at read
  exact (packPartition_decodes headsPos headsSmall sectorsPos sectorsSmall p).congr
    (Option.some.inj read)

/-- With full alignment every partition ends with a cylinder. -/
theorem placeParts_ends {parts : Role → Option Part} {roles : List Role} {first : Nat}
    (cylinder : 0 < cylSectors geometry) :
    ∀ p ∈ (placeParts true geometry parts roles first).1,
      (p.start + p.sectors) % cylSectors geometry = 0 := by
  induction roles generalizing first with
  | nil =>
      intro p member
      cases member
  | cons role rest inductionHypothesis =>
      rw [placeParts]
      cases defined : parts role with
      | none => exact inductionHypothesis
      | some part =>
          have rounded := le_divRoundUp_mul (first + divRoundUp part.bytes 512) cylinder
          dsimp only
          rw [if_pos rfl, List.forall_mem_cons]
          refine ⟨?_, inductionHypothesis⟩
          change (first + (roundUp (first + divRoundUp part.bytes 512)
            (cylSectors geometry) - first)) % cylSectors geometry = 0
          have whole : first + (roundUp (first + divRoundUp part.bytes 512)
              (cylSectors geometry) - first) =
                divRoundUp (first + divRoundUp part.bytes 512) (cylSectors geometry) *
                  cylSectors geometry := by
            rw [roundUp]
            omega
          rw [whole, Nat.mul_mod_left]

/-- A geometry that reaches `assemble_disk` is honoured. -/
theorem assembleDisk_honours {args : DiskArgs} (valid : ValidArgs args)
    (full : args.align = .full) {disk : List UInt8} (assembled : assembleDisk args = some disk) :
    GeometryHonoured args.geometry (diskLayout args).1 disk := by
  rcases assembleDisk_eq_some valid.sectorsPos assembled with
    ⟨mbr, gap, parts, behind, packed, _, whole, _⟩
  have few := diskLayout_few args
  rcases packMbr_eq_some few packed with ⟨_, code, codeLength, mbrIs⟩
  have table : HasTable args.geometry (diskLayout args).1 disk := by
    refine ⟨code, gap ++ parts ++ behind, codeLength, ?_⟩
    rw [whole, mbrIs]
    simp only [List.append_assoc]
  constructor
  · intro p member
    have contiguous := valid.contiguous
    rw [firstSector, if_pos full] at contiguous
    cases placed : (diskLayout args).1 with
    | nil =>
        rw [placed] at member
        cases member
    | cons first rest =>
        rw [placed] at member contiguous
        rw [← Option.some.inj member]
        exact contiguous.1
  · rw [diskLayout, full]
    exact placeParts_ends (Nat.mul_pos valid.headsPos valid.sectorsPos)
  · intro i p there
    exact table.decode few valid.headsPos valid.headsSmall valid.sectorsPos valid.sectorsSmall there

end Honoured

/-! ## What becomes of the option -/

/-- The argument `HEADS,SPT`. -/
def request (heads sectors : Nat) : List Char :=
  Nat.toDigits 10 heads ++ ',' :: Nat.toDigits 10 sectors

theorem digits_isDigit (value : Nat) :
    ∀ character ∈ Nat.toDigits 10 value, isDigit character = true :=
  fun _ member => Nat.isDigit_of_mem_toDigits (by decide) (by decide) member

theorem isSeparator_of_isDigit {character : Char} (digit : isDigit character = true) :
    isSeparator character = false := by
  by_contra separator
  simp only [isSeparator, Char.isWhitespace, Bool.not_eq_false, Bool.or_eq_true,
    decide_eq_true_eq] at separator
  rcases separator with ((rfl | (((rfl | rfl) | rfl) | rfl)) | rfl) | rfl
  all_goals exact absurd digit (by decide)

theorem matchGeometry_request (heads sectors : Nat) :
    matchGeometry (request heads sectors) = some (heads, sectors) := by
  have headDigits := digits_isDigit heads
  have sectorDigits := digits_isDigit sectors
  have headsThere : Nat.toDigits 10 heads ≠ [] := Nat.toDigits_ne_nil
  have sectorsThere : Nat.toDigits 10 sectors ≠ [] := Nat.toDigits_ne_nil
  have comma : isDigit ',' = false := by decide
  have separator : isSeparator ',' = true := by decide
  have front : (request heads sectors).takeWhile isDigit = Nat.toDigits 10 heads := by
    rw [request, List.takeWhile_append_of_pos headDigits, List.takeWhile_cons_of_neg
      (by rw [comma]; exact Bool.false_ne_true), List.append_nil]
  have behind : (request heads sectors).dropWhile isDigit = ',' :: Nat.toDigits 10 sectors := by
    rw [request, List.dropWhile_append_of_pos headDigits, List.dropWhile_cons_of_neg
      (by rw [comma]; exact Bool.false_ne_true)]
  have between : (',' :: Nat.toDigits 10 sectors).dropWhile isSeparator =
      Nat.toDigits 10 sectors := by
    rw [List.dropWhile_cons_of_pos separator]
    rcases List.exists_cons_of_ne_nil sectorsThere with ⟨first, later, digits⟩
    have digit := sectorDigits first (by rw [digits]; exact List.mem_cons_self)
    rw [digits, List.dropWhile_cons_of_neg
      (by rw [isSeparator_of_isDigit digit]; exact Bool.false_ne_true)]
  have last : (Nat.toDigits 10 sectors).takeWhile isDigit = Nat.toDigits 10 sectors :=
    List.takeWhile_eq_self_iff.mpr sectorDigits
  have nothing : (Nat.toDigits 10 sectors).dropWhile isDigit = [] :=
    List.dropWhile_eq_nil_iff.mpr sectorDigits
  rw [matchGeometry, front, behind, between, last, nothing, List.takeWhile_cons_of_pos separator,
    if_pos ⟨headsThere, List.cons_ne_nil _ _, sectorsThere, Or.inl rfl⟩,
    Nat.ofDigitChars_ten_toDigits, Nat.ofDigitChars_ten_toDigits]

theorem setGeometry_request {heads sectors : Nat} (headsSmall : heads ≤ 255)
    (sectorsSmall : sectors ≤ 63) :
    setGeometry [] (request heads sectors) = some [("H", some heads), ("S", some sectors)] := by
  have notZip : request heads sectors ≠ ['z', 'i', 'p'] := by
    intro same
    have comma : ',' ∈ request heads sectors := List.mem_append_right _ List.mem_cons_self
    rw [same] at comma
    exact absurd comma (by decide)
  rw [setGeometry, if_neg notZip, matchGeometry_request, Option.bind_some,
    if_neg (not_not_intro headsSmall), if_neg (not_not_intro sectorsSmall)]
  rfl

/-- The hash that was handed over has neither of the keys that are looked up. -/
theorem hashGeometry_scalarOf (heads sectors : Option Nat) :
    hashGeometry (geometryHash (scalarOf [("H", heads), ("S", sectors)])) = ⟨0, 0⟩ := by
  have keys : scalarOf [("H", heads), ("S", sectors)] = some 2 := rfl
  have noHeads : numberAt (geometryHash (some 2)) "H" = 0 := by decide
  have noSectors : numberAt (geometryHash (some 2)) "S" = 0 := by decide
  rw [keys, hashGeometry, noHeads, noSectors]

section Requests

variable {heads sectors : Nat} {parts : Role → Option Part} {align : Alignment}
variable {loader : Option (List UInt8)} {args : List (List UInt8)}

theorem makeDisk_request (headsSmall : heads ≤ 255) (sectorsSmall : sectors ≤ 63) :
    makeDisk (request heads sectors) parts align loader args =
      (assembleDiskChecked ⟨parts, ⟨0, 0⟩, align, loader, args⟩).map fun disk =>
        ((diskLayout ⟨parts, ⟨0, 0⟩, align, loader, args⟩).1, disk) := by
  rw [makeDisk, setGeometry_request headsSmall sectorsSmall, Option.bind_some]
  simp only [diskArgs, hashGeometry_scalarOf]

/-- With a partition, the script dies. -/
theorem makeDisk_of_part (headsSmall : heads ≤ 255) (sectorsSmall : sectors ≤ 63)
    {role : Role} (given : (parts role).isSome = true) :
    makeDisk (request heads sectors) parts align loader args = none := by
  have listed : roleOrder.any (fun role => (parts role).isSome) = true := by
    rw [List.any_eq_true]
    refine ⟨role, ?_, given⟩
    cases role <;> decide
  rw [makeDisk_request headsSmall sectorsSmall, assembleDiskChecked, if_pos ⟨rfl, Or.inr listed⟩]
  rfl

/-- Without a partition, only the boot record is written. -/
theorem assembleDisk_of_none {args : DiskArgs} (nothing : (diskLayout args).1 = [])
    (fits : (args.args.flatMap fun arg => arg ++ [0]).length ≤ 128) :
    ∃ disk, assembleDisk args = some disk := by
  have line : makeKernelCommandLine args.args =
      some (packV args.args.length ++
        packA 128 (args.args.flatMap fun arg => arg ++ [0])) :=
    if_neg (Nat.not_lt.mpr fits)
  have table : makePartitionTable args.geometry [] = some (packA 64 []) := rfl
  have length : (packA loaderSize (loaderBytes args.loader) ++
      (packV args.args.length ++ packA 128 (args.args.flatMap fun arg => arg ++ [0])) ++
        packA 64 [] ++ packShort 0xaa55).length = 512 := by
    simp only [List.length_append, length_packA]
    rfl
  rw [assembleDisk, nothing, packMbr, line, table]
  dsimp only [Option.bind_some]
  rw [if_neg (not_not_intro length)]
  exact ⟨_, rfl⟩

theorem diskLayout_of_none {args : DiskArgs} (nothing : ∀ role, args.parts role = none) :
    (diskLayout args).1 = [] := by
  have roles := diskLayout_roles args
  have unused : roleOrder.filter (fun role => (args.parts role).isSome) = [] := by
    rw [List.filter_eq_nil_iff]
    intro role _
    rw [nothing role]
    exact Bool.false_ne_true
  rw [unused] at roles
  exact List.map_eq_nil_iff.mp roles

theorem line_fits {args : DiskArgs} {disk : List UInt8}
    (assembled : assembleDisk args = some disk) :
    (args.args.flatMap fun arg => arg ++ [0]).length ≤ 128 := by
  rcases Option.bind_eq_some_iff.mp assembled with ⟨mbr, packed, _⟩
  rcases Option.bind_eq_some_iff.mp packed with ⟨line, lines, _⟩
  by_contra long
  rw [makeKernelCommandLine, if_pos (Nat.lt_of_not_le long)] at lines
  cases lines

/-- A geometry that is given with `--geometry` is honoured exactly if no partition is
given, and the command line of the kernel is not too long. -/
theorem requested_geometry_iff (headsSmall : heads ≤ 255) (sectorsSmall : sectors ≤ 63) :
    (∃ placed disk,
      makeDisk (request heads sectors) parts .full loader args = some (placed, disk) ∧
        GeometryHonoured ⟨heads, sectors⟩ placed disk) ↔
      (∀ role, parts role = none) ∧
        (args.flatMap fun arg => arg ++ [0]).length ≤ 128 := by
  constructor
  · rintro ⟨placed, disk, made, _⟩
    constructor
    · intro role
      cases given : parts role with
      | none => rfl
      | some part =>
          have dies := @makeDisk_of_part heads sectors parts .full loader args headsSmall
            sectorsSmall role (by rw [given]; rfl)
          rw [dies] at made
          cases made
    · rw [makeDisk_request headsSmall sectorsSmall] at made
      rcases Option.map_eq_some_iff.mp made with ⟨written, assembled, _⟩
      rw [assembleDiskChecked] at assembled
      split at assembled
      · cases assembled
      · exact line_fits assembled
  · rintro ⟨nothing, fits⟩
    have empty : (diskLayout ⟨parts, ⟨0, 0⟩, .full, loader, args⟩).1 = [] :=
      diskLayout_of_none nothing
    rcases assembleDisk_of_none empty fits with ⟨disk, assembled⟩
    have unused : ¬(roleOrder.any fun role => (parts role).isSome) = true := by
      rw [List.any_eq_true]
      rintro ⟨role, _, given⟩
      rw [nothing role] at given
      cases given
    have passes : assembleDiskChecked ⟨parts, ⟨0, 0⟩, .full, loader, args⟩ = some disk := by
      rw [assembleDiskChecked, if_neg, assembled]
      rintro ⟨_, impossible | given⟩
      · cases impossible
      · exact unused given
    refine ⟨[], disk, ?_, ?_, ?_, ?_⟩
    · rw [makeDisk_request headsSmall sectorsSmall, passes, Option.map_some, empty]
    · intro p impossible
      cases impossible
    · intro p impossible
      cases impossible
    · intro i p impossible
      cases impossible

end Requests

/-- No partition, and a geometry of 64 heads and 32 sectors. -/
theorem requested_geometry_none : ∃ placed disk,
      makeDisk (request 64 32) (fun _ => none) .full none [] = some (placed, disk) ∧
        GeometryHonoured ⟨64, 32⟩ placed disk :=
  (requested_geometry_iff (by decide) (by decide)).mpr ⟨fun _ => rfl, by decide⟩

/-- The partitions that `--swap-size=1` asks for: a megabyte of `/dev/zero`. -/
def swapParts (role : Role) : Option Part :=
  if role = .swap then some ⟨List.replicate (1024 * 1024) 0, 0, 1024 * 1024⟩ else none

/-- A partition for swapping, and the default geometry asked for: the script dies. -/
theorem requested_geometry_dies : makeDisk (request 16 63) swapParts .full none [] = none :=
  makeDisk_of_part (by decide) (by decide) (rfl : (swapParts .swap).isSome = true)

end CS162.Utils
