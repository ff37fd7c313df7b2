import CS162.Lib.Stdio

/-!
# ustar headers

`lib/ustar.c`.  A header is 512 bytes of memory, and its fields are given by their
offsets in `struct ustar_header`.  A file name is the list of its bytes without
the null byte at its end.
-/

namespace CS162.Lib

open CS162.Foundation

/-- `enum ustar_type`. -/
inductive UstarType where
  | regular
  | directory
  | eof
  deriving DecidableEq

/-- The byte that stands for a type in a header. -/
def UstarType.byte : UstarType → UInt8
  | .regular => 48
  | .directory => 53
  | .eof => 255

/-- `USTAR_HEADER_SIZE`. -/
def ustarHeaderSize : Nat := 512

/-- An array of `struct ustar_header`. -/
structure Field where
  offset : Nat
  size : Nat

def nameField : Field := ⟨0, 100⟩
def modeField : Field := ⟨100, 8⟩
def uidField : Field := ⟨108, 8⟩
def gidField : Field := ⟨116, 8⟩
def sizeField : Field := ⟨124, 12⟩
def mtimeField : Field := ⟨136, 12⟩
def chksumField : Field := ⟨148, 8⟩
def typeflagField : Field := ⟨156, 1⟩
def magicField : Field := ⟨257, 6⟩
def versionField : Field := ⟨263, 2⟩
def unameField : Field := ⟨265, 32⟩
def gnameField : Field := ⟨297, 32⟩
def prefixField : Field := ⟨345, 155⟩

/-- `strlcpy` or `snprintf` to a field. -/
def setField (header : Memory) (field : Field) (text : List UInt8) : Memory :=
  strlcpy header field.offset text field.size

/-- `%0<width>o`. -/
def octal (width value : Nat) : List UInt8 :=
  formatInteger value false false baseO { zero := true, width := width }

/-- `calculate_chksum`. -/
def calculateChksum (header : Memory) : Nat :=
  (List.range ustarHeaderSize).foldl
    (fun chksum i =>
      let inChksumField := chksumField.offset ≤ i ∧ i < chksumField.offset + chksumField.size
      wrap (chksum + if inChksumField then 32 else (header i).toNat)) 0

/-- The loop of `strip_antisocial_prefixes`: what is behind the first slash of
each prefix. -/
def dropPrefixes : List UInt8 → List UInt8
  | [] => []
  | [first] => if first = 47 then [] else [first]
  | [first, second] =>
      if first = 47 then dropPrefixes [second]
      else if first = 46 ∧ second = 47 then []
      else [first, second]
  | first :: second :: third :: rest =>
      if first = 47 then dropPrefixes (second :: third :: rest)
      else if first = 46 ∧ second = 47 then dropPrefixes (third :: rest)
      else if first = 46 ∧ second = 46 ∧ third = 47 then dropPrefixes rest
      else first :: second :: third :: rest

/-- `strip_antisocial_prefixes`. -/
def stripAntisocialPrefixes (fileName : List UInt8) : List UInt8 :=
  let stripped := dropPrefixes fileName
  if stripped = [] ∨ stripped = [46, 46] then [46] else stripped

/-- The header that `ustar_make_header` composes, but for the checksum. -/
def composeHeader (header : Memory) (fileName : List UInt8) (type : UstarType)
    (size : Int) : Memory :=
  let h := header.fill 0 ustarHeaderSize 0
  let h := setField h nameField fileName
  let h := setField h modeField (octal 7 (if type = .regular then 420 else 493))
  let h := setField h uidField [48, 48, 48, 48, 48, 48, 48]
  let h := setField h gidField [48, 48, 48, 48, 48, 48, 48]
  let h := setField h sizeField (octal 11 (toUnsigned size))
  let h := setField h mtimeField (octal 11 1136102400)
  let h := writeBytes h typeflagField.offset [type.byte]
  let h := setField h magicField [117, 115, 116, 97, 114]
  let h := writeBytes h versionField.offset [48, 48]
  let h := setField h gnameField [114, 111, 111, 116]
  setField h unameField [114, 111, 111, 116]

/-- `ustar_make_header`, with the memory after it; a failed `ASSERT` is `none`. -/
def ustarMakeHeader (fileName : List UInt8) (type : UstarType) (size : Int)
    (header : Memory) : Option (Bool × Memory) :=
  if type = .eof then none
  else
    let fileName := stripAntisocialPrefixes fileName
    if 99 < fileName.length then some (false, header)
    else
      let h := composeHeader header fileName type size
      some (true, setField h chksumField (octal 7 (calculateChksum h)))

/-- `ULONG_MAX` with 32 bits. -/
def ulongMax : Nat := 4294967295

/-- `INT_MAX`. -/
def intMax : Nat := 2147483647

/-- The loop of `parse_octal_field`, from an offset on. -/
def parseOctalLoop : List UInt8 → Nat → Nat → Option Nat
  | [], _, _ => none
  | c :: rest, ofs, value =>
      if 48 ≤ c.toNat ∧ c.toNat ≤ 55 then
        if ulongMax / 8 < value then none
        else parseOctalLoop rest (ofs + 1) (c.toNat - 48 + value * 8)
      else if c = 32 ∨ c = 0 then if 0 < ofs then some value else none
      else none

/-- `parse_octal_field`. -/
def parseOctalField (header : Memory) (field : Field) : Option Nat :=
  parseOctalLoop (readBytes header field.offset field.size) 0 0

/-- `is_all_zeros`. -/
def isAllZeros (header : Memory) : Bool := (readBytes header 0 ustarHeaderSize).all (· = 0)

/-- What `ustar_parse_header` stores. -/
structure UstarEntry where
  fileName : Option (List UInt8)
  type : UstarType
  size : Nat
  deriving DecidableEq

/-- The last part of `ustar_parse_header`. -/
def parseEntry (header : Memory) (type : UstarType) (size : Nat) : UstarEntry where
  fileName := some (stripAntisocialPrefixes (cString header nameField.offset nameField.size))
  type := type
  size := size

/-- `ustar_parse_header`: an entry, or the error message. -/
def ustarParseHeader (header : Memory) : Except String UstarEntry :=
  if isAllZeros header then
    .ok { fileName := none, type := .eof, size := 0 }
  else if readBytes header magicField.offset magicField.size ≠
      [117, 115, 116, 97, 114, 0] then
    .error "not a ustar archive"
  else if readBytes header versionField.offset versionField.size ≠ [48, 48] then
    .error "invalid ustar version"
  else
    match parseOctalField header chksumField with
    | none => .error "corrupt chksum field"
    | some chksum =>
        if chksum ≠ calculateChksum header then .error "checksum mismatch"
        else if header (nameField.offset + nameField.size - 1) ≠ 0 ∨
            header prefixField.offset ≠ 0 then
          .error "file name too long"
        else if header typeflagField.offset = UstarType.regular.byte then
          match parseOctalField header sizeField with
          | none => .error "corrupt file size field"
          | some size =>
              if intMax < size then .error "file too large"
              else .ok (parseEntry header .regular size)
        else if header typeflagField.offset = UstarType.directory.byte then
          .ok (parseEntry header .directory 0)
        else .error "unimplemented file type"

/-! ## Names -/

theorem dropPrefixes_idempotent (name : List UInt8) :
    dropPrefixes (dropPrefixes name) = dropPrefixes name := by
  fun_induction dropPrefixes name with
  | case1 => rfl
  | case2 => rfl
  | case3 first different =>
      rw [dropPrefixes, if_neg different]
  | case4 second inductionHypothesis => exact inductionHypothesis
  | case5 => rfl
  | case6 first second notSlash notDot =>
      rw [dropPrefixes, if_neg notSlash, if_neg notDot]
  | case7 second third rest inductionHypothesis =>
      exact inductionHypothesis
  | case8 first second third rest notSlash dot inductionHypothesis =>
      exact inductionHypothesis
  | case9 first second third rest notSlash notDot dots inductionHypothesis =>
      exact inductionHypothesis
  | case10 first second third rest notSlash notDot notDots =>
      rw [dropPrefixes, if_neg notSlash, if_neg notDot, if_neg notDots]

/-- Stripping is stable. -/
theorem strip_idempotent (name : List UInt8) :
    stripAntisocialPrefixes (stripAntisocialPrefixes name) = stripAntisocialPrefixes name := by
  have outer := dropPrefixes_idempotent name
  unfold stripAntisocialPrefixes
  dsimp only
  by_cases special : dropPrefixes name = [] ∨ dropPrefixes name = [46, 46]
  · rw [if_pos special]
    decide
  · rw [if_neg special, outer, if_neg special]

theorem dropPrefixes_suffix (name : List UInt8) : dropPrefixes name <:+ name := by
  fun_induction dropPrefixes name with
  | case1 => exact List.suffix_rfl
  | case2 => exact List.nil_suffix
  | case3 => exact List.suffix_rfl
  | case4 second inductionHypothesis =>
      exact inductionHypothesis.trans (List.suffix_cons _ _)
  | case5 => exact List.nil_suffix
  | case6 => exact List.suffix_rfl
  | case7 second third rest inductionHypothesis =>
      exact inductionHypothesis.trans (List.suffix_cons _ _)
  | case8 first second third rest notSlash dot inductionHypothesis =>
      have later := inductionHypothesis.trans (List.suffix_cons second _)
      exact later.trans (List.suffix_cons first _)
  | case9 first second third rest notSlash notDot dots inductionHypothesis =>
      have later := inductionHypothesis.trans (List.suffix_cons third _)
      exact (later.trans (List.suffix_cons second _)).trans (List.suffix_cons first _)
  | case10 => exact List.suffix_rfl

/-- Stripping a name makes it no longer, but for the empty one. -/
theorem length_strip_le (name : List UInt8) :
    (stripAntisocialPrefixes name).length ≤ max 1 name.length := by
  have shorter := (dropPrefixes_suffix name).length_le
  unfold stripAntisocialPrefixes
  dsimp only
  split
  · exact Nat.le_max_left _ _
  · omega

/-- A stripped name has no null byte. -/
theorem strip_no_null {name : List UInt8} (clean : 0 ∉ name) :
    0 ∉ stripAntisocialPrefixes name := by
  unfold stripAntisocialPrefixes
  dsimp only
  split
  · decide
  · intro member
    exact clean ((dropPrefixes_suffix name).subset member)

/-! ## Octal fields -/

theorem octalChar_toNat {digit : Nat} (small : digit < 8) :
    (octalChar digit).toNat = 48 + digit := by
  have all : ∀ digit < 8, (octalChar digit).toNat = 48 + digit := by
    decide
  exact all digit small

/-- Digits and a null byte are read back. -/
theorem parseOctalLoop_digits {digits : List Nat} {ofs value : Nat}
    {tail : List UInt8} (small : ∀ digit ∈ digits, digit < 8)
    (fits : horner 8 value digits ≤ ulongMax) (some_digit : 0 < ofs ∨ digits ≠ []) :
    parseOctalLoop (digits.map octalChar ++ 0 :: tail) ofs value =
      some (horner 8 value digits) := by
  induction digits generalizing ofs value with
  | nil =>
      rcases some_digit with positive | never
      · rw [List.map_nil, List.nil_append, parseOctalLoop, if_neg (by decide),
          if_pos (Or.inr rfl), if_pos positive]
        rfl
      · exact absurd rfl never
  | cons digit rest inductionHypothesis =>
      have digitSmall := small digit List.mem_cons_self
      have char := octalChar_toNat digitSmall
      have next : (octalChar digit).toNat - 48 + value * 8 = value * 8 + digit := by
        omega
      have grown : value * 8 + digit ≤ horner 8 value (digit :: rest) :=
        le_horner (by decide) (value * 8 + digit) rest
      have room : ¬ulongMax / 8 < value := by
        rw [ulongMax] at fits ⊢
        omega
      rw [List.map_cons, List.cons_append, parseOctalLoop, if_pos (by omega), if_neg room, next]
      apply inductionHypothesis
      · intro other member
        exact small other (List.mem_cons_of_mem digit member)
      · exact fits
      · exact Or.inl (Nat.succ_pos ofs)

/-- A number that fills its field is read back from it. -/
theorem parseOctalField_octal {header : Memory} {field : Field}
    {width value : Nat} (positive : 0 < width) (small : value < 8 ^ width)
    (bound : value ≤ ulongMax)
    (text : readBytes header field.offset field.size = octal width value ++ [0]) :
    parseOctalField header field = some value := by
  have digits := paddedOctal_value width value
  rw [parseOctalField, text, octal, formatInteger_octal]
  rw [parseOctalLoop_digits (paddedOctal_lt width value)]
  · rw [digits]
  · rw [digits]
    exact bound
  · right
    rw [← List.length_pos_iff, paddedOctal_length positive small]
    exact positive

/-! ## Fields -/

section Fields

variable {header : Memory} {text : List UInt8}

/-- The fields have no byte in common. -/
def Field.Apart (left right : Field) : Prop :=
  left.offset + left.size ≤ right.offset ∨ right.offset + right.size ≤ left.offset

instance (left right : Field) : Decidable (left.Apart right) := inferInstanceAs (Decidable (_ ∨ _))

theorem setField_outside {field : Field} {place : Nat}
    (outside : place < field.offset ∨ field.offset + field.size ≤ place) :
    setField header field text place = header place := by
  rw [setField, strlcpy]
  split
  · rfl
  · apply writeBytes_outside
    rw [List.length_append, List.length_take, List.length_singleton]
    omega

theorem readBytes_setField_apart {field other : Field} (apart : other.Apart field) :
    readBytes (setField header field text) other.offset other.size =
      readBytes header other.offset other.size := by
  apply readBytes_congr
  intro offset inside
  apply setField_outside
  rw [Field.Apart] at apart
  omega

theorem readBytes_writeBytes_apart {field other : Field} {bytes : List UInt8}
    (length : bytes.length = field.size) (apart : other.Apart field) :
    readBytes (writeBytes header field.offset bytes) other.offset other.size =
      readBytes header other.offset other.size := by
  apply readBytes_outside
  rw [Field.Apart] at apart
  omega

/-- A text that fills a field is read back with its null byte. -/
theorem readBytes_setField {field : Field} (fills : text.length + 1 = field.size) :
    readBytes (setField header field text) field.offset field.size = text ++ [0] := by
  have length : (text ++ [(0 : UInt8)]).length = field.size := by
    rw [List.length_append]
    exact fills
  rw [setField, strlcpy_eq (by omega), ← length]
  exact readBytes_writeBytes

theorem octal_length {width value : Nat} (positive : 0 < width)
    (small : value < 8 ^ width) : (octal width value).length = width := by
  rw [octal, formatInteger_octal, List.length_map, paddedOctal_length positive small]

/-- The string in a field is the text that has been copied to it. -/
theorem cString_setField {field : Field} (short : text.length < field.size) (clean : 0 ∉ text) :
    cString (setField header field text) field.offset field.size = text := by
  have front : readBytes (setField header field text) field.offset
      (text.length + 1) = text ++ [0] := by
    have length : (text ++ [(0 : UInt8)]).length = text.length + 1 := List.length_append
    rw [setField, strlcpy_eq short, ← length]
    exact readBytes_writeBytes
  have split : readBytes (setField header field text) field.offset field.size =
      readBytes (setField header field text) field.offset (text.length + 1) ++
        (List.range (field.size - (text.length + 1))).map fun offset =>
          setField header field text
            (field.offset + (text.length + 1 + offset)) := by
    have size : field.size = text.length + 1 +
        (field.size - (text.length + 1)) := by
      omega
    rw [readBytes, size, List.range_add, List.map_append, List.map_map]
    rw [Nat.add_sub_cancel_left]
    rfl
  have whole : ∀ byte ∈ text, decide (byte ≠ 0) = true := by
    intro byte member
    rw [decide_eq_true_eq]
    intro null
    rw [null] at member
    exact clean member
  rw [cString, split, front, List.append_assoc, List.takeWhile_append_of_pos whole]
  rw [List.singleton_append, List.takeWhile_cons_of_neg (by decide), List.append_nil]

/-! ## Checksums -/

theorem calculateChksum_congr {other : Memory}
    (same : ∀ place, place < ustarHeaderSize →
      ¬(chksumField.offset ≤ place ∧ place < chksumField.offset + chksumField.size) →
      header place = other place) :
    calculateChksum header = calculateChksum other := by
  rw [calculateChksum, calculateChksum]
  apply List.foldl_ext
  intro chksum place inside
  dsimp only
  by_cases inField : chksumField.offset ≤ place ∧ place < chksumField.offset + chksumField.size
  · rw [if_pos inField, if_pos inField]
  · rw [if_neg inField, if_neg inField, same place (List.mem_range.mp inside) inField]

/-- Writing the checksum does not change it. -/
theorem calculateChksum_setField :
    calculateChksum (setField header chksumField text) =
      calculateChksum header := by
  apply calculateChksum_congr
  intro place _ outside
  apply setField_outside
  omega

/-- What `ustar_parse_header` returns depends on the header only. -/
theorem ustarParseHeader_congr {other : Memory} (agree : header.AgreeOn other 0 ustarHeaderSize) :
    ustarParseHeader header = ustarParseHeader other := by
  have bytes : ∀ start count, start + count ≤ ustarHeaderSize →
      readBytes header start count = readBytes other start count := by
    intro start count inside
    apply readBytes_congr
    intro offset within
    exact agree _ (Nat.zero_le _) (by omega)
  have byte : ∀ place, place < ustarHeaderSize → header place = other place :=
    fun place inside => agree place (Nat.zero_le _) inside
  have octals : ∀ field : Field, field.offset + field.size ≤ ustarHeaderSize →
      parseOctalField header field = parseOctalField other field := by
    intro field inside
    rw [parseOctalField, parseOctalField, bytes _ _ inside]
  have entries : ∀ type size, parseEntry header type size = parseEntry other type size := by
    intro type size
    rw [parseEntry, parseEntry, cString, cString, bytes nameField.offset nameField.size (by decide)]
  have chksums : calculateChksum header = calculateChksum other :=
    calculateChksum_congr fun place inside _ => byte place inside
  rw [ustarParseHeader, ustarParseHeader, isAllZeros, isAllZeros,
    bytes 0 ustarHeaderSize (Nat.le_refl _),
    bytes magicField.offset magicField.size (by decide),
    bytes versionField.offset versionField.size (by decide),
    octals chksumField (by decide), octals sizeField (by decide), chksums,
    byte (nameField.offset + nameField.size - 1) (by decide),
    byte prefixField.offset (by decide), byte typeflagField.offset (by decide)]
  simp only [entries]

theorem foldl_le {places : List Nat} {step : Nat → Nat → Nat} {start : Nat}
    (bounded : ∀ chksum place, step chksum place ≤ chksum + 255) :
    places.foldl step start ≤ start + 255 * places.length := by
  induction places generalizing start with
  | nil => exact Nat.le_refl _
  | cons place rest inductionHypothesis =>
      rw [List.foldl_cons, List.length_cons]
      have next := @inductionHypothesis (step start place)
      have grown := bounded start place
      omega

theorem calculateChksum_lt (header : Memory) :
    calculateChksum header < 8 ^ 7 := by
  have bound : calculateChksum header ≤ 0 + 255 * (List.range ustarHeaderSize).length := by
    rw [calculateChksum]
    apply foldl_le
    intro chksum place
    have byte := (header place).toNat_lt
    apply Nat.le_trans (wrap_le _)
    split
    · omega
    · omega
  rw [List.length_range, ustarHeaderSize] at bound
  omega

end Fields

/-! ## The round trip -/

section RoundTrip

variable {header : Memory} {fileName : List UInt8} {type : UstarType}
variable {size : Int}

/-- The header with its checksum. -/
def madeHeader (header : Memory) (fileName : List UInt8) (type : UstarType) (size : Int) : Memory :=
  setField (composeHeader header fileName type size) chksumField
    (octal 7 (calculateChksum (composeHeader header fileName type size)))

/-- `prefix` and the bytes behind it stay null. -/
theorem madeHeader_prefix : madeHeader header fileName type size prefixField.offset = 0 := by
  rw [madeHeader, composeHeader]
  repeat rw [setField_outside (by decide)]
  rw [writeBytes_outside (by simp [versionField, prefixField])]
  repeat rw [setField_outside (by decide)]
  rw [writeBytes_outside (by simp [typeflagField, prefixField])]
  repeat rw [setField_outside (by decide)]
  rfl

theorem madeHeader_typeflag :
    madeHeader header fileName type size typeflagField.offset = type.byte := by
  have inside : 0 < [type.byte].length := Nat.one_pos
  rw [madeHeader, composeHeader]
  repeat rw [setField_outside (by decide)]
  rw [writeBytes_outside (by simp [typeflagField, versionField])]
  repeat rw [setField_outside (by decide)]
  exact writeBytes_inside inside

theorem madeHeader_magic :
    readBytes (madeHeader header fileName type size) magicField.offset
      magicField.size = [117, 115, 116, 97, 114, 0] := by
  have version : [(48 : UInt8), 48].length = versionField.size := rfl
  rw [madeHeader, composeHeader]
  repeat rw [readBytes_setField_apart (by decide)]
  rw [readBytes_writeBytes_apart version (by decide)]
  exact readBytes_setField rfl

theorem madeHeader_version :
    readBytes (madeHeader header fileName type size) versionField.offset
      versionField.size = [48, 48] := by
  rw [madeHeader, composeHeader]
  repeat rw [readBytes_setField_apart (by decide)]
  exact readBytes_writeBytes

theorem madeHeader_chksum :
    parseOctalField (madeHeader header fileName type size) chksumField =
      some (calculateChksum (madeHeader header fileName type size)) := by
  have small :=
    calculateChksum_lt (composeHeader header fileName type size)
  rw [madeHeader, calculateChksum_setField]
  apply parseOctalField_octal (by decide) small
  · exact Nat.le_trans (Nat.le_of_lt small) (by decide)
  · apply readBytes_setField
    rw [octal_length (by decide) small]
    rfl

theorem madeHeader_size (positive : 0 ≤ size) (fits : size ≤ intMax) :
    parseOctalField (madeHeader header fileName type size) sizeField = some size.toNat := by
  have version : [(48 : UInt8), 48].length = versionField.size := rfl
  have typeflag : [type.byte].length = typeflagField.size := rfl
  have same : toUnsigned size = size.toNat := by
    rw [toUnsigned, Int.emod_eq_of_lt positive]
    rw [intMax] at fits
    omega
  have small : size.toNat < 8 ^ 11 := by
    rw [intMax] at fits
    omega
  apply parseOctalField_octal (by decide) small
  · rw [intMax] at fits
    rw [ulongMax]
    omega
  · rw [madeHeader, composeHeader]
    repeat rw [readBytes_setField_apart (by decide)]
    rw [readBytes_writeBytes_apart version (by decide)]
    repeat rw [readBytes_setField_apart (by decide)]
    rw [readBytes_writeBytes_apart typeflag (by decide)]
    repeat rw [readBytes_setField_apart (by decide)]
    rw [same]
    apply readBytes_setField
    rw [octal_length (by decide) small]
    rfl

/-- The name field when all other fields have been written. -/
theorem madeHeader_nameField :
    readBytes (madeHeader header fileName type size) nameField.offset
        nameField.size =
      readBytes (setField (header.fill 0 ustarHeaderSize 0) nameField fileName)
        nameField.offset nameField.size := by
  have version : [(48 : UInt8), 48].length = versionField.size := rfl
  have typeflag : [type.byte].length = typeflagField.size := rfl
  rw [madeHeader, composeHeader]
  repeat rw [readBytes_setField_apart (by decide)]
  rw [readBytes_writeBytes_apart version (by decide)]
  repeat rw [readBytes_setField_apart (by decide)]
  rw [readBytes_writeBytes_apart typeflag (by decide)]
  repeat rw [readBytes_setField_apart (by decide)]

theorem madeHeader_name (short : fileName.length ≤ 99) (clean : 0 ∉ fileName) :
    cString (madeHeader header fileName type size) nameField.offset
      nameField.size = fileName := by
  rw [cString, madeHeader_nameField]
  exact cString_setField (Nat.lt_succ_of_le short) clean

/-- The last byte of the name is null. -/
theorem madeHeader_nameEnd (short : fileName.length ≤ 99) :
    madeHeader header fileName type size
      (nameField.offset + nameField.size - 1) = 0 := by
  have room : fileName.length < nameField.size := Nat.lt_succ_of_le short
  rw [madeHeader, composeHeader]
  repeat rw [setField_outside (by decide)]
  rw [writeBytes_outside (by simp [versionField, nameField])]
  repeat rw [setField_outside (by decide)]
  rw [writeBytes_outside (by simp [typeflagField, nameField])]
  repeat rw [setField_outside (by decide)]
  rw [setField, strlcpy_eq room]
  change writeBytes _ 0 (fileName ++ [0]) 99 = 0
  by_cases last : fileName.length = 99
  · rw [← last, ← Nat.zero_add fileName.length, writeBytes_inside (by simp)]
    simp
  · rw [writeBytes_outside]
    · rfl
    · right
      rw [List.length_append, List.length_singleton]
      omega

theorem madeHeader_not_zeros : isAllZeros (madeHeader header fileName type size) = false := by
  have bytes : readBytes (madeHeader header fileName type size) 257 (5 + 1) =
      [117, 115, 116, 97, 114, 0] :=
    madeHeader_magic
  rw [readBytes_succ] at bytes
  have magic := (List.cons.inj bytes).1
  rw [← Bool.not_eq_true]
  intro zeros
  have zero := List.all_eq_true.mp zeros
    (madeHeader header fileName type size 257)
    (mem_readBytes (Nat.zero_le 257) (by decide))
  rw [magic] at zero
  cases zero

/-- What `ustar_parse_header` reads from a header that has been made. -/
theorem parse_madeHeader (short : fileName.length ≤ 99) (clean : 0 ∉ fileName)
    (known : type ≠ .eof) (positive : 0 ≤ size) (fits : size ≤ intMax) :
    ustarParseHeader (madeHeader header fileName type size) =
      .ok
        { fileName := some (stripAntisocialPrefixes fileName)
          type := type
          size := if type = .regular then size.toNat else 0 } := by
  have named : ∀ entrySize,
      parseEntry (madeHeader header fileName type size) type entrySize =
        { fileName := some (stripAntisocialPrefixes fileName)
          type := type
          size := entrySize } := by
    intro entrySize
    rw [parseEntry, madeHeader_name short clean]
  have terminated : ¬(madeHeader header fileName type size
        (nameField.offset + nameField.size - 1) ≠ 0 ∨
      madeHeader header fileName type size prefixField.offset ≠ 0) := by
    rw [madeHeader_nameEnd short, madeHeader_prefix]
    decide
  rw [ustarParseHeader, madeHeader_not_zeros, if_neg Bool.false_ne_true,
    if_neg (fun wrong => wrong madeHeader_magic),
    if_neg (fun wrong => wrong madeHeader_version), madeHeader_chksum]
  dsimp only
  rw [if_neg (fun wrong => wrong rfl), if_neg terminated, madeHeader_typeflag]
  cases type with
  | eof => exact absurd rfl known
  | regular =>
      have small : ¬intMax < size.toNat := by
        rw [intMax] at fits ⊢
        omega
      rw [if_pos rfl, if_pos rfl, madeHeader_size positive fits]
      dsimp only
      rw [if_neg small, named]
  | directory =>
      rw [if_neg (by decide), if_pos rfl, if_neg (by decide), named]

/-- A header that has been made is read back: the name is the stripped one, the
type is the same, and so is the size of a regular file.  A stripped name that is
too long is refused. -/
theorem ustar_round_trip (fileName : List UInt8) (type : UstarType) (size : Int)
    (header : Memory) (clean : 0 ∉ fileName) (known : type ≠ .eof)
    (positive : 0 ≤ size) (fits : size ≤ intMax) :
    ((stripAntisocialPrefixes fileName).length ≤ 99 →
      ∃ made, ustarMakeHeader fileName type size header = some (true, made) ∧
        ustarParseHeader made =
          .ok
            { fileName := some (stripAntisocialPrefixes fileName)
              type := type
              size := if type = .regular then size.toNat else 0 }) ∧
      (99 < (stripAntisocialPrefixes fileName).length →
        ustarMakeHeader fileName type size header = some (false, header)) := by
  constructor
  · intro short
    refine ⟨madeHeader header (stripAntisocialPrefixes fileName) type size, ?_, ?_⟩
    · rw [ustarMakeHeader, if_neg known]
      dsimp only
      rw [if_neg (by omega)]
      rfl
    · rw [parse_madeHeader short (strip_no_null clean) known positive fits, strip_idempotent]
  · intro long
    rw [ustarMakeHeader, if_neg known]
    dsimp only
    rw [if_pos long]

/-- A regular file `/../a` of 511 bytes. -/
theorem ustar_round_trip_a :
    ∃ made, ustarMakeHeader [47, 46, 46, 47, 97] .regular 511 (fun _ => 7) = some (true, made) ∧
      ustarParseHeader made = .ok { fileName := some [97], type := .regular, size := 511 } := by
  have trip := (ustar_round_trip [47, 46, 46, 47, 97] .regular 511 (fun _ => 7)
    (by decide) (by decide) (by decide) (by decide)).1 (by decide)
  exact trip

end RoundTrip

end CS162.Lib
