import CS162.Utils.ScratchFiles

/-!
# The headers of the scratch archive

The kernel and the host write the same header for a name and a size, and both
read the size back from it.
-/

namespace CS162.Utils

open CS162.Foundation
open CS162.Filesys
open CS162.Lib

/-- A header with the text of its checksum field. -/
def headerText (name : List UInt8) (size : Nat) (chksum : List UInt8) : List UInt8 :=
  packA 100 name ++ (octal 7 420 ++ [0]) ++ (octal 7 0 ++ [0]) ++
    (octal 7 0 ++ [0]) ++ (octal 11 size ++ [0]) ++
      (octal 11 1136102400 ++ [0]) ++ chksum ++ headerBack

section Texts

variable {name chksum : List UInt8} {size number : Nat}

theorem octal_eq (width value : Nat) :
    octal width value = (paddedOctal width value).map octalChar := by
  rw [octal, formatInteger_octal]

theorem mkUstarField_eq {width : Nat} (positive : 0 < width) (small : number < 8 ^ width) :
    mkUstarField number (width + 1) = some (octal width number ++ [0]) := by
  have length : (octal width number ++ [0]).length = width + 1 := by
    rw [List.length_append, octal_length positive small]
    rfl
  rw [mkUstarField, Nat.add_sub_cancel, ← octal_eq, if_neg (fun different => different length)]

/-- `put_scratch_file` composes a header when the size has at most 11 digits. -/
theorem composeUstar_eq (small : size < 8 ^ 11) :
    composeUstar name size = some (headerText name size (List.replicate 8 32)) := by
  rw [composeUstar, mkUstarField_eq (by decide) (by decide), Option.bind_some,
    mkUstarField_eq (by decide) (by decide), Option.bind_some, Option.bind_some,
    mkUstarField_eq (by decide) small, Option.bind_some,
    mkUstarField_eq (by decide) (by decide), Option.map_some]
  rfl

/-- The part of a header before the size. -/
def headerFront (name : List UInt8) : List UInt8 :=
  packA 100 name ++ (octal 7 420 ++ [0]) ++ (octal 7 0 ++ [0]) ++ (octal 7 0 ++ [0])

theorem length_headerFront (name : List UInt8) : (headerFront name).length = 124 := by
  rw [headerFront, List.length_append, List.length_append, List.length_append,
    length_packA, List.length_append, List.length_append,
    octal_length (by decide) (by decide), octal_length (by decide) (by decide)]
  rfl

theorem length_octalField {width : Nat} (positive : 0 < width)
    (small : number < 8 ^ width) : (octal width number ++ [0]).length = width + 1 := by
  rw [List.length_append, octal_length positive small]
  rfl

/-- The part of a header before the checksum. -/
def headerStart (name : List UInt8) (size : Nat) : List UInt8 :=
  headerFront name ++ (octal 11 size ++ [0]) ++ (octal 11 1136102400 ++ [0])

theorem length_headerStart (small : size < 8 ^ 11) : (headerStart name size).length = 148 := by
  rw [headerStart, List.length_append, List.length_append, length_headerFront,
    length_octalField (by decide) small,
    length_octalField (by decide) (by decide)]

theorem headerText_eq :
    headerText name size chksum = headerStart name size ++ chksum ++ headerBack :=
  rfl

theorem length_headerBack : headerBack.length = 356 := by
  simp only [headerBack, ustarMagic, rootText, List.length_append,
    List.length_replicate, List.length_cons, List.length_nil]

theorem length_headerText (small : size < 8 ^ 11) (field : chksum.length = 8) :
    (headerText name size chksum).length = 512 := by
  rw [headerText_eq, List.length_append, List.length_append,
    length_headerStart small, field, length_headerBack]

/-- The checksum field is set to another text. -/
theorem setChksum_headerText (small : size < 8 ^ 11) (field : chksum.length = 8)
    (text : List UInt8) :
    setChksum (headerText name size chksum) text = headerText name size text := by
  have start := @length_headerStart name size small
  have whole : (headerStart name size ++ chksum).length = 156 := by
    rw [List.length_append, start, field]
  rw [setChksum, headerText_eq, ← whole, List.drop_left, ← start,
    List.append_assoc _ chksum, List.take_left]
  rfl

end Texts

/-! ## The header of the kernel -/

/-- `linkname`, `devmajor`, `devminor` and the bytes behind `prefix`. -/
def linknameField : Lib.Field := ⟨157, 100⟩
def devmajorField : Lib.Field := ⟨329, 8⟩
def devminorField : Lib.Field := ⟨337, 8⟩
def paddingField : Lib.Field := ⟨500, 12⟩

/-- The header with the name and the numbers. -/
def numberedHeader (header : Memory) (fileName : List UInt8) (type : UstarType)
    (size : Int) : Memory :=
  setField
    (setField
      (setField
        (setField
          (setField
            (setField (header.fill 0 ustarHeaderSize 0) nameField fileName)
            modeField (octal 7 (if type = .regular then 420 else 493)))
          uidField [48, 48, 48, 48, 48, 48, 48])
        gidField [48, 48, 48, 48, 48, 48, 48])
      sizeField (octal 11 (toUnsigned size)))
    mtimeField (octal 11 1136102400)

/-- The header before the names of the owner are set. -/
def unownedHeader (header : Memory) (fileName : List UInt8) (type : UstarType)
    (size : Int) : Memory :=
  writeBytes
    (setField
      (writeBytes (numberedHeader header fileName type size) typeflagField.offset [type.byte])
      magicField [117, 115, 116, 97, 114])
    versionField.offset [48, 48]

theorem composeHeader_eq (header : Memory) (fileName : List UInt8) (type : UstarType) (size : Int) :
    composeHeader header fileName type size =
      setField
        (setField (unownedHeader header fileName type size) gnameField rootText)
        unameField rootText :=
  rfl

/-- The fields that are set before the names of the owner. -/
def unownedFields : List Lib.Field :=
  [nameField, modeField, uidField, gidField, sizeField, mtimeField,
    typeflagField, magicField, versionField]

section Kernel

variable {memory : Memory} {name text : List UInt8} {size : Nat}
variable {field : Lib.Field}

/-- A text in a field that was null. -/
theorem readBytes_setField_clear (short : text.length < field.size)
    (clear : ∀ place, field.offset ≤ place → place < field.offset + field.size → memory place = 0) :
    readBytes (setField memory field text) field.offset field.size = packA field.size text := by
  rw [packA_of_le (Nat.le_of_lt short), setField, strlcpy_eq short]
  have split : field.size = text.length + (field.size - text.length) := by omega
  have left : readBytes (writeBytes memory field.offset (text ++ [0]))
      field.offset text.length = text := by
    apply List.ext_getElem
    · exact length_readBytes _ _ _
    · intro index _ inside
      have within : index < (text ++ [(0 : UInt8)]).length := by
        rw [List.length_append]
        omega
      rw [getElem_readBytes, writeBytes_inside within, ← List.getElem_eq_getD,
        List.getElem_append_left inside]
      exact within
  have right : readBytes (writeBytes memory field.offset (text ++ [0]))
      (field.offset + text.length) (field.size - text.length) =
        List.replicate (field.size - text.length) 0 := by
    apply List.eq_replicate_iff.mpr
    refine ⟨length_readBytes _ _ _, ?_⟩
    intro byte member
    rcases List.mem_map.mp member with ⟨offset, inside, rfl⟩
    have bound := List.mem_range.mp inside
    rw [Nat.add_assoc]
    by_cases last : offset = 0
    · rw [last, Nat.add_zero, writeBytes_inside (by simp)]
      simp
    · rw [writeBytes_outside]
      · exact clear _ (by omega) (by omega)
      · right
        rw [List.length_append, List.length_singleton]
        omega
  generalize writeBytes memory field.offset (text ++ [0]) = written at *
  rw [split, readBytes_append, left, right, Nat.add_sub_cancel_left]

/-- A byte in no field that is set is null. -/
theorem unownedHeader_clear {place : Nat} {type : UstarType} {bytes : Int}
    (inside : place < ustarHeaderSize)
    (outside : ∀ other ∈ unownedFields, place < other.offset ∨ other.offset + other.size ≤ place) :
    unownedHeader memory name type bytes place = 0 := by
  have null : memory.fill 0 ustarHeaderSize 0 place = 0 := by
    rw [Memory.fill, if_pos (by omega)]
  rw [unownedHeader, writeBytes_outside (outside versionField (by simp [unownedFields])),
    setField_outside (outside magicField (by simp [unownedFields])),
    writeBytes_outside (outside typeflagField (by simp [unownedFields])),
    numberedHeader,
    setField_outside (outside mtimeField (by simp [unownedFields])),
    setField_outside (outside sizeField (by simp [unownedFields])),
    setField_outside (outside gidField (by simp [unownedFields])),
    setField_outside (outside uidField (by simp [unownedFields])),
    setField_outside (outside modeField (by simp [unownedFields])),
    setField_outside (outside nameField (by simp [unownedFields])), null]

/-- The name and the numbers stay when the rest is set. -/
theorem readBytes_numbered {type : UstarType} {bytes : Int}
    (typeflag : field.Apart typeflagField) (magic : field.Apart magicField)
    (version : field.Apart versionField) (gname : field.Apart gnameField)
    (uname : field.Apart unameField) :
    readBytes (composeHeader memory name type bytes) field.offset field.size =
      readBytes (numberedHeader memory name type bytes) field.offset
        field.size := by
  have two : [(48 : UInt8), 48].length = versionField.size := rfl
  have one : [type.byte].length = typeflagField.size := rfl
  rw [composeHeader_eq, readBytes_setField_apart uname,
    readBytes_setField_apart gname, unownedHeader,
    readBytes_writeBytes_apart two version, readBytes_setField_apart magic,
    readBytes_writeBytes_apart one typeflag]

/-- The sizes of the fields of a header, in order. -/
def fieldSizes : List Nat := [100, 8, 8, 8, 12, 12, 8, 1, 100, 6, 2, 32, 32, 8, 8, 155, 12]

/-- The bytes from an address on, cut into pieces. -/
def pieces (memory : Memory) : Nat → List Nat → List (List UInt8)
  | _, [] => []
  | start, size :: rest =>
      readBytes memory start size :: pieces memory (start + size) rest

theorem flatten_pieces (memory : Memory) (start : Nat) (sizes : List Nat) :
    (pieces memory start sizes).flatten = readBytes memory start sizes.sum := by
  induction sizes generalizing start with
  | nil => rfl
  | cons size rest inductionHypothesis =>
      rw [pieces, List.flatten_cons, inductionHypothesis, List.sum_cons, readBytes_append]

/-- Bytes that are null. -/
theorem readBytes_clear {start count : Nat}
    (clear : ∀ place, start ≤ place → place < start + count → memory place = 0) :
    readBytes memory start count = List.replicate count 0 := by
  apply List.eq_replicate_iff.mpr
  refine ⟨length_readBytes _ _ _, ?_⟩
  intro byte member
  rcases List.mem_map.mp member with ⟨offset, inside, rfl⟩
  exact clear _ (Nat.le_add_right _ _) (Nat.add_lt_add_left (List.mem_range.mp inside) _)

theorem octal_zeros : octal 7 0 = [48, 48, 48, 48, 48, 48, 48] := by
  rw [octal_eq, paddedOctal, if_pos rfl]
  rfl

/-- A field that is not set is null. -/
theorem readBytes_unset {type : UstarType} {bytes : Int}
    (apart : ∀ other ∈ unownedFields, field.Apart other)
    (gname : field.Apart gnameField) (uname : field.Apart unameField)
    (inside : field.offset + field.size ≤ ustarHeaderSize) :
    readBytes (composeHeader memory name type bytes) field.offset field.size =
      List.replicate field.size 0 := by
  rw [composeHeader_eq, readBytes_setField_apart uname, readBytes_setField_apart gname]
  apply readBytes_clear
  intro place lower upper
  apply unownedHeader_clear (by omega)
  intro other member
  have outside := apart other member
  rw [Field.Apart] at outside
  omega

theorem composed_name (short : name.length ≤ 99) :
    readBytes (composeHeader memory name .regular size) 0 100 = packA 100 name := by
  change readBytes _ nameField.offset nameField.size = _
  rw [readBytes_numbered (by decide) (by decide) (by decide) (by decide) (by decide),
    numberedHeader]
  repeat rw [readBytes_setField_apart (by decide)]
  apply readBytes_setField_clear (Nat.lt_succ_of_le short)
  intro place lower upper
  rw [Memory.fill, if_pos]
  simp only [nameField] at upper
  unfold ustarHeaderSize
  omega

theorem composed_mode :
    readBytes (composeHeader memory name .regular size) 100 8 = octal 7 420 ++ [0] := by
  change readBytes _ modeField.offset modeField.size = _
  rw [readBytes_numbered (by decide) (by decide) (by decide) (by decide) (by decide),
    numberedHeader]
  repeat rw [readBytes_setField_apart (by decide)]
  apply readBytes_setField
  rw [octal_length (by decide) (by decide)]
  rfl

theorem composed_uid :
    readBytes (composeHeader memory name .regular size) 108 8 = octal 7 0 ++ [0] := by
  change readBytes _ uidField.offset uidField.size = _
  rw [readBytes_numbered (by decide) (by decide) (by decide) (by decide) (by decide),
    numberedHeader, octal_zeros]
  repeat rw [readBytes_setField_apart (by decide)]
  exact readBytes_setField rfl

theorem composed_gid :
    readBytes (composeHeader memory name .regular size) 116 8 = octal 7 0 ++ [0] := by
  change readBytes _ gidField.offset gidField.size = _
  rw [readBytes_numbered (by decide) (by decide) (by decide) (by decide) (by decide),
    numberedHeader, octal_zeros]
  repeat rw [readBytes_setField_apart (by decide)]
  exact readBytes_setField rfl

theorem composed_size (fits : size ≤ intMax) :
    readBytes (composeHeader memory name .regular size) 124 12 = octal 11 size ++ [0] := by
  rw [intMax] at fits
  have same : toUnsigned (size : Int) = size := by
    rw [toUnsigned, Int.emod_eq_of_lt (Int.natCast_nonneg size) (by omega)]
    rfl
  change readBytes _ sizeField.offset sizeField.size = _
  rw [readBytes_numbered (by decide) (by decide) (by decide) (by decide) (by decide),
    numberedHeader, same]
  repeat rw [readBytes_setField_apart (by decide)]
  apply readBytes_setField
  rw [octal_length (by decide) (by omega)]
  rfl

theorem composed_mtime :
    readBytes (composeHeader memory name .regular size) 136 12 = octal 11 1136102400 ++ [0] := by
  change readBytes _ mtimeField.offset mtimeField.size = _
  rw [readBytes_numbered (by decide) (by decide) (by decide) (by decide) (by decide),
    numberedHeader]
  apply readBytes_setField
  rw [octal_length (by decide) (by decide)]
  rfl

theorem composed_typeflag : readBytes (composeHeader memory name .regular size) 156 1 = [48] := by
  have version : [(48 : UInt8), 48].length = versionField.size := rfl
  change readBytes _ typeflagField.offset typeflagField.size = _
  rw [composeHeader_eq]
  repeat rw [readBytes_setField_apart (by decide)]
  rw [unownedHeader, readBytes_writeBytes_apart version (by decide),
    readBytes_setField_apart (by decide)]
  exact readBytes_writeBytes

theorem composed_magic :
    readBytes (composeHeader memory name .regular size) 257 6 = ustarMagic := by
  have version : [(48 : UInt8), 48].length = versionField.size := rfl
  change readBytes _ magicField.offset magicField.size = _
  rw [composeHeader_eq]
  repeat rw [readBytes_setField_apart (by decide)]
  rw [unownedHeader, readBytes_writeBytes_apart version (by decide)]
  exact readBytes_setField rfl

theorem composed_version :
    readBytes (composeHeader memory name .regular size) 263 2 = [48, 48] := by
  change readBytes _ versionField.offset versionField.size = _
  rw [composeHeader_eq]
  repeat rw [readBytes_setField_apart (by decide)]
  exact readBytes_writeBytes

/-- The names of the owner come to bytes that are null. -/
theorem unownedHeader_owner {place : Nat} (lower : 265 ≤ place) (upper : place < 329) :
    unownedHeader memory name .regular size place = 0 := by
  have before : ∀ other ∈ unownedFields, other.offset + other.size ≤ 265 := by decide
  apply unownedHeader_clear
  · unfold ustarHeaderSize
    omega
  · intro other member
    have bound := before other member
    omega

theorem composed_uname :
    readBytes (composeHeader memory name .regular size) 265 32 = packA 32 rootText := by
  change readBytes _ unameField.offset unameField.size = _
  rw [composeHeader_eq]
  apply readBytes_setField_clear (by decide)
  intro place lower upper
  simp only [unameField] at lower upper
  rw [setField_outside]
  · exact unownedHeader_owner lower (by omega)
  · left
    simp only [gnameField]
    omega

theorem composed_gname :
    readBytes (composeHeader memory name .regular size) 297 32 = packA 32 rootText := by
  change readBytes _ gnameField.offset gnameField.size = _
  rw [composeHeader_eq, readBytes_setField_apart (by decide)]
  apply readBytes_setField_clear (by decide)
  intro place lower upper
  simp only [gnameField] at lower upper
  exact unownedHeader_owner (by omega) upper

/-- The fields of the header that `ustar_make_header` composes. -/
theorem pieces_composeHeader (short : name.length ≤ 99) (fits : size ≤ intMax) :
    pieces (composeHeader memory name .regular size) 0 fieldSizes =
      [packA 100 name, octal 7 420 ++ [0], octal 7 0 ++ [0], octal 7 0 ++ [0],
        octal 11 size ++ [0], octal 11 1136102400 ++ [0], List.replicate 8 0, [48],
        List.replicate 100 0, ustarMagic, [48, 48], packA 32 rootText, packA 32 rootText,
        List.replicate 8 0, List.replicate 8 0, List.replicate 155 0,
        List.replicate 12 0] := by
  have unset : ∀ field ∈ [chksumField, linknameField, devmajorField, devminorField,
      prefixField, paddingField],
      readBytes (composeHeader memory name .regular size) field.offset field.size =
        List.replicate field.size 0 := by
    intro field member
    have apart : ∀ field ∈ [chksumField, linknameField, devmajorField, devminorField,
        prefixField, paddingField], (∀ other ∈ unownedFields, field.Apart other) ∧
        field.Apart gnameField ∧ field.Apart unameField ∧
          field.offset + field.size ≤ ustarHeaderSize := by decide
    rcases apart field member with ⟨unowned, gname, uname, inside⟩
    exact readBytes_unset unowned gname uname inside
  simp only [List.forall_mem_cons, chksumField, linknameField, devmajorField,
    devminorField, prefixField, paddingField] at unset
  rcases unset with ⟨chksum, linkname, devmajor, devminor, pref, padding, -⟩
  simp only [fieldSizes, pieces, Nat.reduceAdd, composed_name short, composed_mode,
    composed_uid, composed_gid, composed_size fits, composed_mtime, chksum,
    composed_typeflag, linkname, composed_magic, composed_version, composed_uname,
    composed_gname, devmajor, devminor, pref, padding]

/-- What `ustar_make_header` composes is what `put_scratch_file` does, but for
the checksum. -/
theorem composeHeader_bytes (short : name.length ≤ 99) (fits : size ≤ intMax) :
    readBytes (composeHeader memory name .regular (size : Nat)) 0 512 =
      headerText name size (List.replicate 8 0) := by
  have whole := flatten_pieces (composeHeader memory name .regular (size : Nat)) 0 fieldSizes
  have total : fieldSizes.sum = 512 := rfl
  have root : packA 32 rootText = rootText ++ List.replicate 28 0 := rfl
  rw [pieces_composeHeader short fits, total] at whole
  rw [← whole, headerText, headerBack, root]
  simp only [List.flatten_cons, List.flatten_nil, List.append_nil, List.append_assoc]

end Kernel

/-! ## Checksums -/

section Checksums

variable {memory : Memory} {name text : List UInt8} {size : Nat}

theorem take_readBytes {start count first : Nat} (inside : first ≤ count) :
    (readBytes memory start count).take first = readBytes memory start first := by
  have split : count = first + (count - first) := by omega
  have length := length_readBytes memory start first
  rw [split, readBytes_append]
  generalize readBytes memory start first = front at *
  rw [← length, List.take_left]

theorem drop_readBytes {start count first : Nat} (inside : first ≤ count) :
    (readBytes memory start count).drop first =
      readBytes memory (start + first) (count - first) := by
  have split : count = first + (count - first) := by omega
  have length := length_readBytes memory start first
  generalize count - first = rest at *
  rw [split, readBytes_append]
  generalize readBytes memory start first = front at *
  rw [← length, List.drop_left, length]

/-- The header with a text that fills the checksum field. -/
theorem readBytes_setChksum (fills : text.length = 7) :
    readBytes (setField memory chksumField text) 0 512 =
      setChksum (readBytes memory 0 512) (text ++ [0]) := by
  have field : readBytes (setField memory chksumField text) 148 8 = text ++ [0] := by
    apply @readBytes_setField _ _ chksumField
    rw [fills]
    rfl
  have front : readBytes (setField memory chksumField text) 0 148 = readBytes memory 0 148 :=
    @readBytes_setField_apart _ _ chksumField ⟨0, 148⟩ (by decide)
  have back : readBytes (setField memory chksumField text) 156 356 = readBytes memory 156 356 :=
    @readBytes_setField_apart _ _ chksumField ⟨156, 356⟩ (by decide)
  have total : 512 = 148 + 8 + 356 := rfl
  rw [setChksum, take_readBytes (by decide), drop_readBytes (by decide), total,
    readBytes_append, readBytes_append, Nat.zero_add, Nat.zero_add, field, front,
    back]

theorem foldl_wrap (places : List Nat) (value : Nat → Nat) (start : Nat) :
    places.foldl (fun sum place => wrap (sum + value place)) (wrap start) =
      wrap (start + (places.map value).sum) := by
  induction places generalizing start with
  | nil => rfl
  | cons place rest inductionHypothesis =>
      have step : wrap (wrap start + value place) = wrap (start + value place) := by
        unfold wrap
        rw [Nat.mod_add_mod]
      rw [List.foldl_cons, step, inductionHypothesis, List.map_cons, List.sum_cons, Nat.add_assoc]

/-- The kernel and the host calculate the same checksum. -/
theorem calculateChksum_eq (memory : Memory) :
    calculateChksum memory =
      unpackChecksum
        (setChksum (readBytes memory 0 512) (List.replicate 8 32)) := by
  have inField : ∀ place, 148 ≤ place → place < 156 →
      (if chksumField.offset ≤ place ∧
          place < chksumField.offset + chksumField.size then 32
        else (memory place).toNat) = 32 := by
    intro place lower upper
    rw [if_pos ⟨lower, upper⟩]
  have outField : ∀ place, place < 148 ∨ 156 ≤ place →
      (if chksumField.offset ≤ place ∧
          place < chksumField.offset + chksumField.size then 32
        else (memory place).toNat) = (memory place).toNat := by
    intro place outside
    rw [if_neg]
    unfold chksumField
    simp only
    omega
  have folded := foldl_wrap (List.range 512) (fun place =>
    if chksumField.offset ≤ place ∧
        place < chksumField.offset + chksumField.size then 32
      else (memory place).toNat) 0
  have values : (List.range 512).map (fun place =>
      if chksumField.offset ≤ place ∧
          place < chksumField.offset + chksumField.size then 32
        else (memory place).toNat) =
      (setChksum (readBytes memory 0 512) (List.replicate 8 32)).map
        UInt8.toNat := by
    have first : List.range 156 = List.range 148 ++ (List.range 8).map (148 + ·) :=
      @List.range_add 148 8
    have second : List.range 512 = List.range 156 ++ (List.range 356).map (156 + ·) :=
      @List.range_add 156 356
    rw [setChksum, take_readBytes (by decide), drop_readBytes (by decide), second,
      first, List.map_append, List.map_append, List.map_append, List.map_append]
    refine congrArg₂ (· ++ ·) (congrArg₂ (· ++ ·) ?_ ?_) ?_
    · rw [readBytes, List.map_map]
      apply List.map_congr_left
      intro place inside
      have bound := List.mem_range.mp inside
      rw [outField place (Or.inl bound), Function.comp_apply, Nat.zero_add]
    · rw [List.map_map, List.map_replicate]
      apply List.eq_replicate_iff.mpr
      refine ⟨by rw [List.length_map, List.length_range], ?_⟩
      intro value member
      rcases List.mem_map.mp member with ⟨place, inside, rfl⟩
      have bound := List.mem_range.mp inside
      exact inField (148 + place) (by omega) (by omega)
    · rw [readBytes, List.map_map, List.map_map]
      apply List.map_congr_left
      intro place inside
      rw [Function.comp_apply, Function.comp_apply, outField _ (Or.inr (by omega)), Nat.zero_add]
  rw [Nat.zero_add, values] at folded
  exact folded

/-- The header of `ustar_make_header` is that of `put_scratch_file`. -/
theorem madeHeader_bytes (short : name.length ≤ 99) (fits : size ≤ intMax) :
    readBytes (madeHeader memory name .regular (size : Nat)) 0 512 =
      headerText name size
        (octal 7 (unpackChecksum
          (headerText name size (List.replicate 8 32))) ++ [0]) := by
  have small : size < 8 ^ 11 := by
    rw [intMax] at fits
    omega
  have bytes := @composeHeader_bytes memory name size short fits
  have chksum := calculateChksum_eq (composeHeader memory name .regular (size : Nat))
  have bound := calculateChksum_lt (composeHeader memory name .regular (size : Nat))
  have length := octal_length (show 0 < 7 by decide) bound
  rw [madeHeader, readBytes_setChksum length, chksum, bytes,
    setChksum_headerText small List.length_replicate]
  rw [setChksum_headerText small List.length_replicate]

end Checksums

/-! ## Reading a header -/

section Reading

variable {front back name : List UInt8} {offset length size : Nat}

theorem substr_left (inside : offset + length ≤ front.length) :
    substr (front ++ back) offset length = substr front offset length := by
  rw [substr, substr, List.drop_append_of_le_length (by omega), List.take_append_of_le_length]
  rw [List.length_drop]
  omega

theorem substr_right (outside : front.length ≤ offset) :
    substr (front ++ back) offset length = substr back (offset - front.length) length := by
  have gone : front.drop offset = [] := List.drop_of_length_le outside
  rw [substr, substr, List.drop_append, gone, List.nil_append]

theorem substr_whole (whole : front.length = length) : substr front 0 length = front := by
  rw [substr, List.drop_zero, ← whole, List.take_length]

/-- A field of a header before the checksum. -/
theorem substr_headerText_size (small : size < 8 ^ 11) (chksum : List UInt8) :
    substr (headerText name size chksum) 124 12 = octal 11 size ++ [0] := by
  have start := length_headerFront name
  have field := length_octalField (show 0 < 11 by decide) small
  rw [headerText_eq, headerStart, List.append_assoc, List.append_assoc,
    List.append_assoc, substr_right (by omega), start, Nat.sub_self,
    substr_left (by omega), substr_whole field]

theorem substr_headerText_chksum (small : size < 8 ^ 11) {chksum : List UInt8}
    (field : chksum.length = 8) :
    substr (headerText name size chksum) 148 8 = chksum := by
  have start := @length_headerStart name size small
  rw [headerText_eq, List.append_assoc, substr_right (by omega), start,
    Nat.sub_self, substr_left (by omega), substr_whole field]

/-- A field of a header behind the checksum. -/
theorem substr_headerText_back (small : size < 8 ^ 11) {chksum : List UInt8}
    (field : chksum.length = 8) (behind : 156 ≤ offset) :
    substr (headerText name size chksum) offset length =
      substr headerBack (offset - 156) length := by
  have start := @length_headerStart name size small
  have whole : (headerStart name size ++ chksum).length = 156 := by
    rw [List.length_append, start, field]
  rw [headerText_eq, substr_right (by omega), whole]

/-- Octal digits and a null byte. -/
theorem unpackZ_octal (width value : Nat) :
    unpackZ (octal width value ++ [0]) = octal width value := by
  have digits : ∀ c ∈ octal width value, decide (c ≠ 0) = true := by
    intro c member
    rw [octal_eq] at member
    rcases List.mem_map.mp member with ⟨digit, here, rfl⟩
    have small := paddedOctal_lt width value digit here
    have char := octalChar_toNat small
    rw [decide_eq_true_eq]
    intro null
    rw [null] at char
    change 0 = 48 + digit at char
    omega
  rw [unpackZ, List.takeWhile_append_of_pos digits,
    List.takeWhile_cons_of_neg (by decide), List.append_nil]

theorem digitValue_octalChar {digit : Nat} (small : digit < 8) :
    digitValue 8 (octalChar digit) = some digit := by
  have all : ∀ digit < 8, digitValue 8 (octalChar digit) = some digit := by
    decide
  exact all digit small

theorem scanDigits_octal {digits : List Nat} (small : ∀ digit ∈ digits, digit < 8) (value : Nat) :
    scanDigits 8 (digits.map octalChar) value = horner 8 value digits := by
  induction digits generalizing value with
  | nil => rfl
  | cons digit rest inductionHypothesis =>
      have here := digitValue_octalChar (small digit List.mem_cons_self)
      rw [List.map_cons, scanDigits, here]
      exact inductionHypothesis
        (fun other member => small other (List.mem_cons_of_mem digit member)) _

theorem octPrefixed_octal {digits : List Nat} (small : ∀ digit ∈ digits, digit < 8) :
    octPrefixed (digits.map octalChar) = horner 8 0 digits := by
  cases digits with
  | nil => rfl
  | cons digit rest =>
      have bound := small digit List.mem_cons_self
      have plain : ∀ digit < 8, ¬(octalChar digit = 120 ∨ octalChar digit = 88) ∧
          ¬(octalChar digit = 98 ∨ octalChar digit = 66) ∧
            ¬(octalChar digit = 111 ∨ octalChar digit = 79) := by
        decide
      rcases plain digit bound with ⟨notHex, notBinary, notOctal⟩
      rw [List.map_cons, octPrefixed, if_neg notHex, if_neg notBinary, if_neg notOctal]
      exact scanDigits_octal small 0

/-- `oct` reads what `sprintf` has written. -/
theorem oct_octal (width value : Nat) : oct (octal width value) = value := by
  have small := paddedOctal_lt width value
  have number := paddedOctal_value width value
  rw [octal_eq]
  generalize paddedOctal width value = digits at *
  cases digits with
  | nil => exact number
  | cons digit rest =>
      have bound := small digit List.mem_cons_self
      have notSpace : ∀ digit < 8, isSpace (octalChar digit) = false := by
        decide
      rw [oct, List.map_cons, List.dropWhile_cons_of_neg (by
        rw [notSpace digit bound]
        decide)]
      by_cases zero : octalChar digit = 48
      · have isZero : ∀ digit < 8, octalChar digit = 48 → digit = 0 := by
          decide
        have same := isZero digit bound zero
        have rest_small : ∀ other ∈ rest, other < 8 :=
          fun other member => small other (List.mem_cons_of_mem digit member)
        rw [same] at number
        simp only [List.head?_cons, zero, if_true, List.drop_succ_cons, List.drop_zero]
        rw [octPrefixed_octal rest_small]
        exact number
      · have other : ¬(octalChar digit :: rest.map octalChar).head? = some 48 := by
          rw [List.head?_cons]
          intro same
          exact zero (Option.some.inj same)
        simp only [if_neg other]
        rw [← List.map_cons, octPrefixed_octal small]
        exact number

end Reading

end CS162.Utils
