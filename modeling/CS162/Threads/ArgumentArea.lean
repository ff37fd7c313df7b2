import CS162.Lib.BoundedStrings
import CS162.Threads.CommandLine

/-!
# The area of the arguments

`read_command_line` of `threads/init.c` with every byte that it reads, and what `strnlen`
means for it and for `printf`.
-/

namespace CS162.Threads

open CS162.Foundation
open CS162.Foundation.Reading
open CS162.Filesys (stringAt stringAt_succ)
open CS162.Lib (HasNull InBuffer PrintfConversion convertStringReading formatString hasNull_succ
  parseConversion readByte readBytes readBytes_succ sizeMax strchr strnlenReading
  strnlenReading_eq value_readByte vprintf)

/-- `*(uint32_t*)address`, with its reads. -/
def readWord (memory : Memory) (address : Nat) : Reading Nat Nat := do
  let first ← readByte memory address
  let second ← readByte memory (address + 1)
  let third ← readByte memory (address + 2)
  let fourth ← readByte memory (address + 3)
  return first.toNat + 256 * second.toNat + 65536 * third.toNat + 16777216 * fourth.toNat

/-- `strchr`, at most up to the end of the address space, with its reads. -/
def strchrReading (memory : Memory) (c : UInt8) : Nat → Nat → Reading Nat (Option Nat)
  | _, 0 => return none
  | string, room + 1 => do
      let x ← readByte memory string
      if x = c then return some string
      else if x = 0 then return none
      else strchrReading memory c (string + 1) room

/-- The loop of `read_command_line` that breaks the line into words, with its reads. -/
def readArgumentsReading (memory : Memory) : Nat → Nat → Nat → Argv →
    Reading Nat (Option Argv)
  | 0, _, _, argv => return some argv
  | rounds + 1, i, p, argv =>
      let stop := ptov loaderArgs + loaderArgsLen
      if p ≥ stop then return none
      else do
        let length ← strnlenReading memory p (stop - p)
        readArgumentsReading memory rounds (i + 1) (p + length + 1) (argv.store i p)

/-- How one word is printed, with its reads. -/
def printArgumentReading (memory : Memory) (pointer : Nat) : Reading Nat (List UInt8) := do
  let blank ← strchrReading memory 32 pointer (unsignedModulus - pointer)
  let text ← convertStringReading memory {} pointer
  return if blank.isNone then 32 :: text else [32, 39] ++ text ++ [39]

/-- `read_command_line` behind `argc`, with its reads. -/
def readWordsReading (memory : Memory) (argc : Int) : Reading Nat (Option CommandLine) := do
  let broken ← readArgumentsReading memory argc.toNat 0 (ptov loaderArgs) {}
  match broken with
  | none => return none
  | some argv => do
      let argv := argv.store argc 0
      let words ← collect (fun i : Nat => printArgumentReading memory (argv.entry i))
        (List.range argc.toNat)
      return some { argv := argv, printed := commandLineHeading ++ words.flatten ++ [10] }

/-- `read_command_line`, with its reads. -/
def readCommandLineReading (memory : Memory) : Reading Nat (Option CommandLine) := do
  let count ← readWord memory (ptov loaderArgCnt)
  readWordsReading memory (wrapSigned count)

/-! ## Strings in the area -/

/-- The end of the area. -/
def argumentsEnd : Nat := ptov loaderArgs + loaderArgsLen

/-- The number of the arguments and the area with their strings. -/
def InArguments (address : Nat) : Prop := ptov loaderArgCnt ≤ address ∧ address < argumentsEnd

theorem loaderArgCnt_le : ptov loaderArgCnt ≤ ptov loaderArgs := by decide

theorem loaderArgs_le : ptov loaderArgs ≤ argumentsEnd := by decide

/-- A string of the area ends in it. -/
structure EndsInside (memory : Memory) (pointer : Nat) : Prop where
  start : ptov loaderArgs ≤ pointer
  hasNull : HasNull memory pointer (argumentsEnd - pointer)

/-- The null bytes from an address of the area on. -/
def nullsFrom (memory : Memory) (p : Nat) : Nat := (readBytes memory p (argumentsEnd - p)).count 0

section Strings

variable {memory : Memory} {p size : Nat}

theorem count_of_no_null (noNull : ¬HasNull memory p size) :
    (readBytes memory p size).count 0 = 0 := by
  rw [List.count_eq_zero]
  intro member
  rcases List.mem_map.mp member with ⟨offset, inside, null⟩
  exact noNull ⟨offset, List.mem_range.mp inside, null⟩

/-- Behind the first null byte there is one less. -/
theorem count_of_hasNull (hasNull : HasNull memory p size) :
    (readBytes memory p size).count 0 =
      (readBytes memory (p + Lib.strnlen memory p size + 1)
        (size - (Lib.strnlen memory p size + 1))).count 0 + 1 := by
  induction size generalizing p with
  | zero => exact absurd hasNull Lib.not_hasNull_zero
  | succ size inductionHypothesis =>
      rw [readBytes_succ, Lib.strnlen]
      by_cases null : memory p = 0
      · rw [if_pos null, null, List.count_cons_self]
        rfl
      · have later := (hasNull_succ.mp hasNull).resolve_left null
        have place : p + (Lib.strnlen memory (p + 1) size + 1) + 1 =
            p + 1 + Lib.strnlen memory (p + 1) size + 1 := by
          omega
        rw [if_neg null, List.count_cons_of_ne null, inductionHypothesis later, place,
          Nat.succ_sub_succ]

theorem readBytes_strnlen (memory : Memory) (p size : Nat) :
    readBytes memory p (Lib.strnlen memory p size) = stringAt memory p size := by
  induction size generalizing p with
  | zero => rfl
  | succ size inductionHypothesis =>
      rw [Lib.strnlen, stringAt_succ]
      by_cases null : memory p = 0
      · rw [if_pos null, if_pos null]
        rfl
      · rw [if_neg null, if_neg null, readBytes_succ, inductionHypothesis]

theorem strnlen_eq (memory : Memory) (p size : Nat) :
    Lib.strnlen memory p size = strnlen memory p size := by
  rw [strnlen, ← readBytes_strnlen, Lib.length_readBytes]

end Strings

/-! ## The words -/

section Words

variable {memory : Memory} {c : UInt8} {string pointer size room rounds i p : Nat}
  {argv after : Argv}

theorem strchrReading_within (hasNull : HasNull memory string size) :
    (strchrReading memory c string room).Within (InBuffer string size) := by
  induction room generalizing string size with
  | zero => exact within_pure none
  | succ room inductionHypothesis =>
      cases size with
      | zero => exact absurd hasNull Lib.not_hasNull_zero
      | succ size =>
          rw [strchrReading, within_bind, value_readByte]
          refine ⟨within_load.mpr ⟨Nat.le_refl _, by omega⟩, ?_⟩
          split_ifs with _found null
          · exact within_pure _
          · exact within_pure _
          · have later := (hasNull_succ.mp hasNull).resolve_left null
            refine (inductionHypothesis later).mono ?_
            rintro address ⟨lower, upper⟩
            exact ⟨by omega, by omega⟩

theorem inArguments_of_inBuffer {address : Nat} (start : ptov loaderArgs ≤ p)
    (inside : InBuffer p (argumentsEnd - p) address) : InArguments address := by
  have count := loaderArgCnt_le
  rcases inside with ⟨lower, upper⟩
  exact ⟨by omega, by omega⟩

/-- `strnlen` with what is left of the area stays in it exactly if there is a null byte. -/
theorem strnlenReading_within_area (start : ptov loaderArgs ≤ p) (below : p ≤ argumentsEnd) :
    (strnlenReading memory p (argumentsEnd - p)).Within InArguments ↔
      HasNull memory p (argumentsEnd - p) := by
  rw [← Lib.strnlenReading_within_iff]
  constructor
  · intro inside address member
    have lower : p ≤ address := by
      rw [strnlenReading_eq] at member
      exact (List.mem_range'_1.mp member).1
    have upper := (inside address member).2
    exact ⟨lower, by omega⟩
  · intro inside
    exact inside.mono fun _ => inArguments_of_inBuffer start

theorem readArgumentsReading_succ (memory : Memory) (rounds i p : Nat) (argv : Argv) :
    readArgumentsReading memory (rounds + 1) i p argv = if p ≥ argumentsEnd then pure none
      else strnlenReading memory p (argumentsEnd - p) >>= fun length =>
        readArgumentsReading memory rounds (i + 1) (p + length + 1) (argv.store i p) := rfl

/-- The loop stays in the area exactly if there is a null byte for each word, or one at the
end of the area. -/
theorem readArgumentsReading_within_iff (start : ptov loaderArgs ≤ p) (below : p ≤ argumentsEnd) :
    (readArgumentsReading memory rounds i p argv).Within InArguments ↔
      rounds ≤ nullsFrom memory p ∨ p = argumentsEnd ∨ memory (argumentsEnd - 1) = 0 := by
  induction rounds generalizing i p argv with
  | zero => exact iff_of_true (within_pure _) (Or.inl (Nat.zero_le _))
  | succ rounds inductionHypothesis =>
      rw [readArgumentsReading_succ]
      by_cases done : p ≥ argumentsEnd
      · have atEnd : p = argumentsEnd := Nat.le_antisymm below done
        rw [if_pos done]
        exact iff_of_true (within_pure _) (Or.inr (Or.inl atEnd))
      · rw [if_neg done, within_bind, strnlenReading_within_area start below]
        by_cases hasNull : HasNull memory p (argumentsEnd - p)
        · have short := Lib.strnlen_lt_iff.mpr hasNull
          have null := Lib.strnlen_null hasNull
          have fewer := count_of_hasNull hasNull
          have next : nullsFrom memory p =
              nullsFrom memory (p + Lib.strnlen memory p (argumentsEnd - p) + 1) + 1 := by
            rw [nullsFrom, fewer, nullsFrom]
            congr 3
            omega
          have last : p + Lib.strnlen memory p (argumentsEnd - p) + 1 = argumentsEnd →
              memory (argumentsEnd - 1) = 0 := by
            intro reached
            rw [← reached, Nat.add_sub_cancel]
            exact null
          have notEnd : p ≠ argumentsEnd := by omega
          have later := @inductionHypothesis (i + 1)
            (p + Lib.strnlen memory p (argumentsEnd - p) + 1) (argv.store i p) (by omega)
            (by omega)
          rw [and_iff_right hasNull, strnlenReading_eq]
          refine Iff.trans later ?_
          rw [next, or_iff_right notEnd, Nat.succ_le_succ_iff]
          exact or_congr_right (or_iff_right_of_imp last)
        · have none : nullsFrom memory p = 0 := count_of_no_null hasNull
          refine iff_of_false (fun both => hasNull both.1) ?_
          rintro (enough | atEnd | null)
          · omega
          · omega
          · refine hasNull ⟨argumentsEnd - 1 - p, by omega, ?_⟩
            have place : p + (argumentsEnd - 1 - p) = argumentsEnd - 1 := by omega
            rw [place]
            exact null

/-- The words of a loop that has stayed in the area end in it. -/
theorem readArgumentsReading_ends (start : ptov loaderArgs ≤ p) (below : p ≤ argumentsEnd)
    (within : (readArgumentsReading memory rounds i p argv).Within InArguments)
    (run : (readArgumentsReading memory rounds i p argv).value = some after) :
    (∀ index : Nat, index < i → after.entry index = argv.entry index) ∧
      ∀ round < rounds, EndsInside memory (after.entry ↑(i + round)) := by
  induction rounds generalizing i p argv with
  | zero =>
      rw [readArgumentsReading, value_pure, Option.some.injEq] at run
      rw [run]
      exact ⟨fun _ _ => rfl, fun _ impossible => absurd impossible (Nat.not_lt_zero _)⟩
  | succ rounds inductionHypothesis =>
      rw [readArgumentsReading_succ] at within run
      by_cases done : p ≥ argumentsEnd
      · rw [if_pos done] at run
        cases run
      · rw [if_neg done, within_bind, strnlenReading_within_area start below,
          strnlenReading_eq] at within
        rw [if_neg done, value_bind, strnlenReading_eq] at run
        rcases within with ⟨hasNull, within⟩
        have short := Lib.strnlen_lt_iff.mpr hasNull
        have left : p + Lib.strnlen memory p (argumentsEnd - p) + 1 ≤ argumentsEnd := by
          omega
        rcases inductionHypothesis (by omega) left within run with ⟨kept, ends⟩
        have first : after.entry i = p := by
          rw [kept i (Nat.lt_succ_self i)]
          exact argv.entry_store_self i p
        constructor
        · intro index earlier
          have other : (index : Int) ≠ i := by omega
          rw [kept index (Nat.lt_succ_of_lt earlier)]
          exact argv.entry_store_of_ne other p
        · intro round bound
          cases round with
          | zero =>
              rw [Nat.add_zero, first]
              exact ⟨start, hasNull⟩
          | succ round =>
              rw [Nat.add_comm round, ← Nat.add_assoc]
              exact ends round (Nat.lt_of_succ_lt_succ bound)

/-- The words that `read_command_line` prints end in the area. -/
theorem printed_ends {argc : Int}
    (within : (readArgumentsReading memory argc.toNat 0 (ptov loaderArgs) {}).Within InArguments)
    (run : (readArgumentsReading memory argc.toNat 0 (ptov loaderArgs) {}).value = some after) :
    ∀ i ∈ List.range argc.toNat, EndsInside memory ((after.store argc 0).entry ↑i) := by
  have ends := (readArgumentsReading_ends (Nat.le_refl _) loaderArgs_le within run).2
  intro i member
  have bound := List.mem_range.mp member
  have other : (i : Int) ≠ argc := by omega
  have inside := ends i bound
  rw [Nat.zero_add] at inside
  rw [after.entry_store_of_ne other 0]
  exact inside

/-- Printing a word that ends in the area does not leave it. -/
theorem printArgumentReading_within (ends : EndsInside memory pointer) :
    (printArgumentReading memory pointer).Within InArguments := by
  have last : argumentsEnd ≤ sizeMax := by decide
  rcases ends with ⟨start, hasNull⟩
  have wider : ∀ address, InBuffer pointer (argumentsEnd - pointer) address →
      InArguments address :=
    fun _ => inArguments_of_inBuffer start
  rw [printArgumentReading, within_bind, within_bind]
  refine ⟨(strchrReading_within hasNull).mono wider, ?_, within_pure _⟩
  have fits : argumentsEnd - pointer ≤ ({} : PrintfConversion).precision.getD sizeMax :=
    Nat.le_trans (Nat.sub_le _ _) last
  exact (Lib.convertStringReading_within hasNull fits).mono wider

theorem readWord_within {allowed : Nat → Prop} {address : Nat}
    (word : ∀ offset < 4, allowed (address + offset)) :
    (readWord memory address).Within allowed := by
  simp only [readWord, within_bind, within_pure, and_true]
  exact ⟨within_load.mpr (word 0 (by decide)), within_load.mpr (word 1 (by decide)),
    within_load.mpr (word 2 (by decide)), within_load.mpr (word 3 (by decide))⟩

theorem value_readWord (memory : Memory) (address : Nat) :
    (readWord memory address).value = memory.load32 address := rfl

/-- `read_command_line` stays in the area exactly if its first loop does. -/
theorem readWordsReading_within_iff {argc : Int} :
    (readWordsReading memory argc).Within InArguments ↔
      argc ≤ nullsFrom memory (ptov loaderArgs) ∨ memory (argumentsEnd - 1) = 0 := by
  have notEnd : ptov loaderArgs ≠ argumentsEnd := by decide
  have loop := @readArgumentsReading_within_iff memory argc.toNat 0 (ptov loaderArgs) {}
    (Nat.le_refl _) loaderArgs_le
  rw [or_iff_right notEnd, Int.toNat_le] at loop
  rw [readWordsReading, within_bind, ← loop]
  refine and_iff_left_of_imp ?_
  intro within
  cases run : (readArgumentsReading memory argc.toNat 0 (ptov loaderArgs) {}).value with
  | none => exact within_pure _
  | some after =>
      rw [within_bind]
      refine ⟨within_collect.mpr ?_, within_pure _⟩
      intro i member
      exact printArgumentReading_within (printed_ends within run i member)

theorem readCommandLineReading_within_iff :
    (readCommandLineReading memory).Within InArguments ↔
      wrapSigned (memory.load32 (ptov loaderArgCnt)) ≤ nullsFrom memory (ptov loaderArgs) ∨
        memory (argumentsEnd - 1) = 0 := by
  have word : ptov loaderArgCnt + 4 ≤ argumentsEnd := by decide
  have count : ∀ offset < 4, InArguments (ptov loaderArgCnt + offset) :=
    fun _ inside => ⟨Nat.le_add_right _ _, by omega⟩
  rw [readCommandLineReading, within_bind, and_iff_right (readWord_within count),
    value_readWord, readWordsReading_within_iff]

end Words

/-! ## The reads beside `readCommandLine` -/

section Values

variable {memory : Memory} {c : UInt8} {pointer size : Nat}

theorem value_strchrReading (other : c ≠ 0) (string room place : Nat) :
    (strchrReading memory c string room).value.isNone =
      (strchr (stringAt memory string room) c place).isNone := by
  induction room generalizing string place with
  | zero =>
      change true = (if c = 0 then some place else none).isNone
      rw [if_neg other]
      rfl
  | succ room inductionHypothesis =>
      rw [strchrReading, value_bind, value_readByte, stringAt_succ]
      by_cases null : memory string = 0
      · have different : memory string ≠ c := by
          rw [null]
          exact other.symm
        rw [if_neg different, if_pos null, if_pos null, strchr, if_neg other]
        rfl
      · rw [if_neg null, if_neg null, strchr, if_neg null]
        by_cases found : memory string = c
        · rw [if_pos found, if_pos found]
          rfl
        · rw [if_neg found, if_neg found]
          exact inductionHypothesis (string + 1) (place + 1)

theorem value_readArgumentsReading (memory : Memory) (rounds i p : Nat) (argv : Argv) :
    (readArgumentsReading memory rounds i p argv).value = readArguments memory rounds i p argv := by
  induction rounds generalizing i p argv with
  | zero => rfl
  | succ rounds inductionHypothesis =>
      rw [readArgumentsReading_succ, readArguments]
      by_cases done : p ≥ argumentsEnd
      · rw [if_pos done]
        exact (if_pos done).symm
      · rw [if_neg done, value_bind, strnlenReading_eq, strnlen_eq, inductionHypothesis]
        exact (if_neg done).symm

/-- A word that ends in the area is printed as `printArguments` says. -/
theorem value_printArgumentReading (ends : EndsInside memory pointer) :
    (printArgumentReading memory pointer).value = printArguments [stringOf memory pointer] := by
  have last : argumentsEnd ≤ sizeMax := by decide
  have top : argumentsEnd ≤ unsignedModulus := by decide
  have same : Lib.strnlen memory pointer sizeMax =
      Lib.strnlen memory pointer (unsignedModulus - pointer) := by
    rw [Lib.strnlen_of_hasNull ends.hasNull (by omega),
      Lib.strnlen_of_hasNull ends.hasNull (Nat.sub_le_sub_right top pointer)]
  have text : (convertStringReading memory {} pointer).value = stringOf memory pointer := by
    rw [convertStringReading, value_bind, Lib.value_formatStringReading, strnlenReading_eq,
      Lib.formatString_unpadded rfl]
    change readBytes memory pointer (Lib.strnlen memory pointer sizeMax) = _
    rw [same, readBytes_strnlen, stringOf]
  have blank := @value_strchrReading memory 32 (by decide) pointer (unsignedModulus - pointer) 0
  rw [printArgumentReading, value_bind, value_bind, value_pure, text, blank, printArguments,
    List.flatMap_singleton, stringOf]

theorem value_readWordsReading {argc : Int}
    (within : (readWordsReading memory argc).Within InArguments) :
    (readWordsReading memory argc).value =
      (readArguments memory argc.toNat 0 (ptov loaderArgs) {}).map fun argv =>
        { argv := argv.store argc 0
          printed := commandLineHeading ++
            printArguments ((List.range argc.toNat).map fun i : Nat =>
              stringOf memory ((argv.store argc 0).entry i)) ++ [10] } := by
  rw [readWordsReading, within_bind] at within
  rw [readWordsReading, value_bind, ← value_readArgumentsReading]
  cases run : (readArgumentsReading memory argc.toNat 0 (ptov loaderArgs) {}).value with
  | none => rfl
  | some after =>
      have ends := printed_ends within.1 run
      have words := List.map_congr_left fun i member =>
        value_printArgumentReading (ends i member)
      have printed : ((List.range argc.toNat).map fun i : Nat =>
            printArguments [stringOf memory ((after.store argc 0).entry i)]).flatten =
          printArguments ((List.range argc.toNat).map fun i : Nat =>
            stringOf memory ((after.store argc 0).entry i)) := by
        simp only [printArguments, List.flatMap_singleton, List.flatMap_map]
        rfl
      dsimp only
      rw [value_bind, value_collect, words, printed]
      rfl

/-- Where it stays in the area, `read_command_line` is `readCommandLine`. -/
theorem value_readCommandLineReading
    (within : (readCommandLineReading memory).Within InArguments) :
    (readCommandLineReading memory).value = readCommandLine memory := by
  rw [readCommandLineReading, within_bind, value_readWord] at within
  rw [readCommandLineReading, value_bind, value_readWord]
  exact value_readWordsReading within.2

end Values

/-! ## What stays in its bounds -/

/-- `strnlen` and a `%.*s` count and output what they should, but they stay in their buffer
only if there is a null byte in it, and `read_command_line` stays in the area only if there
is one for each word, or one at its end. -/
theorem strnlen_bounded_iff (memory : Memory) : (∀ string maxlen,
      (¬HasNull memory string maxlen → (strnlenReading memory string maxlen).value = maxlen) ∧
      ((strnlenReading memory string maxlen).Within (InBuffer string maxlen) ↔
        HasNull memory string maxlen)) ∧
    (∀ (precision string : BitVec 32) (rest : List UInt8) (args : List (BitVec 32)),
      0 ≤ precision.toInt → string ≠ 0#32 →
      ∃ c, parseConversion (46 :: 42 :: 115 :: rest) (precision :: string :: args) =
          .ok ⟨c, .int, 115 :: rest, string :: args⟩ ∧
        (¬HasNull memory string.toNat precision.toNat →
          (convertStringReading memory c string.toNat).value =
              readBytes memory string.toNat precision.toNat ∧
            vprintf memory (37 :: 46 :: 42 :: 115 :: rest) (precision :: string :: args) =
              (vprintf memory rest args).map (readBytes memory string.toNat precision.toNat ++ ·)) ∧
        ((convertStringReading memory c string.toNat).Within
            (InBuffer string.toNat precision.toNat) ↔
          HasNull memory string.toNat precision.toNat)) ∧
    ((readCommandLineReading memory).Within InArguments ↔
      wrapSigned (memory.load32 (ptov loaderArgCnt)) ≤ nullsFrom memory (ptov loaderArgs) ∨
        memory (argumentsEnd - 1) = 0) := by
  refine ⟨?_, ?_, readCommandLineReading_within_iff⟩
  · intro string maxlen
    refine ⟨?_, Lib.strnlenReading_within_iff⟩
    intro noNull
    rw [strnlenReading_eq]
    exact Lib.strnlen_of_no_null noNull
  · intro precision string rest args positive notNull
    have same := (Lib.toNat_of_positive positive).1
    refine ⟨{ precision := some precision.toInt.toNat }, Lib.parse_preciseString positive, ?_, ?_⟩
    · intro noNull
      have full := Lib.strnlen_of_no_null noNull
      have output := @Lib.vprintf_preciseString memory precision string rest args positive notNull
      rw [full] at output
      refine ⟨?_, output⟩
      rw [Lib.value_convertStringReading _ _ notNull, Lib.formatString_unpadded rfl,
        Lib.stringArgument_precise positive notNull, full]
    · rw [← same]
      exact Lib.convertStringReading_within_iff rfl

/-- A memory without a null byte. -/
def lettersOnly : Memory := fun _ => 97

theorem not_hasNull_lettersOnly (string maxlen : Nat) : ¬HasNull lettersOnly string maxlen := by
  have letter : (97 : UInt8) ≠ 0 := by decide
  rintro ⟨_, _, null⟩
  exact letter null

theorem strnlen_bounded_letters :
    (strnlenReading lettersOnly 16 4).value = 4 ∧
    ¬(strnlenReading lettersOnly 16 4).Within (InBuffer 16 4) ∧
    vprintf lettersOnly [37, 46, 42, 115, 0] [4#32, 16#32] = .ok [97, 97, 97, 97] ∧
    ¬(readCommandLineReading lettersOnly).Within InArguments := by
  rcases strnlen_bounded_iff lettersOnly with ⟨strings, conversions, area⟩
  rcases strings 16 4 with ⟨value, within⟩
  rcases conversions 4#32 16#32 [0] [] (by decide) (by decide) with ⟨c, _, output, _⟩
  have letter : (97 : UInt8) ≠ 0 := by decide
  have noNull := not_hasNull_lettersOnly 16 4
  have printed := (output noNull).2
  rw [Lib.vprintf_null] at printed
  refine ⟨value noNull, mt within.mp noNull, printed, ?_⟩
  rw [area]
  rintro (enough | null)
  · have none : nullsFrom lettersOnly (ptov loaderArgs) = 0 :=
      count_of_no_null (not_hasNull_lettersOnly _ _)
    rw [none] at enough
    exact absurd enough (by decide)
  · exact letter null

/-- The character behind a buffer of one letter is read. -/
theorem strnlen_reads_behind :
    ¬HasNull lettersOnly 16 1 ∧ strnlenReading lettersOnly 16 1 = ⟨1, [16, 17]⟩ ∧
      ¬InBuffer 16 1 17 := by
  refine ⟨not_hasNull_lettersOnly 16 1, strnlenReading_eq lettersOnly 16 1, ?_⟩
  unfold InBuffer
  decide

end CS162.Threads
