import CS162.Filesys.Entries
import CS162.Lib.Strtok
import CS162.Threads.Palloc
import CS162.Utils.AssembleDisk

/-!
# The kernel command line

`read_command_line` of `threads/init.c`, which reads what `make_kernel_command_line` has
put behind the loader.
-/

namespace CS162.Threads

open CS162.Foundation
open CS162.Filesys (stringAt stringAt_eq)
open CS162.Lib (strchr)
open CS162.Utils (makeKernelCommandLine)

/-- `LOADER_ARGS_LEN` -/
def loaderArgsLen : Nat := 128

/-- `LOADER_END - LOADER_SIG_LEN - LOADER_PARTS_LEN - LOADER_ARGS_LEN` -/
def loaderArgs : Nat := 0x7e00 - 2 - 64 - loaderArgsLen

/-- `LOADER_ARGS - LOADER_ARG_CNT_LEN` -/
def loaderArgCnt : Nat := loaderArgs - 4

/-- The static array `argv`, and the indexes that have been stored into. -/
structure Argv where
  entry : Int → Nat := fun _ => 0
  stored : List Int := []

/-- `argv[index] = pointer` -/
def Argv.store (argv : Argv) (index : Int) (pointer : Nat) : Argv :=
  ⟨fun other => if other = index then pointer else argv.entry other, argv.stored ++ [index]⟩

theorem Argv.entry_store_of_ne {index other : Int} (different : other ≠ index)
    (argv : Argv) (pointer : Nat) :
    (argv.store index pointer).entry other = argv.entry other :=
  if_neg different

theorem Argv.entry_store_self (argv : Argv) (index : Int) (pointer : Nat) :
    (argv.store index pointer).entry index = pointer :=
  if_pos rfl

/-- `strnlen` -/
def strnlen (memory : Memory) (string maxlen : Nat) : Nat := (stringAt memory string maxlen).length

/-- The loop of `read_command_line` that breaks the line into words; `none` if the
arguments overflow. -/
def readArguments (memory : Memory) : Nat → Nat → Nat → Argv → Option Argv
  | 0, _, _, argv => some argv
  | rounds + 1, i, p, argv =>
      let stop := ptov loaderArgs + loaderArgsLen
      if p ≥ stop then none
      else
        readArguments memory rounds (i + 1) (p + strnlen memory p (stop - p) + 1) (argv.store i p)

/-- The words as they are printed, with quotes around those that have a blank in them. -/
def printArguments (arguments : List (List UInt8)) : List UInt8 :=
  arguments.flatMap fun argument =>
    if (strchr argument 32 0).isNone then 32 :: argument
    else [32, 39] ++ argument ++ [39]

/-- What `read_command_line` leaves in `argv` and prints. -/
structure CommandLine where
  argv : Argv
  printed : List UInt8

/-- `"Kernel command line:"` -/
def commandLineHeading : List UInt8 :=
  [75, 101, 114, 110, 101, 108, 32, 99, 111, 109, 109, 97, 110, 100, 32, 108, 105, 110, 101, 58]

/-- The string that a pointer points to. -/
def stringOf (memory : Memory) (pointer : Nat) : List UInt8 :=
  stringAt memory pointer (unsignedModulus - pointer)

/-- `read_command_line` -/
def readCommandLine (memory : Memory) : Option CommandLine :=
  let argc := wrapSigned (memory.load32 (ptov loaderArgCnt))
  (readArguments memory argc.toNat 0 (ptov loaderArgs) {}).map fun argv =>
    let argv := argv.store argc 0
    { argv := argv
      printed := commandLineHeading ++
        printArguments ((List.range argc.toNat).map fun i : Nat =>
          stringOf memory (argv.entry i)) ++ [10] }

section Decoding

variable {memory : Memory} {args : List (List UInt8)} {place : Nat}

/-- A memory has these bytes at an address. -/
def HasBytes (memory : Memory) (place : Nat) (bytes : List UInt8) : Prop :=
  ∀ i (inside : i < bytes.length), memory (place + i) = bytes[i]

theorem HasBytes.left {bytes rest : List UInt8}
    (has : HasBytes memory place (bytes ++ rest)) : HasBytes memory place bytes := by
  intro i inside
  have longer : i < (bytes ++ rest).length := by
    rw [List.length_append]
    omega
  rw [has i longer, List.getElem_append_left inside]

theorem HasBytes.right {bytes rest : List UInt8} (has : HasBytes memory place (bytes ++ rest)) :
    HasBytes memory (place + bytes.length) rest := by
  intro i inside
  have longer : bytes.length + i < (bytes ++ rest).length := by
    rw [List.length_append]
    omega
  rw [Nat.add_assoc, has _ longer, List.getElem_append_right (Nat.le_add_right _ _)]
  congr 1
  exact Nat.add_sub_cancel_left _ _

/-- A terminated string is read back. -/
theorem HasBytes.stringAt_eq {string : List UInt8} {room : Nat}
    (has : HasBytes memory place (string ++ [0])) (nonzero : 0 ∉ string)
    (fits : string.length ≤ room) : stringAt memory place room = string := by
  apply Filesys.stringAt_eq nonzero fits
  · intro i inside
    rw [has.left i inside, List.getD_eq_getElem _ _ inside]
  · exact has.right 0 Nat.zero_lt_one

/-- The bytes of the arguments. -/
def commandLineBytes (args : List (List UInt8)) : List UInt8 := args.flatMap fun arg => arg ++ [0]

/-- Where the strings of the arguments begin. -/
def argumentPlaces : Nat → List (List UInt8) → List Nat
  | _, [] => []
  | p, arg :: args => p :: argumentPlaces (p + arg.length + 1) args

theorem length_argumentPlaces (p : Nat) (args : List (List UInt8)) :
    (argumentPlaces p args).length = args.length := by
  induction args generalizing p with
  | nil => rfl
  | cons arg args inductionHypothesis =>
      rw [argumentPlaces, List.length_cons, List.length_cons, inductionHypothesis]

/-- The strings at these places are the arguments. -/
theorem argumentPlaces_strings (has : HasBytes memory place (commandLineBytes args))
    (nonzero : ∀ arg ∈ args, 0 ∉ arg)
    (below : place + (commandLineBytes args).length ≤ unsignedModulus) :
    (argumentPlaces place args).map (stringOf memory) = args := by
  induction args generalizing place with
  | nil => rfl
  | cons arg args inductionHypothesis =>
      have split : commandLineBytes (arg :: args) = (arg ++ [0]) ++ commandLineBytes args := rfl
      rw [split] at has below
      rw [List.length_append, List.length_append, List.length_singleton] at below
      have first : stringOf memory place = arg :=
        has.left.stringAt_eq (nonzero arg List.mem_cons_self) (by omega)
      have rest := has.right
      rw [List.length_append, List.length_singleton, ← Nat.add_assoc] at rest
      rw [argumentPlaces, List.map_cons, first,
        inductionHypothesis rest
          (fun other member => nonzero other (List.mem_cons_of_mem _ member)) (by omega)]

/-- The loop stores the places of the arguments one after the other. -/
theorem readArguments_eq (has : HasBytes memory place (commandLineBytes args))
    (nonzero : ∀ arg ∈ args, 0 ∉ arg)
    (below : place + (commandLineBytes args).length ≤ ptov loaderArgs + loaderArgsLen)
    (i : Nat) (argv : Argv) :
    readArguments memory args.length i place argv =
      some ((argumentPlaces place args).zipIdx i |>.foldl
        (fun argv entry => argv.store entry.2 entry.1) argv) := by
  induction args generalizing place i argv with
  | nil => rfl
  | cons arg args inductionHypothesis =>
      have split : commandLineBytes (arg :: args) = (arg ++ [0]) ++ commandLineBytes args := rfl
      rw [split] at has below
      rw [List.length_append, List.length_append, List.length_singleton] at below
      have length : strnlen memory place (ptov loaderArgs + loaderArgsLen - place) =
          arg.length := by
        rw [strnlen, has.left.stringAt_eq (nonzero arg List.mem_cons_self) (by omega)]
      have rest := has.right
      rw [List.length_append, List.length_singleton, ← Nat.add_assoc] at rest
      rw [List.length_cons, readArguments, if_neg (by omega), length, inductionHypothesis rest
        (fun other member => nonzero other (List.mem_cons_of_mem _ member)) (by omega),
        argumentPlaces, List.zipIdx_cons, List.foldl_cons]

/-- What the stores leave. -/
theorem foldl_store (pointers : List Nat) (i : Nat) (argv : Argv) :
    let after := (pointers.zipIdx i).foldl (fun argv entry => argv.store entry.2 entry.1) argv
    (∀ k (inside : k < pointers.length), after.entry (i + k : Nat) = pointers[k]) ∧
      (∀ index : Int, index < i → after.entry index = argv.entry index) ∧
      after.stored = argv.stored ++ (List.range' i pointers.length).map Int.ofNat := by
  induction pointers generalizing i argv with
  | nil =>
      refine ⟨fun k inside => absurd inside (Nat.not_lt_zero k), fun _ _ => rfl, ?_⟩
      exact (List.append_nil _).symm
  | cons pointer pointers inductionHypothesis =>
      rcases inductionHypothesis (i + 1) (argv.store i pointer) with ⟨later, before, stored⟩
      dsimp only
      rw [List.zipIdx_cons, List.foldl_cons]
      refine ⟨?_, ?_, ?_⟩
      · intro k inside
        cases k with
        | zero =>
            rw [before _ (by omega)]
            exact argv.entry_store_self i pointer
        | succ k =>
            have there := later k (Nat.lt_of_succ_lt_succ inside)
            rw [Nat.add_assoc, Nat.add_comm 1] at there
            exact there
      · intro index less
        rw [before index (by omega)]
        exact argv.entry_store_of_ne (Int.ne_of_lt less) pointer
      · rw [stored, Argv.store, List.length_cons, List.range'_succ, List.map_cons,
          List.append_assoc]
        rfl

theorem length_le_bytes (args : List (List UInt8)) :
    args.length ≤ (commandLineBytes args).length := by
  induction args with
  | nil => exact Nat.le_refl 0
  | cons arg args inductionHypothesis =>
      have split : commandLineBytes (arg :: args) = (arg ++ [0]) ++ commandLineBytes args := rfl
      rw [split, List.length_append, List.length_append, List.length_cons, List.length_singleton]
      omega

/-- What `make_kernel_command_line` has written, in memory. -/
theorem encoded_inMemory {bytes : List UInt8} (encoded : makeKernelCommandLine args = some bytes)
    (has : HasBytes memory (ptov loaderArgCnt) bytes) :
    (commandLineBytes args).length ≤ loaderArgsLen ∧
      wrapSigned (memory.load32 (ptov loaderArgCnt)) = args.length ∧
        HasBytes memory (ptov loaderArgs) (commandLineBytes args) := by
  unfold makeKernelCommandLine at encoded
  dsimp only at encoded
  split at encoded
  · cases encoded
  · rename_i fits
    rw [Option.some.injEq] at encoded
    have short : (commandLineBytes args).length ≤ loaderArgsLen := Nat.le_of_not_lt fits
    have padded : packV args.length ++ packA loaderArgsLen (commandLineBytes args) = bytes :=
      encoded
    rw [packA_of_le short, ← List.append_assoc] at padded
    rw [← padded] at has
    have number := has.left.left
    have count : memory.load32 (ptov loaderArgCnt) = args.length := by
      apply Memory.load32_of_packed
      · have few := length_le_bytes args
        unfold loaderArgsLen at short
        unfold unsignedModulus
        omega
      · intro index inside
        have byte := number index inside
        have cases : index = 0 ∨ index = 1 ∨ index = 2 ∨ index = 3 := by omega
        rcases cases with zero | one | two | three
        · subst zero
          exact byte
        · subst one
          exact byte
        · subst two
          exact byte
        · subst three
          exact byte
    have few := length_le_bytes args
    have behind : ptov loaderArgCnt + (packV args.length).length = ptov loaderArgs := by
      have four : (packV args.length).length = 4 := rfl
      rw [four]
      decide
    refine ⟨short, ?_, behind ▸ has.left.right⟩
    rw [count]
    unfold loaderArgsLen at short
    exact wrapSigned_of_lt (by omega) (by omega)

/-- What `read_command_line` makes of the arguments, however many they are. -/
theorem readCommandLine_eq {bytes : List UInt8}
    (encoded : makeKernelCommandLine args = some bytes) (nonzero : ∀ arg ∈ args, 0 ∉ arg)
    (has : HasBytes memory (ptov loaderArgCnt) bytes) :
    ∃ line, readCommandLine memory = some line ∧
      ((List.range args.length).map fun i : Nat => line.argv.entry i) =
        argumentPlaces (ptov loaderArgs) args ∧
      (argumentPlaces (ptov loaderArgs) args).map (stringOf memory) = args ∧
      line.argv.entry args.length = 0 ∧
      line.argv.stored = (List.range (args.length + 1)).map Int.ofNat ∧
      line.printed = commandLineHeading ++ printArguments args ++ [10] := by
  rcases encoded_inMemory encoded has with ⟨short, argc, strings⟩
  have run := readArguments_eq strings nonzero (Nat.add_le_add_left short _) 0 {}
  rcases foldl_store (argumentPlaces (ptov loaderArgs) args) 0 {} with ⟨entries, _, stored⟩
  generalize (argumentPlaces (ptov loaderArgs) args).zipIdx.foldl
    (fun argv entry => argv.store entry.2 entry.1) ({} : Argv) = argv at run entries stored
  have pointers : ((List.range args.length).map fun i : Nat => argv.entry i) =
      argumentPlaces (ptov loaderArgs) args := by
    apply List.ext_getElem
    · rw [List.length_map, List.length_range, length_argumentPlaces]
    · intro k inside there
      rw [List.getElem_map, List.getElem_range]
      have entry := entries k there
      rw [Nat.zero_add] at entry
      exact entry
  have texts : (argumentPlaces (ptov loaderArgs) args).map (stringOf memory) = args := by
    apply argumentPlaces_strings strings nonzero
    have last : ptov loaderArgs + loaderArgsLen ≤ unsignedModulus := by decide
    omega
  -- The null pointer is behind the other entries.
  have kept : ((List.range args.length).map fun i : Nat =>
      (argv.store args.length 0).entry i) = argumentPlaces (ptov loaderArgs) args := by
    rw [← pointers]
    apply List.map_congr_left
    intro i member
    have before : (i : Int) ≠ args.length := by
      have inside := List.mem_range.mp member
      omega
    exact argv.entry_store_of_ne before 0
  have result : readCommandLine memory = some
      { argv := argv.store args.length 0
        printed := commandLineHeading ++ printArguments args ++ [10] } := by
    have read : ((List.range args.length).map fun i : Nat =>
        stringOf memory ((argv.store args.length 0).entry i)) = args := by
      have strings := texts
      rw [← kept, List.map_map] at strings
      exact strings
    unfold readCommandLine
    rw [argc]
    dsimp only
    rw [Int.toNat_natCast, run, Option.map_some, read]
  refine ⟨_, result, kept, texts, argv.entry_store_self _ 0, ?_, rfl⟩
  rw [Argv.store, stored, length_argumentPlaces, List.range_succ, List.map_append,
    List.range_eq_range']
  rfl

/-- Decoding gives the arguments, with a null pointer behind them, and stores only into
the array. -/
def Decodes (memory : Memory) (args : List (List UInt8)) : Prop :=
  ∃ line, readCommandLine memory = some line ∧
    ((List.range args.length).map fun i : Nat => stringOf memory (line.argv.entry i)) = args ∧
    (∀ i : Nat, i < args.length → line.argv.entry i ≠ 0) ∧
    line.argv.entry args.length = 0 ∧
    ∀ index ∈ line.argv.stored, 0 ≤ index ∧ index ≤ loaderArgsLen / 2

theorem argumentPlaces_pos {pointer : Nat} (positive : 0 < place)
    (member : pointer ∈ argumentPlaces place args) : 0 < pointer := by
  induction args generalizing place with
  | nil => exact absurd member List.not_mem_nil
  | cons arg args inductionHypothesis =>
      rcases List.mem_cons.mp member with here | later
      · rw [here]
        exact positive
      · exact inductionHypothesis (by omega) later

/-- Decoding undoes encoding if and only if there are at most 64 arguments. -/
theorem read_command_line_decodes_iff (memory : Memory) (args : List (List UInt8))
    (bytes : List UInt8) (encoded : makeKernelCommandLine args = some bytes)
    (nonzero : ∀ arg ∈ args, 0 ∉ arg) (has : HasBytes memory (ptov loaderArgCnt) bytes) :
    Decodes memory args ↔ args.length ≤ loaderArgsLen / 2 := by
  rcases readCommandLine_eq encoded nonzero has with ⟨line, run, pointers, texts, last, stored, _⟩
  constructor
  · intro ⟨other, decoded, _, _, _, inside⟩
    rw [run, Option.some.injEq] at decoded
    rw [← decoded, stored] at inside
    have member : ((args.length : Nat) : Int) ∈ (List.range (args.length + 1)).map Int.ofNat :=
      List.mem_map.mpr ⟨args.length, List.mem_range.mpr (Nat.lt_succ_self _), rfl⟩
    exact Int.ofNat_le.mp (inside _ member).2
  · intro few
    refine ⟨line, run, ?_, ?_, last, ?_⟩
    · rw [← pointers, List.map_map] at texts
      exact texts
    · intro i inside
      have member : line.argv.entry i ∈ argumentPlaces (ptov loaderArgs) args := by
        rw [← pointers]
        exact List.mem_map.mpr ⟨i, List.mem_range.mpr inside, rfl⟩
      have base : 0 < ptov loaderArgs := by decide
      exact Nat.ne_of_gt (argumentPlaces_pos base member)
    · rw [stored]
      intro index member
      rcases List.mem_map.mp member with ⟨i, inside, same⟩
      rw [← same]
      have less := List.mem_range.mp inside
      exact ⟨Int.natCast_nonneg i, Int.ofNat_le.mpr (Nat.le_trans (Nat.le_of_lt_succ less) few)⟩

/-- A memory with the bytes of a command line behind the loader. -/
def commandLineMemory (bytes : List UInt8) : Memory :=
  fun place => bytes.getD (place - ptov loaderArgCnt) 0

theorem commandLineMemory_has (bytes : List UInt8) :
    HasBytes (commandLineMemory bytes) (ptov loaderArgCnt) bytes := by
  intro i inside
  rw [commandLineMemory, Nat.add_sub_cancel_left, List.getD_eq_getElem _ _ inside]

/-- `-q run x` -/
def threeArguments : List (List UInt8) := [[45, 113], [114, 117, 110], [120]]

/-- The bytes of these three arguments. -/
def threeArgumentsBytes : List UInt8 :=
  packV 3 ++ packA loaderArgsLen [45, 113, 0, 114, 117, 110, 0, 120, 0]

theorem read_command_line_decodes_iff_three :
    Decodes (commandLineMemory threeArgumentsBytes) threeArguments :=
  (read_command_line_decodes_iff (commandLineMemory threeArgumentsBytes) threeArguments
    threeArgumentsBytes rfl (by decide) (commandLineMemory_has _)).mpr (by decide)

/-- The bytes of 65 empty arguments. -/
def emptyArgumentsBytes : List UInt8 := packV 65 ++ packA loaderArgsLen (List.replicate 65 0)

/-- The null pointer behind 65 empty arguments is stored behind the array. -/
theorem read_command_line_overflows :
    makeKernelCommandLine (List.replicate 65 []) = some emptyArgumentsBytes ∧
      ¬Decodes (commandLineMemory emptyArgumentsBytes) (List.replicate 65 []) := by
  have encoded : makeKernelCommandLine (List.replicate 65 []) = some emptyArgumentsBytes := by
    decide +kernel
  have nonzero : ∀ arg ∈ List.replicate 65 ([] : List UInt8), 0 ∉ arg := by
    intro arg member
    rw [List.eq_of_mem_replicate member]
    exact List.not_mem_nil
  refine ⟨encoded, ?_⟩
  rcases readCommandLine_eq encoded nonzero (commandLineMemory_has _) with
    ⟨line, run, _, _, _, stored, _⟩
  intro ⟨other, decoded, _, _, _, inside⟩
  rw [run, Option.some.injEq] at decoded
  rw [← decoded, stored] at inside
  exact absurd (inside 65 (by decide)) (by decide)

end Decoding

end CS162.Threads
