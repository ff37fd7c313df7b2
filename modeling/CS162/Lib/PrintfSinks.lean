import Mathlib.Data.List.GetD
import CS162.Lib.PrintfFormats
import CS162.Lib.String

/-!
# Where `printf` puts its output

`vsnprintf` of `lib/stdio.c`, `vhprintf` of `lib/user/console.c` and `vprintf` of
`lib/kernel/console.c`, which give `__vprintf` three functions for its characters.  The
strings of the arguments are not in the buffer that `vsnprintf` writes to.
-/

namespace CS162.Lib

open CS162.Foundation

/-- `%f` as a parameter. -/
abbrev Floating : Type := PrintfConversion → BitVec 64 → List UInt8

/-- `__vprintf (format, args, output, aux)`. -/
def vprintfWith {Aux : Type} (floating : Floating) (memory : Memory) (format : List UInt8)
    (args : List (BitVec 32)) (output : Aux → UInt8 → Aux) (aux : Aux) :
    Except PrintfFault Aux := do
  let characters ← vprintfAny floating memory format args
  return characters.foldl output aux

/-! ## Strings -/

/-- `struct vsnprintf_aux`, and the memory. -/
structure VsnprintfAux where
  p : Nat
  length : Int
  maxLength : Int
  memory : Memory

/-- `vsnprintf_helper`. -/
def vsnprintfHelper (aux : VsnprintfAux) (ch : UInt8) : VsnprintfAux :=
  if aux.length < aux.maxLength then
    { aux with
      length := wrapSigned (aux.length + 1)
      p := aux.p + 1
      memory := storeByte aux.memory aux.p ch }
  else { aux with length := wrapSigned (aux.length + 1) }

/-- `vsnprintf`: what it returns, and the memory afterwards. -/
def vsnprintf (floating : Floating) (memory : Memory) (buffer bufSize : Nat)
    (format : List UInt8) (args : List (BitVec 32)) : Except PrintfFault (Int × Memory) := do
  let aux ← vprintfWith floating memory format args vsnprintfHelper
    { p := buffer
      length := 0
      maxLength := wrapSigned (if 0 < bufSize then (bufSize : Int) - 1 else 0)
      memory := memory }
  return (aux.length, if 0 < bufSize then storeByte aux.memory aux.p 0 else aux.memory)

section Strings

variable {memory : Memory} {buffer : Nat} {characters : List UInt8}

theorem storeByte_writeBytes (memory : Memory) (start : Nat) (bytes : List UInt8) (byte : UInt8) :
    storeByte (writeBytes memory start bytes) (start + bytes.length) byte =
      writeBytes memory start (bytes ++ [byte]) := by
  funext place
  by_cases here : place = start + bytes.length
  · have inside : bytes.length < (bytes ++ [byte]).length := by
      rw [List.length_append, List.length_singleton]
      omega
    rw [here, storeByte_self, writeBytes_inside inside,
      List.getD_append_right _ _ _ _ (Nat.le_refl _), Nat.sub_self]
    rfl
  · rw [storeByte_of_ne here]
    by_cases inside : start ≤ place ∧ place < start + bytes.length
    · have offset : start + (place - start) = place := Nat.add_sub_cancel' inside.1
      have less : place - start < bytes.length := by omega
      have longer : place - start < (bytes ++ [byte]).length := by
        rw [List.length_append]
        omega
      rw [← offset, writeBytes_inside less, writeBytes_inside longer, List.getD_append _ _ _ _ less]
    · rw [writeBytes_outside (by omega), writeBytes_outside]
      rw [List.length_append, List.length_singleton]
      omega

theorem writeBytes_nil (memory : Memory) (start : Nat) : writeBytes memory start [] = memory := by
  funext place
  rw [writeBytes, if_neg]
  rw [List.length_nil]
  omega

/-- The data of the helper after some characters, of which it may store so many. -/
def storedAux (memory : Memory) (buffer room : Nat) (before : List UInt8) : VsnprintfAux where
  p := buffer + (before.take room).length
  length := before.length
  maxLength := room
  memory := writeBytes memory buffer (before.take room)

/-- The helper stores a character while there is room, and counts it in any case. -/
theorem vsnprintfHelper_stored {room : Nat} {before : List UInt8} (ch : UInt8)
    (few : before.length + 1 < 2 ^ 31) :
    vsnprintfHelper (storedAux memory buffer room before) ch =
      storedAux memory buffer room (before ++ [ch]) := by
  have count : wrapSigned ((before.length : Int) + 1) = (before ++ [ch]).length := by
    rw [List.length_append, List.length_singleton, wrapSigned_of_lt (by omega) (by omega)]
    omega
  unfold vsnprintfHelper storedAux
  dsimp only
  rw [count]
  by_cases more : before.length < room
  · have all : before.take room = before := List.take_of_length_le (Nat.le_of_lt more)
    have next : (before ++ [ch]).take room = before ++ [ch] := by
      apply List.take_of_length_le
      rw [List.length_append, List.length_singleton]
      exact more
    rw [if_pos (Int.ofNat_lt.mpr more), all, next, storeByte_writeBytes, List.length_append,
      List.length_singleton, Nat.add_assoc]
  · have full : (before ++ [ch]).take room = before.take room :=
      List.take_append_of_le_length (Nat.le_of_not_lt more)
    rw [if_neg fun less => more (Int.ofNat_lt.mp less), full]

theorem foldl_vsnprintfHelper {room : Nat} (before characters : List UInt8)
    (few : (before ++ characters).length < 2 ^ 31) :
    characters.foldl vsnprintfHelper (storedAux memory buffer room before) =
      storedAux memory buffer room (before ++ characters) := by
  induction characters generalizing before with
  | nil => rw [List.append_nil, List.foldl_nil]
  | cons ch characters inductionHypothesis =>
      have whole : before ++ ch :: characters = (before ++ [ch]) ++ characters := by
        rw [List.append_assoc]
        rfl
      rw [whole] at few ⊢
      have one : before.length + 1 < 2 ^ 31 := by
        rw [List.length_append, List.length_append, List.length_singleton] at few
        omega
      rw [List.foldl_cons, vsnprintfHelper_stored ch one]
      exact inductionHypothesis (before ++ [ch]) few

/-- The data of the helper after some characters, if it may store none. -/
def countedAux (memory : Memory) (p : Nat) (maxLength : Int) (before : List UInt8) :
    VsnprintfAux where
  p := p
  length := before.length
  maxLength := maxLength
  memory := memory

/-- Where `max_length` is negative, the helper only counts. -/
theorem foldl_vsnprintfHelper_negative {maxLength : Int} (negative : maxLength < 0)
    (before characters : List UInt8) (few : (before ++ characters).length < 2 ^ 31) :
    characters.foldl vsnprintfHelper (countedAux memory buffer maxLength before) =
      countedAux memory buffer maxLength (before ++ characters) := by
  induction characters generalizing before with
  | nil => rw [List.append_nil, List.foldl_nil]
  | cons ch characters inductionHypothesis =>
      have whole : before ++ ch :: characters = (before ++ [ch]) ++ characters := by
        rw [List.append_assoc]
        rfl
      rw [whole] at few ⊢
      have count : wrapSigned ((before.length : Int) + 1) = (before ++ [ch]).length := by
        rw [List.length_append, List.length_append, List.length_singleton] at few
        rw [List.length_append, List.length_singleton, wrapSigned_of_lt (by omega) (by omega)]
        omega
      have next : vsnprintfHelper (countedAux memory buffer maxLength before) ch =
          countedAux memory buffer maxLength (before ++ [ch]) := by
        unfold vsnprintfHelper countedAux
        dsimp only
        rw [if_neg (by omega), count]
      rw [List.foldl_cons, next]
      exact inductionHypothesis (before ++ [ch]) few

/-- What is asked of `vsnprintf`. -/
def StoresString (floating : Floating) (memory : Memory) (buffer bufSize : Nat)
    (format : List UInt8) (args : List (BitVec 32)) (characters : List UInt8) : Prop :=
  vsnprintf floating memory buffer bufSize format args = .ok (characters.length,
      if bufSize = 0 then memory
      else writeBytes memory buffer (characters.take (bufSize - 1) ++ [0]))

theorem storeByte_eq (memory : Memory) (start : Nat) (byte : UInt8) :
    storeByte memory start byte = writeBytes memory start [byte] := by
  have stored := storeByte_writeBytes memory start [] byte
  rw [writeBytes_nil] at stored
  exact stored

/-- With a size that is an `int`, the string is stored. -/
theorem vsnprintf_of_le {floating : Floating} {bufSize : Nat} {format : List UInt8}
    {args : List (BitVec 32)} (size : bufSize ≤ 2 ^ 31)
    (rendered : vprintfAny floating memory format args = .ok characters)
    (few : characters.length < 2 ^ 31) :
    StoresString floating memory buffer bufSize format args characters := by
  have room : wrapSigned (if 0 < bufSize then (bufSize : Int) - 1 else 0) =
      (bufSize - 1 : Nat) := by
    split_ifs
    · rw [wrapSigned_of_lt (by omega) (by omega)]
      omega
    · rw [wrapSigned_of_lt (by omega) (by omega)]
      omega
  have start : (⟨buffer, 0, (bufSize - 1 : Nat), memory⟩ : VsnprintfAux) =
      storedAux memory buffer (bufSize - 1) [] := by
    rw [storedAux, List.take_nil, writeBytes_nil]
    rfl
  have stored := @foldl_vsnprintfHelper memory buffer (bufSize - 1) [] characters few
  unfold StoresString vsnprintf vprintfWith
  rw [rendered, room, start]
  dsimp only [bind, Except.bind, pure, Except.pure]
  rw [stored, List.nil_append, storedAux]
  dsimp only
  by_cases empty : bufSize = 0
  · rw [if_neg (by omega), if_pos empty, empty, List.take_zero, writeBytes_nil]
  · rw [if_pos (Nat.pos_of_ne_zero empty), if_neg empty, storeByte_writeBytes]

/-- With a larger size, `max_length` is negative and only a null byte is stored. -/
theorem vsnprintf_of_lt {floating : Floating} {bufSize : Nat} {format : List UInt8}
    {args : List (BitVec 32)} (size : bufSize < unsignedModulus) (large : 2 ^ 31 < bufSize)
    (rendered : vprintfAny floating memory format args = .ok characters)
    (few : characters.length < 2 ^ 31) :
    vsnprintf floating memory buffer bufSize format args =
      .ok (characters.length, writeBytes memory buffer [0]) := by
  have positive : 0 < bufSize := by omega
  have negative : wrapSigned ((bufSize : Int) - 1) < 0 := by
    unfold unsignedModulus at size
    unfold wrapSigned
    omega
  have counted := @foldl_vsnprintfHelper_negative memory buffer _ negative [] characters few
  have start : (⟨buffer, 0, wrapSigned ((bufSize : Int) - 1), memory⟩ : VsnprintfAux) =
      countedAux memory buffer (wrapSigned ((bufSize : Int) - 1)) [] := rfl
  unfold vsnprintf vprintfWith
  rw [rendered, if_pos positive, start]
  dsimp only [bind, Except.bind, pure, Except.pure]
  rw [counted, List.nil_append, if_pos positive, countedAux, ← storeByte_eq]

/-- `vsnprintf` stores the string if the size of the buffer is no greater than `2 ^ 31`,
or if a null byte makes the buffer hold it. -/
theorem vsnprintf_stores_iff {floating : Floating} {bufSize : Nat} {format : List UInt8}
    {args : List (BitVec 32)} (size : bufSize < unsignedModulus)
    (rendered : vprintfAny floating memory format args = .ok characters)
    (few : characters.length < 2 ^ 31) :
    StoresString floating memory buffer bufSize format args characters ↔
      bufSize ≤ 2 ^ 31 ∨ writeBytes memory buffer [0] =
        writeBytes memory buffer (characters.take (bufSize - 1) ++ [0]) := by
  by_cases large : 2 ^ 31 < bufSize
  · have run := @vsnprintf_of_lt memory buffer _ _ _ _ _ size large rendered few
    unfold StoresString
    rw [run, if_neg (by omega), Except.ok.injEq, Prod.mk.injEq]
    constructor
    · intro ⟨_, same⟩
      exact Or.inr same
    · intro either
      rcases either with fits | same
      · exact absurd large (Nat.not_lt.mpr fits)
      · exact ⟨rfl, same⟩
  · have fits := Nat.le_of_not_lt large
    exact iff_of_true (vsnprintf_of_le fits rendered few) (Or.inl fits)

end Strings

/-! ## Files -/

/-- `sizeof aux->buf`. -/
def vhprintfBuf : Nat := 64

/-- `struct vhprintf_aux`, with the part of `buf` up to `p`, and the buffers that have been
passed to `write`. -/
structure VhprintfAux where
  buf : List UInt8 := []
  charCnt : Int := 0
  handle : Int
  writes : List (Int × List UInt8) := []

/-- `flush`. -/
def VhprintfAux.flush (aux : VhprintfAux) : VhprintfAux :=
  if 0 < aux.buf.length then
    { aux with writes := aux.writes ++ [(aux.handle, aux.buf)], buf := [] }
  else { aux with buf := [] }

/-- `add_char`. -/
def addChar (aux : VhprintfAux) (c : UInt8) : VhprintfAux :=
  let aux := { aux with buf := aux.buf ++ [c] }
  let aux := if vhprintfBuf ≤ aux.buf.length then aux.flush else aux
  { aux with charCnt := wrapSigned (aux.charCnt + 1) }

/-- `vhprintf`: what it returns, and the buffers that it passes to `write`. -/
def vhprintf (floating : Floating) (memory : Memory) (handle : Int) (format : List UInt8)
    (args : List (BitVec 32)) : Except PrintfFault (Int × List (Int × List UInt8)) := do
  let aux ← vprintfWith floating memory format args addChar { handle := handle }
  return (aux.charCnt, aux.flush.writes)

section Files

variable {characters : List UInt8}

/-- What has been added is in the buffers that have been written and in the one that is
being filled, which has room for a character. -/
structure VhprintfAux.Holds (handle : Int) (before : List UInt8) (aux : VhprintfAux) : Prop where
  sameHandle : aux.handle = handle
  bytes : (aux.writes.map Prod.snd).flatten ++ aux.buf = before
  room : aux.buf.length < vhprintfBuf
  count : aux.charCnt = before.length
  writes : ∀ write ∈ aux.writes, write.1 = handle ∧ write.2 ≠ [] ∧ write.2.length ≤ vhprintfBuf

theorem VhprintfAux.flush_writes {handle : Int} {before : List UInt8} {aux : VhprintfAux}
    (same : aux.handle = handle) (bytes : (aux.writes.map Prod.snd).flatten ++ aux.buf = before)
    (inside : aux.buf.length ≤ vhprintfBuf)
    (writes : ∀ write ∈ aux.writes, write.1 = handle ∧ write.2 ≠ [] ∧
      write.2.length ≤ vhprintfBuf) :
    (aux.flush.writes.map Prod.snd).flatten = before ∧
      ∀ write ∈ aux.flush.writes, write.1 = handle ∧ write.2 ≠ [] ∧
        write.2.length ≤ vhprintfBuf := by
  unfold flush
  by_cases some_bytes : 0 < aux.buf.length
  · rw [if_pos some_bytes]
    constructor
    · rw [List.map_append, List.flatten_append, List.map_singleton, List.flatten_singleton]
      exact bytes
    · intro write member
      rcases List.mem_append.mp member with old | new
      · exact writes write old
      · rw [List.mem_singleton.mp new]
        exact ⟨same, List.ne_nil_of_length_pos some_bytes, inside⟩
  · have empty : aux.buf = [] := List.length_eq_zero_iff.mp (Nat.eq_zero_of_not_pos some_bytes)
    rw [if_neg some_bytes]
    rw [empty, List.append_nil] at bytes
    exact ⟨bytes, writes⟩

theorem addChar_holds {handle : Int} {before : List UInt8} {aux : VhprintfAux} (c : UInt8)
    (holds : aux.Holds handle before) (few : before.length + 1 < 2 ^ 31) :
    (addChar aux c).Holds handle (before ++ [c]) := by
  have count : wrapSigned (aux.charCnt + 1) = (before ++ [c]).length := by
    rw [holds.count, List.length_append, List.length_singleton,
      wrapSigned_of_lt (by omega) (by omega)]
    omega
  have bytes : (aux.writes.map Prod.snd).flatten ++ (aux.buf ++ [c]) = before ++ [c] := by
    rw [← List.append_assoc, holds.bytes]
  have longer : (aux.buf ++ [c]).length = aux.buf.length + 1 := by
    rw [List.length_append, List.length_singleton]
  have room := holds.room
  unfold addChar
  dsimp only
  by_cases full : vhprintfBuf ≤ (aux.buf ++ [c]).length
  · have pending : 0 < (aux.buf ++ [c]).length := by omega
    have flushed := @VhprintfAux.flush_writes handle (before ++ [c])
      { aux with buf := aux.buf ++ [c] } holds.sameHandle bytes (by dsimp only; omega) holds.writes
    have emptied : ({ aux with buf := aux.buf ++ [c] } : VhprintfAux).flush =
        { aux with writes := aux.writes ++ [(aux.handle, aux.buf ++ [c])], buf := [] } :=
      if_pos pending
    rw [emptied] at flushed
    rw [if_pos full, emptied]
    have empty : 0 < vhprintfBuf := by decide
    refine ⟨holds.sameHandle, ?_, empty, count, flushed.2⟩
    rw [List.append_nil]
    exact flushed.1
  · rw [if_neg full]
    exact ⟨holds.sameHandle, bytes, Nat.lt_of_not_le full, count, holds.writes⟩

theorem foldl_addChar {handle : Int} {before : List UInt8} {aux : VhprintfAux}
    (holds : aux.Holds handle before) (few : (before ++ characters).length < 2 ^ 31) :
    (characters.foldl addChar aux).Holds handle (before ++ characters) := by
  induction characters generalizing before aux with
  | nil =>
      rw [List.append_nil]
      exact holds
  | cons c characters inductionHypothesis =>
      have whole : before ++ c :: characters = (before ++ [c]) ++ characters := by
        rw [List.append_assoc]
        rfl
      rw [whole] at few ⊢
      have one : before.length + 1 < 2 ^ 31 := by
        rw [List.length_append, List.length_append, List.length_singleton] at few
        omega
      exact inductionHypothesis (addChar_holds c holds one) few

/-- What is asked of `vhprintf`. -/
def WritesFile (floating : Floating) (memory : Memory) (handle : Int) (format : List UInt8)
    (args : List (BitVec 32)) (characters : List UInt8) : Prop :=
  ∃ writes, vhprintf floating memory handle format args = .ok (characters.length, writes) ∧
    (writes.map Prod.snd).flatten = characters ∧
      ∀ write ∈ writes, write.1 = handle ∧ write.2 ≠ [] ∧ write.2.length ≤ vhprintfBuf

theorem vhprintf_writes {floating : Floating} {memory : Memory} {format : List UInt8}
    {args : List (BitVec 32)} (handle : Int)
    (rendered : vprintfAny floating memory format args = .ok characters)
    (few : characters.length < 2 ^ 31) :
    WritesFile floating memory handle format args characters := by
  have empty : 0 < vhprintfBuf := by decide
  have start : ({ handle := handle } : VhprintfAux).Holds handle [] :=
    ⟨rfl, rfl, empty, rfl, fun write none => absurd none List.not_mem_nil⟩
  have holds := foldl_addChar start few
  rw [List.nil_append] at holds
  rcases VhprintfAux.flush_writes holds.sameHandle holds.bytes (Nat.le_of_lt holds.room)
    holds.writes with ⟨bytes, writes⟩
  refine ⟨_, ?_, bytes, writes⟩
  unfold vhprintf vprintfWith
  rw [rendered, ← holds.count]
  rfl

end Files

/-! ## The console of the kernel -/

/-- `char_cnt` of `vprintf`, and what has been passed to `putchar_have_lock`. -/
structure ConsoleAux where
  charCnt : Int := 0
  printed : List UInt8 := []

/-- `vprintf_helper`. -/
def vprintfHelper (aux : ConsoleAux) (c : UInt8) : ConsoleAux where
  charCnt := wrapSigned (aux.charCnt + 1)
  printed := aux.printed ++ [c]

/-- `vprintf` of the kernel: what it returns, and what it prints. -/
def kernelVprintf (floating : Floating) (memory : Memory) (format : List UInt8)
    (args : List (BitVec 32)) : Except PrintfFault (Int × List UInt8) := do
  let aux ← vprintfWith floating memory format args vprintfHelper {}
  return (aux.charCnt, aux.printed)

section Consoles

variable {characters : List UInt8}

theorem foldl_vprintfHelper (before characters : List UInt8)
    (few : (before ++ characters).length < 2 ^ 31) :
    characters.foldl vprintfHelper ⟨before.length, before⟩ =
      ⟨(before ++ characters).length, before ++ characters⟩ := by
  induction characters generalizing before with
  | nil => rw [List.append_nil, List.foldl_nil]
  | cons c characters inductionHypothesis =>
      have whole : before ++ c :: characters = (before ++ [c]) ++ characters := by
        rw [List.append_assoc]
        rfl
      rw [whole] at few ⊢
      have count : wrapSigned ((before.length : Int) + 1) = (before ++ [c]).length := by
        rw [List.length_append, List.length_append, List.length_singleton] at few
        rw [List.length_append, List.length_singleton, wrapSigned_of_lt (by omega) (by omega)]
        omega
      rw [List.foldl_cons, vprintfHelper, count]
      exact inductionHypothesis (before ++ [c]) few

/-- What is asked of `vprintf`. -/
def PrintsConsole (floating : Floating) (memory : Memory) (format : List UInt8)
    (args : List (BitVec 32)) (characters : List UInt8) : Prop :=
  kernelVprintf floating memory format args = .ok (characters.length, characters)

theorem kernelVprintf_prints {floating : Floating} {memory : Memory} {format : List UInt8}
    {args : List (BitVec 32)} (rendered : vprintfAny floating memory format args = .ok characters)
    (few : characters.length < 2 ^ 31) :
    PrintsConsole floating memory format args characters := by
  have printed := foldl_vprintfHelper [] characters few
  rw [List.nil_append] at printed
  unfold PrintsConsole kernelVprintf vprintfWith
  rw [rendered]
  dsimp only [bind, Except.bind, pure, Except.pure]
  exact congrArg (fun aux : ConsoleAux => Except.ok (aux.charCnt, aux.printed)) printed

end Consoles

/-! ## The three agree -/

/-- The three sinks of the same characters. -/
structure SinksAgree (floating : Floating) (memory : Memory) (buffer bufSize : Nat)
    (handle : Int) (format : List UInt8) (args : List (BitVec 32))
    (characters : List UInt8) : Prop where
  stores : StoresString floating memory buffer bufSize format args characters
  writes : WritesFile floating memory handle format args characters
  prints : PrintsConsole floating memory format args characters

/-- The sinks agree if and only if the size of the buffer is no greater than `2 ^ 31`, or
a null byte at its start makes it hold the string. -/
theorem sinks_agree_iff (floating : Floating) (memory : Memory) (buffer bufSize : Nat)
    (handle : Int) (format : List UInt8) (args : List (BitVec 32)) (characters : List UInt8)
    (size : bufSize < unsignedModulus)
    (rendered : vprintfAny floating memory format args = .ok characters)
    (few : characters.length < 2 ^ 31) :
    SinksAgree floating memory buffer bufSize handle format args characters ↔
      bufSize ≤ 2 ^ 31 ∨ writeBytes memory buffer [0] =
        writeBytes memory buffer (characters.take (bufSize - 1) ++ [0]) := by
  have stores := @vsnprintf_stores_iff memory buffer characters floating bufSize format args
    size rendered few
  constructor
  · intro agree
    exact stores.mp agree.stores
  · intro condition
    exact ⟨stores.mpr condition, vhprintf_writes handle rendered few,
      kernelVprintf_prints rendered few⟩

/-- Null bytes. -/
def blankMemory : Memory := fun _ => 0

/-- The format `"a"`. -/
theorem vprintfAny_letter : vprintfAny noFloating blankMemory [97, 0] [] = .ok [97] := by
  unfold vprintfAny
  rw [formatLoop_literal (by decide) (by decide), formatLoop_null]
  rfl

theorem sinks_agree_iff_letter : SinksAgree noFloating blankMemory 100 2 1 [97, 0] [] [97] :=
  (sinks_agree_iff noFloating blankMemory 100 2 1 [97, 0] [] [97] (by decide)
    vprintfAny_letter (by decide)).mpr (Or.inl (by decide))

/-- A size of `2 ^ 31 + 1` bytes leaves no room for a character. -/
theorem sinks_disagree : ¬SinksAgree noFloating blankMemory 100 2147483649 1 [97, 0] [] [97] := by
  intro agree
  have run := @vsnprintf_of_lt blankMemory 100 [97] noFloating 2147483649 [97, 0] []
    (by decide) (by decide) vprintfAny_letter (by decide)
  have stored := agree.stores
  unfold StoresString at stored
  rw [run, if_neg (by decide), Except.ok.injEq, Prod.mk.injEq] at stored
  have byte := congrFun stored.2 100
  have nothing : writeBytes blankMemory 100 [0] 100 = 0 := rfl
  have letter : ([97] : List UInt8).take (2147483649 - 1) = [97] :=
    List.take_of_length_le (by decide)
  have something : writeBytes blankMemory 100 ([97] ++ [0]) 100 = 97 := rfl
  rw [letter, nothing, something] at byte
  exact absurd byte (by decide)

end CS162.Lib
