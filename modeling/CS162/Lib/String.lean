import CS162.Foundation.Memory

/-!
# Copying memory

`memmove` of `lib/string.c`.  Addresses have 32 bits.
-/

namespace CS162.Lib

open CS162.Foundation

/-- `*address = value`. -/
def storeByte (memory : Memory) (address : Nat) (value : UInt8) : Memory := fun other =>
  if other = address then value else memory other

@[simp] theorem storeByte_self (memory : Memory) (address : Nat) (value : UInt8) :
    storeByte memory address value address = value :=
  if_pos rfl

theorem storeByte_of_ne {memory : Memory} {address other : Nat} {value : UInt8}
    (different : other ≠ address) :
    storeByte memory address value other = memory other :=
  if_neg different

/-- `p++`. -/
def nextByte (p : Nat) : Nat := wrap (p + 1)

/-- `--p`. -/
def previousByte (p : Nat) : Nat := wrap (p + (unsignedModulus - 1))

/-- The loop that begins with the first byte; it returns the pointer that it has
moved. -/
def moveUp (memory : Memory) (dst src : Nat) : Nat → Memory × Nat
  | 0 => (memory, dst)
  | size + 1 =>
      moveUp (storeByte memory dst (memory src)) (nextByte dst) (nextByte src) size

/-- The loop that begins with the last byte. -/
def moveDown (memory : Memory) (dst src : Nat) : Nat → Memory × Nat
  | 0 => (memory, dst)
  | size + 1 =>
      let dst := previousByte dst
      let src := previousByte src
      moveDown (storeByte memory dst (memory src)) dst src size

/-- `memmove`, or a failed assertion. -/
def memmove (memory : Memory) (dst src size : Nat) : Option (Memory × Nat) :=
  if (dst ≠ 0 ∨ size = 0) ∧ (src ≠ 0 ∨ size = 0) then
    some (if dst < src then moveUp memory dst src size
      else moveDown memory (wrap (dst + size)) (wrap (src + size)) size)
  else none

/-- A range of addresses that may be used. -/
structure Addressable (start size : Nat) : Prop where
  small : start < unsignedModulus
  inside : start + size ≤ unsignedModulus
  nonnull : start ≠ 0 ∨ size = 0

/-- `memmove` copies the old bytes, changes nothing else and returns its first
argument. -/
def Moves (memory : Memory) (dst src size : Nat) : Prop :=
  ∃ after, memmove memory dst src size = some (after, dst) ∧
    (∀ i, i < size → after (dst + i) = memory (src + i)) ∧
      ∀ other, ¬(dst ≤ other ∧ other < dst + size) → after other = memory other

section Loops

variable {memory : Memory} {dst src size : Nat}

theorem wrap_wrap_add (value more : Nat) : wrap (wrap value + more) = wrap (value + more) :=
  Nat.mod_add_mod value unsignedModulus more

/-- The first byte is copied first. -/
theorem copy_first (below : dst < src) :
    Memory.copy (storeByte memory dst (memory src)) (dst + 1) (src + 1) size =
      memory.copy dst src (size + 1) := by
  funext other
  unfold Memory.copy
  by_cases first : other = dst
  · rw [if_neg (by omega), if_pos (by omega), first, storeByte_self, Nat.sub_self, Nat.add_zero]
  · by_cases rest : dst + 1 ≤ other ∧ other < dst + 1 + size
    · have same : src + 1 + (other - (dst + 1)) = src + (other - dst) := by omega
      rw [if_pos rest, if_pos (by omega), same, storeByte_of_ne (by omega)]
    · rw [if_neg rest, if_neg (by omega), storeByte_of_ne first]

/-- The last byte is copied first. -/
theorem copy_last (above : src ≤ dst) :
    Memory.copy (storeByte memory (dst + size) (memory (src + size))) dst src size =
      memory.copy dst src (size + 1) := by
  funext other
  unfold Memory.copy
  by_cases last : other = dst + size
  · have offset : other - dst = size := by omega
    rw [if_neg (by omega), if_pos (by omega), last, storeByte_self, ← last, offset]
  · by_cases rest : dst ≤ other ∧ other < dst + size
    · rw [if_pos rest, if_pos (by omega), storeByte_of_ne (by omega)]
    · rw [if_neg rest, if_neg (by omega), storeByte_of_ne last]

/-- The bytes that are still to be copied have not been overwritten. -/
theorem moveUp_eq (below : dst < src) (dstInside : dst + size ≤ unsignedModulus)
    (srcInside : src + size ≤ unsignedModulus) :
    moveUp memory (wrap dst) (wrap src) size = (memory.copy dst src size, wrap (dst + size)) := by
  induction size generalizing memory dst src with
  | zero =>
      have none : memory.copy dst src 0 = memory := by
        funext other
        rw [Memory.copy, if_neg (by omega)]
      rw [none]
      rfl
  | succ size inductionHypothesis =>
      have dstHere : wrap dst = dst := wrap_of_lt (by omega)
      have srcHere : wrap src = src := wrap_of_lt (by omega)
      have later := @inductionHypothesis (storeByte memory dst (memory src))
        (dst + 1) (src + 1) (by omega) (by omega) (by omega)
      rw [moveUp, nextByte, nextByte, wrap_wrap_add, wrap_wrap_add, dstHere, srcHere,
        later, copy_first below, Nat.add_assoc, Nat.add_comm 1 size]

theorem moveDown_eq (above : src ≤ dst) (dstInside : dst + size ≤ unsignedModulus) :
    moveDown memory (wrap (dst + size)) (wrap (src + size)) size =
      (memory.copy dst src size, wrap dst) := by
  induction size generalizing memory with
  | zero =>
      have none : memory.copy dst src 0 = memory := by
        funext other
        rw [Memory.copy, if_neg (by omega)]
      rw [none]
      rfl
  | succ size inductionHypothesis =>
      have previous (p : Nat) : previousByte (wrap (p + (size + 1))) = wrap (p + size) := by
        have whole : p + (size + 1) + (unsignedModulus - 1) = p + size + unsignedModulus := by
          unfold unsignedModulus
          omega
        rw [previousByte, wrap_wrap_add, whole]
        exact Nat.add_mod_right (p + size) unsignedModulus
      have dstHere : wrap (dst + size) = dst + size := wrap_of_lt (by omega)
      have srcHere : wrap (src + size) = src + size := wrap_of_lt (by omega)
      have later := @inductionHypothesis
        (storeByte memory (dst + size) (memory (src + size))) (by omega)
      rw [dstHere, srcHere] at later
      rw [moveDown, previous, previous, dstHere, srcHere, later, copy_last above]

end Loops

section Moves

variable {dst src size : Nat}

/-- What `memmove` leaves in memory, and the pointer that it returns. -/
theorem memmove_eq (memory : Memory) (target : Addressable dst size)
    (source : Addressable src size) :
    memmove memory dst src size = some (memory.copy dst src size,
        if dst < src then wrap (dst + size) else dst) := by
  have dstHere : wrap dst = dst := wrap_of_lt target.small
  have srcHere : wrap src = src := wrap_of_lt source.small
  rw [memmove, if_pos ⟨target.nonnull, source.nonnull⟩]
  by_cases below : dst < src
  · have moved := @moveUp_eq memory dst src size below target.inside source.inside
    rw [dstHere, srcHere] at moved
    rw [if_pos below, if_pos below, moved]
  · have moved := @moveDown_eq memory dst src size (by omega) target.inside
    rw [if_neg below, if_neg below, moved, dstHere]

/-- The bytes are copied in every case; the pointer that is returned is the first
argument if the loop runs downwards or does not run. -/
theorem memmove_moves_iff (memory : Memory) (target : Addressable dst size)
    (source : Addressable src size) :
    Moves memory dst src size ↔ src ≤ dst ∨ size = 0 := by
  have result := memmove_eq memory target source
  constructor
  · intro ⟨after, moved, _, _⟩
    rw [result, Option.some.injEq, Prod.mk.injEq] at moved
    have returned := moved.2
    by_cases below : dst < src
    · rw [if_pos below] at returned
      have inside := target.inside
      have small := target.small
      by_cases whole : dst + size = unsignedModulus
      · have zero : wrap unsignedModulus = 0 := by decide
        rw [whole, zero] at returned
        have nonnull := target.nonnull
        omega
      · rw [wrap_of_lt (by omega)] at returned
        omega
    · omega
  · intro returns
    have pointer : (if dst < src then wrap (dst + size) else dst) = dst := by
      by_cases below : dst < src
      · have none : size = 0 := by omega
        rw [if_pos below, none, Nat.add_zero, wrap_of_lt target.small]
      · rw [if_neg below]
    rw [pointer] at result
    refine ⟨_, result, ?_, ?_⟩
    · intro i inside
      rw [Memory.copy, if_pos (by omega), Nat.add_sub_cancel_left]
    · intro other outside
      rw [Memory.copy, if_neg outside]

/-- Four bytes move up by one. -/
theorem memmove_moves_iff_up : Moves (fun address => UInt8.ofNat address) 101 100 4 :=
  (memmove_moves_iff _ ⟨by decide, by decide, by decide⟩
    ⟨by decide, by decide, by decide⟩).mpr (Or.inl (by decide))

/-- One byte moves down, and the address behind it is returned. -/
theorem memmove_not_moves : ¬Moves (fun _ => 0) 100 101 1 := by
  intro ⟨after, moved, _⟩
  have returned : (memmove (fun _ => 0) 100 101 1).map Prod.snd = some 101 := by decide
  rw [moved] at returned
  cases returned

end Moves

end CS162.Lib
