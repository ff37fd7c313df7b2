import CS162.Foundation.Unsigned

/-!
# Byte-addressed memory

Words are 32 bits wide and stored with the low byte first.
-/

namespace CS162.Foundation

/-- The contents of memory, or of a disk. -/
def Memory : Type := Nat → UInt8

/-- Two ranges of addresses, each given by its first address and the address
after its last, have no address in common. -/
def Apart (start stop otherStart otherStop : Nat) : Prop := stop ≤ otherStart ∨ otherStop ≤ start

instance (start stop otherStart otherStop : Nat) :
    Decidable (Apart start stop otherStart otherStop) :=
  inferInstanceAs (Decidable (_ ∨ _))

theorem Apart.symm {start stop otherStart otherStop : Nat}
    (apart : Apart start stop otherStart otherStop) :
    Apart otherStart otherStop start stop :=
  Or.symm apart

namespace Memory

/-- The memories agree on a range of addresses. -/
def AgreeOn (left right : Memory) (start stop : Nat) : Prop :=
  ∀ address, start ≤ address → address < stop → left address = right address

/-- One byte of a word. -/
def byteOf (value index : Nat) : UInt8 := UInt8.ofNat (value / 256 ^ index)

/-- The word at an address. -/
def load32 (memory : Memory) (address : Nat) : Nat :=
  (memory address).toNat + 256 * (memory (address + 1)).toNat +
    65536 * (memory (address + 2)).toNat + 16777216 * (memory (address + 3)).toNat

/-- The memory after a word has been stored at an address. -/
def store32 (memory : Memory) (address value : Nat) : Memory := fun other =>
  if address ≤ other ∧ other < address + 4 then
    byteOf value (other - address)
  else memory other

/-- `memset`. -/
def fill (memory : Memory) (start size : Nat) (value : UInt8) : Memory :=
  fun other =>
    if start ≤ other ∧ other < start + size then value else memory other

/-- `memcpy`, where no byte of the source is written before it is read. -/
def copy (memory : Memory) (target source size : Nat) : Memory :=
  fun other =>
    if target ≤ other ∧ other < target + size then
      memory (source + (other - target))
    else memory other

/-- The memory after the first bytes of a buffer have been copied to it. -/
def splice (memory : Memory) (start size : Nat) (buffer : Memory) : Memory :=
  fun other =>
    if start ≤ other ∧ other < start + size then buffer (other - start)
    else memory other

/-- The memory that starts at an address. -/
def drop (memory : Memory) (start : Nat) : Memory := fun offset => memory (start + offset)

section Words

variable {memory other : Memory} {address place value : Nat}

theorem AgreeOn.mono {start stop innerStart innerStop : Nat}
    (agree : memory.AgreeOn other start stop)
    (first : start ≤ innerStart) (last : innerStop ≤ stop) :
    memory.AgreeOn other innerStart innerStop := by
  intro place lower upper
  exact agree place (first.trans lower) (Nat.lt_of_lt_of_le upper last)

theorem AgreeOn.trans {third : Memory} {start stop : Nat}
    (first : memory.AgreeOn other start stop) (second : other.AgreeOn third start stop) :
    memory.AgreeOn third start stop := by
  intro place lower upper
  exact (first place lower upper).trans (second place lower upper)

theorem AgreeOn.load32_eq
    (agree : memory.AgreeOn other address (address + 4)) :
    memory.load32 address = other.load32 address := by
  have first := agree address (by omega) (by omega)
  have second := agree (address + 1) (by omega) (by omega)
  have third := agree (address + 2) (by omega) (by omega)
  have fourth := agree (address + 3) (by omega) (by omega)
  rw [load32, load32, first, second, third, fourth]

theorem load32_lt (memory : Memory) (address : Nat) : memory.load32 address < unsignedModulus := by
  have first := (memory address).toNat_lt
  have second := (memory (address + 1)).toNat_lt
  have third := (memory (address + 2)).toNat_lt
  have fourth := (memory (address + 3)).toNat_lt
  unfold load32 unsignedModulus
  omega

/-- The bytes of a stored word make up the word. -/
theorem load32_store32 (small : value < unsignedModulus) :
    (memory.store32 address value).load32 address = value := by
  have byte :
      ∀ index, index < 4 →
        (memory.store32 address value (address + index)).toNat = value / 256 ^ index % 256 := by
    intro index inWord
    rw [store32, if_pos (by omega), Nat.add_sub_cancel_left, byteOf, UInt8.toNat_ofNat']
  have first := byte 0 (by omega)
  have second := byte 1 (by omega)
  have third := byte 2 (by omega)
  have fourth := byte 3 (by omega)
  unfold unsignedModulus at small
  simp only [Nat.add_zero, Nat.pow_zero, Nat.div_one, Nat.reducePow]
    at first second third fourth
  rw [load32, first, second, third, fourth]
  omega

theorem store32_agreeOn {start stop : Nat} (outside : Apart start stop address (address + 4)) :
    (memory.store32 address value).AgreeOn memory start stop := by
  intro place lower upper
  unfold Apart at outside
  rw [store32, if_neg (by omega)]

theorem load32_store32_of_apart
    (outside : Apart place (place + 4) address (address + 4)) :
    (memory.store32 address value).load32 place = memory.load32 place :=
  (store32_agreeOn outside).load32_eq

theorem fill_agreeOn {start size lower upper : Nat} {byte : UInt8}
    (outside : Apart lower upper start (start + size)) :
    (memory.fill start size byte).AgreeOn memory lower upper := by
  intro place first last
  unfold Apart at outside
  rw [fill, if_neg (by omega)]

theorem copy_agreeOn {target source size lower upper : Nat}
    (outside : Apart lower upper target (target + size)) :
    (memory.copy target source size).AgreeOn memory lower upper := by
  intro place first last
  unfold Apart at outside
  rw [copy, if_neg (by omega)]

end Words

section Splice

variable {memory buffer : Memory} {start size : Nat}

theorem splice_agreeOn {lower upper : Nat} (outside : Apart lower upper start (start + size)) :
    (memory.splice start size buffer).AgreeOn memory lower upper := by
  intro place first last
  unfold Apart at outside
  rw [splice, if_neg (by omega)]

theorem splice_apply_add {offset : Nat} (inside : offset < size) :
    memory.splice start size buffer (start + offset) = buffer offset := by
  rw [splice, if_pos (by omega), Nat.add_sub_cancel_left]

/-- A buffer after bytes have been read to its front. -/
theorem splice_zero_agreeOn (memory buffer : Memory) (size : Nat) :
    (memory.splice 0 size buffer).AgreeOn buffer 0 size := by
  intro place lower upper
  have here : memory.splice 0 size buffer (0 + place) = buffer place := splice_apply_add upper
  rw [Nat.zero_add] at here
  exact here

theorem splice_zero (memory buffer : Memory) (start : Nat) :
    memory.splice start 0 buffer = memory := by
  funext place
  rw [splice, if_neg (by omega)]

/-- Only the bytes that are copied matter. -/
theorem splice_congr {other : Memory} (same : ∀ offset < size, buffer offset = other offset) :
    memory.splice start size buffer = memory.splice start size other := by
  funext place
  rw [splice, splice]
  by_cases inside : start ≤ place ∧ place < start + size
  · rw [if_pos inside, if_pos inside, same _ (by omega)]
  · rw [if_neg inside, if_neg inside]

/-- Copying in two parts. -/
theorem splice_splice (memory buffer : Memory) (start first second : Nat) :
    (memory.splice start first buffer).splice (start + first) second
        (buffer.drop first) =
      memory.splice start (first + second) buffer := by
  funext place
  unfold splice drop
  by_cases inSecond : start + first ≤ place ∧ place < start + first + second
  · rw [if_pos inSecond, if_pos (by omega)]
    congr 1
    omega
  · rw [if_neg inSecond]
    by_cases inFirst : start ≤ place ∧ place < start + first
    · rw [if_pos inFirst, if_pos (by omega)]
    · rw [if_neg inFirst, if_neg (by omega)]

/-- A block is read, changed in part and written back. -/
theorem splice_splice_drop (memory buffer : Memory)
    {start size inner part : Nat} (inside : inner + part ≤ size) :
    memory.splice start size ((memory.drop start).splice inner part buffer) =
      memory.splice (start + inner) part buffer := by
  funext place
  unfold splice drop
  by_cases changed : start + inner ≤ place ∧ place < start + inner + part
  · rw [if_pos (by omega), if_pos (by omega), if_pos changed]
    congr 1
    omega
  · rw [if_neg changed]
    by_cases inBlock : start ≤ place ∧ place < start + size
    · rw [if_pos inBlock, if_neg (by omega)]
      congr 1
      omega
    · rw [if_neg inBlock]

theorem drop_drop (memory : Memory) (first second : Nat) :
    (memory.drop first).drop second = memory.drop (first + second) := by
  funext place
  unfold drop
  rw [Nat.add_assoc]

end Splice

end Memory

end CS162.Foundation
