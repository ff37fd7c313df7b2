import Mathlib.Data.List.Basic

/-!
# Descriptor tables

A table gives numbers to what is open.  The number of something new is the lowest one
that is free.
-/

namespace CS162.Foundation

universe u

/-- What is open, by its number. -/
structure DescriptorTable (Entry : Type u) where
  slots : List (Option Entry)
  deriving DecidableEq

namespace DescriptorTable

variable {Entry : Type u}

/-- What a descriptor refers to; a negative one refers to nothing. -/
def entry (table : DescriptorTable Entry) (descriptor : Int) : Option Entry :=
  if 0 ≤ descriptor then (table.slots[descriptor.toNat]?).join else none

/-- A descriptor is in use. -/
def IsOpen (table : DescriptorTable Entry) (descriptor : Int) : Prop :=
  (table.entry descriptor).isSome = true

instance (table : DescriptorTable Entry) (descriptor : Int) : Decidable (table.IsOpen descriptor) :=
  inferInstanceAs (Decidable (_ = true))

/-- The lowest number that is free. -/
def lowest (table : DescriptorTable Entry) : Nat := table.slots.findIdx Option.isNone

/-- A descriptor refers to something else, or to nothing. -/
def put (table : DescriptorTable Entry) (number : Nat) (entry : Option Entry) :
    DescriptorTable Entry :=
  ⟨(table.slots ++ List.replicate (number + 1 - table.slots.length) none).set number entry⟩

/-- Something is opened. -/
def allocate (table : DescriptorTable Entry) (entry : Entry) : Nat × DescriptorTable Entry :=
  (table.lowest, table.put table.lowest (some entry))

/-- `close`; nothing happens if the descriptor is not in use. -/
def close (table : DescriptorTable Entry) (descriptor : Int) : DescriptorTable Entry :=
  if (table.entry descriptor).isSome then table.put descriptor.toNat none else table

/-- What the descriptors refer to is changed one by one. -/
def map (change : Entry → Option Entry) (table : DescriptorTable Entry) : DescriptorTable Entry :=
  ⟨table.slots.map fun slot => slot.bind change⟩

variable {table : DescriptorTable Entry}

theorem entry_of_neg {descriptor : Int} (negative : descriptor < 0) :
    table.entry descriptor = none := by
  rw [entry, if_neg (by omega)]

theorem entry_natCast (number : Nat) : table.entry number = (table.slots[number]?).join := by
  rw [entry, if_pos (Int.natCast_nonneg number), Int.toNat_natCast]

theorem nonneg_of_entry {descriptor : Int} {e : Entry}
    (known : table.entry descriptor = some e) : 0 ≤ descriptor := by
  by_cases negative : descriptor < 0
  · rw [entry_of_neg negative] at known
    cases known
  · omega

theorem isOpen_of_entry {descriptor : Int} {e : Entry}
    (known : table.entry descriptor = some e) : table.IsOpen descriptor := by
  rw [IsOpen, known]
  rfl

/-- A free number refers to nothing. -/
theorem entry_lowest : table.entry table.lowest = none := by
  rw [entry_natCast]
  by_cases inside : table.lowest < table.slots.length
  · have free : (table.slots[table.lowest]).isNone = true :=
      List.findIdx_getElem
    rw [List.getElem?_eq_getElem inside, Option.isNone_iff_eq_none.mp free]
    rfl
  · rw [List.getElem?_eq_none (Nat.not_lt.mp inside)]
    rfl

/-- One number refers to something else and the others stay as they are. -/
theorem entry_put (number : Nat) (e : Option Entry) (descriptor : Int) :
    (table.put number e).entry descriptor =
      if descriptor = number then e else table.entry descriptor := by
  by_cases negative : descriptor < 0
  · rw [entry_of_neg negative, entry_of_neg negative, if_neg (by omega)]
  · obtain ⟨n, rfl⟩ := Int.eq_ofNat_of_zero_le (Int.not_lt.mp negative)
    rw [entry_natCast, entry_natCast]
    by_cases same : n = number
    · have inside : number < (table.slots ++
          List.replicate (number + 1 - table.slots.length) none).length := by
        rw [List.length_append, List.length_replicate]
        omega
      rw [if_pos (by rw [same]), same, put, List.getElem?_set_self inside]
      rfl
    · rw [if_neg (by omega), put, List.getElem?_set_ne (Ne.symm same), List.getElem?_append]
      by_cases inside : n < table.slots.length
      · rw [if_pos inside]
      · rw [if_neg inside, List.getElem?_eq_none (Nat.not_lt.mp inside)]
        rw [List.getElem?_replicate]
        split <;> rfl

/-- What is opened gets a number that was free. -/
theorem entry_allocate (e : Entry) (descriptor : Int) :
    (table.allocate e).2.entry descriptor = if descriptor = (table.allocate e).1 then some e
      else table.entry descriptor :=
  entry_put _ _ _

theorem entry_allocate_free (e : Entry) : table.entry (table.allocate e).1 = none := entry_lowest

/-- A descriptor that is closed refers to nothing afterwards. -/
theorem entry_close (closed descriptor : Int) :
    (table.close closed).entry descriptor =
      if descriptor = closed then none else table.entry descriptor := by
  unfold close
  by_cases used : (table.entry closed).isSome = true
  · rcases Option.isSome_iff_exists.mp used with ⟨e, known⟩
    have nonneg := nonneg_of_entry known
    rw [if_pos used, entry_put, Int.toNat_of_nonneg nonneg]
  · rw [if_neg used]
    by_cases same : descriptor = closed
    · rw [if_pos same, same]
      exact Option.not_isSome_iff_eq_none.mp used
    · rw [if_neg same]

theorem entry_map (change : Entry → Option Entry) (descriptor : Int) :
    (table.map change).entry descriptor = (table.entry descriptor).bind change := by
  by_cases negative : descriptor < 0
  · rw [entry_of_neg negative, entry_of_neg negative]
    rfl
  · obtain ⟨n, rfl⟩ := Int.eq_ofNat_of_zero_le (Int.not_lt.mp negative)
    rw [entry_natCast, entry_natCast]
    unfold map
    rw [List.getElem?_map]
    cases table.slots[n]? <;> rfl

end DescriptorTable

end CS162.Foundation
