import CS162.Lib.Ustar

/-!
# Octal fields

`parse_octal_field` of `lib/ustar.c` with every access that it makes: the bytes
that it reads of its field and the values that it stores.  An `unsigned long` has
32 bits.
-/

namespace CS162.Lib

open CS162.Foundation

/-- A call of `parse_octal_field`: `*value`, all that has been stored there, and the
offsets that have been read. -/
structure OctalRun where
  value : Nat
  stores : List Nat
  reads : List Nat

/-- `*value = number` -/
def OctalRun.store (run : OctalRun) (number : Nat) : OctalRun where
  value := number
  stores := run.stores ++ [number]
  reads := run.reads

/-- `s[ofs]` -/
def OctalRun.read (run : OctalRun) (ofs : Nat) : OctalRun where
  value := run.value
  stores := run.stores
  reads := run.reads ++ [ofs]

/-- A digit of an octal number. -/
def IsOctalDigit (c : UInt8) : Prop := 48 ≤ c.toNat ∧ c.toNat ≤ 55

instance (c : UInt8) : Decidable (IsOctalDigit c) := inferInstanceAs (Decidable (_ ∧ _))

/-- The loop of `parse_octal_field`, with what it returns. -/
def octalLoop (s : Memory) (size ofs : Nat) (run : OctalRun) : Bool × OctalRun :=
  if ofs < size then
    if IsOctalDigit (s ofs) then
      if ulongMax / 8 < run.value then (false, run.read ofs)
      else
        octalLoop s size (ofs + 1) ((run.read ofs).store
          (wrap ((s ofs).toNat - 48 + wrap (run.value * 8))))
    else if s ofs = 32 ∨ s ofs = 0 then (decide (0 < ofs), run.read ofs)
    else (false, run.read ofs)
  else (false, run)
termination_by size - ofs

/-- `parse_octal_field`. -/
def parseOctal (s : Memory) (size : Nat) : Bool × OctalRun :=
  octalLoop s size 0 { value := 0, stores := [0], reads := [] }

/-! ## The number in a field -/

/-- The number that the first digits denote. -/
def octalValue (s : Memory) (count : Nat) : Nat :=
  horner 8 0 ((List.range count).map fun ofs => (s ofs).toNat - 48)

/-- The field has this many digits, and then a blank or a null byte. -/
structure OctalField (s : Memory) (size count : Nat) : Prop where
  positive : 0 < count
  inside : count < size
  digits : ∀ ofs, ofs < count → IsOctalDigit (s ofs)
  ended : s count = 32 ∨ s count = 0

section Values

variable {s : Memory} {size count ofs : Nat}

theorem octalValue_succ (s : Memory) (count : Nat) :
    octalValue s (count + 1) = octalValue s count * 8 + ((s count).toNat - 48) := by
  rw [octalValue, List.range_succ, List.map_append, horner_append]
  rfl

theorem octalValue_mono {later : Nat} (before : count ≤ later) :
    octalValue s count ≤ octalValue s later := by
  induction before with
  | refl => exact Nat.le_refl _
  | step _ inductionHypothesis =>
      rw [octalValue_succ]
      omega

theorem OctalField.not_digit (field : OctalField s size count) : ¬IsOctalDigit (s count) := by
  intro digit
  rcases field.ended with blank | null
  · rw [blank] at digit
    exact absurd digit (by decide)
  · rw [null] at digit
    exact absurd digit (by decide)

/-- Digits in front of an offset are digits of the field. -/
theorem OctalField.le (field : OctalField s size count)
    (digits : ∀ before, before < ofs → IsOctalDigit (s before)) : ofs ≤ count := by
  by_contra beyond
  exact field.not_digit (digits count (by omega))

/-- The digits of a field go on as long as there are digits. -/
theorem OctalField.lt (field : OctalField s size count)
    (digits : ∀ before, before < ofs → IsOctalDigit (s before))
    (digit : IsOctalDigit (s ofs)) : ofs < count := by
  apply field.le
  intro before within
  by_cases last : before = ofs
  · rw [last]
    exact digit
  · exact digits before (by omega)

/-- The digits of a field end where there is no digit. -/
theorem OctalField.eq (field : OctalField s size count)
    (digits : ∀ before, before < ofs → IsOctalDigit (s before))
    (other : ¬IsOctalDigit (s ofs)) : ofs = count := by
  apply Nat.le_antisymm (field.le digits)
  by_contra before
  exact other (field.digits ofs (by omega))

end Values

/-! ## The loop -/

/-- A run that has passed some digits: what it has stored are the numbers that they
denote, one digit after the other. -/
structure OctalSound (s : Memory) (size ofs : Nat) (run : OctalRun) : Prop where
  inside : ofs ≤ size
  digits : ∀ before, before < ofs → IsOctalDigit (s before)
  value : run.value = octalValue s ofs
  small : octalValue s ofs < unsignedModulus
  stores : run.stores = (List.range (ofs + 1)).map (octalValue s)
  reads : ∀ place ∈ run.reads, place < size

/-- What `parse_octal_field` promises of a return value and a run. -/
structure OctalSpec (s : Memory) (size : Nat) (result : Bool × OctalRun) : Prop where
  accepted : result.1 = true ↔ ∃ count, OctalField s size count ∧ octalValue s count < 2 ^ 32
  value : ∀ count, OctalField s size count → result.1 = true → result.2.value = octalValue s count
  reads : ∀ place ∈ result.2.reads, place < size
  stores : ∃ count, octalValue s count < 2 ^ 32 ∧
    result.2.stores = (List.range (count + 1)).map (octalValue s)

namespace OctalSound

variable {s : Memory} {size ofs : Nat} {run : OctalRun}

theorem start (s : Memory) (size : Nat) :
    OctalSound s size 0 { value := 0, stores := [0], reads := [] } where
  inside := Nat.zero_le size
  digits := fun before within => absurd within (Nat.not_lt_zero before)
  value := rfl
  small := Nat.two_pow_pos 32
  stores := rfl
  reads := fun _ member => absurd member List.not_mem_nil

theorem read (sound : OctalSound s size ofs run) (inside : ofs < size) :
    ∀ place ∈ (run.read ofs).reads, place < size := by
  intro place member
  rcases List.mem_append.mp member with before | here
  · exact sound.reads place before
  · rw [List.mem_singleton.mp here]
    exact inside

/-- The test lets exactly those digits pass that leave the number below 2^32. -/
theorem room_iff (sound : OctalSound s size ofs run) (digit : IsOctalDigit (s ofs)) :
    ¬ulongMax / 8 < run.value ↔ octalValue s (ofs + 1) < unsignedModulus := by
  rcases digit with ⟨_, most⟩
  rw [octalValue_succ, sound.value, ulongMax, unsignedModulus]
  omega

/-- Nothing is lost when a digit is stored. -/
theorem stored_eq (sound : OctalSound s size ofs run) (digit : IsOctalDigit (s ofs))
    (room : ¬ulongMax / 8 < run.value) :
    wrap ((s ofs).toNat - 48 + wrap (run.value * 8)) = octalValue s (ofs + 1) := by
  have small := (sound.room_iff digit).mp room
  rw [octalValue_succ, ← sound.value] at small
  have product : wrap (run.value * 8) = run.value * 8 := wrap_of_lt (by omega)
  rw [product, Nat.add_comm, wrap_of_lt small, octalValue_succ, ← sound.value]

theorem next (sound : OctalSound s size ofs run) (inside : ofs < size)
    (digit : IsOctalDigit (s ofs)) (room : ¬ulongMax / 8 < run.value) :
    OctalSound s size (ofs + 1) ((run.read ofs).store
      (wrap ((s ofs).toNat - 48 + wrap (run.value * 8)))) := by
  have stored := sound.stored_eq digit room
  constructor
  · exact inside
  · intro before within
    by_cases last : before = ofs
    · rw [last]
      exact digit
    · exact sound.digits before (by omega)
  · exact stored
  · exact (sound.room_iff digit).mp room
  · change run.stores ++ [_] = _
    rw [stored, sound.stores, List.range_succ (n := ofs + 1), List.map_append]
    rfl
  · exact sound.read inside

/-- What the loop leaves when it stops at an offset. -/
theorem stop (sound : OctalSound s size ofs run) {result : Bool × OctalRun}
    (stores : result.2.stores = run.stores) (value : result.2.value = run.value)
    (reads : ∀ place ∈ result.2.reads, place < size)
    (accepted : result.1 = true ↔ ∃ count, OctalField s size count ∧ octalValue s count < 2 ^ 32)
    (here : result.1 = true → ∀ count, OctalField s size count → ofs = count) :
    OctalSpec s size result where
  accepted := accepted
  value := by
    intro count field success
    rw [value, sound.value, here success count field]
  reads := reads
  stores := ⟨ofs, sound.small, stores.trans sound.stores⟩

theorem loop (sound : OctalSound s size ofs run) : OctalSpec s size (octalLoop s size ofs run) := by
  fun_induction octalLoop s size ofs run with
  | case1 ofs run inside digit full =>
      -- one more digit would make the number too large, whatever comes behind it
      apply sound.stop rfl rfl (sound.read inside)
      · constructor
        · intro impossible
          cases impossible
        · rintro ⟨count, field, small⟩
          have longer := field.lt sound.digits digit
          have grown : octalValue s (ofs + 1) ≤ octalValue s count := octalValue_mono longer
          have room := (sound.room_iff digit).mpr (by
            rw [unsignedModulus]
            omega)
          exact absurd full room
      · intro impossible
        cases impossible
  | case2 ofs run inside digit room inductionHypothesis =>
      exact inductionHypothesis (sound.next inside digit room)
  | case3 ofs run inside other ended =>
      apply sound.stop rfl rfl (sound.read inside)
      · constructor
        · intro success
          exact ⟨ofs, ⟨of_decide_eq_true success, inside, sound.digits, ended⟩, sound.small⟩
        · rintro ⟨count, field, _⟩
          have positive := field.positive
          rw [← field.eq sound.digits other] at positive
          exact decide_eq_true positive
      · intro _ count field
        exact field.eq sound.digits other
  | case4 ofs run inside other bad =>
      apply sound.stop rfl rfl (sound.read inside)
      · constructor
        · intro impossible
          cases impossible
        · rintro ⟨count, field, _⟩
          have ended := field.ended
          rw [← field.eq sound.digits other] at ended
          exact absurd ended bad
      · intro impossible
        cases impossible
  | case5 ofs run outside =>
      apply sound.stop rfl rfl sound.reads
      · constructor
        · intro impossible
          cases impossible
        · rintro ⟨count, field, _⟩
          have longer := field.le sound.digits
          have within := field.inside
          omega
      · intro impossible
        cases impossible

end OctalSound

/-- `parse_octal_field` accepts the fields of one or more digits and a blank or a
null byte that denote a number below 2^32, and stores this number.  It reads its
field only, and each number that it stores is the one that the digits denote. -/
theorem parse_octal_field_exact (s : Memory) (size : Nat) : OctalSpec s size (parseOctal s size) :=
  (OctalSound.start s size).loop

/-- The accesses left out, it is the loop over the bytes of a header. -/
theorem octalLoop_eq {s : Memory} {size ofs : Nat} {run : OctalRun}
    (sound : OctalSound s size ofs run) :
    parseOctalLoop (readBytes s ofs (size - ofs)) ofs run.value =
      if (octalLoop s size ofs run).1 then some (octalLoop s size ofs run).2.value
      else none := by
  fun_induction octalLoop s size ofs run with
  | case1 ofs run inside digit full =>
      have more : size - ofs = size - (ofs + 1) + 1 := by omega
      have isDigit : 48 ≤ (s ofs).toNat ∧ (s ofs).toNat ≤ 55 := digit
      rw [more, readBytes_succ, parseOctalLoop, if_pos isDigit, if_pos full]
      rfl
  | case2 ofs run inside digit room inductionHypothesis =>
      have more : size - ofs = size - (ofs + 1) + 1 := by omega
      have next := inductionHypothesis (sound.next inside digit room)
      have stored := sound.stored_eq digit room
      rw [octalValue_succ, ← sound.value] at stored
      have isDigit : 48 ≤ (s ofs).toNat ∧ (s ofs).toNat ≤ 55 := digit
      rw [more, readBytes_succ, parseOctalLoop, if_pos isDigit, if_neg room, ← next]
      congr 1
      exact (Nat.add_comm _ _).trans stored.symm
  | case3 ofs run inside other ended =>
      have more : size - ofs = size - (ofs + 1) + 1 := by omega
      have noDigit : ¬(48 ≤ (s ofs).toNat ∧ (s ofs).toNat ≤ 55) := other
      rw [more, readBytes_succ, parseOctalLoop, if_neg noDigit, if_pos ended]
      by_cases positive : 0 < ofs
      · simp [positive, OctalRun.read]
      · simp [positive]
  | case4 ofs run inside other bad =>
      have more : size - ofs = size - (ofs + 1) + 1 := by omega
      have noDigit : ¬(48 ≤ (s ofs).toNat ∧ (s ofs).toNat ≤ 55) := other
      rw [more, readBytes_succ, parseOctalLoop, if_neg noDigit, if_neg bad]
      rfl
  | case5 ofs run outside =>
      have none : size - ofs = 0 := by omega
      rw [none]
      rfl

/-- The fields of a header are parsed by `parse_octal_field`. -/
theorem parseOctalField_eq (header : Memory) (field : Field) :
    parseOctalField header field =
      if (parseOctal (header.drop field.offset) field.size).1 then
        some (parseOctal (header.drop field.offset) field.size).2.value
      else none := by
  have bytes : readBytes (header.drop field.offset) 0 field.size =
      readBytes header field.offset field.size := by
    rw [readBytes, readBytes]
    apply List.map_congr_left
    intro offset _
    rw [Nat.zero_add]
    rfl
  rw [parseOctalField, ← bytes]
  exact octalLoop_eq (OctalSound.start (header.drop field.offset) field.size)

end CS162.Lib
