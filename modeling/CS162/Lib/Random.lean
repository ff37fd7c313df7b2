import CS162.Foundation.Memory

/-!
# Pseudo-random numbers

`random_init` and `random_bytes` of `lib/random.c`.
-/

namespace CS162.Lib

open CS162.Foundation

/-- The generator: `s`, `s_i`, `s_j` and `inited`. -/
structure Random where
  s : Vector UInt8 256
  i : UInt8
  j : UInt8
  inited : Bool
  deriving DecidableEq

/-- `swap_byte (s + i, s + j)` -/
def swapByte (s : Vector UInt8 256) (i j : UInt8) : Vector UInt8 256 :=
  (s.set i.toNat (s.get j.toFin) i.toNat_lt).set j.toNat (s.get i.toFin) j.toNat_lt

/-- A round of the second loop of `random_init`. -/
def keyRound (seed : Nat) (state : Vector UInt8 256 × UInt8) (i : Nat) : Vector UInt8 256 × UInt8 :=
  let index := UInt8.ofNat i
  let j := state.2 + (state.1.get index.toFin + Memory.byteOf seed (i % 4))
  (swapByte state.1 index j, j)

/-- `s[i] = i` -/
def identityTable : Vector UInt8 256 := Vector.ofFn UInt8.ofFin

/-- `random_init` -/
def randomInit (seed : Nat) : Random where
  s := ((List.range 256).foldl (keyRound seed) (identityTable, 0)).1
  i := 0
  j := 0
  inited := true

/-- A round of the loop of `random_bytes`. -/
def randomByte (random : Random) : UInt8 × Random :=
  let i := random.i + 1
  let j := random.j + random.s.get i.toFin
  let s := swapByte random.s i j
  let k := s.get i.toFin + s.get j.toFin
  (s.get k.toFin, { random with s := s, i := i, j := j })

/-- The loop of `random_bytes`. -/
def randomLoop (random : Random) : Nat → List UInt8 × Random
  | 0 => ([], random)
  | size + 1 =>
      let (byte, random) := randomByte random
      let (bytes, random) := randomLoop random size
      (byte :: bytes, random)

/-- `random_bytes` -/
def randomBytes (random : Random) (size : Nat) : List UInt8 × Random :=
  randomLoop (if random.inited then random else randomInit 0) size

/-- What calls of `random_bytes` with these sizes write. -/
def randomOutputs (random : Random) : List Nat → List (List UInt8)
  | [] => []
  | size :: sizes =>
      let (bytes, random) := randomBytes random size
      bytes :: randomOutputs random sizes

/-! ## Rounds on a packed table

The table as one number, on which the rounds of `random_init` are quick to evaluate. -/

/-- The bytes of a list as the digits of a number. -/
def packBytes : List UInt8 → Nat
  | [] => 0
  | byte :: bytes => byte.toNat + 256 * packBytes bytes

/-- One byte of a packed list. -/
def packedGet (table i : Nat) : Nat := table / 256 ^ i % 256

/-- A packed list with another byte in it. -/
def packedSet (table i byte : Nat) : Nat := table - 256 ^ i * packedGet table i + 256 ^ i * byte

/-- `keyRound` on a packed table. -/
def packedRound (seed : Nat) (state : Nat × Nat) (i : Nat) : Nat × Nat :=
  let j := (state.2 + (packedGet state.1 i + seed / 256 ^ (i % 4) % 256)) % 256
  (packedSet (packedSet state.1 i (packedGet state.1 j)) j (packedGet state.1 i), j)

section Packed

variable {bytes : List UInt8} {i : Nat}

theorem packedGet_packBytes (inside : i < bytes.length) :
    packedGet (packBytes bytes) i = bytes[i].toNat := by
  induction bytes generalizing i with
  | nil => exact absurd inside (Nat.not_lt_zero i)
  | cons byte bytes inductionHypothesis =>
      have small := byte.toNat_lt
      cases i with
      | zero =>
          rw [packedGet, packBytes, Nat.pow_zero, Nat.div_one, Nat.add_mul_mod_self_left]
          exact Nat.mod_eq_of_lt small
      | succ i =>
          have later := inductionHypothesis (Nat.lt_of_succ_lt_succ inside)
          have shifted : (byte.toNat + 256 * packBytes bytes) / 256 = packBytes bytes := by
            omega
          rw [packedGet, packBytes, Nat.pow_succ', ← Nat.div_div_eq_div_mul, shifted]
          exact later

theorem packBytes_set (inside : i < bytes.length) (byte : UInt8) :
    packBytes bytes + 256 ^ i * byte.toNat =
      packBytes (bytes.set i byte) + 256 ^ i * bytes[i].toNat := by
  induction bytes generalizing i with
  | nil => exact absurd inside (Nat.not_lt_zero i)
  | cons first bytes inductionHypothesis =>
      cases i with
      | zero =>
          rw [List.set_cons_zero, packBytes, packBytes, List.getElem_cons_zero]
          omega
      | succ i =>
          have later := inductionHypothesis (Nat.lt_of_succ_lt_succ inside)
          rw [List.set_cons_succ, packBytes, packBytes, List.getElem_cons_succ,
            Nat.pow_succ', Nat.mul_assoc, Nat.mul_assoc]
          omega

theorem packedSet_packBytes (inside : i < bytes.length) (byte : UInt8) :
    packedSet (packBytes bytes) i byte.toNat = packBytes (bytes.set i byte) := by
  have same := packBytes_set inside byte
  have part : 256 ^ i * packedGet (packBytes bytes) i ≤ packBytes bytes := by
    rw [packedGet]
    calc 256 ^ i * (packBytes bytes / 256 ^ i % 256)
      _ ≤ 256 ^ i * (packBytes bytes / 256 ^ i) := Nat.mul_le_mul_left _ (Nat.mod_le _ _)
      _ ≤ packBytes bytes := Nat.mul_div_le _ _
  rw [packedGet_packBytes inside] at part
  rw [packedSet, packedGet_packBytes inside]
  omega

end Packed

section Rounds

variable {s : Vector UInt8 256}

theorem packedGet_table (i : UInt8) :
    packedGet (packBytes s.toList) i.toNat = (s.get i.toFin).toNat :=
  packedGet_packBytes (s.length_toList.symm ▸ i.toNat_lt)

theorem packedSet_table (i byte : UInt8) :
    packedSet (packBytes s.toList) i.toNat byte.toNat =
      packBytes (s.set i.toNat byte i.toNat_lt).toList := by
  rw [packedSet_packBytes (s.length_toList.symm ▸ i.toNat_lt)]
  rfl

theorem packedRound_eq (seed : Nat) (state : Vector UInt8 256 × UInt8) {i : Nat}
    (inside : i < 256) :
    packedRound seed (packBytes state.1.toList, state.2.toNat) i =
      (packBytes (keyRound seed state i).1.toList, (keyRound seed state i).2.toNat) := by
  have index : (UInt8.ofNat i).toNat = i := UInt8.toNat_ofNat_of_lt inside
  have next : (state.2.toNat + (packedGet (packBytes state.1.toList) i +
      seed / 256 ^ (i % 4) % 256)) % 256 = (keyRound seed state i).2.toNat := by
    have byte : (Memory.byteOf seed (i % 4)).toNat = seed / 256 ^ (i % 4) % 256 :=
      UInt8.toNat_ofNat'
    have entry := @packedGet_table state.1 (UInt8.ofNat i)
    rw [index] at entry
    rw [keyRound, UInt8.toNat_add, UInt8.toNat_add, byte, entry]
    omega
  unfold packedRound
  dsimp only
  rw [next]
  generalize jIs : (keyRound seed state i).2 = j
  have table : (keyRound seed state i).1 = swapByte state.1 (UInt8.ofNat i) j := by
    rw [← jIs]
    rfl
  rw [table, swapByte, ← packedSet_table, ← packedSet_table, ← packedGet_table,
    ← packedGet_table, index]

theorem foldl_packedRound (seed : Nat) (indexes : List Nat)
    (inside : ∀ i ∈ indexes, i < 256) (s : Vector UInt8 256) (j : UInt8) :
    (indexes.foldl (packedRound seed) (packBytes s.toList, j.toNat)).1 =
      packBytes (indexes.foldl (keyRound seed) (s, j)).1.toList := by
  induction indexes generalizing s j with
  | nil => rfl
  | cons i indexes inductionHypothesis =>
      rw [List.foldl_cons, List.foldl_cons, packedRound_eq seed (s, j)
        (inside i List.mem_cons_self)]
      exact inductionHypothesis (fun j member => inside j (List.mem_cons_of_mem _ member)) _ _

/-- The table of `random_init`, packed. -/
def packedInit (seed : Nat) : Nat :=
  ((List.range 256).foldl (packedRound seed) (packBytes ((List.range 256).map UInt8.ofNat), 0)).1

theorem identityTable_bytes : identityTable.toList = (List.range 256).map UInt8.ofNat := by
  decide +kernel

theorem packedInit_eq (seed : Nat) : packBytes (randomInit seed).s.toList = packedInit seed := by
  have rounds := foldl_packedRound seed (List.range 256) (fun _ => List.mem_range.mp)
    identityTable 0
  rw [identityTable_bytes] at rounds
  exact rounds.symm

/-- The first two seconds of the clock do not give the same generator. -/
theorem randomInit_clocks_ne : randomInit 2678400 ≠ randomInit 2678401 := by
  intro same
  have tables : packedInit 2678400 = packedInit 2678401 := by
    rw [← packedInit_eq, ← packedInit_eq, same]
  have differ : packedInit 2678400 ≠ packedInit 2678401 := by decide +kernel
  exact differ tables

end Rounds

end CS162.Lib
