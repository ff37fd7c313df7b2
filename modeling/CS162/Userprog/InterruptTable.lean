import Mathlib.Data.Nat.Size
import CS162.Userprog.Exception
import CS162.Userprog.Gdt

/-!
# The table of interrupts

The interrupt descriptor table of `threads/interrupt.c`, the registration of
handlers, and what becomes of interrupts that have none.  A failed `ASSERT` is
`none`.
-/

namespace CS162.Userprog

open CS162.Foundation CS162.Foundation.ProtectedMode
open CS162.Threads (selKcseg)

universe u

/-- `enum intr_level`. -/
inductive IntrLevel where
  | off
  | on
  deriving DecidableEq

/-- `make_gate`. -/
def makeGate (function : DWord) (dpl type : Int) : Option (BitVec 64) :=
  if function ≠ 0#32 ∧ (0 ≤ dpl ∧ dpl ≤ 3) ∧ 0 ≤ type ∧ type ≤ 15 then
    let e0 := (function &&& 0xffff#32) ||| (selKcseg.setWidth 32 <<< 16)
    let e1 := (function &&& 0xffff0000#32) ||| (1#32 <<< 15) |||
      (BitVec.ofInt 32 dpl <<< 13) ||| (0#32 <<< 12) ||| (BitVec.ofInt 32 type <<< 8)
    some (e0.setWidth 64 ||| (e1.setWidth 64 <<< 32))
  else none

/-- `make_intr_gate`. -/
def makeIntrGate (function : DWord) (dpl : Int) : Option (BitVec 64) := makeGate function dpl 14

/-- `make_trap_gate`. -/
def makeTrapGate (function : DWord) (dpl : Int) : Option (BitVec 64) := makeGate function dpl 15

/-- `idt`, `intr_handlers`, `intr_names` and `unexpected_cnt`. -/
structure IntrTables (Handler : Type u) where
  idt : BitVec 8 → BitVec 64
  handlers : BitVec 8 → Option Handler
  names : BitVec 8 → String
  unexpectedCnt : BitVec 8 → BitVec 32

/-- The names that `intr_init` gives. -/
def initialName (vec : BitVec 8) : String :=
  match vec.toNat with
  | 0 => "#DE Divide Error"
  | 1 => "#DB Debug Exception"
  | 2 => "NMI Interrupt"
  | 3 => "#BP Breakpoint Exception"
  | 4 => "#OF Overflow Exception"
  | 5 => "#BR BOUND Range Exceeded Exception"
  | 6 => "#UD Invalid Opcode Exception"
  | 7 => "#NM Device Not Available Exception"
  | 8 => "#DF Double Fault Exception"
  | 9 => "Coprocessor Segment Overrun"
  | 10 => "#TS Invalid TSS Exception"
  | 11 => "#NP Segment Not Present"
  | 12 => "#SS Stack Fault Exception"
  | 13 => "#GP General Protection Exception"
  | 14 => "#PF Page-Fault Exception"
  | 16 => "#MF x87 FPU Floating-Point Error"
  | 17 => "#AC Alignment Check Exception"
  | 18 => "#MC Machine-Check Exception"
  | 19 => "#XF SIMD Floating-Point Exception"
  | _ => "unknown"

/-- One round of the loop of `intr_init` over the table. -/
def fillGate (intrStubs : BitVec 8 → DWord) (idt : BitVec 8 → BitVec 64) (i : Nat) :
    Option (BitVec 8 → BitVec 64) :=
  (makeIntrGate (intrStubs (BitVec.ofNat 8 i)) 0).map fun gate =>
    Function.update idt (BitVec.ofNat 8 i) gate

/-- `intr_init`, with the addresses in `intr_stubs`. -/
def intrInit (Handler : Type u) (intrStubs : BitVec 8 → DWord) : Option (IntrTables Handler) :=
  ((List.range 256).foldlM (fillGate intrStubs) fun _ => 0#64).map fun idt =>
    { idt := idt
      handlers := fun _ => none
      names := initialName
      unexpectedCnt := fun _ => 0#32 }

/-- A call of `intr_register_ext` or of `intr_register_int`. -/
inductive IntrRequest (Handler : Type u) where
  | ext (vecNo : BitVec 8) (handler : Handler) (name : String)
  | int (vecNo : BitVec 8) (dpl : Int) (level : IntrLevel) (handler : Handler)
      (name : String)

namespace IntrTables

variable {Handler : Type u} (intrStubs : BitVec 8 → DWord)

/-- `register_handler`. -/
def registerHandler (t : IntrTables Handler) (vecNo : BitVec 8) (dpl : Int)
    (level : IntrLevel) (handler : Handler) (name : String) :
    Option (IntrTables Handler) :=
  if (t.handlers vecNo).isNone then
    (if level = .on then makeTrapGate (intrStubs vecNo) dpl
      else makeIntrGate (intrStubs vecNo) dpl).map fun gate =>
        { t with
          idt := Function.update t.idt vecNo gate
          handlers := Function.update t.handlers vecNo (some handler)
          names := Function.update t.names vecNo name }
  else none

/-- `intr_register_ext`. -/
def intrRegisterExt (t : IntrTables Handler) (vecNo : BitVec 8) (handler : Handler)
    (name : String) : Option (IntrTables Handler) :=
  if 0x20#8 ≤ vecNo ∧ vecNo ≤ 0x2f#8 then
    t.registerHandler intrStubs vecNo 0 .off handler name
  else none

/-- `intr_register_int`. -/
def intrRegisterInt (t : IntrTables Handler) (vecNo : BitVec 8) (dpl : Int)
    (level : IntrLevel) (handler : Handler) (name : String) :
    Option (IntrTables Handler) :=
  if vecNo < 0x20#8 ∨ 0x2f#8 < vecNo then
    t.registerHandler intrStubs vecNo dpl level handler name
  else none

/-- A call. -/
def register (t : IntrTables Handler) : IntrRequest Handler → Option (IntrTables Handler)
  | .ext vecNo handler name => t.intrRegisterExt intrStubs vecNo handler name
  | .int vecNo dpl level handler name =>
      t.intrRegisterInt intrStubs vecNo dpl level handler name

end IntrTables

namespace IntrRequest

variable {Handler : Type u}

def vecNo : IntrRequest Handler → BitVec 8
  | .ext vecNo _ _ => vecNo
  | .int vecNo _ _ _ _ => vecNo

def dpl : IntrRequest Handler → Int
  | .ext _ _ _ => 0
  | .int _ dpl _ _ _ => dpl

def level : IntrRequest Handler → IntrLevel
  | .ext _ _ _ => .off
  | .int _ _ level _ _ => level

def handler : IntrRequest Handler → Handler
  | .ext _ handler _ => handler
  | .int _ _ _ handler _ => handler

def name : IntrRequest Handler → String
  | .ext _ _ name => name
  | .int _ _ _ _ name => name

/-- The vector is one that the function is for. -/
def inRange : IntrRequest Handler → Bool
  | .ext vecNo _ _ => decide (0x20#8 ≤ vecNo ∧ vecNo ≤ 0x2f#8)
  | .int vecNo _ _ _ _ => decide (vecNo < 0x20#8 ∨ 0x2f#8 < vecNo)

/-- The assertions about the arguments hold. -/
def Allowed (request : IntrRequest Handler) : Prop :=
  request.inRange = true ∧ 0 ≤ request.dpl ∧ request.dpl ≤ 3

instance (request : IntrRequest Handler) : Decidable request.Allowed :=
  inferInstanceAs (Decidable (_ ∧ _))

end IntrRequest

/-! ## Gates -/

/-- The bits that `make_gate` puts together. -/
def gateBits (function : DWord) (dpl : BitVec 2) (type : BitVec 4) : BitVec 64 :=
  ((function &&& 0xffff#32) ||| (selKcseg.setWidth 32 <<< 16)).setWidth 64 |||
    (((function &&& 0xffff0000#32) ||| (1#32 <<< 15) ||| (dpl.setWidth 32 <<< 13) |||
      (0#32 <<< 12) ||| (type.setWidth 32 <<< 8)).setWidth 64 <<< 32)

section Gates

variable (function : DWord) (dpl : BitVec 2) (type : BitVec 4)

theorem gateBits_selector : (gateBits function dpl type).extractLsb' 16 16 = selKcseg := by
  ext i inside
  interval_cases i <;> simp [gateBits, selKcseg]

theorem gateBits_offset :
    (gateBits function dpl type).extractLsb' 48 16 ++
        (gateBits function dpl type).extractLsb' 0 16 = function := by
  ext i inside
  simp only [BitVec.getElem_append]
  interval_cases i <;> simp [gateBits, selKcseg]

theorem gateBits_type : (gateBits function dpl type).extractLsb' 40 4 = type := by
  ext i inside
  interval_cases i <;> simp [gateBits, selKcseg]

theorem gateBits_dpl : (gateBits function dpl type).extractLsb' 45 2 = dpl := by
  ext i inside
  interval_cases i <;> simp [gateBits, selKcseg]

/-- All fields are what the arguments say. -/
theorem gateBits_fields :
    GateDescriptor.ofBits (gateBits function dpl type) =
      { selector := selKcseg
        offset := function
        type := type
        system := true
        dpl := dpl
        present := true } := by
  simp only [GateDescriptor.ofBits, gateBits_selector, gateBits_offset,
    gateBits_type, gateBits_dpl, GateDescriptor.mk.injEq, true_and]
  refine ⟨?_, ?_⟩
  · simp [gateBits, selKcseg]
  · simp [gateBits, selKcseg]

/-- `make_gate` panics for arguments that do not fit, and otherwise does as they
say. -/
theorem makeGate_eq (dpl type : Int) :
    makeGate function dpl type =
      if function ≠ 0#32 ∧ (0 ≤ dpl ∧ dpl ≤ 3) ∧ 0 ≤ type ∧ type ≤ 15 then
        some (gateBits function (BitVec.ofInt 2 dpl) (BitVec.ofInt 4 type))
      else none := by
  rw [makeGate]
  by_cases fits : function ≠ 0#32 ∧ (0 ≤ dpl ∧ dpl ≤ 3) ∧ 0 ≤ type ∧ type ≤ 15
  · have typeBits : BitVec.ofInt 32 type = (BitVec.ofInt 4 type).setWidth 32 :=
      ofInt_field fits.2.2.1 (Int.lt_add_one_of_le fits.2.2.2) (by decide)
    have dplBits : BitVec.ofInt 32 dpl = (BitVec.ofInt 2 dpl).setWidth 32 :=
      ofInt_field fits.2.1.1 (Int.lt_add_one_of_le fits.2.1.2) (by decide)
    rw [if_pos fits, if_pos fits, typeBits, dplBits, gateBits]
  · rw [if_neg fits, if_neg fits]

end Gates

/-! ## Registration -/

/-- The first of the calls for a vector. -/
def requestOf {Handler : Type u} (requests : List (IntrRequest Handler))
    (vecNo : BitVec 8) : Option (IntrRequest Handler) :=
  requests.find? fun request => request.vecNo = vecNo

/-- The gate of a vector after the call for it, if there was one. -/
def gateOf {Handler : Type u} (intrStubs : BitVec 8 → DWord) (vecNo : BitVec 8)
    (request : Option (IntrRequest Handler)) : GateDescriptor where
  selector := selKcseg
  offset := intrStubs vecNo
  type := if request.map IntrRequest.level = some .on then 15#4 else 14#4
  system := true
  dpl := BitVec.ofInt 2 ((request.map IntrRequest.dpl).getD 0)
  present := true

/-- What the tables hold after some calls. -/
structure TablesSound {Handler : Type u} (intrStubs : BitVec 8 → DWord)
    (requests : List (IntrRequest Handler)) (t : IntrTables Handler) : Prop where
  gate : ∀ vecNo, GateDescriptor.ofBits (t.idt vecNo) =
    gateOf intrStubs vecNo (requestOf requests vecNo)
  handler : ∀ vecNo, t.handlers vecNo = (requestOf requests vecNo).map IntrRequest.handler
  name : ∀ vecNo, t.names vecNo =
    ((requestOf requests vecNo).map IntrRequest.name).getD (initialName vecNo)
  count : ∀ vecNo, t.unexpectedCnt vecNo = 0#32

section Registration

variable {Handler : Type u} {intrStubs : BitVec 8 → DWord}
variable {done requests : List (IntrRequest Handler)} {t after : IntrTables Handler}

theorem requestOf_eq_none_iff {vecNo : BitVec 8} :
    requestOf done vecNo = none ↔ vecNo ∉ done.map IntrRequest.vecNo := by
  simp [requestOf]

theorem requestOf_append (request : IntrRequest Handler) (vecNo : BitVec 8) :
    requestOf (done ++ [request]) vecNo =
      (requestOf done vecNo).or
        (if request.vecNo = vecNo then some request else none) := by
  rw [requestOf, List.find?_append, List.find?_singleton, requestOf]
  simp only [decide_eq_true_eq]

/-- The loop of `intr_init`. -/
theorem fillGates_spec (linked : ∀ vecNo, intrStubs vecNo ≠ 0#32) (count : Nat)
    (fits : count ≤ 256) :
    ∃ idt, (List.range count).foldlM (fillGate intrStubs) (fun _ => 0#64) = some idt ∧
      ∀ vecNo : BitVec 8, vecNo.toNat < count →
        idt vecNo = gateBits (intrStubs vecNo) 0#2 14#4 := by
  induction count with
  | zero => exact ⟨_, rfl, fun _ below => absurd below (Nat.not_lt_zero _)⟩
  | succ count inductionHypothesis =>
      obtain ⟨idt, run, gates⟩ := inductionHypothesis (by omega)
      have made : makeIntrGate (intrStubs (BitVec.ofNat 8 count)) 0 =
          some (gateBits (intrStubs (BitVec.ofNat 8 count)) 0#2 14#4) := by
        rw [makeIntrGate, makeGate_eq, if_pos ⟨linked _, by decide, by decide⟩]
        rfl
      refine ⟨Function.update idt (BitVec.ofNat 8 count)
        (gateBits (intrStubs (BitVec.ofNat 8 count)) 0#2 14#4), ?_, ?_⟩
      · rw [List.range_succ, List.foldlM_append, run]
        simp [fillGate, made]
      · intro vecNo below
        by_cases last : vecNo = BitVec.ofNat 8 count
        · rw [last, Function.update_self]
        · rw [Function.update_of_ne last]
          apply gates
          have different : vecNo.toNat ≠ count := by
            rintro rfl
            exact last (by simp)
          omega

/-- `intr_init` succeeds. -/
theorem intrInit_sound (Handler : Type u) (linked : ∀ vecNo, intrStubs vecNo ≠ 0#32) :
    ∃ t : IntrTables Handler, intrInit Handler intrStubs = some t ∧
      TablesSound intrStubs [] t := by
  obtain ⟨idt, run, gates⟩ := fillGates_spec linked 256 (Nat.le_refl _)
  refine ⟨_, by rw [intrInit, run]; rfl, ?_⟩
  constructor
  · intro vecNo
    dsimp only
    rw [gates vecNo vecNo.isLt, gateBits_fields]
    rfl
  · exact fun _ => rfl
  · exact fun _ => rfl
  · exact fun _ => rfl

/-- `register_handler` panics for a vector that is taken or a level that does not
fit. -/
theorem registerHandler_eq (linked : ∀ vecNo, intrStubs vecNo ≠ 0#32)
    (vecNo : BitVec 8) (dpl : Int) (level : IntrLevel) (handler : Handler) (name : String) :
    t.registerHandler intrStubs vecNo dpl level handler name =
      if (t.handlers vecNo).isNone = true ∧ 0 ≤ dpl ∧ dpl ≤ 3 then
        some
          { t with
            idt := Function.update t.idt vecNo
              (gateBits (intrStubs vecNo) (BitVec.ofInt 2 dpl) (if level = .on then 15#4 else 14#4))
            handlers := Function.update t.handlers vecNo (some handler)
            names := Function.update t.names vecNo name }
      else none := by
  have gate : (if level = .on then makeTrapGate (intrStubs vecNo) dpl
      else makeIntrGate (intrStubs vecNo) dpl) =
      if 0 ≤ dpl ∧ dpl ≤ 3 then
        some (gateBits (intrStubs vecNo) (BitVec.ofInt 2 dpl) (if level = .on then 15#4 else 14#4))
      else none := by
    rw [makeTrapGate, makeIntrGate, makeGate_eq, makeGate_eq]
    cases level with
    | on => simp [linked]
    | off => simp [linked]
  rw [IntrTables.registerHandler, gate]
  by_cases free : (t.handlers vecNo).isNone = true
  · by_cases fits : 0 ≤ dpl ∧ dpl ≤ 3
    · simp [free, fits]
    · simp [free, fits]
  · simp [free]

/-- Both functions for registering are one. -/
theorem register_eq (request : IntrRequest Handler) :
    t.register intrStubs request =
      if request.inRange = true then
        t.registerHandler intrStubs request.vecNo request.dpl request.level
          request.handler request.name
      else none := by
  cases request with
  | ext vecNo handler name =>
      simp only [IntrTables.register, IntrTables.intrRegisterExt, IntrRequest.inRange,
        decide_eq_true_eq]
      rfl
  | int vecNo dpl level handler name =>
      simp only [IntrTables.register, IntrTables.intrRegisterInt, IntrRequest.inRange,
        decide_eq_true_eq]
      rfl

/-- One call: it panics unless its arguments are allowed and its vector is new. -/
theorem register_isSome_iff (linked : ∀ vecNo, intrStubs vecNo ≠ 0#32)
    (sound : TablesSound intrStubs done t) (request : IntrRequest Handler) :
    (t.register intrStubs request).isSome = true ↔
      request.Allowed ∧ request.vecNo ∉ done.map IntrRequest.vecNo := by
  have free : (t.handlers request.vecNo).isNone = true ↔
      request.vecNo ∉ done.map IntrRequest.vecNo := by
    rw [sound.handler, Option.isNone_map, Option.isNone_iff_eq_none, requestOf_eq_none_iff]
  rw [register_eq, registerHandler_eq linked, IntrRequest.Allowed, ← free]
  by_cases inRange : request.inRange = true
  · simp [inRange, and_comm]
  · simp [inRange]

/-- What the tables hold after one more call. -/
theorem TablesSound.register (linked : ∀ vecNo, intrStubs vecNo ≠ 0#32)
    (sound : TablesSound intrStubs done t) {request : IntrRequest Handler}
    (registered : t.register intrStubs request = some after) :
    TablesSound intrStubs (done ++ [request]) after := by
  have new := ((register_isSome_iff linked sound request).mp (by rw [registered]; rfl)).2
  rw [register_eq, registerHandler_eq linked] at registered
  obtain ⟨-, registered⟩ := Option.ite_none_right_eq_some.mp registered
  obtain ⟨-, registered⟩ := Option.ite_none_right_eq_some.mp registered
  cases registered
  have own : requestOf (done ++ [request]) request.vecNo = some request := by
    rw [requestOf_append, requestOf_eq_none_iff.mpr new, if_pos rfl]
    rfl
  have other : ∀ vecNo, vecNo ≠ request.vecNo →
      requestOf (done ++ [request]) vecNo = requestOf done vecNo := by
    intro vecNo different
    rw [requestOf_append, if_neg different.symm, Option.or_none]
  constructor
  · intro vecNo
    by_cases mine : vecNo = request.vecNo
    · rw [mine, own]
      simp [gateBits_fields, gateOf]
    · rw [other vecNo mine]
      simpa [mine] using sound.gate vecNo
  · intro vecNo
    by_cases mine : vecNo = request.vecNo
    · rw [mine, own]
      simp
    · rw [other vecNo mine]
      simpa [mine] using sound.handler vecNo
  · intro vecNo
    by_cases mine : vecNo = request.vecNo
    · rw [mine, own]
      simp
    · rw [other vecNo mine]
      simpa [mine] using sound.name vecNo
  · exact sound.count

/-- Calls one after another. -/
theorem registers_spec (requests : List (IntrRequest Handler))
    (linked : ∀ vecNo, intrStubs vecNo ≠ 0#32) (sound : TablesSound intrStubs done t) :
    ((requests.foldlM (IntrTables.register intrStubs) t).isSome = true ↔
      (∀ request ∈ requests, request.Allowed) ∧
        ((requests.map IntrRequest.vecNo).Nodup ∧
          ∀ vecNo ∈ requests.map IntrRequest.vecNo, vecNo ∉ done.map IntrRequest.vecNo)) ∧
    ∀ after, requests.foldlM (IntrTables.register intrStubs) t = some after →
      TablesSound intrStubs (done ++ requests) after := by
  induction requests generalizing done t with
  | nil =>
      refine ⟨by simp, ?_⟩
      intro after run
      cases run
      rwa [List.append_nil]
  | cons request rest inductionHypothesis =>
      rw [List.foldlM_cons]
      cases first : t.register intrStubs request with
      | none =>
          have refused := (register_isSome_iff linked sound request).not.mp
            (by rw [first]; exact Bool.false_ne_true)
          refine ⟨?_, fun after run => by cases run⟩
          constructor
          · intro run
            cases run
          · rintro ⟨allowed, -, new⟩
            exact absurd ⟨allowed request List.mem_cons_self, new _ List.mem_cons_self⟩ refused
      | some middle =>
          obtain ⟨allowed, new⟩ := (register_isSome_iff linked sound request).mp
            (by rw [first]; rfl)
          obtain ⟨succeeds, holds⟩ := inductionHypothesis (sound.register linked first)
          constructor
          · change (rest.foldlM (IntrTables.register intrStubs) middle).isSome = true ↔ _
            rw [succeeds]
            rw [List.map_append, List.map_singleton, List.map_cons, List.nodup_cons,
              List.forall_mem_cons, List.forall_mem_cons]
            constructor
            · rintro ⟨others, once, apart⟩
              refine ⟨⟨allowed, others⟩, ⟨?_, once⟩, new, ?_⟩
              · exact fun member => apart _ member (List.mem_append_right _
                  (List.mem_singleton_self _))
              · exact fun vecNo member earlier => apart vecNo member
                  (List.mem_append_left _ earlier)
            · rintro ⟨⟨-, others⟩, ⟨only, once⟩, -, apart⟩
              refine ⟨others, once, ?_⟩
              intro vecNo member earlier
              rcases List.mem_append.mp earlier with before | last
              · exact apart vecNo member before
              · rw [List.mem_singleton.mp last] at member
                exact only member
          · intro after run
            have sound' := holds after run
            rwa [List.append_assoc] at sound'

/-- For all handlers that the kernel may register, in any order: `intr_init` succeeds,
and the calls do if and only if their arguments are allowed and no vector occurs
twice.  The processor then finds a gate to the vector's own stub in the segment of
the kernel for every vector, and for the vectors of the interrupt controllers one
that turns interrupts off and that user programs cannot call. -/
theorem intr_tables_sound (linked : ∀ vecNo, intrStubs vecNo ≠ 0#32)
    (requests : List (IntrRequest Handler)) :
    ∃ start, intrInit Handler intrStubs = some start ∧
      ((requests.foldlM (IntrTables.register intrStubs) start).isSome = true ↔
        (∀ request ∈ requests, request.Allowed) ∧ (requests.map IntrRequest.vecNo).Nodup) ∧
      ∀ t, requests.foldlM (IntrTables.register intrStubs) start = some t →
        TablesSound intrStubs requests t ∧
        (∀ vecNo, (GateDescriptor.ofBits (t.idt vecNo)).gate = some ⟨selKcseg, intrStubs vecNo,
            (requestOf requests vecNo).map IntrRequest.level ≠ some .on⟩) ∧
        ∀ vecNo : BitVec 8, 0x20#8 ≤ vecNo → vecNo ≤ 0x2f#8 →
          (GateDescriptor.ofBits (t.idt vecNo)).gate = some ⟨selKcseg, intrStubs vecNo, true⟩ ∧
            (GateDescriptor.ofBits (t.idt vecNo)).dpl = 0#2 := by
  obtain ⟨start, init, sound⟩ := intrInit_sound Handler linked
  obtain ⟨succeeds, holds⟩ := registers_spec requests linked sound
  refine ⟨start, init, by simpa using succeeds, ?_⟩
  intro t run
  have tables : TablesSound intrStubs requests t := holds t run
  have allowed := (succeeds.mp (by rw [run]; rfl)).1
  have gates : ∀ vecNo, (GateDescriptor.ofBits (t.idt vecNo)).gate =
      some ⟨selKcseg, intrStubs vecNo,
        (requestOf requests vecNo).map IntrRequest.level ≠ some .on⟩ := by
    intro vecNo
    rw [tables.gate, gateOf, GateDescriptor.gate]
    by_cases on : (requestOf requests vecNo).map IntrRequest.level = some .on
    · simp [on]
    · simp [on]
  refine ⟨tables, gates, ?_⟩
  intro vecNo lower upper
  have external : (requestOf requests vecNo).map IntrRequest.level ≠ some .on ∧
      ((requestOf requests vecNo).map IntrRequest.dpl).getD 0 = 0 := by
    cases found : requestOf requests vecNo with
    | none => exact ⟨by simp, rfl⟩
    | some request =>
        have same : request.vecNo = vecNo := by
          simpa using List.find?_some found
        have inRange := (allowed request (List.mem_of_find?_eq_some found)).1
        cases request with
        | ext vec handler name => exact ⟨by simp [IntrRequest.level], rfl⟩
        | int vec dpl level handler name =>
            cases same
            rcases of_decide_eq_true inRange with below | above
            · exact absurd lower (BitVec.not_le.mpr below)
            · exact absurd upper (BitVec.not_le.mpr above)
  constructor
  · rw [gates, decide_eq_true external.1]
  · rw [tables.gate, gateOf, external.2]
    rfl

/-- Stubs of sixteen bytes. -/
def sampleStubs (vecNo : BitVec 8) : DWord := 0xc0020000#32 ||| (vecNo.setWidth 32 <<< 4)

theorem sampleStubs_linked : ∀ vecNo, sampleStubs vecNo ≠ 0#32 := by
  decide +kernel

/-- What the kernel registers, in the order of `main`. -/
def kernelRequests : List (IntrRequest IntrHandler) :=
  [.ext 0x20#8 .device "8254 Timer", .ext 0x21#8 .device "8042 Keyboard",
    .int 3#8 3 .on .kill "#BP Breakpoint Exception",
    .int 4#8 3 .on .kill "#OF Overflow Exception",
    .int 5#8 3 .on .kill "#BR BOUND Range Exceeded Exception",
    .int 0#8 0 .on .kill "#DE Divide Error",
    .int 1#8 0 .on .kill "#DB Debug Exception",
    .int 6#8 0 .on .kill "#UD Invalid Opcode Exception",
    .int 7#8 0 .on .kill "#NM Device Not Available Exception",
    .int 11#8 0 .on .kill "#NP Segment Not Present",
    .int 12#8 0 .on .kill "#SS Stack Fault Exception",
    .int 13#8 0 .on .kill "#GP General Protection Exception",
    .int 16#8 0 .on .kill "#MF x87 FPU Floating-Point Error",
    .int 19#8 0 .on .kill "#XF SIMD Floating-Point Exception",
    .int 14#8 0 .off .pageFault "#PF Page-Fault Exception",
    .int 0x30#8 3 .on .syscall "syscall", .ext 0x24#8 .device "serial",
    .ext 0x2e#8 .device "ide0", .ext 0x2f#8 .device "ide1"]

theorem intr_tables_sound_kernel :
    ∃ start, intrInit IntrHandler sampleStubs = some start ∧
      (kernelRequests.foldlM (IntrTables.register sampleStubs) start).isSome =
        true := by
  obtain ⟨start, init, succeeds, -⟩ := intr_tables_sound sampleStubs_linked kernelRequests
  exact ⟨start, init, succeeds.mpr ⟨by decide, by decide⟩⟩

/-- The handlers of user programs' interrupts are found through these tables. -/
theorem kernel_tables (linked : ∀ vecNo, intrStubs vecNo ≠ 0#32) :
    ∃ start t, intrInit IntrHandler intrStubs = some start ∧
      kernelRequests.foldlM (IntrTables.register intrStubs) start = some t ∧
      TablesSound intrStubs kernelRequests t ∧
      ∀ vecNo, t.handlers vecNo = intrHandlers vecNo.toNat ∧
        (GateDescriptor.ofBits (t.idt vecNo)).dpl = BitVec.ofNat 2 (gateDpl vecNo.toNat) := by
  obtain ⟨start, init, sound⟩ := intrInit_sound IntrHandler linked
  obtain ⟨succeeds, holds⟩ := registers_spec kernelRequests linked sound
  obtain ⟨t, run⟩ := Option.isSome_iff_exists.mp (succeeds.mpr ⟨by decide, by decide, by simp⟩)
  have tables : TablesSound intrStubs kernelRequests t := holds t run
  refine ⟨start, t, init, run, tables, ?_⟩
  have same : ∀ vecNo,
      (requestOf kernelRequests vecNo).map IntrRequest.handler = intrHandlers vecNo.toNat ∧
        BitVec.ofInt 2 (((requestOf kernelRequests vecNo).map IntrRequest.dpl).getD 0) =
          BitVec.ofNat 2 (gateDpl vecNo.toNat) := by
    decide +kernel
  intro vecNo
  rw [tables.handler, tables.gate]
  exact same vecNo

end Registration

/-! ## Interrupts without a handler -/

/-- What `intr_handler` does about an interrupt: it calls the handler, it ignores the
interrupt, or it calls `unexpected_interrupt`, which may print a message with the
vector and its name. -/
inductive IntrOutcome (Handler : Type u) where
  | calls (handler : Handler)
  | ignores
  | unexpected (message : Option (BitVec 8 × String))

namespace IntrTables

variable {Handler : Type u}

/-- `unexpected_interrupt`. -/
def unexpectedInterrupt (t : IntrTables Handler) (vecNo : BitVec 8) :
    IntrTables Handler × IntrOutcome Handler :=
  let n := t.unexpectedCnt vecNo + 1#32
  ({ t with unexpectedCnt := Function.update t.unexpectedCnt vecNo n },
    .unexpected (if n &&& (n - 1#32) = 0#32 then some (vecNo, t.names vecNo) else none))

/-- The part of `intr_handler` between its assertions. -/
def intrHandler (t : IntrTables Handler) (vecNo : BitVec 8) :
    IntrTables Handler × IntrOutcome Handler :=
  match t.handlers vecNo with
  | some handler => (t, .calls handler)
  | none =>
      if vecNo = 0x27#8 ∨ vecNo = 0x2f#8 then (t, .ignores)
      else t.unexpectedInterrupt vecNo

/-- Interrupts one after another. -/
def outcomes (t : IntrTables Handler) : List (BitVec 8) → List (IntrOutcome Handler)
  | [] => []
  | vecNo :: rest =>
      (t.intrHandler vecNo).2 :: (t.intrHandler vecNo).1.outcomes rest

end IntrTables

/-- The outcome is a message about the vector. -/
def IntrOutcome.reports {Handler : Type u} (vecNo : BitVec 8) : IntrOutcome Handler → Bool
  | .unexpected (some message) => message.1 = vecNo
  | _ => false

/-- How many messages there are about so many interrupts: one for each power of two,
and one for every time that the count has come back to 0. -/
def messages (count : Nat) : Nat := 33 * (count / 2 ^ 32) + Nat.size (count % 2 ^ 32)

section Messages

variable {Handler : Type u} {t : IntrTables Handler} {vecNo : BitVec 8}

/-- A number has a digit more than the one before it where it is a power of two. -/
theorem size_succ (n : Nat) :
    Nat.size (n + 1) = Nat.size n + if (n + 1) &&& n = 0 then 1 else 0 := by
  have power := Nat.and_sub_one_eq_zero_iff_isPowerOfTwo (n := n + 1) (by omega)
  rw [Nat.add_sub_cancel] at power
  by_cases zero : (n + 1) &&& n = 0
  · obtain ⟨k, same⟩ := power.mp zero
    have before : Nat.size n = k := by
      apply Nat.le_antisymm
      · rw [Nat.size_le]
        omega
      · by_contra small
        have below := Nat.lt_size_self n
        have fewer : 2 ^ (Nat.size n + 1) ≤ 2 ^ k := Nat.pow_le_pow_right (by decide) (by omega)
        rw [pow_succ] at fewer
        have positive : 0 < 2 ^ Nat.size n := by positivity
        omega
    rw [if_pos zero, same, Nat.size_pow, before]
  · have different : n + 1 ≠ 2 ^ Nat.size n := fun same => zero (power.mpr ⟨_, same⟩)
    have below := Nat.lt_size_self n
    have upper : Nat.size (n + 1) ≤ Nat.size n := Nat.size_le.mpr (by omega)
    rw [if_neg zero, Nat.add_zero]
    exact Nat.le_antisymm upper (Nat.size_le_size (Nat.le_succ n))

theorem messages_succ (count : Nat) :
    messages (count + 1) = messages count +
      if (BitVec.ofNat 32 count + 1#32) &&& (BitVec.ofNat 32 count + 1#32 - 1#32) =
        0#32 then 1 else 0 := by
  rw [BitVec.add_sub_cancel, messages, messages]
  have low : (BitVec.ofNat 32 count).toNat = count % 2 ^ 32 := BitVec.toNat_ofNat ..
  by_cases last : count % 2 ^ 32 = 2 ^ 32 - 1
  · have quotient : (count + 1) / 2 ^ 32 = count / 2 ^ 32 + 1 := by omega
    have remainder : (count + 1) % 2 ^ 32 = 0 := by omega
    have wrapped : BitVec.ofNat 32 count + 1#32 = 0#32 := by
      apply BitVec.eq_of_toNat_eq
      rw [BitVec.toNat_add, low, last]
      rfl
    have digits : Nat.size (2 ^ 32 - 1) = 32 := by
      apply Nat.le_antisymm
      · rw [Nat.size_le]
        decide
      · rw [← Nat.lt_iff_add_one_le, Nat.lt_size]
        decide
    rw [quotient, remainder, last, digits, wrapped, BitVec.zero_and, if_pos rfl, Nat.size_zero]
    omega
  · have quotient : (count + 1) / 2 ^ 32 = count / 2 ^ 32 := by omega
    have remainder : (count + 1) % 2 ^ 32 = count % 2 ^ 32 + 1 := by omega
    have next : (BitVec.ofNat 32 count + 1#32).toNat = count % 2 ^ 32 + 1 := by
      rw [BitVec.toNat_add, low]
      change (count % 2 ^ 32 + 1) % 2 ^ 32 = _
      omega
    have bits : (BitVec.ofNat 32 count + 1#32) &&& BitVec.ofNat 32 count = 0#32 ↔
        (count % 2 ^ 32 + 1) &&& (count % 2 ^ 32) = 0 := by
      rw [← BitVec.toNat_inj, BitVec.toNat_and, next, low]
      rfl
    rw [quotient, remainder, size_succ, Nat.add_assoc]
    simp only [bits]

theorem outcomes_cons (vec : BitVec 8) (rest : List (BitVec 8)) :
    t.outcomes (vec :: rest) = (t.intrHandler vec).2 :: (t.intrHandler vec).1.outcomes rest := rfl

/-- Interrupts change nothing in the tables but the count of the vector. -/
theorem intrHandler_tables (t : IntrTables Handler) (vecNo vec : BitVec 8) :
    (t.intrHandler vec).1.handlers = t.handlers ∧
      (vec ≠ vecNo → (t.intrHandler vec).1.unexpectedCnt vecNo = t.unexpectedCnt vecNo) := by
  rw [IntrTables.intrHandler]
  cases t.handlers vec with
  | some handler => exact ⟨rfl, fun _ => rfl⟩
  | none =>
      by_cases ignored : vec = 0x27#8 ∨ vec = 0x2f#8
      · simp [ignored]
      · simp only [ignored, if_false, IntrTables.unexpectedInterrupt, true_and]
        intro other
        exact Function.update_of_ne other.symm _ _

theorem unexpected_reports (vec : BitVec 8) :
    (t.unexpectedInterrupt vec).2.reports vecNo =
      (decide (vec = vecNo) &&
        decide ((t.unexpectedCnt vec + 1#32) &&&
          (t.unexpectedCnt vec + 1#32 - 1#32) = 0#32)) := by
  simp only [IntrTables.unexpectedInterrupt]
  by_cases power : (t.unexpectedCnt vec + 1#32) &&& (t.unexpectedCnt vec + 1#32 - 1#32) = 0#32
  · rw [if_pos power, decide_eq_true power, Bool.and_true]
    rfl
  · rw [if_neg power, decide_eq_false power, Bool.and_false]
    rfl

/-- The message about an interrupt names its vector. -/
theorem reports_other {vec : BitVec 8} (other : vec ≠ vecNo) :
    (t.intrHandler vec).2.reports vecNo = false := by
  rw [IntrTables.intrHandler]
  cases t.handlers vec with
  | some handler => rfl
  | none =>
      by_cases ignored : vec = 0x27#8 ∨ vec = 0x2f#8
      · simp [ignored, IntrOutcome.reports]
      · simp only [ignored, if_false]
        rw [unexpected_reports, decide_eq_false other, Bool.false_and]

/-- From a count on. -/
theorem outcomes_reports (free : t.handlers vecNo = none)
    (real : ¬(vecNo = 0x27#8 ∨ vecNo = 0x2f#8)) (count : Nat)
    (counted : t.unexpectedCnt vecNo = BitVec.ofNat 32 count) (vecs : List (BitVec 8)) :
    messages count + (t.outcomes vecs).countP (IntrOutcome.reports vecNo) =
      messages (count + vecs.count vecNo) := by
  induction vecs generalizing t count with
  | nil => simp [IntrTables.outcomes]
  | cons vec rest inductionHypothesis =>
      obtain ⟨handlers, counts⟩ := intrHandler_tables t vecNo vec
      rw [outcomes_cons, List.countP_cons, List.count_cons]
      by_cases own : vec = vecNo
      · have step : t.intrHandler vecNo = t.unexpectedInterrupt vecNo := by
          rw [IntrTables.intrHandler, free]
          exact if_neg real
        have next := inductionHypothesis (handlers.symm ▸ free) (count + 1) (by
          rw [own, step, BitVec.ofNat_add, ← counted]
          exact Function.update_self ..)
        have one : (if (t.intrHandler vec).2.reports vecNo = true then 1 else 0) =
            if (BitVec.ofNat 32 count + 1#32) &&&
                (BitVec.ofNat 32 count + 1#32 - 1#32) = 0#32 then 1 else 0 := by
          rw [own, step, unexpected_reports, counted]
          simp only [decide_true, Bool.true_and, decide_eq_true_eq]
        rw [messages_succ] at next
        rw [one, if_pos (beq_iff_eq.mpr own)]
        have sum : count + (rest.count vecNo + 1) = count + 1 + rest.count vecNo := by
          omega
        rw [sum, ← next]
        omega
      · have next := inductionHypothesis (handlers.symm ▸ free) count (by
          rw [counts own, counted])
        rw [reports_other own, if_neg Bool.false_ne_true, Nat.add_zero, next]
        simp [own]

/-- No message about an interrupt that is handled or ignored. -/
theorem outcomes_silent
    (expected : t.handlers vecNo ≠ none ∨ vecNo = 0x27#8 ∨ vecNo = 0x2f#8)
    (vecs : List (BitVec 8)) :
    (t.outcomes vecs).countP (IntrOutcome.reports vecNo) = 0 := by
  induction vecs generalizing t with
  | nil => rfl
  | cons vec rest inductionHypothesis =>
      obtain ⟨handlers, -⟩ := intrHandler_tables t vecNo vec
      have silent : (t.intrHandler vec).2.reports vecNo = false := by
        by_cases own : vec = vecNo
        · rw [own, IntrTables.intrHandler]
          cases known : t.handlers vecNo with
          | some handler => rfl
          | none =>
              have ignored : vecNo = 0x27#8 ∨ vecNo = 0x2f#8 :=
                expected.resolve_left fun some => some known
              simp [ignored, IntrOutcome.reports]
        · exact reports_other own
      rw [outcomes_cons, List.countP_cons, silent, inductionHypothesis (handlers.symm ▸ expected)]
      rfl

/-- However interrupts come, the messages about a vector that nobody has registered
are as many as the binary digits of their number, until the count wraps around. -/
theorem unexpected_messages {intrStubs : BitVec 8 → DWord}
    {requests : List (IntrRequest Handler)} (sound : TablesSound intrStubs requests t)
    (vecs : List (BitVec 8)) (vecNo : BitVec 8) :
    (t.outcomes vecs).countP (IntrOutcome.reports vecNo) =
      if (requestOf requests vecNo).isNone = true ∧
          ¬(vecNo = 0x27#8 ∨ vecNo = 0x2f#8) then
        messages (vecs.count vecNo)
      else 0 := by
  have free : t.handlers vecNo = none ↔ (requestOf requests vecNo).isNone = true := by
    rw [sound.handler, Option.map_eq_none_iff, Option.isNone_iff_eq_none]
  by_cases unexpected : (requestOf requests vecNo).isNone = true ∧
      ¬(vecNo = 0x27#8 ∨ vecNo = 0x2f#8)
  · rw [if_pos unexpected]
    have all := outcomes_reports (free.mpr unexpected.1) unexpected.2 0 (sound.count vecNo) vecs
    simpa [messages] using all
  · rw [if_neg unexpected]
    apply outcomes_silent
    rw [← free, Classical.not_and_iff_not_or_not, Classical.not_not] at unexpected
    exact unexpected

/-- Three interrupts that are not maskable, and another one. -/
theorem unexpected_messages_three :
    ∃ t : IntrTables IntrHandler, intrInit IntrHandler sampleStubs = some t ∧
      (t.outcomes [2#8, 0x27#8, 2#8, 2#8]).countP (IntrOutcome.reports 2#8) = 2 := by
  obtain ⟨t, init, sound⟩ := intrInit_sound IntrHandler sampleStubs_linked
  refine ⟨t, init, ?_⟩
  rw [unexpected_messages sound]
  decide

end Messages

end CS162.Userprog
