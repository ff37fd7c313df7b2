import CS162.Foundation.Memory

/-!
# A processor in protected mode

The registers of a 32-bit processor with flat segments, its stack in memory, and
what it does on an interrupt through a gate of the kernel and on `iret`.  A stack
is described by the list of the words on it, so that a sequence of pushes and
pops is followed as one on lists.
-/

namespace CS162.Foundation.ProtectedMode

/-- A double word, as in a register. -/
abbrev DWord := BitVec 32

/-- The general registers other than the stack pointer. -/
structure Registers where
  edi : DWord
  esi : DWord
  ebp : DWord
  ebx : DWord
  edx : DWord
  ecx : DWord
  eax : DWord
  deriving DecidableEq

/-- The selectors of the data segments. -/
structure DataSegments where
  gs : BitVec 16
  fs : BitVec 16
  es : BitVec 16
  ds : BitVec 16
  deriving DecidableEq

/-- What a program sees of the processor. -/
structure Context where
  regs : Registers
  segs : DataSegments
  eip : DWord
  cs : BitVec 16
  eflags : DWord
  esp : DWord
  ss : BitVec 16
  deriving DecidableEq

structure Processor where
  context : Context
  memory : Memory

/-- The privilege level in a selector. -/
def ring (selector : BitVec 16) : BitVec 2 := selector.setWidth 2

/-- The flags in `eflags`. -/
def trapFlag : DWord := 0x100#32
def interruptFlag : DWord := 0x200#32
def nestedFlag : DWord := 0x4000#32
def resumeFlag : DWord := 0x10000#32
def virtualFlag : DWord := 0x20000#32

/-! ## The stack -/

/-- The words that a memory holds from an address on. -/
def HoldsWords (memory : Memory) : Nat → List DWord → Prop
  | _, [] => True
  | address, first :: rest =>
      memory.load32 address = first.toNat ∧ HoldsWords memory (address + 4) rest

instance decidableHoldsWords (memory : Memory) (address : Nat) (words : List DWord) :
    Decidable (HoldsWords memory address words) :=
  match words with
  | [] => .isTrue trivial
  | _ :: rest =>
      have := decidableHoldsWords memory (address + 4) rest
      inferInstanceAs (Decidable (_ ∧ _))

/-- Words are stored from an address on. -/
def storeWords (memory : Memory) (address : Nat) : List DWord → Memory
  | [] => memory
  | first :: rest =>
      (storeWords memory (address + 4) rest).store32 address first.toNat

/-- The memories agree outside a range of addresses. -/
def SameOutside (before after : Memory) (start stop : Nat) : Prop :=
  ∀ address, address < start ∨ stop ≤ address → after address = before address

section Words

variable {memory before after third : Memory} {address start stop : Nat}
variable {words rest : List DWord}

theorem holds_cons {first : DWord} :
    HoldsWords memory address (first :: rest) ↔
      memory.load32 address = first.toNat ∧ HoldsWords memory (address + 4) rest :=
  Iff.rfl

theorem holds_append :
    HoldsWords memory address (words ++ rest) ↔
      HoldsWords memory address words ∧
        HoldsWords memory (address + 4 * words.length) rest := by
  induction words generalizing address with
  | nil => simp [HoldsWords]
  | cons first others inductionHypothesis =>
      have next : address + 4 + 4 * others.length = address + 4 * (others.length + 1) := by omega
      rw [List.cons_append, holds_cons, holds_cons, inductionHypothesis,
        List.length_cons, next, and_assoc]

/-- One of the words. -/
theorem HoldsWords.get (held : HoldsWords memory address words) {index : Nat}
    {value : DWord} (known : words[index]? = some value) :
    memory.load32 (address + 4 * index) = value.toNat := by
  induction words generalizing address index with
  | nil => simp at known
  | cons first others inductionHypothesis =>
      cases index with
      | zero =>
          cases known
          exact held.1
      | succ index =>
          have next : address + 4 * (index + 1) = address + 4 + 4 * index := by
            omega
          rw [next]
          exact inductionHypothesis held.2 known

/-- What is held depends on the words alone. -/
theorem HoldsWords.congr (held : HoldsWords before address words)
    (same : before.AgreeOn after address (address + 4 * words.length)) :
    HoldsWords after address words := by
  induction words generalizing address with
  | nil => trivial
  | cons first others inductionHypothesis =>
      rw [List.length_cons] at same
      refine ⟨?_, inductionHypothesis held.2 (same.mono (by omega) (by omega))⟩
      rw [← held.1]
      exact (same.mono (Nat.le_refl _) (by omega)).load32_eq.symm

/-- A store elsewhere keeps the words. -/
theorem HoldsWords.store (held : HoldsWords memory address words) {place value : Nat}
    (apart : Apart address (address + 4 * words.length) place (place + 4)) :
    HoldsWords (memory.store32 place value) address words := by
  apply held.congr
  intro other lower upper
  exact (Memory.store32_agreeOn apart other lower upper).symm

theorem holds_storeWords (memory : Memory) (address : Nat) (words : List DWord) :
    HoldsWords (storeWords memory address words) address words := by
  induction words generalizing address with
  | nil => trivial
  | cons first rest inductionHypothesis =>
      refine ⟨Memory.load32_store32 first.isLt, ?_⟩
      exact (inductionHypothesis (address + 4)).store (Or.inr (Nat.le_refl _))

/-- A store of one of the words. -/
theorem HoldsWords.set (held : HoldsWords memory address words) (index : Nat)
    (inside : index < words.length) (value : DWord) :
    HoldsWords (memory.store32 (address + 4 * index) value.toNat) address
      (words.set index value) := by
  induction words generalizing address index with
  | nil => simp at inside
  | cons first others inductionHypothesis =>
      cases index with
      | zero =>
          refine ⟨Memory.load32_store32 value.isLt, ?_⟩
          exact held.2.store (Or.inr (Nat.le_refl _))
      | succ index =>
          have next : address + 4 * (index + 1) = address + 4 + 4 * index := by
            omega
          rw [next]
          refine ⟨?_, inductionHypothesis held.2 index (Nat.lt_of_succ_lt_succ inside)⟩
          rw [← held.1]
          exact Memory.load32_store32_of_apart (Or.inl (Nat.le_add_right _ _))

/-- A range that has been cleared. -/
theorem holds_fill {size : Nat} (count : Nat) (lower : start ≤ address)
    (upper : address + 4 * count ≤ start + size) :
    HoldsWords (memory.fill start size 0) address (List.replicate count 0#32) := by
  induction count generalizing address with
  | zero => trivial
  | succ count inductionHypothesis =>
      refine ⟨?_, inductionHypothesis (by omega) (by omega)⟩
      have byte : ∀ index, index < 4 →
          memory.fill start size 0 (address + index) = 0 := by
        intro index small
        rw [Memory.fill, if_pos (by omega)]
      rw [Memory.load32, byte 1 (by decide), byte 2 (by decide),
        byte 3 (by decide), ← Nat.add_zero address, byte 0 (by decide)]
      rfl

theorem SameOutside.refl (memory : Memory) (start stop : Nat) :
    SameOutside memory memory start stop :=
  fun _ _ => rfl

theorem SameOutside.trans {middle : Nat} (first : SameOutside before after middle stop)
    (second : SameOutside after third start middle) (le : start ≤ middle)
    (le' : middle ≤ stop) : SameOutside before third start stop := by
  intro address outside
  rw [second address (by omega), first address (by omega)]

theorem sameOutside_store (memory : Memory) {place value : Nat}
    (lower : start ≤ place) (upper : place + 4 ≤ stop) :
    SameOutside memory (memory.store32 place value) start stop := by
  intro address outside
  rw [Memory.store32, if_neg (by omega)]

/-- Words outside the range are still there. -/
theorem SameOutside.holds (same : SameOutside before after start stop)
    (held : HoldsWords before address words) (le : stop ≤ address) :
    HoldsWords after address words := by
  apply held.congr
  intro other lower _
  exact (same other (Or.inr (Nat.le_trans le lower))).symm

end Words

namespace Processor

/-- The stack pointer as an address. -/
def sp (m : Processor) : Nat := m.context.esp.toNat

/-- `pushl` -/
def push (m : Processor) (value : DWord) : Processor where
  context := { m.context with esp := m.context.esp - 4#32 }
  memory := m.memory.store32 (m.context.esp - 4#32).toNat value.toNat

/-- The word at an offset from the stack pointer. -/
def peek (m : Processor) (offset : DWord) : DWord :=
  BitVec.ofNat 32 (m.memory.load32 (m.context.esp + offset).toNat)

/-- `movl value, offset(%esp)` -/
def poke (m : Processor) (offset value : DWord) : Processor :=
  { m with
    memory := m.memory.store32 (m.context.esp + offset).toNat value.toNat }

/-- `addl $size, %esp` -/
def discard (m : Processor) (size : DWord) : Processor :=
  { m with context := { m.context with esp := m.context.esp + size } }

/-- A register is changed. -/
def withRegs (m : Processor) (regs : Registers) : Processor :=
  { m with context := { m.context with regs := regs } }

def withSegs (m : Processor) (segs : DataSegments) : Processor :=
  { m with context := { m.context with segs := segs } }

/-- The words on the stack. -/
def OnStack (m : Processor) (words : List DWord) : Prop := HoldsWords m.memory m.sp words

/-- Words have been pushed on a stack that started at an address, and nothing else
has changed. -/
structure Grown (memory : Memory) (base : Nat) (after : Processor)
    (words : List DWord) : Prop where
  sp : after.sp + 4 * words.length = base
  held : after.OnStack words
  outside : SameOutside memory after.memory after.sp base

@[simp]
theorem push_context (m : Processor) (value : DWord) :
    (m.push value).context = { m.context with esp := m.context.esp - 4#32 } := rfl

section Stack

variable {m after : Processor} {words others : List DWord} {value : DWord}

theorem push_sp (value : DWord) (room : 4 ≤ m.sp) : (m.push value).sp + 4 = m.sp := by
  rw [sp, push, sp]
  have bound := m.context.esp.isLt
  have enough : 4 ≤ m.context.esp.toNat := room
  simp only [BitVec.toNat_sub, BitVec.toNat_ofNat]
  omega

/-- The stack pointer with an offset that stays in the address space. -/
theorem offset_toNat {offset : DWord} (inside : m.sp + offset.toNat < 2 ^ 32) :
    (m.context.esp + offset).toNat = m.sp + offset.toNat := by
  rw [BitVec.toNat_add]
  exact Nat.mod_eq_of_lt inside

/-- No push. -/
theorem grown_refl (m : Processor) : Grown m.memory m.sp m [] :=
  ⟨rfl, trivial, SameOutside.refl _ _ _⟩

/-- One push. -/
theorem Grown.push {memory : Memory} {base : Nat}
    (grown : Grown memory base m words) (value : DWord) (room : 4 * words.length + 4 ≤ base) :
    Grown memory base (m.push value) (value :: words) := by
  have start := grown.sp
  have place : (m.push value).sp + 4 = m.sp := push_sp value (by omega)
  have kept : SameOutside m.memory (m.push value).memory (m.push value).sp m.sp :=
    sameOutside_store m.memory (Nat.le_refl _) (Nat.le_of_eq place)
  constructor
  · rw [List.length_cons]
    omega
  · refine ⟨Memory.load32_store32 value.isLt, ?_⟩
    rw [place]
    exact kept.holds grown.held (Nat.le_refl _)
  · exact grown.outside.trans kept (by omega) (by omega)

/-- A word that has been pushed is replaced. -/
theorem Grown.poke {memory : Memory} {base : Nat} {old : DWord}
    (grown : Grown memory base m (words ++ old :: others)) (offset : DWord)
    (place : offset.toNat = 4 * words.length) (value : DWord) (inside : base < 2 ^ 32) :
    Grown memory base (m.poke offset value) (words ++ value :: others) := by
  have start := grown.sp
  rw [List.length_append, List.length_cons] at start
  have here : (m.context.esp + offset).toNat = m.sp + 4 * words.length := by
    rw [← place]
    apply offset_toNat
    omega
  have held := holds_append.mp grown.held
  rw [holds_cons] at held
  have kept : m.sp + 4 * words.length + 4 ≤ base := by omega
  constructor
  · rw [List.length_append, List.length_cons]
    exact start
  · apply holds_append.mpr
    change HoldsWords (m.memory.store32 (m.context.esp + offset).toNat value.toNat)
        m.sp words ∧
      HoldsWords (m.memory.store32 (m.context.esp + offset).toNat value.toNat)
        (m.sp + 4 * words.length) (value :: others)
    rw [here]
    refine ⟨held.1.store (Or.inl (Nat.le_refl _)), ?_, ?_⟩
    · exact Memory.load32_store32 value.isLt
    · exact held.2.2.store (Or.inr (Nat.le_refl _))
  · change SameOutside memory
      (m.memory.store32 (m.context.esp + offset).toNat value.toNat) m.sp base
    rw [here]
    intro address outside
    rw [Memory.store32, if_neg (by omega)]
    exact grown.outside address outside

/-- The stack does not depend on the other registers. -/
theorem Grown.congr {memory : Memory} {base : Nat} (grown : Grown memory base m words)
    (esp : after.context.esp = m.context.esp)
    (same : after.memory = m.memory) : Grown memory base after words := by
  have place : after.sp = m.sp := by
    rw [Processor.sp, Processor.sp, esp]
  constructor
  · rw [place]
    exact grown.sp
  · rw [OnStack, same, place]
    exact grown.held
  · rw [same, place]
    exact grown.outside

/-- A word on the stack. -/
theorem peek_onStack (words : List DWord)
    (stack : m.OnStack (words ++ value :: others)) {offset : DWord} (place : offset.toNat = 4 * words.length)
    (inside : m.sp + offset.toNat < 2 ^ 32) : m.peek offset = value := by
  have held := (holds_append.mp stack).2
  rw [holds_cons] at held
  rw [peek, offset_toNat inside, place, held.1]
  rw [BitVec.ofNat_toNat, BitVec.setWidth_eq]

/-- A word on the stack by its number. -/
theorem peek_get (stack : m.OnStack words) (index : Nat)
    (known : words[index]? = some value) {offset : DWord} (place : offset.toNat = 4 * index)
    (inside : m.sp + offset.toNat < 2 ^ 32) : m.peek offset = value := by
  rw [peek, offset_toNat inside, place, HoldsWords.get stack known,
    BitVec.ofNat_toNat, BitVec.setWidth_eq]

theorem discard_sp {size : DWord} (inside : m.sp + size.toNat < 2 ^ 32) :
    (m.discard size).sp = m.sp + size.toNat := by
  rw [sp, discard]
  exact offset_toNat inside

/-- Words are taken off the stack. -/
theorem discard_onStack (words : List DWord)
    (stack : m.OnStack (words ++ others)) {size : DWord} (place : size.toNat = 4 * words.length)
    (inside : m.sp + size.toNat < 2 ^ 32) :
    (m.discard size).OnStack others := by
  have held := (holds_append.mp stack).2
  rw [OnStack, discard_sp inside, place]
  exact held

end Stack

end Processor

/-! ## Interrupts -/

/-- A gate to a handler in ring 0.  An interrupt gate turns interrupts off. -/
structure Gate where
  selector : BitVec 16
  offset : DWord
  interrupt : Bool

/-- The stack for ring 0 in the task-state segment. -/
structure TaskState where
  ss0 : BitVec 16
  esp0 : DWord

/-- The flags that a handler starts with. -/
def Gate.flags (gate : Gate) (eflags : DWord) : DWord :=
  let cleared := trapFlag ||| nestedFlag ||| resumeFlag ||| virtualFlag
  if gate.interrupt then eflags &&& ~~~(cleared ||| interruptFlag)
  else eflags &&& ~~~cleared

/-- A selector of a segment that the new ring may not use becomes null. -/
def nullPrivileged (dpl : BitVec 16 → BitVec 2) (level : BitVec 2)
    (selector : BitVec 16) : BitVec 16 :=
  if dpl selector < level then 0#16 else selector

/-- The data segments after a return to an outer ring. -/
def DataSegments.nulled (segs : DataSegments) (dpl : BitVec 16 → BitVec 2)
    (level : BitVec 2) : DataSegments where
  gs := nullPrivileged dpl level segs.gs
  fs := nullPrivileged dpl level segs.fs
  es := nullPrivileged dpl level segs.es
  ds := nullPrivileged dpl level segs.ds

namespace Processor

/-- Code in an outer ring is left for the stack of ring 0. -/
def switchStack (m : Processor) (task : TaskState) : Processor :=
  if ring m.context.cs = 0#2 then m
  else
    let inner := { m with context := { m.context with ss := task.ss0, esp := task.esp0 } }
    (inner.push (m.context.ss.setWidth 32)).push m.context.esp

/-- The processor takes an interrupt, for some exceptions with an error code. -/
def interrupt (m : Processor) (task : TaskState) (gate : Gate) (error : Option DWord) : Processor :=
  let stacked := m.switchStack task
  let saved := ((stacked.push m.context.eflags).push (m.context.cs.setWidth 32)).push m.context.eip
  let coded :=
    match error with
    | some code => saved.push code
    | none => saved
  { coded with
    context :=
      { coded.context with
        cs := gate.selector
        eip := gate.offset
        eflags := gate.flags m.context.eflags } }

/-- `iret`, where `dpl` is the privilege level of the segment of a selector. -/
def iret (m : Processor) (dpl : BitVec 16 → BitVec 2) : Processor :=
  let eip := m.peek 0#32
  let cs := (m.peek 4#32).setWidth 16
  let eflags := m.peek 8#32
  if ring cs = ring m.context.cs then
    { m.discard 12#32 with
      context :=
        { (m.discard 12#32).context with eip := eip, cs := cs, eflags := eflags } }
  else
    { m with
      context :=
        { m.context with
          eip := eip
          cs := cs
          eflags := eflags
          esp := m.peek 12#32
          ss := (m.peek 16#32).setWidth 16
          segs := m.context.segs.nulled dpl (ring cs) } }

end Processor

/-- What the processor puts on the stack, the last word first. -/
def Context.saved (context : Context) : List DWord :=
  [context.eip, context.cs.setWidth 32, context.eflags] ++
    if ring context.cs = 0#2 then [] else [context.esp, context.ss.setWidth 32]

/-- The top of the stack on which an interrupt is handled. -/
def Context.base (context : Context) (task : TaskState) : Nat :=
  if ring context.cs = 0#2 then context.esp.toNat else task.esp0.toNat

namespace Processor

section Interrupts

variable {m : Processor} {task : TaskState} {gate : Gate} {error : Option DWord}

/-- The stack after the switch to ring 0. -/
theorem switchStack_grown (room : 8 ≤ m.context.base task) :
    Grown m.memory (m.context.base task) (m.switchStack task)
      (if ring m.context.cs = 0#2 then []
        else [m.context.esp, m.context.ss.setWidth 32]) := by
  by_cases kernel : ring m.context.cs = 0#2
  · rw [Context.base, if_pos kernel, if_pos kernel, switchStack, if_pos kernel]
    exact grown_refl m
  · rw [Context.base, if_neg kernel] at room ⊢
    rw [if_neg kernel, switchStack, if_neg kernel]
    have inner := grown_refl
      { m with context := { m.context with ss := task.ss0, esp := task.esp0 } }
    exact (inner.push (m.context.ss.setWidth 32)
      (Nat.le_trans (by decide) room)).push m.context.esp room

/-- What is on the stack when a handler starts. -/
theorem interrupt_grown (room : 24 ≤ m.context.base task) :
    Grown m.memory (m.context.base task) (m.interrupt task gate error)
      (error.toList ++ m.context.saved) := by
  have stacked : Grown m.memory (m.context.base task) (m.switchStack task)
      (if ring m.context.cs = 0#2 then []
        else [m.context.esp, m.context.ss.setWidth 32]) :=
    switchStack_grown (Nat.le_trans (by decide) room)
  have small : (if ring m.context.cs = 0#2 then ([] : List DWord)
      else [m.context.esp, m.context.ss.setWidth 32]).length ≤ 2 := by
    split <;> simp
  have saved := ((stacked.push m.context.eflags (by omega)).push
    (m.context.cs.setWidth 32) (by simp only [List.length_cons]; omega)).push
      m.context.eip (by simp only [List.length_cons]; omega)
  cases error with
  | none => exact saved.congr rfl rfl
  | some code =>
      have coded := saved.push code (by simp only [List.length_cons]; omega)
      exact coded.congr rfl rfl

/-- The registers that a handler starts with. -/
theorem interrupt_context (m : Processor) (task : TaskState) (gate : Gate) (error : Option DWord) :
    ∃ esp, (m.interrupt task gate error).context =
      { m.context with
        esp := esp
        ss := if ring m.context.cs = 0#2 then m.context.ss else task.ss0
        cs := gate.selector
        eip := gate.offset
        eflags := gate.flags m.context.eflags } := by
  have stacked : ∃ esp, (m.switchStack task).context =
      { m.context with
        esp := esp
        ss := if ring m.context.cs = 0#2 then m.context.ss else task.ss0 } := by
    rw [switchStack]
    by_cases kernel : ring m.context.cs = 0#2
    · rw [if_pos kernel, if_pos kernel]
      exact ⟨m.context.esp, rfl⟩
    · rw [if_neg kernel, if_neg kernel, push_context, push_context]
      exact ⟨_, rfl⟩
  rcases stacked with ⟨esp, stacked⟩
  cases error with
  | none => exact ⟨esp - 4#32 - 4#32 - 4#32, by simp [interrupt, stacked]⟩
  | some code =>
      exact ⟨esp - 4#32 - 4#32 - 4#32 - 4#32, by simp [interrupt, stacked]⟩

end Interrupts

section Return

variable {m : Processor} {context : Context} {dpl : BitVec 16 → BitVec 2}
variable {rest : List DWord}

theorem setWidth_selector (selector : BitVec 16) :
    (selector.setWidth 32).setWidth 16 = selector := by
  rw [BitVec.setWidth_setWidth_of_le _ (by decide), BitVec.setWidth_eq]

/-- What `iret` finds on the stack for both rings. -/
theorem peek_return
    (stack : m.OnStack ([context.eip, context.cs.setWidth 32, context.eflags] ++ rest))
    (room : m.sp + 12 < 2 ^ 32) :
    m.peek 0#32 = context.eip ∧ m.peek 4#32 = context.cs.setWidth 32 ∧
      m.peek 8#32 = context.eflags := by
  refine ⟨peek_onStack [] stack rfl ?_, peek_onStack [context.eip] stack rfl ?_,
    peek_onStack [context.eip, context.cs.setWidth 32] stack rfl ?_⟩
  · change m.sp + 0 < 2 ^ 32
    omega
  · change m.sp + 4 < 2 ^ 32
    omega
  · change m.sp + 8 < 2 ^ 32
    omega

/-- `iret` to the kernel. -/
theorem iret_kernel (kernel : ring context.cs = 0#2) (level : ring m.context.cs = 0#2)
    (stack : m.OnStack (context.saved ++ rest)) (room : m.sp + 12 < 2 ^ 32) :
    m.iret dpl =
      { m with
        context :=
          { m.context with
            eip := context.eip
            cs := context.cs
            eflags := context.eflags
            esp := m.context.esp + 12#32 } } := by
  rw [Context.saved, if_pos kernel] at stack
  rcases peek_return stack room with ⟨eip, cs, eflags⟩
  rw [iret]
  dsimp only
  rw [eip, cs, eflags, setWidth_selector, if_pos (kernel.trans level.symm)]
  rfl

/-- `iret` to an outer ring. -/
theorem iret_user (user : ring context.cs ≠ 0#2) (level : ring m.context.cs = 0#2)
    (stack : m.OnStack (context.saved ++ rest)) (room : m.sp + 20 < 2 ^ 32) :
    m.iret dpl =
      { m with
        context :=
          { context with
            regs := m.context.regs
            segs := m.context.segs.nulled dpl (ring context.cs) } } := by
  rw [Context.saved, if_neg user] at stack
  have returned : m.OnStack ([context.eip, context.cs.setWidth 32, context.eflags] ++
      ([context.esp, context.ss.setWidth 32] ++ rest)) := stack
  rcases peek_return returned (by omega) with ⟨eip, cs, eflags⟩
  have esp : m.peek 12#32 = context.esp := by
    apply peek_onStack [context.eip, context.cs.setWidth 32, context.eflags] stack rfl
    change m.sp + 12 < 2 ^ 32
    omega
  have ss : m.peek 16#32 = context.ss.setWidth 32 := by
    apply peek_onStack [context.eip, context.cs.setWidth 32, context.eflags, context.esp] stack rfl
    change m.sp + 16 < 2 ^ 32
    omega
  have outer : ¬ring context.cs = ring m.context.cs := by
    rw [level]
    exact user
  rw [iret]
  dsimp only
  rw [eip, cs, eflags, esp, ss, setWidth_selector, setWidth_selector, if_neg outer]

end Return

end Processor

end CS162.Foundation.ProtectedMode
