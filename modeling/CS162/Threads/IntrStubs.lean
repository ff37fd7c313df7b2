import CS162.Foundation.ProtectedMode

/-!
# Interrupt stubs

`threads/intr-stubs.S`: what the stubs, `intr_entry` and `intr_exit` do with the
stack, for every vector and every state of the interrupted task.  The program
counter is followed only where it is stored or loaded.
-/

namespace CS162.Threads

open CS162.Foundation CS162.Foundation.ProtectedMode
open CS162.Foundation.ProtectedMode.Processor

/-- `SEL_KCSEG`. -/
def selKcseg : BitVec 16 := 0x08#16

/-- `SEL_KDSEG`. -/
def selKdseg : BitVec 16 := 0x10#16

def directionFlag : DWord := 0x400#32

/-- The second argument of `STUB`. -/
inductive StubType where
  | zero
  | real
  deriving DecidableEq

/-- The stubs with `REAL`. -/
def realStubs : List (BitVec 8) :=
  [0x08#8, 0x0a#8, 0x0b#8, 0x0d#8, 0x0e#8, 0x11#8, 0x18#8, 0x1a#8, 0x1b#8, 0x1d#8, 0x1e#8]

/-- The table of stubs. -/
def stubType (vec : BitVec 8) : StubType :=
  if vec ∈ realStubs then .real else .zero

/-- The exceptions for which the processor pushes an error code: `#DF`, `#TS`,
`#NP`, `#SS`, `#GP`, `#PF` and `#AC`. -/
def pushesErrorCode (vec : BitVec 8) : Bool :=
  vec ∈ [0x08#8, 0x0a#8, 0x0b#8, 0x0c#8, 0x0d#8, 0x0e#8, 0x11#8]

/-- The exceptions of the processor. -/
def exceptions : List (BitVec 8) :=
  [0x00#8, 0x01#8, 0x02#8, 0x03#8, 0x04#8, 0x05#8, 0x06#8, 0x07#8, 0x08#8,
    0x0a#8, 0x0b#8, 0x0c#8, 0x0d#8, 0x0e#8, 0x10#8, 0x11#8, 0x12#8, 0x13#8]

/-- What can arrive at a vector: an exception, an interrupt or `int` from 0x20 on,
or an `int` for one of the exceptions that user programs may cause themselves. -/
def Occurs (vec : BitVec 8) (error : Option DWord) : Prop :=
  (vec ∈ exceptions ∧ error.isSome = pushesErrorCode vec) ∨
    ((0x20 ≤ vec.toNat ∨ vec ∈ [0x03#8, 0x04#8, 0x05#8]) ∧ error = none)

/-- `struct intr_frame`: the registers of the interrupted task and what the stubs
add to them. -/
structure IntrStack where
  context : Context
  espDummy : DWord
  vecNo : DWord
  errorCode : DWord
  framePointer : DWord

/-- What `pushal` and the four pushes before it save, the last word first. -/
def savedRegs (regs : Registers) (segs : DataSegments) (esp : DWord) : List DWord :=
  [regs.edi, regs.esi, regs.ebp, esp, regs.ebx, regs.edx, regs.ecx, regs.eax,
    segs.gs.setWidth 32, segs.fs.setWidth 32, segs.es.setWidth 32,
    segs.ds.setWidth 32]

/-- The members of the structure in memory. -/
def IntrStack.words (frame : IntrStack) : List DWord :=
  savedRegs frame.context.regs frame.context.segs frame.espDummy ++
    [frame.vecNo, frame.errorCode, frame.framePointer] ++ frame.context.saved

/-- A stub, up to its jump. -/
def stub (type : StubType) (vec : BitVec 8) (m : Processor) : Processor :=
  let typed :=
    match type with
    | .zero => (m.push m.context.regs.ebp).push 0#32
    | .real => (m.push (m.peek 0#32)).poke 4#32 m.context.regs.ebp
  typed.push (vec.setWidth 32)

/-- `pushal`. -/
def pushal (m : Processor) : Processor :=
  let regs := m.context.regs
  let upper := (((m.push regs.eax).push regs.ecx).push regs.edx).push regs.ebx
  (((upper.push m.context.esp).push regs.ebp).push regs.esi).push regs.edi

/-- The registers with which the kernel works. -/
def kernelEnvironment (m : Processor) : Processor :=
  { m with
    context :=
      { m.context with
        regs :=
          { m.context.regs with
            eax := selKdseg.setWidth 32
            ebp := m.context.esp + 56#32 }
        segs := { m.context.segs with ds := selKdseg, es := selKdseg }
        eflags := m.context.eflags &&& ~~~directionFlag } }

/-- The four pushes of segment registers. -/
def pushSegments (m : Processor) : Processor :=
  let segs := m.context.segs
  (((m.push (segs.ds.setWidth 32)).push (segs.es.setWidth 32)).push
    (segs.fs.setWidth 32)).push (segs.gs.setWidth 32)

/-- `intr_entry`, up to `call intr_handler`. -/
def intrEntry (m : Processor) : Processor :=
  let kernel := kernelEnvironment (pushal (pushSegments m))
  kernel.push kernel.context.esp

/-- `popal`. -/
def popal (m : Processor) : Processor :=
  (m.withRegs
    { edi := m.peek 0#32
      esi := m.peek 4#32
      ebp := m.peek 8#32
      ebx := m.peek 16#32
      edx := m.peek 20#32
      ecx := m.peek 24#32
      eax := m.peek 28#32 }).discard 32#32

/-- The four pops of segment registers. -/
def popSegments (m : Processor) : Processor :=
  (m.withSegs
    { gs := (m.peek 0#32).setWidth 16
      fs := (m.peek 4#32).setWidth 16
      es := (m.peek 8#32).setWidth 16
      ds := (m.peek 12#32).setWidth 16 }).discard 16#32

/-- `intr_exit`. -/
def intrExit (dpl : BitVec 16 → BitVec 2) (m : Processor) : Processor :=
  ((popSegments (popal m)).discard 12#32).iret dpl

/-- From an instruction of a task to the call of `intr_handler`. -/
def enterHandler (task : TaskState) (gate : Gate) (vec : BitVec 8)
    (error : Option DWord) (m : Processor) : Processor :=
  intrEntry (stub (stubType vec) vec (m.interrupt task gate error))

/-- `intr_handler` has returned: it has kept what the calling convention demands
and may have changed its argument, the frame and memory outside the stack. -/
structure HandlerReturned (before after : Processor) (frame : IntrStack) : Prop where
  esp : after.context.esp = before.context.esp
  cs : after.context.cs = before.context.cs
  ss : after.context.ss = before.context.ss
  held : HoldsWords after.memory (before.sp + 4) frame.words

instance (before after : Processor) (frame : IntrStack) :
    Decidable (HandlerReturned before after frame) :=
  decidable_of_iff
    (after.context.esp = before.context.esp ∧ after.context.cs = before.context.cs ∧
      after.context.ss = before.context.ss ∧ HoldsWords after.memory (before.sp + 4) frame.words)
    ⟨fun ⟨esp, cs, ss, held⟩ => ⟨esp, cs, ss, held⟩,
      fun back => ⟨back.esp, back.cs, back.ss, back.held⟩⟩

/-- From the return of `intr_handler` on. -/
def leaveHandler (dpl : BitVec 16 → BitVec 2) (m : Processor) : Processor :=
  intrExit dpl (m.discard 4#32)

theorem saved_length_le (context : Context) : context.saved.length ≤ 5 := by
  rw [Context.saved]
  split <;> simp

/-! ## The way in -/

section Entry

variable {m : Processor} {memory : Memory} {base : Nat} {words : List DWord}

theorem pushSegments_grown (grown : Grown memory base m words)
    (room : 4 * words.length + 16 ≤ base) :
    Grown memory base (pushSegments m)
      (m.context.segs.gs.setWidth 32 :: m.context.segs.fs.setWidth 32 ::
        m.context.segs.es.setWidth 32 :: m.context.segs.ds.setWidth 32 ::
          words) :=
  (((grown.push (m.context.segs.ds.setWidth 32) (by omega)).push
    (m.context.segs.es.setWidth 32) (by simp only [List.length_cons]; omega)).push
    (m.context.segs.fs.setWidth 32) (by simp only [List.length_cons]; omega)).push
    (m.context.segs.gs.setWidth 32) (by simp only [List.length_cons]; omega)

theorem pushal_grown (grown : Grown memory base m words) (room : 4 * words.length + 32 ≤ base) :
    Grown memory base (pushal m)
      (m.context.regs.edi :: m.context.regs.esi :: m.context.regs.ebp ::
        m.context.esp :: m.context.regs.ebx :: m.context.regs.edx ::
          m.context.regs.ecx :: m.context.regs.eax :: words) := by
  have upper := (((grown.push m.context.regs.eax (by omega)).push
    m.context.regs.ecx (by simp only [List.length_cons]; omega)).push
      m.context.regs.edx (by simp only [List.length_cons]; omega)).push
        m.context.regs.ebx (by simp only [List.length_cons]; omega)
  exact (((upper.push m.context.esp (by simp only [List.length_cons]; omega)).push
    m.context.regs.ebp (by simp only [List.length_cons]; omega)).push
      m.context.regs.esi (by simp only [List.length_cons]; omega)).push
        m.context.regs.edi (by simp only [List.length_cons]; omega)

theorem kernelEnvironment_grown (grown : Grown memory base m words) :
    Grown memory base (kernelEnvironment m) words :=
  grown.congr rfl rfl

/-- `intr_entry` puts the registers on the stack, and then their address. -/
theorem intrEntry_grown (grown : Grown memory base m words) (room : 4 * words.length + 52 ≤ base) :
    ∃ esp argument, Grown memory base (intrEntry m)
        (argument :: (savedRegs m.context.regs m.context.segs esp ++ words)) ∧
      argument.toNat = (intrEntry m).sp + 4 ∧
      (intrEntry m).context.regs.ebp = argument + 56#32 := by
  have registers := pushal_grown (pushSegments_grown grown (by omega))
    (by simp only [List.length_cons]; omega)
  have same : (pushSegments m).context.regs = m.context.regs := by
    simp [pushSegments]
  rw [same] at registers
  have kernel : Grown memory base (kernelEnvironment (pushal (pushSegments m)))
      (savedRegs m.context.regs m.context.segs (pushSegments m).context.esp ++
        words) :=
    kernelEnvironment_grown registers
  have start := kernel.sp
  have long : (savedRegs m.context.regs m.context.segs
      (pushSegments m).context.esp ++ words).length = words.length + 12 := by
    rw [List.length_append]
    exact Nat.add_comm _ _
  rw [long] at start
  refine ⟨(pushSegments m).context.esp,
    (kernelEnvironment (pushal (pushSegments m))).context.esp, ?_, ?_, ?_⟩
  · apply kernel.push
    rw [long]
    omega
  · exact (push_sp _ (by omega)).symm
  · simp [intrEntry, kernelEnvironment]

/-- A stub for an exception without an error code. -/
theorem stub_zero_grown (grown : Grown memory base m words)
    (room : 4 * words.length + 12 ≤ base) (vec : BitVec 8) :
    Grown memory base (stub .zero vec m)
      (vec.setWidth 32 :: 0#32 :: m.context.regs.ebp :: words) :=
  ((grown.push m.context.regs.ebp (by omega)).push 0#32
    (by simp only [List.length_cons]; omega)).push (vec.setWidth 32)
      (by simp only [List.length_cons]; omega)

/-- A stub for an exception with an error code. -/
theorem stub_real_grown {code : DWord} (grown : Grown memory base m (code :: words))
    (room : 4 * words.length + 12 ≤ base) (inside : base < 2 ^ 32) (vec : BitVec 8) :
    Grown memory base (stub .real vec m)
      (vec.setWidth 32 :: code :: m.context.regs.ebp :: words) := by
  have start := grown.sp
  rw [List.length_cons] at start
  have top : m.peek 0#32 = code := by
    apply peek_onStack [] grown.held rfl
    change m.sp + 0 < 2 ^ 32
    omega
  have copied : Grown memory base (m.push (m.peek 0#32)) ([code] ++ code :: words) := by
    rw [top]
    exact grown.push code (by simp only [List.length_cons]; omega)
  have replaced := copied.poke 4#32 rfl m.context.regs.ebp inside
  exact replaced.push (vec.setWidth 32)
    (by simp only [List.length_append, List.length_cons, List.length_nil]; omega)

/-- The stub fits the exception. -/
theorem stub_fits_grown {task : TaskState} {gate : Gate} {vec : BitVec 8}
    {error : Option DWord} (room : 36 ≤ m.context.base task)
    (fits : stubType vec = .real ↔ error.isSome = true) :
    Grown m.memory (m.context.base task)
      (stub (stubType vec) vec (m.interrupt task gate error))
      ([vec.setWidth 32, error.getD 0#32, m.context.regs.ebp] ++
        m.context.saved) := by
  have entered : Grown m.memory (m.context.base task)
      (m.interrupt task gate error) (error.toList ++ m.context.saved) :=
    interrupt_grown (Nat.le_trans (by decide) room)
  have few := saved_length_le m.context
  have inside : m.context.base task < 2 ^ 32 := by
    rw [Context.base]
    split
    · exact m.context.esp.isLt
    · exact task.esp0.isLt
  have ebp : (m.interrupt task gate error).context.regs.ebp =
      m.context.regs.ebp := by
    rcases interrupt_context m task gate error with ⟨esp, context⟩
    rw [context]
  rw [← ebp]
  cases error with
  | none =>
      have zero : stubType vec = .zero := by
        cases type : stubType vec with
        | zero => rfl
        | real => cases fits.mp type
      rw [zero]
      have enough : 4 * (([] : List DWord) ++ m.context.saved).length + 12 ≤
          m.context.base task := by
        rw [List.nil_append]
        omega
      exact stub_zero_grown entered enough vec
  | some code =>
      rw [fits.mpr rfl]
      have enough : 4 * m.context.saved.length + 12 ≤ m.context.base task := by
        omega
      exact stub_real_grown entered enough inside vec

/-- The processor's registers after the way in. -/
theorem enterHandler_context (task : TaskState) (gate : Gate) (vec : BitVec 8)
    (error : Option DWord) (m : Processor) :
    (enterHandler task gate vec error m).context.cs = gate.selector ∧
      (enterHandler task gate vec error m).context.ss =
        (if ring m.context.cs = 0#2 then m.context.ss else task.ss0) := by
  have stubs : ∀ (type : StubType) (other : Processor),
      (stub type vec other).context.cs = other.context.cs ∧
        (stub type vec other).context.ss = other.context.ss := by
    intro type other
    cases type <;> simp [stub, poke]
  have entry : ∀ other : Processor,
      (intrEntry other).context.cs = other.context.cs ∧
        (intrEntry other).context.ss = other.context.ss := by
    intro other
    simp [intrEntry, kernelEnvironment, pushal, pushSegments]
  have kept := stubs (stubType vec) (m.interrupt task gate error)
  have kept' := entry (stub (stubType vec) vec (m.interrupt task gate error))
  rcases interrupt_context m task gate error with ⟨esp, context⟩
  rw [enterHandler, kept'.1, kept'.2, kept.1, kept.2, context]
  exact ⟨rfl, rfl⟩

/-- The flags and the data segments after the way in. -/
theorem enterHandler_environment (task : TaskState) (gate : Gate) (vec : BitVec 8)
    (error : Option DWord) (m : Processor) :
    (enterHandler task gate vec error m).context.eflags =
        gate.flags m.context.eflags &&& ~~~directionFlag ∧
      (enterHandler task gate vec error m).context.segs =
        { m.context.segs with ds := selKdseg, es := selKdseg } := by
  have stubs : ∀ (type : StubType) (other : Processor),
      (stub type vec other).context.eflags = other.context.eflags ∧
        (stub type vec other).context.segs = other.context.segs := by
    intro type other
    cases type <;> simp [stub, poke]
  have entry : ∀ other : Processor,
      (intrEntry other).context.eflags = other.context.eflags &&& ~~~directionFlag ∧
        (intrEntry other).context.segs =
          { other.context.segs with ds := selKdseg, es := selKdseg } := by
    intro other
    simp [intrEntry, kernelEnvironment, pushal, pushSegments]
  obtain ⟨flags, segs⟩ := stubs (stubType vec) (m.interrupt task gate error)
  obtain ⟨flags', segs'⟩ := entry (stub (stubType vec) vec (m.interrupt task gate error))
  obtain ⟨esp, context⟩ := interrupt_context m task gate error
  rw [enterHandler, flags', segs', flags, segs, context]
  exact ⟨rfl, rfl⟩

end Entry

/-! ## The way out -/

section Exit

variable {m : Processor} {frame : IntrStack} {rest : List DWord}

/-- `popal`. -/
theorem popal_eq {regs : Registers} {segs : DataSegments} {esp : DWord}
    (stack : m.OnStack (savedRegs regs segs esp ++ rest)) (room : m.sp + 48 < 2 ^ 32) :
    popal m = (m.withRegs regs).discard 32#32 ∧
      (popal m).OnStack
        ([segs.gs.setWidth 32, segs.fs.setWidth 32, segs.es.setWidth 32,
          segs.ds.setWidth 32] ++ rest) := by
  have word : ∀ (words : List DWord) (value : DWord) (others : List DWord)
      (offset : DWord), savedRegs regs segs esp ++ rest = words ++ value :: others →
      offset.toNat = 4 * words.length → offset.toNat < 48 →
      m.peek offset = value := by
    intro words value others offset split place small
    apply peek_onStack words (split ▸ stack) place
    omega
  have registers : (⟨m.peek 0#32, m.peek 4#32, m.peek 8#32, m.peek 16#32,
      m.peek 20#32, m.peek 24#32, m.peek 28#32⟩ : Registers) = regs := by
    rw [word [] regs.edi _ 0#32 rfl rfl (by decide),
      word [regs.edi] regs.esi _ 4#32 rfl rfl (by decide),
      word [regs.edi, regs.esi] regs.ebp _ 8#32 rfl rfl (by decide),
      word [regs.edi, regs.esi, regs.ebp, esp] regs.ebx _ 16#32 rfl rfl (by decide),
      word [regs.edi, regs.esi, regs.ebp, esp, regs.ebx] regs.edx _ 20#32 rfl rfl (by decide),
      word [regs.edi, regs.esi, regs.ebp, esp, regs.ebx, regs.edx] regs.ecx _
        24#32 rfl rfl (by decide),
      word [regs.edi, regs.esi, regs.ebp, esp, regs.ebx, regs.edx, regs.ecx]
        regs.eax _ 28#32 rfl rfl (by decide)]
  constructor
  · rw [popal, registers]
  · rw [popal, registers]
    exact discard_onStack
      [regs.edi, regs.esi, regs.ebp, esp, regs.ebx, regs.edx, regs.ecx, regs.eax]
      stack rfl (Nat.lt_of_le_of_lt (Nat.add_le_add_left (by decide) _) room)

/-- The four pops of segment registers. -/
theorem popSegments_eq {segs : DataSegments}
    (stack : m.OnStack
      ([segs.gs.setWidth 32, segs.fs.setWidth 32, segs.es.setWidth 32,
        segs.ds.setWidth 32] ++ rest))
    (room : m.sp + 16 < 2 ^ 32) :
    popSegments m = (m.withSegs segs).discard 16#32 ∧
      (popSegments m).OnStack rest := by
  have word : ∀ (words : List DWord) (selector : BitVec 16)
      (others : List DWord) (offset : DWord),
      [segs.gs.setWidth 32, segs.fs.setWidth 32, segs.es.setWidth 32,
        segs.ds.setWidth 32] ++ rest = words ++ selector.setWidth 32 :: others →
      offset.toNat = 4 * words.length → offset.toNat < 16 →
      (m.peek offset).setWidth 16 = selector := by
    intro words selector others offset split place small
    have value : m.peek offset = selector.setWidth 32 := by
      apply peek_onStack words (split ▸ stack) place
      omega
    rw [value, setWidth_selector]
  have segments : (⟨(m.peek 0#32).setWidth 16, (m.peek 4#32).setWidth 16,
      (m.peek 8#32).setWidth 16, (m.peek 12#32).setWidth 16⟩ : DataSegments) = segs := by
    rw [word [] segs.gs _ 0#32 rfl rfl (by decide),
      word [segs.gs.setWidth 32] segs.fs _ 4#32 rfl rfl (by decide),
      word [segs.gs.setWidth 32, segs.fs.setWidth 32] segs.es _ 8#32 rfl rfl (by decide),
      word [segs.gs.setWidth 32, segs.fs.setWidth 32, segs.es.setWidth 32]
        segs.ds _ 12#32 rfl rfl (by decide)]
  constructor
  · rw [popSegments, segments]
  · rw [popSegments, segments]
    exact discard_onStack
      [segs.gs.setWidth 32, segs.fs.setWidth 32, segs.es.setWidth 32,
        segs.ds.setWidth 32] stack rfl room

/-- `intr_exit`, up to `iret`: the registers come from the frame. -/
theorem popped_eq (stack : m.OnStack (frame.words ++ rest)) (room : m.sp + 60 < 2 ^ 32) :
    (popSegments (popal m)).discard 12#32 =
        { m with
          context :=
            { m.context with
              regs := frame.context.regs
              segs := frame.context.segs
              esp := m.context.esp + 60#32 } } ∧
      ((popSegments (popal m)).discard 12#32).OnStack
        (frame.context.saved ++ rest) := by
  have words : frame.words ++ rest =
      savedRegs frame.context.regs frame.context.segs frame.espDummy ++
        ([frame.vecNo, frame.errorCode, frame.framePointer] ++
          (frame.context.saved ++ rest)) := by
    rw [IntrStack.words, List.append_assoc, List.append_assoc]
  rw [words] at stack
  rcases popal_eq stack (by omega) with ⟨registers, stack'⟩
  have inside : (m.withRegs frame.context.regs).sp + (32#32).toNat < 2 ^ 32 := by
    change m.sp + 32 < 2 ^ 32
    omega
  have place : (popal m).sp = m.sp + 32 := by
    rw [registers]
    exact discard_sp inside
  rcases popSegments_eq stack' (by omega) with ⟨segments, stack''⟩
  have inside' : ((popal m).withSegs frame.context.segs).sp + (16#32).toNat < 2 ^ 32 := by
    change (popal m).sp + 16 < 2 ^ 32
    omega
  have place' : (popSegments (popal m)).sp = m.sp + 48 := by
    rw [segments, discard_sp inside']
    change (popal m).sp + 16 = m.sp + 48
    omega
  constructor
  · have sum : m.context.esp + 32#32 + 16#32 + 12#32 = m.context.esp + 60#32 := by
      rw [BitVec.add_assoc, BitVec.add_assoc]
      rfl
    rw [segments, registers, ← sum]
    rfl
  · apply discard_onStack [frame.vecNo, frame.errorCode, frame.framePointer] stack'' rfl
    change (popSegments (popal m)).sp + 12 < 2 ^ 32
    omega

variable {dpl : BitVec 16 → BitVec 2}

/-- `intr_exit` to kernel code. -/
theorem intrExit_kernel (kernel : ring frame.context.cs = 0#2) (level : ring m.context.cs = 0#2)
    (stack : m.OnStack (frame.words ++ rest)) (room : m.sp + 72 < 2 ^ 32) :
    intrExit dpl m =
      { m with
        context :=
          { frame.context with
            esp := m.context.esp + 72#32
            ss := m.context.ss } } := by
  rcases popped_eq stack (by omega) with ⟨popped, stack'⟩
  have place : ((popSegments (popal m)).discard 12#32).sp = m.sp + 60 := by
    rw [popped]
    apply offset_toNat
    change m.sp + 60 < 2 ^ 32
    omega
  have level' : ring ((popSegments (popal m)).discard 12#32).context.cs = 0#2 := by
    rw [popped]
    exact level
  have sum : m.context.esp + 60#32 + 12#32 = m.context.esp + 72#32 := by
    rw [BitVec.add_assoc]
    rfl
  rw [intrExit, iret_kernel kernel level' stack' (by omega), popped, ← sum]

/-- `intr_exit` to user code. -/
theorem intrExit_user (user : ring frame.context.cs ≠ 0#2) (level : ring m.context.cs = 0#2)
    (stack : m.OnStack (frame.words ++ rest)) (room : m.sp + 80 < 2 ^ 32) :
    intrExit dpl m =
      { m with
        context :=
          { frame.context with
            segs := frame.context.segs.nulled dpl (ring frame.context.cs) } } := by
  rcases popped_eq stack (by omega) with ⟨popped, stack'⟩
  have place : ((popSegments (popal m)).discard 12#32).sp = m.sp + 60 := by
    rw [popped]
    apply offset_toNat
    change m.sp + 60 < 2 ^ 32
    omega
  have level' : ring ((popSegments (popal m)).discard 12#32).context.cs = 0#2 := by
    rw [popped]
    exact level
  rw [intrExit, iret_user user level' stack' (by omega), popped]

end Exit

/-! ## Both ways -/

section Transparent

variable {m returned : Processor} {task : TaskState} {gate : Gate}
variable {vec : BitVec 8} {error : Option DWord} {frame : IntrStack}

/-- The frame that `intr_handler` gets. -/
def givenFrame (m : Processor) (vec : BitVec 8) (error : Option DWord)
    (espDummy : DWord) : IntrStack where
  context := m.context
  espDummy := espDummy
  vecNo := vec.setWidth 32
  errorCode := error.getD 0#32
  framePointer := m.context.regs.ebp

/-- What `intr_handler` finds when it is called: the address of a frame with all
registers of the interrupted task, right under what was on the stack, and a frame
pointer for backtraces.  Nothing else in memory has changed. -/
structure HandlerEntered (m : Processor) (task : TaskState) (vec : BitVec 8)
    (error : Option DWord) (entered : Processor) : Prop where
  frame : ∃ espDummy argument,
    Grown m.memory (m.context.base task) entered
      (argument :: (givenFrame m vec error espDummy).words) ∧
    argument.toNat = entered.sp + 4 ∧
    entered.context.regs.ebp = argument + 56#32
  ss : entered.context.ss = if ring m.context.cs = 0#2 then m.context.ss else task.ss0

theorem handler_entered (room : 88 ≤ m.context.base task)
    (fits : stubType vec = .real ↔ error.isSome = true) :
    HandlerEntered m task vec error (enterHandler task gate vec error m) := by
  constructor
  · have few := saved_length_le m.context
    have stubbed : Grown m.memory (m.context.base task)
        (stub (stubType vec) vec (m.interrupt task gate error))
        ([vec.setWidth 32, error.getD 0#32, m.context.regs.ebp] ++
          m.context.saved) :=
      stub_fits_grown (by omega) fits
    have same : (stub (stubType vec) vec (m.interrupt task gate error)).context.regs =
          m.context.regs ∧
        (stub (stubType vec) vec (m.interrupt task gate error)).context.segs =
          m.context.segs := by
      rcases interrupt_context m task gate error with ⟨esp, context⟩
      cases stubType vec <;> simp [stub, poke, context]
    rcases intrEntry_grown stubbed (by
      rw [List.length_append]
      change 4 * (3 + m.context.saved.length) + 52 ≤ _
      omega) with ⟨esp, argument, grown, address, framePointer⟩
    rw [same.1, same.2] at grown
    refine ⟨esp, argument, ?_, address, framePointer⟩
    rw [IntrStack.words, List.append_assoc]
    exact grown
  · exact (enterHandler_context task gate vec error m).2

/-- The stub fits everything that can arrive at its vector, except for `#SS`. -/
theorem occurs_fits (occurs : Occurs vec error) (other : vec ≠ 0x0c#8) :
    stubType vec = .real ↔ error.isSome = true := by
  rcases occurs with ⟨exception, pushes⟩ | ⟨vector, rfl⟩
  · rw [pushes]
    have table : ∀ v ∈ exceptions, v ≠ 0x0c#8 →
        (stubType v = .real ↔ pushesErrorCode v = true) := by
      decide
    exact table vec exception other
  · have zero : stubType vec = .zero := by
      apply if_neg
      intro real
      rcases vector with high | low
      · have small : ∀ v ∈ realStubs, v.toNat < 0x20 := by decide
        exact absurd (small vec real) (Nat.not_lt.mpr high)
      · have others : ∀ v ∈ realStubs, v ∉ [0x03#8, 0x04#8, 0x05#8] := by decide
        exact others vec real low
    rw [zero]
    simp

/-- Kernel code at an address, with an empty stack below 0x1000. -/
def kernelTask (eip : DWord) : Processor where
  context :=
    { regs := ⟨0, 0, 0, 0, 0, 0, 0⟩
      segs := ⟨0, 0, 0, 0⟩
      eip := eip
      cs := selKcseg
      eflags := 0
      esp := 0x1000#32
      ss := selKdseg }
  memory := fun _ => 0

theorem kernelTask_base (eip : DWord) (task : TaskState) :
    (kernelTask eip).context.base task = 4096 := by
  have kernel : ring (kernelTask eip).context.cs = 0#2 := by
    change ring 0x08#16 = 0#2
    decide
  rw [Context.base, if_pos kernel]
  rfl

/-- What the task finds after the interrupt.  In user mode `iret` looks at the data
segments. -/
theorem interrupt_returned {regs : Registers} {dpl : BitVec 16 → BitVec 2}
    (room : 88 ≤ m.context.base task)
    (entered : HandlerEntered m task vec error (enterHandler task gate vec error m))
    (inner : ring gate.selector = 0#2)
    (back : HandlerReturned (enterHandler task gate vec error m) returned frame)
    (answer : frame.context = { m.context with regs := regs }) :
    leaveHandler dpl returned =
      { context :=
          { m.context with
            regs := regs
            segs :=
              if ring m.context.cs = 0#2 then m.context.segs
              else m.context.segs.nulled dpl (ring m.context.cs) }
        memory := returned.memory } := by
  rcases entered.frame with ⟨espDummy, argument, grown, _, _⟩
  have start := grown.sp
  have long : (argument :: (givenFrame m vec error espDummy).words).length =
      16 + m.context.saved.length := by
    rw [List.length_cons, IntrStack.words, List.length_append, List.length_append]
    change 12 + 3 + m.context.saved.length + 1 = _
    omega
  rw [long] at start
  have sp : returned.sp = (enterHandler task gate vec error m).sp := by
    rw [Processor.sp, Processor.sp, back.esp]
  have inside : m.context.base task < 2 ^ 32 := by
    rw [Context.base]
    split
    · exact m.context.esp.isLt
    · exact task.esp0.isLt
  have place : (returned.discard 4#32).sp = returned.sp + 4 := by
    apply offset_toNat
    change returned.sp + 4 < 2 ^ 32
    omega
  have stack : (returned.discard 4#32).OnStack (frame.words ++ []) := by
    rw [List.append_nil, OnStack, place, sp]
    exact back.held
  have level : ring (returned.discard 4#32).context.cs = 0#2 := by
    change ring returned.context.cs = 0#2
    rw [back.cs, (enterHandler_context task gate vec error m).1]
    exact inner
  rw [leaveHandler]
  by_cases kernel : ring m.context.cs = 0#2
  · have kernel' : ring frame.context.cs = 0#2 := by
      rw [answer]
      exact kernel
    have three : m.context.saved.length = 3 := by
      rw [Context.saved, if_pos kernel]
      rfl
    have base : m.context.base task = m.context.esp.toNat := by
      rw [Context.base, if_pos kernel]
    rw [intrExit_kernel kernel' level stack (by omega), answer]
    have esp : (returned.discard 4#32).context.esp + 72#32 = m.context.esp := by
      apply BitVec.eq_of_toNat_eq
      have moved : ((returned.discard 4#32).context.esp + 72#32).toNat =
          (returned.discard 4#32).sp + 72 := by
        apply offset_toNat
        change (returned.discard 4#32).sp + 72 < 2 ^ 32
        omega
      omega
    have ss : (returned.discard 4#32).context.ss = m.context.ss := by
      change returned.context.ss = m.context.ss
      rw [back.ss, (enterHandler_context task gate vec error m).2, if_pos kernel]
    rw [esp, ss, if_pos kernel]
    rfl
  · have user : ring frame.context.cs ≠ 0#2 := by
      rw [answer]
      exact kernel
    have five : m.context.saved.length = 5 := by
      rw [Context.saved, if_neg kernel]
      rfl
    rw [intrExit_user user level stack (by omega), answer, if_neg kernel]
    rfl

/-- What the task finds after the interrupt: its registers are as they were but for
what `intr_handler` has put in the frame, and memory is as it has left it. -/
theorem interrupt_transparent {regs : Registers} {dpl : BitVec 16 → BitVec 2}
    (room : 88 ≤ m.context.base task) (occurs : Occurs vec error) (other : vec ≠ 0x0c#8)
    (inner : ring gate.selector = 0#2)
    (segments : ring m.context.cs ≠ 0#2 →
      m.context.segs.nulled dpl (ring m.context.cs) = m.context.segs)
    (back : HandlerReturned (enterHandler task gate vec error m) returned frame)
    (answer : frame.context = { m.context with regs := regs }) :
    HandlerEntered m task vec error (enterHandler task gate vec error m) ∧
      leaveHandler dpl returned =
        { context := { m.context with regs := regs }
          memory := returned.memory } := by
  have entered : HandlerEntered m task vec error
      (enterHandler task gate vec error m) :=
    handler_entered room (occurs_fits occurs other)
  refine ⟨entered, ?_⟩
  rw [interrupt_returned room entered inner back answer]
  by_cases kernel : ring m.context.cs = 0#2
  · rw [if_pos kernel]
  · rw [if_neg kernel, segments kernel]

/-- A handler that does nothing, for a tick of the timer in kernel code. -/
theorem interrupt_transparent_timer :
    leaveHandler (fun _ => 0#2)
        (enterHandler ⟨0x10#16, 0⟩ ⟨0x08#16, 0, true⟩ 0x20#8 none (kernelTask 5#32)) =
      { context := (kernelTask 5#32).context
        memory :=
          (enterHandler ⟨0x10#16, 0⟩ ⟨0x08#16, 0, true⟩ 0x20#8 none
            (kernelTask 5#32)).memory } := by
  have room : 88 ≤ (kernelTask 5#32).context.base ⟨0x10#16, 0⟩ := by
    rw [kernelTask_base]
    decide
  have occurs : Occurs 0x20#8 none := Or.inr ⟨Or.inl (by decide), rfl⟩
  have entered : HandlerEntered (kernelTask 5#32) ⟨0x10#16, 0⟩ 0x20#8 none
      (enterHandler ⟨0x10#16, 0⟩ ⟨0x08#16, 0, true⟩ 0x20#8 none
        (kernelTask 5#32)) :=
    handler_entered room (occurs_fits occurs (by decide))
  rcases entered.frame with ⟨espDummy, argument, grown, _, _⟩
  have segments : ring (kernelTask 5#32).context.cs ≠ 0#2 →
      (kernelTask 5#32).context.segs.nulled (fun _ => 0#2)
        (ring (kernelTask 5#32).context.cs) = (kernelTask 5#32).context.segs :=
    fun user => absurd (by decide) user
  exact (interrupt_transparent room occurs (by decide) (by decide) segments
    ⟨rfl, rfl, rfl, grown.held.2⟩ rfl).2

/-- A member of the frame that `intr_handler` gets. -/
def frameMember (m : Processor) (offset : Nat) : DWord :=
  BitVec.ofNat 32 (m.memory.load32 ((m.peek 0#32).toNat + offset))

/-- `vec_no`, `error_code`, `eip`, `cs` and `eflags` are those of the interrupted
task. -/
def FrameRight (m : Processor) (vec : BitVec 8) (error : Option DWord)
    (entered : Processor) : Prop :=
  frameMember entered 48 = vec.setWidth 32 ∧
    frameMember entered 52 = error.getD 0#32 ∧
    frameMember entered 60 = m.context.eip ∧
    (frameMember entered 64).setWidth 16 = m.context.cs ∧
    frameMember entered 68 = m.context.eflags

/-- A word behind the argument. -/
theorem frameMember_get {memory : Memory} {base : Nat} {entered : Processor}
    {argument value : DWord} {words : List DWord}
    (grown : Grown memory base entered (argument :: words))
    (address : argument.toNat = entered.sp + 4) (index : Nat) (known : words[index]? = some value) :
    frameMember entered (4 * index) = value := by
  have top : entered.peek 0#32 = argument := by
    apply peek_onStack [] grown.held rfl
    exact entered.context.esp.isLt
  rw [frameMember, top, address, HoldsWords.get grown.held.2 known,
    BitVec.ofNat_toNat, BitVec.setWidth_eq]

/-- The frame of an exception with an error code that the stub does not expect:
from `eip` on every member is one word off. -/
theorem misfit_members {code : DWord} (zero : stubType vec = .zero)
    (room : 92 ≤ m.context.base task) :
    frameMember (enterHandler task gate vec (some code) m) 48 = vec.setWidth 32 ∧
      frameMember (enterHandler task gate vec (some code) m) 52 = 0#32 ∧
      frameMember (enterHandler task gate vec (some code) m) 60 = code ∧
      frameMember (enterHandler task gate vec (some code) m) 64 = m.context.eip ∧
      frameMember (enterHandler task gate vec (some code) m) 68 = m.context.cs.setWidth 32 := by
  have few := saved_length_le m.context
  have entered : Grown m.memory (m.context.base task)
      (m.interrupt task gate (some code)) (code :: m.context.saved) :=
    interrupt_grown (by omega)
  have stubbed := stub_zero_grown entered (by
    rw [List.length_cons]
    omega) vec
  rcases intrEntry_grown stubbed (by
    simp only [List.length_cons]
    omega) with ⟨esp, argument, grown, address, _⟩
  rw [enterHandler, zero]
  refine ⟨?_, ?_, ?_, ?_, ?_⟩
  · exact frameMember_get grown address 12 rfl
  · exact frameMember_get grown address 13 rfl
  · exact frameMember_get grown address 15 rfl
  · exact frameMember_get grown address 16 rfl
  · exact frameMember_get grown address 17 rfl

/-- The frame is right for everything that can arrive at a vector if and only if the
vector is not that of `#SS`, whose stub takes it for an exception without an error
code. -/
theorem frame_right_iff (occurs : Occurs vec error) :
    (∀ (task : TaskState) (gate : Gate) (m : Processor),
      92 ≤ m.context.base task → FrameRight m vec error (enterHandler task gate vec error m)) ↔
      vec ≠ 0x0c#8 := by
  constructor
  · rintro right rfl
    rcases occurs with ⟨_, pushes⟩ | ⟨vector, _⟩
    · cases error with
      | none => cases pushes
      | some code =>
          -- the interrupted task is at an address other than the error code
          have room : 92 ≤ (kernelTask (code + 1#32)).context.base ⟨0x10#16, 0⟩ := by
            rw [kernelTask_base]
            decide
          have members := right ⟨0x10#16, 0⟩ ⟨0x08#16, 0, true⟩ (kernelTask (code + 1#32)) room
          have zero : stubType 0x0c#8 = .zero := by decide
          have shifted := members.2.2.1
          rw [(misfit_members zero room).2.2.1] at shifted
          have moved : code ≠ code + 1#32 := by simp
          exact moved shifted
    · revert vector
      decide
  · intro other task gate m room
    have entered : HandlerEntered m task vec error
        (enterHandler task gate vec error m) :=
      handler_entered (by omega) (occurs_fits occurs other)
    rcases entered.frame with ⟨espDummy, argument, grown, address, _⟩
    have selector : frameMember (enterHandler task gate vec error m) 64 =
        m.context.cs.setWidth 32 :=
      frameMember_get grown address 16 rfl
    refine ⟨?_, ?_, ?_, ?_, ?_⟩
    · exact frameMember_get grown address 12 rfl
    · exact frameMember_get grown address 13 rfl
    · exact frameMember_get grown address 15 rfl
    · rw [selector, setWidth_selector]
    · exact frameMember_get grown address 17 rfl

/-- The frame of a page fault in kernel code. -/
theorem frame_right_iff_page_fault :
    FrameRight (kernelTask 5#32) 0x0e#8 (some 2#32)
      (enterHandler ⟨0x10#16, 0⟩ ⟨0x08#16, 0, true⟩ 0x0e#8 (some 2#32)
        (kernelTask 5#32)) := by
  have occurs : Occurs 0x0e#8 (some 2#32) := Or.inl ⟨by decide, by decide⟩
  have room : 92 ≤ (kernelTask 5#32).context.base ⟨0x10#16, 0⟩ := by
    rw [kernelTask_base]
    decide
  exact (frame_right_iff occurs).mpr (by decide) _ _ _ room

end Transparent

end CS162.Threads
