import CS162.Foundation.TransitionSystem
import CS162.Threads.IntrStubs
import CS162.Threads.Switch
import CS162.Userprog.InterruptTable

/-!
# User mode

What a user program can do to the registers that the kernel relies on, between the
frame of `start_process` and the interrupts that bring it back to the kernel, with
the tables of `userprog/gdt.c`, `userprog/tss.c` and `threads/interrupt.c`.
-/

namespace CS162.Userprog

open CS162.Foundation CS162.Foundation.ProtectedMode
open CS162.Foundation.ProtectedMode.Processor
open CS162.Threads (selKcseg selKdseg Occurs IntrStack KernelPage HandlerEntered HandlerReturned
  enterHandler leaveHandler intrExit)

/-- `FLAG_IF | FLAG_MBS`. -/
def startFlags : DWord := interruptFlag ||| 0x2#32

/-- `if_` in `start_process`, with what `load` has stored there. -/
def startFrame (eip esp : DWord) : IntrStack where
  context :=
    { regs := ⟨0, 0, 0, 0, 0, 0, 0⟩
      segs := ⟨selUdseg, selUdseg, selUdseg, selUdseg⟩
      eip := eip
      cs := selUcseg
      eflags := startFlags
      esp := esp
      ss := selUdseg }
  espDummy := 0#32
  vecNo := 0#32
  errorCode := 0#32
  framePointer := 0#32

/-- `tss_init` and then `tss_update` in the thread of a page. -/
def tssOf (page : Nat) : TaskState := ⟨selKdseg, BitVec.ofNat 32 (page + 4096)⟩

/-- `is_trap_from_userspace`. -/
def isTrapFromUserspace (frame : IntrStack) : Bool :=
  frame.context.cs == selUcseg && frame.context.ss == selUdseg

/-- The tables that the processor works with, and the page of the thread. -/
structure RingTables where
  gdt : List (BitVec 64)
  idt : BitVec 8 → BitVec 64
  page : Nat

namespace RingTables

def dpl (tables : RingTables) (selector : BitVec 16) : BitVec 2 :=
  (segmentOf tables.gdt selector).dpl

/-- The processor goes through the gate of a vector, and the stub calls
`intr_handler`. -/
def enter (tables : RingTables) (vecNo : BitVec 8) (error : Option DWord)
    (m : Processor) : Option Processor :=
  (GateDescriptor.ofBits (tables.idt vecNo)).gate.map fun gate =>
    enterHandler (tssOf tables.page) gate vecNo error m

end RingTables

/-- The interrupt flag, the privilege level for input and output, and the flag for
8086 mode: an outer ring cannot change these. -/
def guardedFlags : List Nat := [9, 12, 13, 17]

inductive DataRegister where
  | gs
  | fs
  | es
  | ds

def DataRegister.load (register : DataRegister) (segs : DataSegments)
    (selector : BitVec 16) : DataSegments :=
  match register with
  | .gs => { segs with gs := selector }
  | .fs => { segs with fs := selector }
  | .es => { segs with es := selector }
  | .ds => { segs with ds := selector }

/-- What can happen in user mode.  Stack-segment faults are left out: their stub builds
a frame in which `cs` is half of `eip`, so that `intr_exit` does not come back. -/
inductive RingMove where
  | compute (regs : Registers) (eip eflags esp : DWord) (memory : Memory)
  | loadData (register : DataRegister) (selector : BitVec 16)
  | loadStack (selector : BitVec 16)
  | jump (selector : BitVec 16) (eip : DWord)
  | trap (vecNo : BitVec 8) (error : Option DWord) (returned : Processor)
      (frame : IntrStack)
  | int (vecNo : BitVec 8) (returned : Processor) (frame : IntrStack)

/-- The handler has returned with a frame in which only general registers have
changed. -/
def Answers (m entered returned : Processor) (frame : IntrStack) : Prop :=
  HandlerReturned entered returned frame ∧
    frame.context = { m.context with regs := frame.context.regs }

instance (m entered returned : Processor) (frame : IntrStack) :
    Decidable (Answers m entered returned frame) :=
  inferInstanceAs (Decidable (_ ∧ _))

/-- An exception other than a stack-segment fault, or an interrupt of a device. -/
def FromHardware (vecNo : BitVec 8) (error : Option DWord) : Prop :=
  (vecNo ∈ CS162.Threads.exceptions ∧
      error.isSome = CS162.Threads.pushesErrorCode vecNo ∧ vecNo ≠ 0x0c#8) ∨
    0x20#8 ≤ vecNo ∧ vecNo ≤ 0x2f#8 ∧ error = none

instance (vecNo : BitVec 8) (error : Option DWord) : Decidable (FromHardware vecNo error) :=
  inferInstanceAs (Decidable (_ ∨ _))

/-- The vector and the error code of the exception that `int` causes for a gate that is
closed to the ring, or those of the gate. -/
def intVector (tables : RingTables) (level : BitVec 2) (vecNo : BitVec 8) :
    BitVec 8 × Option DWord :=
  if level ≤ (GateDescriptor.ofBits (tables.idt vecNo)).dpl then (vecNo, none)
  else (0x0d#8, some (vecNo.setWidth 32 <<< 3 ||| 2#32))

/-- From an interrupt to the return from it. -/
def serve (tables : RingTables) (m : Processor) (vecNo : BitVec 8)
    (error : Option DWord) (returned : Processor) (frame : IntrStack) :
    Option Processor :=
  (tables.enter vecNo error m).bind fun entered =>
    if Answers m entered returned frame then
      some (leaveHandler tables.dpl returned)
    else none

def ringStep (tables : RingTables) (m : Processor) : RingMove → Option Processor
  | .compute regs eip eflags esp memory =>
      if ∀ bit ∈ guardedFlags, eflags.getLsbD bit = m.context.eflags.getLsbD bit then
        some
          { context :=
              { m.context with
                regs := regs
                eip := eip
                eflags := eflags
                esp := esp }
            memory := memory }
      else none
  | .loadData register selector =>
      if loadsData tables.gdt (ring m.context.cs) selector = true then
        some (m.withSegs (register.load m.context.segs selector))
      else none
  | .loadStack selector =>
      if loadsStack tables.gdt (ring m.context.cs) selector = true then
        some { m with context := { m.context with ss := selector } }
      else none
  | .jump selector eip =>
      if loadsCode tables.gdt (ring m.context.cs) selector = true then
        some
          { m with
            context :=
              { m.context with
                cs := atLevel selector (ring m.context.cs)
                eip := eip } }
      else none
  | .trap vecNo error returned frame =>
      if FromHardware vecNo error then serve tables m vecNo error returned frame
      else none
  | .int vecNo returned frame =>
      serve tables m (intVector tables (ring m.context.cs) vecNo).1
        (intVector tables (ring m.context.cs) vecNo).2 returned frame

/-- All runs in user mode after the jump to `intr_exit` in `start_process`. -/
def ringSystem (tables : RingTables) : TransitionSystem Processor RingMove where
  initial m := ∃ (kernel : Processor) (eip esp : DWord),
    ring kernel.context.cs = 0#2 ∧ kernel.sp + 80 < 2 ^ 32 ∧
      kernel.OnStack (startFrame eip esp).words ∧ m = intrExit tables.dpl kernel
  step := ringStep tables

/-- The tables that `gdt_init`, `intr_init` and the calls for registering have made. -/
structure TablesReady (intrStubs : BitVec 8 → DWord) (tables : RingTables) : Prop where
  linked : ∀ vecNo, intrStubs vecNo ≠ 0#32
  gdt : ∃ tss, gdtInit tss = some tables.gdt
  idt : ∃ start t, intrInit IntrHandler intrStubs = some start ∧
    kernelRequests.foldlM (IntrTables.register intrStubs) start = some t ∧ tables.idt = t.idt
  page : KernelPage tables.page

/-- What holds of the registers in user mode. -/
structure RingSound (tables : RingTables) (context : Context) : Prop where
  cs : context.cs = selUcseg
  ss : context.ss = selUdseg
  flags : ∀ bit ∈ guardedFlags, context.eflags.getLsbD bit = startFlags.getLsbD bit
  segs : ∀ selector ∈ [context.segs.gs, context.segs.fs, context.segs.es,
    context.segs.ds], loadsData tables.gdt 3#2 selector = true

/-- A null selector becomes 0. -/
def plainNull (selector : BitVec 16) : BitVec 16 :=
  if selector >>> 2 = 0#16 then 0#16 else selector

def plainNulls (segs : DataSegments) : DataSegments where
  gs := plainNull segs.gs
  fs := plainNull segs.fs
  es := plainNull segs.es
  ds := plainNull segs.ds

/-- An interrupt that user mode can cause or meet. -/
def Arrives (tables : RingTables) (vecNo : BitVec 8) (error : Option DWord) : Prop :=
  FromHardware vecNo error ∨ ∃ number, intVector tables 3#2 number = (vecNo, error)

/-- The kernel's side of an interrupt: it runs in ring 0 on the stack in the page of its
thread with its own segments, it knows what it has interrupted, and it can go back
to that. -/
structure HandledSafely (tables : RingTables) (m : Processor) (vecNo : BitVec 8)
    (error : Option DWord) (entered : Processor) : Prop where
  entry : HandlerEntered m (tssOf tables.page) vecNo error entered
  cs : entered.context.cs = selKcseg
  ss : entered.context.ss = selKdseg
  segs : entered.context.segs = { m.context.segs with ds := selKdseg, es := selKdseg }
  interrupts : entered.context.eflags.getLsbD 9 =
    decide ((requestOf kernelRequests vecNo).map IntrRequest.level = some .on)
  stack : entered.sp + 84 = tables.page + 4096
  origin : ∀ espDummy, isTrapFromUserspace (CS162.Threads.givenFrame m vecNo error espDummy) = true
  returns : ∀ returned frame, Answers m entered returned frame →
    leaveHandler tables.dpl returned =
      { context :=
          { m.context with
            regs := frame.context.regs
            segs := plainNulls m.context.segs }
        memory := returned.memory }

/-- What is shown of every state of user mode. -/
structure RingSafe (tables : RingTables) (m : Processor) : Prop where
  sound : RingSound tables m.context
  handled : ∀ vecNo error, Arrives tables vecNo error →
    ∃ entered, tables.enter vecNo error m = some entered ∧
      HandledSafely tables m vecNo error entered
  calls : ∀ number, intVector tables 3#2 number = (number, none) → number ∈ [3#8, 4#8, 5#8, 0x30#8]

section UserMode

variable {intrStubs : BitVec 8 → DWord} {tables : RingTables}
variable {m target : Processor} {vecNo : BitVec 8} {error : Option DWord}

theorem user_ring : ring selUcseg = 3#2 := by
  decide

theorem TablesReady.descriptors (ready : TablesReady intrStubs tables) :
    ∃ tss, GdtSound tables.gdt tss := by
  obtain ⟨tss, made⟩ := ready.gdt
  obtain ⟨gdt, made', sound⟩ := gdtInit_sound tss
  rw [made, Option.some.injEq] at made'
  exact ⟨tss, made' ▸ sound⟩

/-- The gates of all vectors. -/
theorem TablesReady.gates (ready : TablesReady intrStubs tables) (vecNo : BitVec 8) :
    GateDescriptor.ofBits (tables.idt vecNo) =
      gateOf intrStubs vecNo (requestOf kernelRequests vecNo) := by
  obtain ⟨start, t, init, run, same⟩ := ready.idt
  obtain ⟨start', init', sound⟩ := intrInit_sound IntrHandler ready.linked
  rw [init, Option.some.injEq] at init'
  have registered := (registers_spec kernelRequests ready.linked (init' ▸ sound)).2 t run
  rw [same]
  exact registered.gate vecNo

theorem TablesReady.enter (ready : TablesReady intrStubs tables) (vecNo : BitVec 8)
    (error : Option DWord) (m : Processor) :
    tables.enter vecNo error m =
      some (enterHandler (tssOf tables.page)
        ⟨selKcseg, intrStubs vecNo,
          (requestOf kernelRequests vecNo).map IntrRequest.level ≠ some .on⟩
        vecNo error m) := by
  rw [RingTables.enter, ready.gates, gateOf, GateDescriptor.gate]
  by_cases on : (requestOf kernelRequests vecNo).map IntrRequest.level = some .on
  · simp [on]
  · simp [on]

/-- The gates that are open to user programs. -/
theorem TablesReady.calls (ready : TablesReady intrStubs tables) {number : BitVec 8}
    (open_ : 3#2 ≤ (GateDescriptor.ofBits (tables.idt number)).dpl) :
    number ∈ [3#8, 4#8, 5#8, 0x30#8] := by
  rw [ready.gates] at open_
  revert open_
  change 3#2 ≤ BitVec.ofInt 2 (((requestOf kernelRequests number).map IntrRequest.dpl).getD 0) → _
  revert number
  decide +kernel

theorem TablesReady.intVector_of_call (ready : TablesReady intrStubs tables)
    {number : BitVec 8} (called : intVector tables 3#2 number = (number, none)) :
    number ∈ [3#8, 4#8, 5#8, 0x30#8] := by
  apply ready.calls
  by_contra closed
  rw [intVector, if_neg closed] at called
  cases (Prod.mk.inj called).2

/-- The stubs fit what arrives. -/
theorem TablesReady.occurs (ready : TablesReady intrStubs tables)
    (arrives : Arrives tables vecNo error) : Occurs vecNo error ∧ vecNo ≠ 0x0c#8 := by
  rcases arrives with (⟨exception, pushes, other⟩ | ⟨lower, upper, rfl⟩) | ⟨number, called⟩
  · exact ⟨Or.inl ⟨exception, pushes⟩, other⟩
  · refine ⟨Or.inr ⟨Or.inl (BitVec.le_def.mp lower), rfl⟩, ?_⟩
    rintro rfl
    revert lower
    decide
  · rw [intVector] at called
    by_cases open_ : 3#2 ≤ (GateDescriptor.ofBits (tables.idt number)).dpl
    · have member := ready.calls open_
      rw [if_pos open_] at called
      cases called
      have each : vecNo = 3#8 ∨ vecNo = 4#8 ∨ vecNo = 5#8 ∨ vecNo = 0x30#8 := by
        simpa using member
      rcases each with rfl | rfl | rfl | rfl
      · exact ⟨Or.inr ⟨Or.inr (by decide), rfl⟩, by decide⟩
      · exact ⟨Or.inr ⟨Or.inr (by decide), rfl⟩, by decide⟩
      · exact ⟨Or.inr ⟨Or.inr (by decide), rfl⟩, by decide⟩
      · exact ⟨Or.inr ⟨Or.inl (by decide), rfl⟩, by decide⟩
    · rw [if_neg open_] at called
      cases called
      exact ⟨Or.inl ⟨by decide, rfl⟩, by decide⟩

/-- What `iret` does with the data segments of a user program. -/
theorem nulled_user {tss : DWord} (sound : GdtSound tables.gdt tss)
    {selector : BitVec 16} (loaded : loadsData tables.gdt 3#2 selector = true) :
    nullPrivileged tables.dpl 3#2 selector = plainNull selector := by
  rw [nullPrivileged, plainNull]
  by_cases null : selector >>> 2 = 0#16
  · have index : selector >>> 3 = 0#16 := by
      have twice := congrArg (fun other : BitVec 16 => other >>> 1) null
      simpa [← BitVec.shiftRight_add] using twice
    have first : tables.dpl selector = 0#2 := by
      rw [RingTables.dpl, segmentOf, index]
      change (SegmentDescriptor.ofBits (tables.gdt.getD 0 0#64)).dpl = _
      rw [sound.null]
      rfl
    rw [first, if_pos (by decide), if_pos null]
  · have user : tables.dpl selector = 3#2 := (sound.loads_data loaded).resolve_left null
    rw [user, if_neg (by decide), if_neg null]

theorem plainNull_loads {selector : BitVec 16} (loaded : loadsData tables.gdt 3#2 selector = true) :
    loadsData tables.gdt 3#2 (plainNull selector) = true := by
  rw [plainNull]
  by_cases null : selector >>> 2 = 0#16
  · rw [if_pos null]
    rfl
  · rwa [if_neg null]

/-- The kernel's side of an interrupt. -/
theorem RingSound.handled (ready : TablesReady intrStubs tables)
    (sound : RingSound tables m.context) (arrives : Arrives tables vecNo error) :
    ∃ entered, tables.enter vecNo error m = some entered ∧
      HandledSafely tables m vecNo error entered := by
  obtain ⟨tss, descriptors⟩ := ready.descriptors
  obtain ⟨occurs, other⟩ := ready.occurs arrives
  obtain ⟨gate, isGate⟩ : ∃ gate : Gate, gate = ⟨selKcseg, intrStubs vecNo,
      (requestOf kernelRequests vecNo).map IntrRequest.level ≠ some .on⟩ := ⟨_, rfl⟩
  have user : ring m.context.cs = 3#2 := by
    rw [sound.cs, user_ring]
  have outer : ring m.context.cs ≠ 0#2 := by
    rw [user]
    decide
  have base : m.context.base (tssOf tables.page) = tables.page + 4096 := by
    rw [Context.base, if_neg outer, tssOf, BitVec.toNat_ofNat]
    exact Nat.mod_eq_of_lt ready.page.2
  have room : 88 ≤ m.context.base (tssOf tables.page) := by omega
  have entry : HandlerEntered m (tssOf tables.page) vecNo error
      (enterHandler (tssOf tables.page) gate vecNo error m) :=
    CS162.Threads.handler_entered room (CS162.Threads.occurs_fits occurs other)
  obtain ⟨cs, ss⟩ := CS162.Threads.enterHandler_context (tssOf tables.page) gate vecNo error m
  obtain ⟨flags, segs⟩ := CS162.Threads.enterHandler_environment (tssOf tables.page)
    gate vecNo error m
  refine ⟨_, by rw [ready.enter, ← isGate], entry, ?_, ?_, segs, ?_, ?_, ?_, ?_⟩
  · rw [cs, isGate]
  · rw [ss, if_neg outer]
    rfl
  · have enabled := sound.flags 9 (by decide)
    rw [flags, isGate]
    by_cases on : (requestOf kernelRequests vecNo).map IntrRequest.level = some .on
    · simp [Gate.flags, on, enabled, startFlags, interruptFlag, trapFlag, nestedFlag,
        resumeFlag, virtualFlag, CS162.Threads.directionFlag]
    · simp [Gate.flags, on, interruptFlag, trapFlag, nestedFlag,
        resumeFlag, virtualFlag, CS162.Threads.directionFlag]
  · obtain ⟨espDummy, argument, grown, -, -⟩ := entry.frame
    have length := grown.sp
    have five : m.context.saved.length = 5 := by
      rw [Context.saved, if_neg outer]
      rfl
    rw [List.length_cons, IntrStack.words, List.length_append, List.length_append]
      at length
    change _ + 4 * (12 + 3 + m.context.saved.length + 1) = _ at length
    omega
  · intro espDummy
    simp [isTrapFromUserspace, CS162.Threads.givenFrame, sound.cs, sound.ss]
  · rintro returned frame ⟨back, answer⟩
    have kept : m.context.segs.nulled tables.dpl 3#2 = plainNulls m.context.segs := by
      have each := fun selector member => nulled_user descriptors
        (sound.segs selector member)
      rw [DataSegments.nulled, plainNulls, each _ (by simp), each _ (by simp),
        each _ (by simp), each _ (by simp)]
    have kernel : ring gate.selector = 0#2 := by
      rw [isGate]
      change ring selKcseg = 0#2
      decide
    rw [CS162.Threads.interrupt_returned room entry kernel back answer, if_neg outer, user, kept]

/-- The return from an interrupt. -/
theorem RingSound.back (ready : TablesReady intrStubs tables)
    (sound : RingSound tables m.context) (arrives : Arrives tables vecNo error)
    {returned : Processor} {frame : IntrStack}
    (moved : serve tables m vecNo error returned frame = some target) :
    RingSound tables target.context := by
  obtain ⟨entered, enters, safe⟩ := sound.handled ready arrives
  rw [serve, enters, Option.bind_some] at moved
  obtain ⟨answers, moved⟩ := Option.ite_none_right_eq_some.mp moved
  rw [safe.returns returned frame answers, Option.some.injEq] at moved
  rw [← moved]
  constructor
  · exact sound.cs
  · exact sound.ss
  · exact sound.flags
  · intro selector member
    simp only [List.mem_cons, List.not_mem_nil, or_false, plainNulls] at member
    rcases member with rfl | rfl | rfl | rfl
    · exact plainNull_loads (sound.segs _ (by simp))
    · exact plainNull_loads (sound.segs _ (by simp))
    · exact plainNull_loads (sound.segs _ (by simp))
    · exact plainNull_loads (sound.segs _ (by simp))

/-- One move. -/
theorem RingSound.step (ready : TablesReady intrStubs tables)
    (sound : RingSound tables m.context) {move : RingMove}
    (moved : ringStep tables m move = some target) :
    RingSound tables target.context := by
  obtain ⟨tss, descriptors⟩ := ready.descriptors
  have user : ring m.context.cs = 3#2 := by
    rw [sound.cs, user_ring]
  cases move with
  | compute regs eip eflags esp memory =>
      obtain ⟨guarded, moved⟩ := Option.ite_none_right_eq_some.mp moved
      cases moved
      exact
        { cs := sound.cs
          ss := sound.ss
          flags := fun bit member => (guarded bit member).trans (sound.flags bit member)
          segs := sound.segs }
  | loadData register selector =>
      obtain ⟨loads, moved⟩ := Option.ite_none_right_eq_some.mp moved
      cases moved
      rw [user] at loads
      refine ⟨sound.cs, sound.ss, sound.flags, ?_⟩
      have all := sound.segs
      simp only [List.forall_mem_cons, List.not_mem_nil, false_imp_iff, forall_const,
        and_true] at all
      cases register <;> simp [withSegs, DataRegister.load, loads, all]
  | loadStack selector =>
      obtain ⟨loads, moved⟩ := Option.ite_none_right_eq_some.mp moved
      cases moved
      rw [user] at loads
      exact
        { cs := sound.cs
          ss := descriptors.loads_stack loads
          flags := sound.flags
          segs := sound.segs }
  | jump selector eip =>
      obtain ⟨loads, moved⟩ := Option.ite_none_right_eq_some.mp moved
      cases moved
      rw [user] at loads
      refine ⟨?_, sound.ss, sound.flags, sound.segs⟩
      change atLevel selector (ring m.context.cs) = _
      rw [user]
      exact descriptors.loads_code loads
  | trap vecNo error returned frame =>
      obtain ⟨hardware, moved⟩ := Option.ite_none_right_eq_some.mp moved
      exact sound.back ready (Or.inl hardware) moved
  | int number returned frame =>
      refine sound.back ready (Or.inr ⟨number, ?_⟩) moved
      rw [user]

/-- The registers with which a process starts. -/
theorem user_start (ready : TablesReady intrStubs tables)
    (initial : (ringSystem tables).initial m) : RingSound tables m.context := by
  obtain ⟨tss, descriptors⟩ := ready.descriptors
  obtain ⟨kernel, eip, esp, level, room, stack, rfl⟩ := initial
  have loads : loadsData tables.gdt 3#2 selUdseg = true := by
    have segment := descriptors.userData
    simp only [loadsData, usable, segment]
    decide
  have outer : ring (startFrame eip esp).context.cs ≠ 0#2 := by
    change ring selUcseg ≠ 0#2
    decide
  rw [CS162.Threads.intrExit_user outer level (by rwa [List.append_nil]) room]
  refine ⟨rfl, rfl, fun _ _ => rfl, ?_⟩
  have kept : nullPrivileged tables.dpl 3#2 selUdseg = selUdseg := nulled_user descriptors loads
  intro selector member
  have same : selector = selUdseg := by
    simpa [DataSegments.nulled, startFrame, user_ring, kept] using member
  rw [same]
  exact loads

/-- A kernel with the frame of a new process on its stack. -/
def startKernel (eip esp : DWord) : Processor where
  context :=
    { regs := ⟨0, 0, 0, 0, 0, 0, 0⟩
      segs := ⟨selKdseg, selKdseg, selKdseg, selKdseg⟩
      eip := 0#32
      cs := selKcseg
      eflags := startFlags
      esp := 0x1000#32
      ss := selKdseg }
  memory := storeWords (fun _ => 0) 0x1000 (startFrame eip esp).words

end UserMode

end CS162.Userprog
