import CS162.Userprog.Gdt
import CS162.Userprog.PagedirMap
import CS162.Userprog.Process

/-!
# Interrupts that a user program causes

`intr_handler` of `threads/interrupt.c` with the handlers that
`userprog/exception.c` and `userprog/syscall.c` register.  What they print is left
out.
-/

namespace CS162.Userprog

open CS162.Foundation CS162.Foundation.ProtectedMode Machine
open CS162.Threads (selKcseg selKdseg exceptions pushesErrorCode stubType Occurs
  occurs_fits enterHandler frameMember frameMember_get handler_entered misfit_members
  HandlerEntered IntrStack givenFrame)

/-- `SYS_EXIT`. -/
def sysExit : Nat := 1

/-- The registers of a user program that the handlers use. -/
structure UserRegs where
  eip : Word
  esp : Word
  eax : Word
deriving DecidableEq

/-- The members of `struct intr_frame` that the handlers use. -/
structure IntrFrame where
  vecNo : Nat
  errorCode : Word
  cs : BitVec 16
  regs : UserRegs
deriving DecidableEq

/-! ## The table of handlers -/

inductive IntrHandler where
  | kill
  | pageFault
  | syscall
  | device
deriving DecidableEq

/-- An entry of the interrupt descriptor table that has been registered. -/
structure Registration where
  vecNo : Nat
  dpl : Nat
  handler : IntrHandler

/-- `exception_init`. -/
def exceptionInit : List Registration :=
  [⟨3, 3, .kill⟩, ⟨4, 3, .kill⟩, ⟨5, 3, .kill⟩, ⟨0, 0, .kill⟩, ⟨1, 0, .kill⟩,
    ⟨6, 0, .kill⟩, ⟨7, 0, .kill⟩, ⟨11, 0, .kill⟩, ⟨12, 0, .kill⟩, ⟨13, 0, .kill⟩,
    ⟨16, 0, .kill⟩, ⟨19, 0, .kill⟩, ⟨14, 0, .pageFault⟩]

/-- `syscall_init`. -/
def syscallInit : List Registration := [⟨0x30, 3, .syscall⟩]

/-- The handlers of the timer, the keyboard, the serial port and the disks. -/
def deviceInit : List Registration :=
  [⟨0x20, 0, .device⟩, ⟨0x21, 0, .device⟩, ⟨0x24, 0, .device⟩, ⟨0x2e, 0, .device⟩,
    ⟨0x2f, 0, .device⟩]

def registrations : List Registration := exceptionInit ++ syscallInit ++ deviceInit

/-- `intr_handlers`. -/
def intrHandlers (vecNo : Nat) : Option IntrHandler :=
  (registrations.find? fun entry => entry.vecNo = vecNo).map Registration.handler

/-- The descriptor privilege level of a gate; `intr_init` makes it 0. -/
def gateDpl (vecNo : Nat) : Nat :=
  ((registrations.find? fun entry => entry.vecNo = vecNo).map Registration.dpl).getD 0

/-! ## The handlers -/

/-- How the handling of an interrupt ends: the frame is returned from, the process
is gone, or the kernel has panicked. -/
inductive Handled where
  | returns (frame : IntrFrame)
  | exits (m : Machine)
  | panics

/-- `process_exit` for a process with a page directory. -/
def processExit (boot : Boot) (pd : Word) (m : Machine) : Handled :=
  match (m.pagedirActivate boot 0#32).bind fun m => m.pagedirDestroy boot pd with
  | some m => .exits m
  | none => .panics

/-- `kill`. -/
def kill (boot : Boot) (pd : Word) (m : Machine) (frame : IntrFrame) : Handled :=
  if frame.cs = selUcseg then processExit boot pd m
  else .panics

/-- `page_fault`. -/
def pageFault (boot : Boot) (pd : Word) (m : Machine) (frame : IntrFrame) : Handled :=
  kill boot pd m frame

/-- The frame of a page fault in the kernel that reads an address where no page is
present. -/
def kernelFault (frame : IntrFrame) : IntrFrame where
  vecNo := 14
  errorCode := 0#32
  cs := selKcseg
  regs := frame.regs

/-- The byte that the kernel reads at an address, if a page is present there. -/
def readByte (m : Machine) (pd va : Word) : Option UInt8 :=
  (pteOf m pd va).bind fun pte =>
    if hasFlag pte pteP then
      (pteGetPage pte).map fun page =>
        LoadState.pageBytes m page (pgOfs va).toNat
    else none

/-- The addresses of the bytes of a word. -/
def wordBytes (va : Word) : List Word := [va, va + 1#32, va + 2#32, va + 3#32]

/-- The word that the kernel reads at an address. -/
def readWord (m : Machine) (pd va : Word) : Option Nat :=
  (readByte m pd va).bind fun first =>
    (readByte m pd (va + 1#32)).bind fun second =>
      (readByte m pd (va + 2#32)).bind fun third =>
        (readByte m pd (va + 3#32)).map fun fourth =>
          first.toNat + 256 * second.toNat + 65536 * third.toNat + 16777216 * fourth.toNat

/-- `syscall_handler`, with the addresses of the bytes that it reads as arguments. -/
def syscallHandler (boot : Boot) (pd : Word) (m : Machine) (frame : IntrFrame) :
    Handled × List Word :=
  let esp := frame.regs.esp
  match readWord m pd esp with
  | none => (pageFault boot pd m (kernelFault frame), wordBytes esp)
  | some number =>
      if number = sysExit then
        match readWord m pd (esp + 4#32) with
        | none =>
            (pageFault boot pd m (kernelFault frame), wordBytes esp ++ wordBytes (esp + 4#32))
        | some _ =>
            (processExit boot pd m, wordBytes esp ++ wordBytes (esp + 4#32))
      else (.returns frame, wordBytes esp)

/-- `intr_handler` for an interrupt that is not external; an interrupt without a
handler is printed and returned from. -/
def intrHandler (boot : Boot) (pd : Word) (m : Machine) (frame : IntrFrame) : Handled × List Word :=
  match intrHandlers frame.vecNo with
  | some .kill => (kill boot pd m frame, [])
  | some .pageFault => (pageFault boot pd m frame, [])
  | some .syscall => syscallHandler boot pd m frame
  | some .device => (.returns frame, [])
  | none => (.returns frame, [])

/-! ## What a user program can cause -/

/-- An exception of the processor in user mode, or an `INT` instruction. -/
inductive UserEvent where
  | exception (vecNo : { vec : BitVec 8 // exceptions.contains vec = true })
      (errorCode : Word)
  | int (n : Fin 256)
deriving DecidableEq

/-- The vector of an event and the error code that the processor pushes: an `INT`
through a gate of the kernel is a general protection exception. -/
def UserEvent.arrives : UserEvent → BitVec 8 × Option Word
  | .exception vecNo errorCode =>
      (vecNo, if pushesErrorCode vecNo then some errorCode else none)
  | .int n =>
      if gateDpl n = 3 then (BitVec.ofFin n, none)
      else (0x0d#8, some (BitVec.ofNat 32 (n * 8 + 2)))

/-- The processor in user mode. -/
def userProcessor (regs : UserRegs) : Processor where
  context :=
    { regs := ⟨0, 0, 0, 0, 0, 0, regs.eax⟩
      segs := ⟨selUdseg, selUdseg, selUdseg, selUdseg⟩
      eip := regs.eip
      cs := selUcseg
      eflags := 0x202#32
      esp := regs.esp
      ss := selUdseg }
  memory := fun _ => 0

/-- The stack of a thread in the kernel. -/
def threadStack : TaskState := ⟨selKdseg, 0xc0101000#32⟩

/-- What the handlers read in the frame that the stub gives them. -/
def handlerFrame (entered : Processor) : IntrFrame where
  vecNo := (frameMember entered 48).toNat
  errorCode := frameMember entered 52
  cs := (frameMember entered 64).setWidth 16
  regs :=
    { eip := frameMember entered 60
      esp := frameMember entered 72
      eax := frameMember entered 28 }

/-- The frame of an event. -/
def userFrame (event : UserEvent) (regs : UserRegs) : IntrFrame :=
  handlerFrame (enterHandler threadStack ⟨selKcseg, 0#32, true⟩ event.arrives.1
    event.arrives.2 (userProcessor regs))

section Frames

variable {task : TaskState} {gate : Gate} {vec : BitVec 8} {m entered : Processor}

/-- The frame that a stub hands over shows the user program, wherever the stack of the
thread is, if the stub fits. -/
theorem handlerFrame_of_entered {error : Option Word} (user : m.context.cs = selUcseg)
    (given : HandlerEntered m task vec error entered) :
    handlerFrame entered =
      { vecNo := vec.toNat
        errorCode := error.getD 0#32
        cs := selUcseg
        regs := ⟨m.context.eip, m.context.esp, m.context.regs.eax⟩ } := by
  obtain ⟨espDummy, argument, grown, address, _⟩ := given.frame
  have saved : m.context.saved =
      [m.context.eip, m.context.cs.setWidth 32, m.context.eflags, m.context.esp,
        m.context.ss.setWidth 32] := by
    rw [Context.saved, user]
    rfl
  have vecNo : frameMember entered 48 = vec.setWidth 32 := frameMember_get grown address 12 rfl
  have code : frameMember entered 52 = error.getD 0#32 := frameMember_get grown address 13 rfl
  have eip : frameMember entered 60 = m.context.eip := frameMember_get grown address 15 rfl
  have cs : frameMember entered 64 = m.context.cs.setWidth 32 :=
    frameMember_get grown address 16 rfl
  have esp : frameMember entered 72 = m.context.esp := by
    apply frameMember_get grown address 18
    rw [IntrStack.words, givenFrame, saved]
    rfl
  have eax : frameMember entered 28 = m.context.regs.eax := frameMember_get grown address 7 rfl
  have number : (vec.setWidth 32).toNat = vec.toNat := by
    rw [BitVec.toNat_setWidth]
    exact Nat.mod_eq_of_lt (Nat.lt_trans vec.isLt (by decide))
  rw [handlerFrame, vecNo, code, eip, cs, esp, eax, number, user]
  rfl

end Frames

section Events

variable {event : UserEvent} {regs : UserRegs}

/-- Every event is one that can arrive at its vector. -/
theorem UserEvent.occurs (event : UserEvent) : Occurs event.arrives.1 event.arrives.2 := by
  cases event with
  | exception vecNo errorCode =>
      refine Or.inl ⟨List.contains_iff_mem.mp vecNo.2, ?_⟩
      simp only [UserEvent.arrives]
      cases pushesErrorCode vecNo <;> rfl
  | int n =>
      rw [UserEvent.arrives]
      by_cases allowed : gateDpl n = 3
      · have gates : ∀ n : Fin 256, gateDpl n = 3 →
            0x20 ≤ n.val ∨ BitVec.ofFin n ∈ [0x03#8, 0x04#8, 0x05#8] := by
          decide +kernel
        rw [if_pos allowed]
        exact Or.inr ⟨gates n allowed, rfl⟩
      · rw [if_neg allowed]
        exact Or.inl ⟨(by decide : 0x0d#8 ∈ exceptions), rfl⟩

theorem userProcessor_base (regs : UserRegs) :
    (userProcessor regs).context.base threadStack = 0xc0101000 := by
  simp [userProcessor, threadStack, Context.base, ring, selUcseg]

/-- The frame of an event that is not a stack-segment fault. -/
theorem userFrame_eq (other : event.arrives.1 ≠ 0x0c#8) :
    userFrame event regs =
      { vecNo := event.arrives.1.toNat
        errorCode := event.arrives.2.getD 0#32
        cs := selUcseg
        regs := regs } := by
  have room : 88 ≤ (userProcessor regs).context.base threadStack := by
    rw [userProcessor_base]
    decide
  exact handlerFrame_of_entered rfl (handler_entered room (occurs_fits event.occurs other))

/-- The stub of a stack-segment fault does not expect the error code, so `cs` is half
of the address in the program. -/
theorem userFrame_stackFault (fault : event.arrives.1 = 0x0c#8) :
    (userFrame event regs).vecNo = 12 ∧
      (userFrame event regs).cs = regs.eip.setWidth 16 := by
  obtain ⟨code, pushed⟩ : ∃ code, event.arrives.2 = some code := by
    have occurs := event.occurs
    rw [fault] at occurs
    rcases occurs with ⟨_, pushes⟩ | ⟨vector, _⟩
    · exact Option.isSome_iff_exists.mp pushes
    · exact absurd vector (by decide)
  have room : 92 ≤ (userProcessor regs).context.base threadStack := by
    rw [userProcessor_base]
    decide
  have members := @misfit_members (userProcessor regs) threadStack ⟨selKcseg, 0#32, true⟩ _
    code (by decide : stubType 0x0c#8 = .zero) room
  rw [userFrame, fault, pushed, handlerFrame, members.1, members.2.2.2.1]
  exact ⟨rfl, rfl⟩

attribute [irreducible] userFrame

end Events

end CS162.Userprog
