import CS162.Foundation.ProtectedMode
import CS162.Foundation.TransitionSystem

/-!
# The switch of stacks

`switch_threads` and `switch_entry` of `threads/switch.S` with the stack frames
that `thread_create` makes up for a new thread.  Between two switches the running
thread changes its registers and memory as it likes, except for the saved stacks of
the other threads.
-/

namespace CS162.Threads

open CS162.Foundation CS162.Foundation.ProtectedMode
open CS162.Foundation.ProtectedMode.Processor

/-- `thread_stack_ofs`. -/
def threadStackOfs : Nat := 24

/-- The size of `struct thread`. -/
def threadSize : Nat := 56

/-- A page of kernel memory. -/
def KernelPage (page : Nat) : Prop := page % 4096 = 0 ∧ page + 4096 < 2 ^ 32

instance (page : Nat) : Decidable (KernelPage page) := inferInstanceAs (Decidable (_ ∧ _))

/-- The addresses of code that `thread_create` puts on a stack. -/
structure KernelCode where
  switchEntry : DWord
  kernelThread : DWord

/-- The registers that the caller of `switch_threads` needs again. -/
def pushCallee (m : Processor) : Processor :=
  let regs := m.context.regs
  (((m.push regs.ebx).push regs.ebp).push regs.esi).push regs.edi

/-- The stack pointer is saved in the structure of the argument `cur`. -/
def saveStack (m : Processor) : Processor :=
  { m with
    memory := m.memory.store32 ((m.peek 20#32).toNat + threadStackOfs) m.context.esp.toNat }

/-- The stack pointer in the structure of the argument `next`. -/
def loadStack (m : Processor) : DWord :=
  BitVec.ofNat 32 (m.memory.load32 ((m.peek 24#32).toNat + threadStackOfs))

/-- The pops and the return, with the other registers given. -/
def popCallee (m : Processor) (cur next : DWord) : Processor :=
  { m with
    context :=
      { m.context with
        regs :=
          { edi := m.peek 0#32
            esi := m.peek 4#32
            ebp := m.peek 8#32
            ebx := m.peek 12#32
            edx := BitVec.ofNat 32 threadStackOfs
            ecx := next
            eax := cur }
        eip := m.peek 16#32
        esp := m.context.esp + 20#32 } }

/-- `switch_threads`, from its first instruction to its return. -/
def switchThreads (m : Processor) : Processor :=
  let pushed := pushCallee m
  let stored := saveStack pushed
  popCallee
    { stored with context := { stored.context with esp := loadStack stored } }
    (pushed.peek 20#32) (stored.peek 24#32)

/-- The call in `schedule`, which returns to the address `ret`. -/
def callSwitch (ret : DWord) (cur next : Nat) (m : Processor) : Processor :=
  switchThreads (((m.push (BitVec.ofNat 32 next)).push (BitVec.ofNat 32 cur)).push ret)

/-- `switch_entry` up to `call thread_switch_tail`, with the address of the next
instruction. -/
def switchEntry (ret : DWord) (m : Processor) : Processor :=
  let dropped := m.discard 8#32
  (dropped.push dropped.context.regs.eax).push ret

/-- `switch_entry` from the return of `thread_switch_tail` on. -/
def switchEntryReturn (m : Processor) : Processor :=
  let dropped := m.discard 4#32
  { dropped.discard 4#32 with
    context :=
      { (dropped.discard 4#32).context with eip := dropped.peek 0#32 } }

/-- `thread_switch_tail` has returned: it may have changed its argument, but not
the stack behind it. -/
structure TailReturned (before after : Processor) : Prop where
  sp : after.sp = before.sp + 4
  stack : before.memory.AgreeOn after.memory (before.sp + 8) (before.sp + 24)

/-- The memory after `thread_create` has set up a page: `palloc_get_page` has
cleared it, and there are three frames at its end. -/
def createStack (code : KernelCode) (page : Nat) (function aux : DWord)
    (memory : Memory) : Memory :=
  let kf := page + 4084
  let ef := kf - 4
  let sf := ef - 28
  let cleared := memory.fill page 4096 0
  let kernelThread := ((cleared.store32 kf 0).store32 (kf + 4)
    function.toNat).store32 (kf + 8) aux.toNat
  let entry := kernelThread.store32 ef code.kernelThread.toNat
  let switch := (entry.store32 (sf + 16) code.switchEntry.toNat).store32 (sf + 8) 0
  switch.store32 (page + threadStackOfs) sf

/-- What a thread goes on with: the registers that a function keeps, the address
after the call, the stack pointer and the stack. -/
structure Resumption where
  edi : DWord
  esi : DWord
  ebp : DWord
  ebx : DWord
  eip : DWord
  sp : Nat
  memory : Memory

/-- The words that `switch_threads` leaves on the stack. -/
def Resumption.frame (resumption : Resumption) : List DWord :=
  [resumption.edi, resumption.esi, resumption.ebp, resumption.ebx, resumption.eip]

/-- The processor, the running thread and the others. -/
structure SwitchState where
  machine : Processor
  current : Nat
  suspended : List Nat

inductive SwitchMove where
  | registers (regs : Registers)
  | stack (esp : DWord)
  | store (address value : Nat)
  | create (page : Nat) (function aux : DWord)
  | switch (next : Nat) (ret : DWord)
  | free (page : Nat)

/-- What the running thread goes on with after a call of `switch_threads`. -/
def leftWith (ret : DWord) (cur next : Nat) (m : Processor) : Resumption where
  edi := m.context.regs.edi
  esi := m.context.regs.esi
  ebp := m.context.regs.ebp
  ebx := m.context.regs.ebx
  eip := ret
  sp := m.sp - 8
  memory := ((m.push (BitVec.ofNat 32 next)).push (BitVec.ofNat 32 cur)).memory

/-- What a new thread starts with. -/
def startsWith (code : KernelCode) (page : Nat) (function aux : DWord)
    (memory : Memory) : Resumption where
  edi := 0#32
  esi := 0#32
  ebp := 0#32
  ebx := 0#32
  eip := code.switchEntry
  sp := page + 4072
  memory := createStack code page function aux memory

/-- The place is not in what a suspended thread has saved. -/
def mayStore (st : SwitchState) (address : Nat) : Bool :=
  st.suspended.all fun page =>
    Apart address (address + 4) (page + threadStackOfs)
        (page + threadStackOfs + 4) &&
      Apart address (address + 4) (st.machine.memory.load32 (page + threadStackOfs)) (page + 4096)

/-- The stack pointer is in the page of the running thread, above its structure. -/
def inStack (page sp : Nat) : Bool := page + threadSize ≤ sp && sp < page + 4096

def SwitchState.step (code : KernelCode) (st : SwitchState) : SwitchMove → Option SwitchState
  | .registers regs => some { st with machine := st.machine.withRegs regs }
  | .stack esp =>
      if inStack st.current esp.toNat then
        some
          { st with
            machine :=
              { st.machine with
                context := { st.machine.context with esp := esp } } }
      else none
  | .store address value =>
      if mayStore st address then
        some
          { st with
            machine :=
              { st.machine with
                memory := st.machine.memory.store32 address value } }
      else none
  | .create page function aux =>
      if KernelPage page ∧ page ≠ st.current ∧ page ∉ st.suspended then
        some
          { st with
            machine :=
              { st.machine with
                memory := createStack code page function aux st.machine.memory }
            suspended := page :: st.suspended }
      else none
  | .switch next ret =>
      -- there is room for the call and for the registers
      if next ∈ st.suspended ∧ st.current + threadSize + 28 ≤ st.machine.sp then
        some
          { machine := callSwitch ret st.current next st.machine
            current := next
            suspended := st.current :: st.suspended.erase next }
      else none
  | .free page =>
      if page ∈ st.suspended then
        some { st with suspended := st.suspended.erase page }
      else none

/-- All runs from the first thread on. -/
def switchSystem (code : KernelCode) : TransitionSystem SwitchState SwitchMove where
  initial st := KernelPage st.current ∧ inStack st.current st.machine.sp = true ∧ st.suspended = []
  step := SwitchState.step code

/-- The thread of a page is switched to or its page is given back. -/
def SwitchMove.concerns (page : Nat) : SwitchMove → Bool
  | .switch next _ => next == page
  | .free other => other == page
  | _ => false

/-! ## One switch -/

/-- A thread has been left with a resumption: what it needs is in its page. -/
structure Suspended (memory : Memory) (page : Nat) (resumption : Resumption) : Prop where
  inside : page + threadSize + 20 ≤ resumption.sp ∧ resumption.sp < page + 4096
  pointer : memory.load32 (page + threadStackOfs) = resumption.sp - 20
  frame : HoldsWords memory (resumption.sp - 20) resumption.frame
  stack : memory.AgreeOn resumption.memory resumption.sp (page + 4096)

/-- A thread goes on with what it was left with. -/
structure Resumed (m : Processor) (page : Nat) (resumption : Resumption) : Prop where
  edi : m.context.regs.edi = resumption.edi
  esi : m.context.regs.esi = resumption.esi
  ebp : m.context.regs.ebp = resumption.ebp
  ebx : m.context.regs.ebx = resumption.ebx
  eip : m.context.eip = resumption.eip
  sp : m.sp = resumption.sp
  stack : m.memory.AgreeOn resumption.memory resumption.sp (page + 4096)

section Switch

variable {m : Processor} {cur next : Nat} {ret : DWord} {resumption : Resumption}
variable {memory after : Memory} {page : Nat}

/-- What has been saved is kept while its memory is not written to. -/
theorem Suspended.congr (suspended : Suspended memory page resumption)
    (pointer : memory.AgreeOn after (page + threadStackOfs) (page + threadStackOfs + 4))
    (stack : memory.AgreeOn after (resumption.sp - 20) (page + 4096)) :
    Suspended after page resumption := by
  have inside := suspended.inside
  constructor
  · exact inside
  · rw [← pointer.load32_eq]
    exact suspended.pointer
  · apply suspended.frame.congr
    apply stack.mono (Nat.le_refl _)
    change resumption.sp - 20 + 4 * 5 ≤ page + 4096
    omega
  · intro address lower upper
    rw [← stack address (by omega) upper]
    exact suspended.stack address lower upper

theorem pages_apart {other : Nat} (first : KernelPage page)
    (second : KernelPage other) (different : page ≠ other) :
    page + 4096 ≤ other ∨ other + 4096 ≤ page := by
  have aligned := first.1
  have aligned' := second.1
  omega

/-- The words on the stack of the thread that is left. -/
def switchWords (ret : DWord) (cur next : Nat) (m : Processor) : List DWord :=
  [m.context.regs.edi, m.context.regs.esi, m.context.regs.ebp,
    m.context.regs.ebx, ret, BitVec.ofNat 32 cur, BitVec.ofNat 32 next]

/-- The processor when the registers have been pushed. -/
def pushedForSwitch (ret : DWord) (cur next : Nat) (m : Processor) : Processor :=
  pushCallee (((m.push (BitVec.ofNat 32 next)).push (BitVec.ofNat 32 cur)).push ret)

/-- The call and the registers are pushed on what is there. -/
theorem pushRet_grown (ret : DWord) {base : Nat} {words : List DWord}
    (grown : Grown memory base m words) (room : 4 * words.length + 20 ≤ base) :
    Grown memory base (pushCallee (m.push ret))
      ([m.context.regs.edi, m.context.regs.esi, m.context.regs.ebp,
        m.context.regs.ebx, ret] ++ words) := by
  have registers : (m.push ret).context.regs = m.context.regs := by
    rw [push_context]
  have called := grown.push ret (by omega)
  have first := called.push m.context.regs.ebx (by
    rw [List.length_cons]
    omega)
  have second := first.push m.context.regs.ebp (by
    rw [List.length_cons, List.length_cons]
    omega)
  have third := second.push m.context.regs.esi (by
    rw [List.length_cons, List.length_cons, List.length_cons]
    omega)
  rw [pushCallee, registers]
  exact third.push m.context.regs.edi (by
    rw [List.length_cons, List.length_cons, List.length_cons, List.length_cons]
    omega)

/-- The arguments of the call. -/
theorem arguments_grown (room : 8 ≤ m.sp) :
    Grown m.memory m.sp
      ((m.push (BitVec.ofNat 32 next)).push (BitVec.ofNat 32 cur))
      [BitVec.ofNat 32 cur, BitVec.ofNat 32 next] := by
  have first := (grown_refl m).push (BitVec.ofNat 32 next) (by
    rw [List.length_nil]
    omega)
  exact first.push (BitVec.ofNat 32 cur) room

theorem pushedForSwitch_grown (room : 28 ≤ m.sp) :
    Grown m.memory m.sp (pushedForSwitch ret cur next m)
      (switchWords ret cur next m) :=
  pushRet_grown ret (arguments_grown (by omega)) room

/-- What the pops find on a saved stack. -/
theorem popCallee_resumed {eax ecx : DWord} (held : m.OnStack resumption.frame)
    (place : m.sp = resumption.sp - 20) (inside : 20 ≤ resumption.sp)
    (upper : resumption.sp < 2 ^ 32)
    (stack : m.memory.AgreeOn resumption.memory resumption.sp (page + 4096)) :
    Resumed (popCallee m eax ecx) page resumption := by
  constructor
  · exact peek_get held 0 rfl rfl (by
      change m.sp + 0 < 2 ^ 32
      omega)
  · exact peek_get held 1 rfl rfl (by
      change m.sp + 4 < 2 ^ 32
      omega)
  · exact peek_get held 2 rfl rfl (by
      change m.sp + 8 < 2 ^ 32
      omega)
  · exact peek_get held 3 rfl rfl (by
      change m.sp + 12 < 2 ^ 32
      omega)
  · exact peek_get held 4 rfl rfl (by
      change m.sp + 16 < 2 ^ 32
      omega)
  · have moved : (popCallee m eax ecx).sp = m.sp + 20 := by
      apply offset_toNat
      change m.sp + 20 < 2 ^ 32
      omega
    omega
  · exact stack

/-- The stack pointer that is saved. -/
theorem saveStack_memory (curPage : KernelPage cur) (isCur : m.peek 20#32 = BitVec.ofNat 32 cur) :
    (saveStack m).memory = m.memory.store32 (cur + threadStackOfs) m.sp := by
  have bound := curPage.2
  have address : (BitVec.ofNat 32 cur).toNat = cur := by
    rw [BitVec.toNat_ofNat]
    exact Nat.mod_eq_of_lt (by omega)
  rw [saveStack, isCur, address, sp]

/-- The stack of the next thread. -/
theorem loadStack_eq (nextPage : KernelPage next) (isNext : m.peek 24#32 = BitVec.ofNat 32 next)
    (suspended : Suspended m.memory next resumption) :
    (loadStack m).toNat = resumption.sp - 20 := by
  have bound := nextPage.2
  have inside := suspended.inside
  have address : (BitVec.ofNat 32 next).toNat = next := by
    rw [BitVec.toNat_ofNat]
    exact Nat.mod_eq_of_lt (by omega)
  rw [loadStack, isNext, address, suspended.pointer, BitVec.toNat_ofNat]
  exact Nat.mod_eq_of_lt (by omega)

/-- A page that is neither written to by the pushes nor by the saving. -/
theorem stored_agreeOn {base start : Nat} (curPage : KernelPage cur)
    (same : SameOutside memory after start base)
    (lower : cur + threadSize ≤ start) (upper : base ≤ cur + 4096)
    (other : KernelPage page) (different : page ≠ cur) {value : Nat} :
    memory.AgreeOn (after.store32 (cur + threadStackOfs) value) page
      (page + 4096) := by
  have size : threadSize = 56 := rfl
  have offset : threadStackOfs = 24 := rfl
  have apart := pages_apart other curPage different
  intro address low high
  rw [Memory.store32, if_neg (by omega)]
  exact (same address (by omega)).symm

/-- One switch: the next thread goes on with what it was left with and gets the
thread before it, whose registers and stack are saved. -/
theorem switch_spec (curPage : KernelPage cur) (nextPage : KernelPage next)
    (different : next ≠ cur) (room : cur + threadSize + 28 ≤ m.sp) (upper : m.sp < cur + 4096)
    (suspended : Suspended m.memory next resumption) :
    Resumed (callSwitch ret cur next m) next resumption ∧
      (callSwitch ret cur next m).context.regs.eax = BitVec.ofNat 32 cur ∧
      Suspended (callSwitch ret cur next m).memory cur (leftWith ret cur next m) ∧
      ∀ other, KernelPage other → other ≠ cur →
        m.memory.AgreeOn (callSwitch ret cur next m).memory other
          (other + 4096) := by
  have size : threadSize = 56 := rfl
  have offset : threadStackOfs = 24 := rfl
  have bound := curPage.2
  let pushed := pushedForSwitch ret cur next m
  have grown : Grown m.memory m.sp pushed (switchWords ret cur next m) :=
    pushedForSwitch_grown (by omega)
  have place : pushed.sp + 28 = m.sp := grown.sp
  -- the arguments stay on the stack of the thread
  have arguments : Grown m.memory m.sp
      ((m.push (BitVec.ofNat 32 next)).push (BitVec.ofNat 32 cur))
      [BitVec.ofNat 32 cur, BitVec.ofNat 32 next] :=
    arguments_grown (by omega)
  have above := arguments.sp
  simp only [List.length_cons, List.length_nil] at above
  have registers := pushRet_grown ret (grown_refl
    ((m.push (BitVec.ofNat 32 next)).push (BitVec.ofNat 32 cur))) (by
      rw [List.length_nil]
      omega)
  have isCur : pushed.peek 20#32 = BitVec.ofNat 32 cur :=
    peek_get grown.held 5 rfl rfl (by
      change pushed.sp + 20 < 2 ^ 32
      omega)
  have memory : (saveStack pushed).memory =
      pushed.memory.store32 (cur + threadStackOfs) pushed.sp :=
    saveStack_memory curPage isCur
  have others : ∀ other, KernelPage other → other ≠ cur →
      m.memory.AgreeOn (saveStack pushed).memory other (other + 4096) := by
    intro other otherPage isOther
    rw [memory]
    exact stored_agreeOn curPage grown.outside (by omega) (Nat.le_of_lt upper) otherPage isOther
  -- the words on the stack are above the structure
  have kept : (saveStack pushed).OnStack (switchWords ret cur next m) := by
    rw [OnStack, memory]
    apply grown.held.store
    right
    omega
  have isNext : (saveStack pushed).peek 24#32 = BitVec.ofNat 32 next :=
    peek_get kept 6 rfl rfl (by
      change pushed.sp + 24 < 2 ^ 32
      omega)
  have ready : Suspended (saveStack pushed).memory next resumption := by
    have agrees := others next nextPage different
    have inside := suspended.inside
    exact suspended.congr (agrees.mono (by omega) (by omega))
      (agrees.mono (by omega) (Nat.le_refl _))
  have loaded := loadStack_eq nextPage isNext ready
  refine ⟨?_, isCur, ?_, others⟩
  · have inside := ready.inside
    have nextBound := nextPage.2
    apply popCallee_resumed
    · change HoldsWords (saveStack pushed).memory (loadStack (saveStack pushed)).toNat
        resumption.frame
      rw [loaded]
      exact ready.frame
    · exact loaded
    · omega
    · omega
    · exact ready.stack
  · have left : (leftWith ret cur next m).sp = m.sp - 8 := rfl
    change Suspended (saveStack pushed).memory cur (leftWith ret cur next m)
    constructor
    · omega
    · have small : pushed.sp < unsignedModulus := pushed.context.esp.isLt
      rw [memory, Memory.load32_store32 small]
      omega
    · have start : (leftWith ret cur next m).sp - 20 = pushed.sp := by omega
      rw [start]
      have held : HoldsWords (saveStack pushed).memory pushed.sp
          ((leftWith ret cur next m).frame ++ [BitVec.ofNat 32 cur, BitVec.ofNat 32 next]) := kept
      exact (holds_append.mp held).1
    · rw [memory]
      intro address lower high
      have above : cur + threadStackOfs + 4 ≤ address := by omega
      rw [Memory.store32, if_neg (by omega)]
      exact registers.outside address (by omega)

end Switch

/-! ## A new thread -/

/-- The words at the end of the page of a new thread. -/
def createdWords (code : KernelCode) (function aux : DWord) : List DWord :=
  [0#32, 0#32, 0#32, 0#32, code.switchEntry, 0#32, 0#32, code.kernelThread, 0#32, function, aux]

section Create

variable {code : KernelCode} {page : Nat} {function aux : DWord} {memory : Memory}

theorem createStack_holds :
    HoldsWords (createStack code page function aux memory) (page + 4052)
      (createdWords code function aux) := by
  have cleared : HoldsWords (memory.fill page 4096 0) (page + 4052)
      (List.replicate 11 0#32) :=
    holds_fill 11 (by omega) (by omega)
  have kernelThread := ((cleared.set 8 (by simp) 0#32).set 9 (by simp)
    function).set 10 (by simp) aux
  have entry := kernelThread.set 7 (by simp) code.kernelThread
  have switch := (entry.set 4 (by simp) code.switchEntry).set 2 (by simp) 0#32
  have offset : threadStackOfs = 24 := rfl
  have below : page + threadStackOfs + 4 ≤ page + 4052 := by omega
  exact switch.store (Or.inr below)

theorem createStack_outside :
    SameOutside memory (createStack code page function aux memory) page
      (page + 4096) := by
  have offset : threadStackOfs = 24 := rfl
  intro address outside
  simp only [createStack, Memory.store32, Memory.fill]
  rw [if_neg (by omega), if_neg (by omega), if_neg (by omega), if_neg (by omega),
    if_neg (by omega), if_neg (by omega), if_neg (by omega), if_neg (by omega)]

theorem createStack_pointer (kernelPage : KernelPage page) :
    (createStack code page function aux memory).load32 (page + threadStackOfs) = page + 4052 := by
  have bound := kernelPage.2
  have modulus : unsignedModulus = 2 ^ 32 := rfl
  exact Memory.load32_store32 (by omega)

/-- A new thread is suspended before it has run. -/
theorem createStack_suspended (kernelPage : KernelPage page) :
    Suspended (createStack code page function aux memory) page
      (startsWith code page function aux memory) := by
  have size : threadSize = 56 := rfl
  have start : (startsWith code page function aux memory).sp = page + 4072 := rfl
  have frame : (startsWith code page function aux memory).sp - 20 = page + 4052 := by omega
  constructor
  · omega
  · rw [frame]
    exact createStack_pointer kernelPage
  · rw [frame]
    have held : HoldsWords (createStack code page function aux memory) (page + 4052)
        ((startsWith code page function aux memory).frame ++
          [0#32, 0#32, code.kernelThread, 0#32, function, aux]) :=
      createStack_holds
    exact (holds_append.mp held).1
  · exact fun _ _ _ => rfl

end Create

/-! ## Runs -/

/-- Every thread but the running one has been left with something in its page. -/
structure SwitchInvariant (st : SwitchState) : Prop where
  currentPage : KernelPage st.current
  stack : inStack st.current st.machine.sp = true
  pages : ∀ page ∈ st.suspended, KernelPage page
  distinct : (st.current :: st.suspended).Nodup
  saved : ∀ page ∈ st.suspended, ∃ resumption, Suspended st.machine.memory page resumption

section Runs

variable {code : KernelCode} {st target : SwitchState} {move : SwitchMove}
variable {page next : Nat} {ret : DWord} {resumption : Resumption}

theorem inStack_iff {sp : Nat} :
    inStack page sp = true ↔ page + threadSize ≤ sp ∧ sp < page + 4096 := by
  simp [inStack]

theorem mayStore_spec {address : Nat} (may : mayStore st address = true)
    (member : page ∈ st.suspended) (suspended : Suspended st.machine.memory page resumption) :
    Apart address (address + 4) (page + threadStackOfs)
        (page + threadStackOfs + 4) ∧
      Apart address (address + 4) (resumption.sp - 20) (page + 4096) := by
  rw [mayStore, List.all_eq_true] at may
  have both := may page member
  rw [Bool.and_eq_true, decide_eq_true_iff, decide_eq_true_iff, suspended.pointer] at both
  exact both

/-- The switch as a step. -/
theorem switch_step (invariant : SwitchInvariant st)
    (moved : st.step code (.switch next ret) = some target)
    (suspended : Suspended st.machine.memory next resumption) :
    target.current = next ∧
      target.suspended = st.current :: st.suspended.erase next ∧
      Resumed target.machine next resumption ∧
      target.machine.context.regs.eax = BitVec.ofNat 32 st.current ∧
      Suspended target.machine.memory st.current (leftWith ret st.current next st.machine) ∧
      ∀ other, KernelPage other → other ≠ st.current →
        st.machine.memory.AgreeOn target.machine.memory other (other + 4096) := by
  obtain ⟨ready, moved⟩ := Option.ite_none_right_eq_some.mp moved
  have machine : target.machine = callSwitch ret st.current next st.machine := by
    rw [← Option.some.inj moved]
  have different : next ≠ st.current := by
    intro same
    rw [same] at ready
    exact (List.nodup_cons.mp invariant.distinct).1 ready.1
  rw [machine]
  refine ⟨?_, ?_, ?_⟩
  · rw [← Option.some.inj moved]
  · rw [← Option.some.inj moved]
  · exact switch_spec invariant.currentPage (invariant.pages next ready.1)
      different ready.2 (inStack_iff.mp invariant.stack).2 suspended

theorem switch_member (moved : st.step code (.switch next ret) = some target) :
    next ∈ st.suspended :=
  (Option.ite_none_right_eq_some.mp moved).1.1

/-- What a thread has been left with is kept until it is switched to. -/
theorem Suspended.step (invariant : SwitchInvariant st)
    (suspended : Suspended st.machine.memory page resumption)
    (member : page ∈ st.suspended) (apart : move.concerns page = false)
    (moved : st.step code move = some target) :
    Suspended target.machine.memory page resumption ∧
      page ∈ target.suspended := by
  cases move with
  | registers regs =>
      cases moved
      exact ⟨suspended, member⟩
  | stack esp =>
      obtain ⟨-, moved⟩ := Option.ite_none_right_eq_some.mp moved
      cases moved
      exact ⟨suspended, member⟩
  | store address value =>
      obtain ⟨may, moved⟩ := Option.ite_none_right_eq_some.mp moved
      cases moved
      have outside := mayStore_spec may member suspended
      refine ⟨suspended.congr ?_ ?_, member⟩
      · exact fun place lower upper =>
          (Memory.store32_agreeOn outside.1.symm place lower upper).symm
      · exact fun place lower upper =>
          (Memory.store32_agreeOn outside.2.symm place lower upper).symm
  | create other function aux =>
      obtain ⟨fresh, moved⟩ := Option.ite_none_right_eq_some.mp moved
      cases moved
      have different : page ≠ other := by
        intro same
        rw [same] at member
        exact fresh.2.2 member
      have outside := pages_apart (invariant.pages page member) fresh.1 different
      have inside := suspended.inside
      have offset : threadStackOfs = 24 := rfl
      refine ⟨suspended.congr ?_ ?_, List.mem_cons_of_mem _ member⟩
      · intro place lower upper
        exact (createStack_outside place (by omega)).symm
      · intro place lower upper
        exact (createStack_outside place (by omega)).symm
  | switch next ret =>
      have other : page ≠ next := by
        intro same
        rw [SwitchMove.concerns, same, beq_self_eq_true] at apart
        cases apart
      have notCurrent : page ≠ st.current := by
        intro same
        rw [same] at member
        exact (List.nodup_cons.mp invariant.distinct).1 member
      obtain ⟨nextResumption, nextSuspended⟩ := invariant.saved next (switch_member moved)
      obtain ⟨-, queue, -, -, -, others⟩ := switch_step invariant moved nextSuspended
      have agrees := others page (invariant.pages page member) notCurrent
      have inside := suspended.inside
      have offset : threadStackOfs = 24 := rfl
      refine ⟨suspended.congr (agrees.mono (by omega) (by omega))
        (agrees.mono (by omega) (Nat.le_refl _)), ?_⟩
      rw [queue]
      exact List.mem_cons_of_mem _ ((List.mem_erase_of_ne other).mpr member)
  | free other =>
      obtain ⟨-, moved⟩ := Option.ite_none_right_eq_some.mp moved
      cases moved
      have different : page ≠ other := by
        intro same
        rw [SwitchMove.concerns, same, beq_self_eq_true] at apart
        cases apart
      exact ⟨suspended, (List.mem_erase_of_ne different).mpr member⟩

/-- A thread that a step does not concern is still suspended. -/
theorem saved_of_step (invariant : SwitchInvariant st)
    (moved : st.step code move = some target) (old : page ∈ st.suspended)
    (apart : move.concerns page = false) :
    ∃ resumption, Suspended target.machine.memory page resumption := by
  obtain ⟨resumption, suspended⟩ := invariant.saved page old
  exact ⟨resumption, (suspended.step invariant old apart moved).1⟩

theorem SwitchInvariant.step (invariant : SwitchInvariant st)
    (moved : st.step code move = some target) : SwitchInvariant target := by
  have saved : ∀ page ∈ st.suspended, move.concerns page = false →
      ∃ resumption, Suspended target.machine.memory page resumption :=
    fun page old apart => saved_of_step invariant moved old apart
  have notCurrent := (List.nodup_cons.mp invariant.distinct).1
  have nodup := (List.nodup_cons.mp invariant.distinct).2
  cases move with
  | registers regs =>
      cases moved
      exact
        { invariant with
          stack := invariant.stack
          saved := fun page old => saved page old rfl }
  | stack esp =>
      obtain ⟨inside, moved⟩ := Option.ite_none_right_eq_some.mp moved
      cases moved
      exact
        { invariant with
          stack := inside
          saved := fun page old => saved page old rfl }
  | store address value =>
      obtain ⟨-, moved⟩ := Option.ite_none_right_eq_some.mp moved
      cases moved
      exact
        { invariant with
          stack := invariant.stack
          saved := fun page old => saved page old rfl }
  | create page function aux =>
      obtain ⟨fresh, moved⟩ := Option.ite_none_right_eq_some.mp moved
      cases moved
      constructor
      · exact invariant.currentPage
      · exact invariant.stack
      · intro other member
        rcases List.mem_cons.mp member with rfl | old
        · exact fresh.1
        · exact invariant.pages other old
      · apply List.nodup_cons.mpr
        refine ⟨?_, List.nodup_cons.mpr ⟨fresh.2.2, nodup⟩⟩
        intro member
        rcases List.mem_cons.mp member with same | old
        · exact fresh.2.1 same.symm
        · exact notCurrent old
      · intro other member
        rcases List.mem_cons.mp member with rfl | old
        · exact ⟨_, createStack_suspended fresh.1⟩
        · exact saved other old rfl
  | switch next ret =>
      have member := switch_member moved
      obtain ⟨resumption, suspended⟩ := invariant.saved next member
      obtain ⟨current, queue, resumed, -, left, -⟩ := switch_step invariant moved suspended
      have size : threadSize = 56 := rfl
      have inside := suspended.inside
      constructor
      · rw [current]
        exact invariant.pages next member
      · rw [inStack_iff, current, resumed.sp]
        omega
      · intro page new
        rw [queue] at new
        rcases List.mem_cons.mp new with rfl | old
        · exact invariant.currentPage
        · exact invariant.pages page (List.mem_of_mem_erase old)
      · rw [current, queue]
        have perm := List.perm_cons_erase member
        have swapped : (st.current :: next :: st.suspended.erase next).Nodup :=
          (List.Perm.nodup_iff (perm.cons st.current)).mp invariant.distinct
        exact (List.Perm.swap next st.current _).nodup_iff.mp swapped
      · intro page new
        rw [queue] at new
        rcases List.mem_cons.mp new with rfl | old
        · exact ⟨_, left⟩
        · have other : page ≠ next := by
            intro same
            rw [same] at old
            exact nodup.not_mem_erase old
          exact saved page (List.mem_of_mem_erase old)
            (beq_false_of_ne other.symm)
  | free page =>
      obtain ⟨-, moved⟩ := Option.ite_none_right_eq_some.mp moved
      cases moved
      constructor
      · exact invariant.currentPage
      · exact invariant.stack
      · exact fun other member =>
          invariant.pages other (List.mem_of_mem_erase member)
      · apply List.nodup_cons.mpr
        exact ⟨fun member => notCurrent (List.mem_of_mem_erase member), nodup.erase page⟩
      · intro other member
        have different : other ≠ page := by
          intro same
          rw [same] at member
          exact nodup.not_mem_erase member
        exact saved other (List.mem_of_mem_erase member) (beq_false_of_ne different.symm)

theorem switch_invariant (reachable : (switchSystem code).Reachable st) : SwitchInvariant st := by
  apply reachable.invariant SwitchInvariant
  · intro start initial
    constructor
    · exact initial.1
    · exact initial.2.1
    · rw [initial.2.2]
      exact fun _ member => absurd member List.not_mem_nil
    · rw [initial.2.2]
      exact List.nodup_cons.mpr ⟨List.not_mem_nil, List.nodup_nil⟩
    · rw [initial.2.2]
      exact fun _ member => absurd member List.not_mem_nil
  · exact fun start move next _ invariant moved => invariant.step moved

/-- What a thread has been left with is kept in every run without it. -/
theorem suspended_of_run {moves : List SwitchMove}
    (invariant : SwitchInvariant st) (member : page ∈ st.suspended)
    (suspended : Suspended st.machine.memory page resumption)
    (apart : ∀ move ∈ moves, move.concerns page = false)
    (run : (switchSystem code).run st moves = some target) :
    SwitchInvariant target ∧ page ∈ target.suspended ∧
      Suspended target.machine.memory page resumption := by
  induction moves generalizing st with
  | nil =>
      cases run
      exact ⟨invariant, member, suspended⟩
  | cons move rest inductionHypothesis =>
      obtain ⟨middle, first, remainder⟩ := TransitionSystem.run_cons_eq_some.mp run
      obtain ⟨kept, still⟩ := suspended.step invariant member (apart move List.mem_cons_self) first
      exact inductionHypothesis (invariant.step first) still kept
        (fun other later => apart other (List.mem_cons_of_mem _ later)) remainder

end Runs

section Results

variable {code : KernelCode} {before left away back : SwitchState}
variable {moves : List SwitchMove} {page next : Nat} {ret other : DWord}

/-- A call of `switch_threads` returns when the thread is switched to again, with
the registers, the stack pointer and the stack of the call, and with the thread
that ran last.  The other threads do what they like with the registers and with
memory that is not a saved stack. -/
theorem switch_threads_returns
    (reachable : (switchSystem code).Reachable before)
    (leave : before.step code (.switch next ret) = some left)
    (others : (switchSystem code).run left moves = some away)
    (apart : ∀ move ∈ moves, move.concerns before.current = false)
    (return_ : away.step code (.switch before.current other) = some back) :
    Resumed back.machine before.current
        (leftWith ret before.current next before.machine) ∧
      back.machine.context.regs.eax = BitVec.ofNat 32 away.current := by
  have invariant := switch_invariant reachable
  obtain ⟨resumption, suspended⟩ := invariant.saved next (switch_member leave)
  obtain ⟨-, queue, -, -, saved, -⟩ := switch_step invariant leave suspended
  have member : before.current ∈ left.suspended := by
    rw [queue]
    exact List.mem_cons_self
  obtain ⟨awayInvariant, -, kept⟩ :=
    suspended_of_run (invariant.step leave) member saved apart others
  obtain ⟨-, -, resumed, prev, -, -⟩ := switch_step awayInvariant return_ kept
  exact ⟨resumed, prev⟩

def bootCode : KernelCode := ⟨0xc0020100#32, 0xc0020200#32⟩

/-- A first thread that is about to create another one. -/
def bootState : SwitchState where
  machine :=
    { context :=
        { regs := ⟨1#32, 2#32, 3#32, 4#32, 5#32, 6#32, 7#32⟩
          segs := ⟨0x10#16, 0x10#16, 0x10#16, 0x10#16⟩
          eip := 0xc0020300#32
          cs := 0x08#16
          eflags := 0#32
          esp := 0xc000ef00#32
          ss := 0x10#16 }
      memory := fun _ => 0 }
  current := 0xc000e000
  suspended := []

def createdState : SwitchState :=
  { bootState with
    machine :=
      { bootState.machine with
        memory := createStack bootCode 0xc0010000 8#32 9#32 bootState.machine.memory }
    suspended := [0xc0010000] }

def switchedState : SwitchState where
  machine := callSwitch 10#32 0xc000e000 0xc0010000 createdState.machine
  current := 0xc0010000
  suspended := [0xc000e000]

theorem bootState_reachable : (switchSystem bootCode).Reachable bootState :=
  TransitionSystem.Reachable.initial ⟨by decide, by decide, rfl⟩

theorem bootState_create :
    bootState.step bootCode (.create 0xc0010000 8#32 9#32) = some createdState := by
  rw [SwitchState.step]
  exact if_pos (by decide)

theorem createdState_reachable : (switchSystem bootCode).Reachable createdState := by
  have moved : (switchSystem bootCode).step bootState
      (.create 0xc0010000 8#32 9#32) = some createdState := bootState_create
  exact bootState_reachable.step moved

theorem createdState_switch :
    createdState.step bootCode (.switch 0xc0010000 10#32) = some switchedState := by
  rw [SwitchState.step]
  exact if_pos (by decide)

/-- The first thread comes back at once, with its registers. -/
theorem switch_threads_returns_boot :
    ∃ back, switchedState.step bootCode (.switch 0xc000e000 11#32) = some back ∧
      Resumed back.machine 0xc000e000 (leftWith 10#32 0xc000e000 0xc0010000 createdState.machine) ∧
      back.machine.context.regs.eax = 0xc0010000#32 := by
  have back : switchedState.step bootCode (.switch 0xc000e000 11#32) =
      some
        { machine := callSwitch 11#32 0xc0010000 0xc000e000 switchedState.machine
          current := 0xc000e000
          suspended := [0xc0010000] } := by
    rw [SwitchState.step]
    exact if_pos (by decide)
  have others : (switchSystem bootCode).run switchedState [] = some switchedState := rfl
  exact ⟨_, back,
    switch_threads_returns createdState_reachable createdState_switch others
      (fun _ member => absurd member List.not_mem_nil) back⟩

/-- The stack in `thread_switch_tail` and after it. -/
theorem switchEntry_spec {m : Processor} {code : KernelCode}
    {function aux : DWord} {memory : Memory} (kernelPage : KernelPage page)
    (resumed : Resumed m page (startsWith code page function aux memory)) (tail : DWord) :
    (switchEntry tail m).sp = page + 4072 ∧
      (switchEntry tail m).OnStack
        [tail, m.context.regs.eax, code.kernelThread, 0#32, function, aux] := by
  have bound := kernelPage.2
  have place : m.sp = page + 4072 := resumed.sp
  have created : HoldsWords (startsWith code page function aux memory).memory
      (page + 4072) [0#32, 0#32, code.kernelThread, 0#32, function, aux] := by
    have words : HoldsWords (startsWith code page function aux memory).memory
        (page + 4052)
        ((startsWith code page function aux memory).frame ++
          [0#32, 0#32, code.kernelThread, 0#32, function, aux]) :=
      createStack_holds
    exact (holds_append.mp words).2
  have stack : m.OnStack
      ([0#32, 0#32] ++ [code.kernelThread, 0#32, function, aux]) := by
    rw [OnStack, place]
    exact created.congr fun address lower upper =>
      (resumed.stack address lower upper).symm
  have fits : m.sp + (8#32).toNat < 2 ^ 32 := by
    change m.sp + 8 < 2 ^ 32
    omega
  have dropped : (m.discard 8#32).sp = m.sp + 8 := discard_sp fits
  have grown : Grown (m.discard 8#32).memory (m.discard 8#32).sp
      (switchEntry tail m) [tail, m.context.regs.eax] := by
    have first := (grown_refl (m.discard 8#32)).push m.context.regs.eax (by
      rw [List.length_nil]
      omega)
    exact first.push tail (by
      rw [List.length_cons, List.length_nil]
      omega)
  have start : (switchEntry tail m).sp + 8 = (m.discard 8#32).sp := grown.sp
  refine ⟨by omega, ?_⟩
  have rest : HoldsWords (switchEntry tail m).memory ((switchEntry tail m).sp + 8)
      [code.kernelThread, 0#32, function, aux] := by
    rw [start]
    exact grown.outside.holds (discard_onStack [0#32, 0#32] stack rfl fits) (Nat.le_refl _)
  have whole : HoldsWords (switchEntry tail m).memory (switchEntry tail m).sp
      ([tail, m.context.regs.eax] ++ [code.kernelThread, 0#32, function, aux]) :=
    holds_append.mpr ⟨grown.held, rest⟩
  exact whole

/-- The return to `kernel_thread`. -/
theorem switchEntryReturn_spec {m : Processor} {value target : DWord}
    {words : List DWord} (stack : m.OnStack (value :: target :: words)) (fits : m.sp + 8 < 2 ^ 32) :
    (switchEntryReturn m).context.eip = target ∧
      (switchEntryReturn m).OnStack words := by
  have first : m.sp + (4#32).toNat < 2 ^ 32 := by
    change m.sp + 4 < 2 ^ 32
    omega
  have place : (m.discard 4#32).sp = m.sp + 4 := discard_sp first
  have second : (m.discard 4#32).sp + (4#32).toNat < 2 ^ 32 := by
    change (m.discard 4#32).sp + 4 < 2 ^ 32
    omega
  have dropped : (m.discard 4#32).OnStack (target :: words) :=
    discard_onStack [value] stack rfl first
  constructor
  · exact peek_get dropped 0 rfl rfl (by
      change (m.discard 4#32).sp + 0 < 2 ^ 32
      omega)
  · exact discard_onStack [target] dropped rfl second

/-- A new thread that is switched to starts in `switch_entry`, which gives the
thread before it to `thread_switch_tail` and then enters `kernel_thread` as if it
had been called with the function and its argument. -/
theorem new_thread_starts (tail : DWord) {function aux : DWord} {created started : SwitchState}
    (reachable : (switchSystem code).Reachable before)
    (create : before.step code (.create page function aux) = some created)
    (others : (switchSystem code).run created moves = some away)
    (apart : ∀ move ∈ moves, move.concerns page = false)
    (switch : away.step code (.switch page other) = some started) :
    started.machine.context.eip = code.switchEntry ∧
      (switchEntry tail started.machine).OnStack
        [tail, BitVec.ofNat 32 away.current, code.kernelThread, 0#32, function, aux] ∧
      ∀ returned, TailReturned (switchEntry tail started.machine) returned →
        (switchEntryReturn returned).context.eip = code.kernelThread ∧
          (switchEntryReturn returned).OnStack [0#32, function, aux] := by
  have invariant := switch_invariant reachable
  have createdInvariant := invariant.step create
  obtain ⟨fresh, same⟩ := Option.ite_none_right_eq_some.mp create
  have suspended : Suspended created.machine.memory page
      (startsWith code page function aux before.machine.memory) := by
    rw [← Option.some.inj same]
    exact createStack_suspended fresh.1
  have member : page ∈ created.suspended := by
    rw [← Option.some.inj same]
    exact List.mem_cons_self
  obtain ⟨awayInvariant, -, kept⟩ := suspended_of_run createdInvariant member suspended apart others
  obtain ⟨-, -, resumed, prev, -, -⟩ := switch_step awayInvariant switch kept
  obtain ⟨place, stack⟩ := switchEntry_spec fresh.1 resumed tail
  rw [prev] at stack
  refine ⟨resumed.eip, stack, ?_⟩
  intro returned back
  have bound := fresh.1.2
  have returnedSp := back.sp
  have held : HoldsWords returned.memory ((switchEntry tail started.machine).sp + 8)
      [code.kernelThread, 0#32, function, aux] := by
    have whole : HoldsWords (switchEntry tail started.machine).memory
        (switchEntry tail started.machine).sp
        ([tail, BitVec.ofNat 32 away.current] ++ [code.kernelThread, 0#32, function, aux]) := stack
    exact (holds_append.mp whole).2.congr back.stack
  -- the argument is still on the stack, perhaps with another value
  have argument : returned.OnStack
      (returned.peek 0#32 :: code.kernelThread :: [0#32, function, aux]) := by
    have next : returned.sp + 4 = (switchEntry tail started.machine).sp + 8 := by
      omega
    refine ⟨?_, ?_⟩
    · have zero : (returned.context.esp + 0#32).toNat = returned.sp :=
        congrArg BitVec.toNat (BitVec.add_zero _)
      rw [peek, zero, BitVec.toNat_ofNat, Nat.mod_eq_of_lt]
      exact Memory.load32_lt _ _
    · rw [next]
      exact held
  exact switchEntryReturn_spec argument (by omega)

/-- The second thread starts after the first. -/
theorem new_thread_starts_boot :
    switchedState.machine.context.eip = 0xc0020100#32 ∧
      (switchEntry 12#32 switchedState.machine).OnStack
        [12#32, 0xc000e000#32, 0xc0020200#32, 0#32, 8#32, 9#32] := by
  have others : (switchSystem bootCode).run createdState [] = some createdState := rfl
  have starts := new_thread_starts 12#32 bootState_reachable bootState_create
    others (fun _ member => absurd member List.not_mem_nil) createdState_switch
  exact ⟨starts.1, starts.2.1⟩

end Results

end CS162.Threads
