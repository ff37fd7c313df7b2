import CS162.Userprog.UserMode

/-!
# What a user program can do to the kernel

Handling an event ends with a return to the process or with its end alone, unless
the event is a system call and the word at the stack pointer, or the one after it
for `exit`, is not in pages of the process: then the kernel faults or reads memory of
others.  A stack-segment fault brings the kernel down as well: the frame that its
stub builds does not show where it comes from.
-/

namespace CS162.Userprog

open CS162.Foundation CS162.Filesys Machine
open CS162.Threads (exceptions selKcseg)

/-! ## The end of a process -/

/-- The address of a page of the user by its number. -/
theorem page_address {number : Nat} (inRange : number < 768 * 1024) :
    ∃ va, isUserVaddr va = true ∧ pgOfs va = 0#32 ∧ pgNo va = number := by
  have value : (BitVec.ofNat 32 (number * 4096)).toNat = number * 4096 := by
    rw [BitVec.toNat_ofNat]
    exact Nat.mod_eq_of_lt (by omega)
  refine ⟨BitVec.ofNat 32 (number * 4096), ?_, ?_, ?_⟩
  · rw [isUserVaddr_iff, pdNo_eq, value]
    omega
  · rw [pgOfs_eq_zero_iff, value]
    omega
  · rw [pgNo_eq, value]
    omega

section Exit

variable {boot : Boot} {base before : Machine} {tables : Nat → Option Word}
variable {known : Nat → Option PageEntry} {p : UserProcess} {page : Word}

/-- The frames of a process are those that `pagedir_get_page` finds. -/
theorem mem_framesOf_iff
    (sound : DirSound boot before p.pd tables p.machine known) :
    page ∈ framesOf known ↔
      ∃ va, isUserVaddr va = true ∧ pgOfs va = 0#32 ∧
        p.machine.pagedirGetPage p.pd va = some (some page) := by
  constructor
  · intro member
    rcases List.mem_filterMap.mp member with ⟨number, inRange, mapped⟩
    rcases page_address (List.mem_range.mp inRange) with ⟨va, user, aligned, rfl⟩
    refine ⟨va, user, aligned, ?_⟩
    rw [sound.getPage user, mapped, aligned, Option.map_some, BitVec.add_zero]
  · rintro ⟨va, user, aligned, found⟩
    rw [sound.getPage user, aligned, Option.some.injEq] at found
    rcases Option.map_eq_some_iff.mp found with ⟨frame, mapped, same⟩
    rw [BitVec.add_zero] at same
    subst same
    exact DirSound.mem_framesOf known user mapped

theorem ownPage_iff (sound : DirSound boot before p.pd tables p.machine known) :
    OwnPage p page ↔ page ∈ framesOf known ++ pageTables p.machine p.pd ++ [p.pd] := by
  rw [OwnPage, ← mem_framesOf_iff sound, List.mem_append, List.mem_append, List.mem_singleton]
  constructor
  · rintro (directory | table | frame)
    · exact Or.inr directory
    · exact Or.inl (Or.inr table)
    · exact Or.inl (Or.inl frame)
  · rintro ((frame | table) | directory)
    · exact Or.inr (Or.inr frame)
    · exact Or.inr (Or.inl table)
    · exact Or.inl directory

/-- `pagedir_destroy` frees the pages of the process and touches no other. -/
theorem destroy_alone (loads : Loads boot base p.pd [] before tables known p.machine)
    {cr3 : Word} (small : cr3 < physBase) :
    ∃ m, Machine.pagedirDestroy { p.machine with cr3 := cr3 } boot p.pd = some m ∧
      Alone p m := by
  have sound := loads.sound
  have once := loads.once
  rw [List.nil_append] at once
  have framesOnce := (List.nodup_append.mp once).1
  rcases (sound.with_cr3 small).destroy framesOnce loads.foreign with ⟨after, destroyed, perm⟩
  have all : p.machine.used.Perm
      (framesOf known ++ pageTables p.machine p.pd ++ p.pd :: after.used) := perm
  have listed : (framesOf known ++ pageTables p.machine p.pd ++
      p.pd :: after.used).Nodup := all.nodup_iff.mp sound.usedOnce
  rw [List.append_cons] at listed
  have parts := List.nodup_append.mp listed
  refine ⟨after, destroyed, ?_⟩
  intro page
  constructor
  · intro own used
    have member := (ownPage_iff sound).mp own
    exact parts.2.2 page member page used rfl
  · intro other
    have outside : page ∉ framesOf known ++ pageTables p.machine p.pd ++ [p.pd] :=
      fun member => other ((ownPage_iff sound).mpr member)
    constructor
    · have member := all.mem_iff (a := page)
      rw [List.append_cons, List.mem_append] at member
      rw [member]
      constructor
      · exact Or.inr
      · rintro (own | used)
        · exact absurd own outside
        · exact used
    · rw [(sound.with_cr3 small).destroy_eq loads.foreign] at destroyed
      apply freeAll_word destroyed
      intro member
      apply outside
      have order := (DirSound.tablePages_perm tables known).append_right [p.pd]
      rw [sound.pageTables_eq]
      exact order.mem_iff.mp member

theorem processExit_alone (valid : IsPage boot.initPageDir)
    (loads : Loads boot base p.pd [] before tables known p.machine) :
    ∃ m, processExit boot p.pd p.machine = .exits m ∧ Alone p m := by
  have physical : boot.initPageDir - physBase < physBase := by
    have bound := boot.initPageDir.isLt
    have number : physBase.toNat = 3221225472 := rfl
    rw [BitVec.lt_def, toNat_physical valid.2, number]
    omega
  have activated : p.machine.pagedirActivate boot 0#32 =
      some { p.machine with cr3 := boot.initPageDir - physBase } := by
    rw [Machine.pagedirActivate, if_pos rfl, vtop_eq valid.2]
    rfl
  rcases destroy_alone loads physical with ⟨m, freed, alone⟩
  refine ⟨m, ?_, alone⟩
  rw [processExit, activated, Option.bind_some, freed]

end Exit

/-! ## Computing in user mode -/

section Compute

variable {env : ExecEnv} {st : LoadState} {p : UserProcess}

theorem UserSound.store (sound : UserSound env st p) {va frame value : Word}
    {place : Nat} (target : p.storeFrame va = some frame) :
    UserSound env st { p with machine := p.machine.store frame place value } := by
  rcases sound with ⟨thread, base, used, booted, kept, before, tables, known, loads⟩
  have member : frame ∈ framesOf known := by
    rw [UserProcess.storeFrame] at target
    by_cases user : isUserVaddr va = true
    · rw [if_pos user] at target
      rcases Option.bind_eq_some_iff.mp target with ⟨pte, found, rest⟩
      cases present : hasFlag pte pteP with
      | false =>
          rw [present, Bool.false_and, Bool.false_and, if_neg Bool.false_ne_true]
            at rest
          cases rest
      | true =>
          rcases loads.sound.present_entry user found present with ⟨entry, isKnown, shows, set⟩
          have page := loads.sound.pteGetPage_eq isKnown shows
          split at rest
          · rw [page, Option.some.injEq] at rest
            subst rest
            apply DirSound.mem_framesOf known user
            rw [isKnown, frameOf, Option.bind_some, if_pos set]
          · cases rest
    · rw [if_neg user] at target
      cases target
  have filled := loads.fill_frame member fun index =>
    if index = place then value else p.machine.word frame index
  rw [← store_eq_fillPage] at filled
  exact ⟨thread, base, used, booted, kept, _, tables, known, filled⟩

end Compute

/-! ## Reading arguments -/

section Arguments

variable {boot : Boot} {base before : Machine} {tables : Nat → Option Word}
variable {known : Nat → Option PageEntry} {p : UserProcess} {va : Word}

/-- The kernel can read the pages of the process. -/
theorem readByte_of_own (sound : DirSound boot before p.pd tables p.machine known)
    (own : OwnByte p va) : ∃ byte, readByte p.machine p.pd va = some byte := by
  rcases own with ⟨user, place, found⟩
  rw [sound.getPage user, Option.some.injEq] at found
  rcases Option.map_eq_some_iff.mp found with ⟨frame, mapped, _⟩
  rcases Option.bind_eq_some_iff.mp mapped with ⟨entry, isKnown, set⟩
  rcases sound.pteOf_known user isKnown with ⟨pte, read, shows⟩
  have present : hasFlag pte pteP = true := by
    have bit : (PageEntry.ofPte pte).present = entry.present := congrArg PageEntry.present shows
    by_cases isSet : entry.present = true
    · exact bit.trans isSet
    · rw [if_neg isSet] at set
      cases set
  have page := sound.pteGetPage_eq isKnown shows
  refine ⟨LoadState.pageBytes p.machine entry.frame (pgOfs va).toNat, ?_⟩
  rw [readByte, read, Option.bind_some, if_pos present, page, Option.map_some]

theorem readWord_of_own (sound : DirSound boot before p.pd tables p.machine known)
    (own : ∀ byte ∈ wordBytes va, OwnByte p byte) :
    ∃ value, readWord p.machine p.pd va = some value := by
  have member : ∀ byte ∈ wordBytes va, ∃ value, readByte p.machine p.pd byte = some value := by
    intro byte listed
    exact readByte_of_own sound (own byte listed)
  rcases member va (by simp [wordBytes]) with ⟨first, firstRead⟩
  rcases member (va + 1#32) (by simp [wordBytes]) with ⟨second, secondRead⟩
  rcases member (va + 2#32) (by simp [wordBytes]) with ⟨third, thirdRead⟩
  rcases member (va + 3#32) (by simp [wordBytes]) with ⟨fourth, fourthRead⟩
  refine ⟨first.toNat + 256 * second.toNat + 65536 * third.toNat + 16777216 * fourth.toNat, ?_⟩
  rw [readWord, firstRead, secondRead, thirdRead, fourthRead]
  rfl

end Arguments

/-! ## Events -/

section Events

variable {env : ExecEnv} {st : LoadState} {p : UserProcess} {event : UserEvent}

/-- Events other than system calls are handled by `kill` or by `page_fault`, or are
printed. -/
theorem other_handler (other : event ≠ .int 0x30) :
    intrHandlers event.arrives.1.toNat = some .kill ∨
      intrHandlers event.arrives.1.toNat = some .pageFault ∨
        intrHandlers event.arrives.1.toNat = none := by
  cases event with
  | exception vecNo errorCode =>
      have table : ∀ vec ∈ exceptions, intrHandlers vec.toNat = some .kill ∨
          intrHandlers vec.toNat = some .pageFault ∨ intrHandlers vec.toNat = none := by
        decide
      exact table vecNo (List.contains_iff_mem.mp vecNo.2)
  | int n =>
      rw [UserEvent.arrives]
      by_cases allowed : gateDpl n = 3
      · have gates : ∀ n : Fin 256, gateDpl n = 3 →
            n = 0x30 ∨ intrHandlers n = some .kill := by
          decide +kernel
        rw [if_pos allowed]
        exact Or.inl ((gates n allowed).resolve_left fun same =>
          other (congrArg UserEvent.int same))
      · rw [if_neg allowed]
        exact Or.inl (by decide : intrHandlers 13 = some .kill)

theorem kill_user {boot : Boot} {frame : IntrFrame} (user : frame.cs = selUcseg) :
    kill boot p.pd p.machine frame = processExit boot p.pd p.machine :=
  if_pos user

theorem kill_kernel {boot : Boot} {frame : IntrFrame} (kernel : frame.cs ≠ selUcseg) :
    kill boot p.pd p.machine frame = .panics :=
  if_neg kernel

/-- An event that is not a system call and that `kill` takes for one of the user. -/
theorem handle_other (boot : Boot) (other : event ≠ .int 0x30) (seen : OriginSeen p event) :
    p.handle boot event = (processExit boot p.pd p.machine, []) ∨
      ∃ frame, p.handle boot event = (.returns frame, []) ∧ frame.cs = selUcseg := by
  have number : (userFrame event p.regs).vecNo = event.arrives.1.toNat ∧
      (userFrame event p.regs).cs = selUcseg := by
    by_cases fault : event.arrives.1 = 0x0c#8
    · rw [(userFrame_stackFault fault).1, (userFrame_stackFault fault).2, fault]
      exact ⟨rfl, seen fault⟩
    · rw [userFrame_eq fault]
      exact ⟨rfl, rfl⟩
  rw [UserProcess.handle, intrHandler, number.1]
  rcases other_handler other with handler | handler | handler
  · rw [handler]
    exact Or.inl (congrArg (·, []) (kill_user number.2))
  · rw [handler]
    exact Or.inl (congrArg (·, []) (kill_user number.2))
  · rw [handler]
    exact Or.inr ⟨_, rfl, number.2⟩

/-- A stack-segment fault that `kill` does not take for one of the user. -/
theorem handle_stackFault (boot : Boot) (unseen : ¬OriginSeen p event) :
    p.handle boot event = (.panics, []) := by
  rw [OriginSeen, Classical.not_imp] at unseen
  obtain ⟨fault, different⟩ := unseen
  have frame := @userFrame_stackFault event p.regs fault
  have handler : intrHandlers 12 = some .kill := by decide
  rw [UserProcess.handle, intrHandler, frame.1, handler]
  exact congrArg (·, []) (kill_kernel (by rw [frame.2]; exact different))

/-- A system call. -/
theorem handle_syscall (boot : Boot) :
    p.handle boot (.int 0x30) =
      syscallHandler boot p.pd p.machine
        { vecNo := 0x30, errorCode := 0#32, cs := selUcseg, regs := p.regs } := by
  have arrives : (UserEvent.int 0x30).arrives = (0x30#8, none) := by decide
  have handler : intrHandlers 0x30 = some .syscall := by decide
  rw [UserProcess.handle, userFrame_eq (by rw [arrives]; decide), arrives]
  simp only [intrHandler]
  rw [show intrHandlers (0x30#8).toNat = some .syscall from handler]
  rfl

theorem contained_of_exit {boot : Boot} {m : Machine} {args : List Word}
    (handled : p.handle boot event = (.exits m, args)) (alone : Alone p m)
    (own : ∀ va ∈ args, OwnByte p va) : Contained boot p event := by
  rw [Contained, handled]
  exact ⟨own, alone⟩

/-- Exactly the events that the handlers are not prepared for get out of hand. -/
theorem contained_iff (sound : UserSound env st p) :
    Contained env.boot p event ↔ Foreseen p event := by
  rcases sound.loads with ⟨base, before, tables, known, valid, loads⟩
  rcases processExit_alone valid loads with ⟨m, exit, alone⟩
  by_cases call : event = .int 0x30
  · subst call
    have segments : selKcseg ≠ selUcseg := by decide
    have panics : ∀ frame, pageFault env.boot p.pd p.machine (kernelFault frame) =
        .panics := fun _ => kill_kernel segments
    have seen : OriginSeen p (.int 0x30) := fun fault => absurd fault (by decide)
    rw [Contained, handle_syscall, syscallHandler]
    dsimp only
    constructor
    · intro contained
      refine ⟨seen, fun _ => ?_⟩
      cases number : readWord p.machine p.pd p.regs.esp with
      | none =>
          rw [number] at contained
          dsimp only at contained
          rw [panics] at contained
          exact absurd contained.2 id
      | some value =>
          rw [number] at contained
          dsimp only at contained
          by_cases exits : value = sysExit
          · rw [if_pos exits] at contained
            cases status : readWord p.machine p.pd (p.regs.esp + 4#32) with
            | none =>
                rw [status] at contained
                dsimp only at contained
                rw [panics] at contained
                exact absurd contained.2 id
            | some _ =>
                rw [status] at contained
                have own := List.forall_mem_append.mp contained.1
                exact ⟨own.1, fun _ => own.2⟩
          · rw [if_neg exits] at contained
            refine ⟨contained.1, ?_⟩
            intro same
            exact absurd (Option.some.inj same) exits
    · intro foreseen
      rcases foreseen.2 rfl with ⟨first, second⟩
      rcases readWord_of_own loads.sound first with ⟨value, number⟩
      rw [number]
      dsimp only
      by_cases exits : value = sysExit
      · rw [if_pos exits]
        have status := second (number.trans (congrArg some exits))
        rcases readWord_of_own loads.sound status with ⟨_, read⟩
        rw [read]
        dsimp only
        rw [exit]
        exact ⟨List.forall_mem_append.mpr ⟨first, status⟩, alone⟩
      · rw [if_neg exits]
        exact ⟨first, rfl⟩
  · constructor
    · intro contained
      refine ⟨?_, fun same => absurd same call⟩
      by_contra unseen
      rw [Contained, handle_stackFault env.boot unseen] at contained
      exact contained.2
    · intro foreseen
      rcases handle_other env.boot call foreseen.1 with exits | ⟨frame, returns, code⟩
      · rw [exit] at exits
        exact contained_of_exit exits alone (List.forall_mem_nil _)
      · rw [Contained, returns]
        exact ⟨List.forall_mem_nil _, code⟩

/-- A process that is returned to has the memory that it had. -/
theorem after_running {boot : Boot} {q : UserProcess}
    (handled : p.after (p.handle boot event).1 = .running q) :
    ∃ regs, q = { p with regs := regs } := by
  cases outcome : (p.handle boot event).1 with
  | returns frame =>
      rw [outcome, UserProcess.after, UserState.running.injEq] at handled
      exact ⟨frame.regs, handled.symm⟩
  | exits _ =>
      rw [outcome] at handled
      cases handled
  | panics =>
      rw [outcome] at handled
      cases handled

/-- Each move keeps the pages of the process as they are. -/
theorem UserSound.step (sound : UserSound env st p) {move : UserMove} {q : UserProcess}
    (moved : UserState.step env.boot (.running p) move = some (.running q)) :
    UserSound env st q := by
  cases move with
  | compute regs =>
      cases moved
      exact sound
  | store va value =>
      rw [UserState.step] at moved
      rcases Option.map_eq_some_iff.mp moved with ⟨frame, target, same⟩
      cases same
      exact sound.store target
  | event event =>
      rw [UserState.step, Option.some.injEq] at moved
      rcases after_running moved with ⟨regs, rfl⟩
      exact sound

theorem reachable_sound (booted : Booted env.boot st.machine) {state : UserState}
    (reachable : (userSystem env st).Reachable state) :
    ∀ p, state = .running p → UserSound env st p := by
  induction reachable with
  | initial start =>
      intro p running
      rcases start with ⟨name, thread, process, loaded, ran, rfl⟩
      cases running
      exact ⟨thread, processExecute_outcome booted ran⟩
  | @step state target move _ moved inductionHypothesis =>
      intro q running
      subst running
      cases state with
      | running p => exact (inductionHypothesis p rfl).step moved
      | exited _ => cases moved
      | panicked => cases moved

end Events

/-! ## A small program -/

/-- An executable with one segment: `xor %esp, %esp; int $0x30` at the entry point
`0x08048054`. -/
def programBytes : List UInt8 :=
  [0x7f, 0x45, 0x4c, 0x46, 1, 1, 1, 0, 0, 0, 0, 0, 0, 0, 0, 0,
    2, 0, 3, 0, 1, 0, 0, 0, 0x54, 0x80, 0x04, 0x08, 52, 0, 0, 0,
    0, 0, 0, 0, 0, 0, 0, 0, 52, 0, 32, 0, 1, 0, 0, 0, 0, 0, 0, 0,
    1, 0, 0, 0, 0, 0, 0, 0, 0x00, 0x80, 0x04, 0x08, 0, 0, 0, 0,
    88, 0, 0, 0, 88, 0, 0, 0, 5, 0, 0, 0, 0, 16, 0, 0,
    0x31, 0xe4, 0xcd, 0x30]

/-- A root directory with this file in it, under the name `a`. -/
def programDisk : Memory :=
  (((zeros.splice 512 512 (InodeDisk.bytes ⟨2, 20, inodeMagic⟩)).splice 1024 20
    (newEntry zeros [97] 3)).splice 1536 512
      (InodeDisk.bytes ⟨4, 88, inodeMagic⟩)).splice 2048 88 (nameBytes programBytes)

def programStart : LoadState where
  machine := smallMachine
  fs :=
    { deviceSize := 16
      disk := programDisk
      freeMap := { bitCnt := 16, bits := [31#32], sized := by decide }
      freeMapFile := none
      openInodes := []
      stack := zeros }
  blocks := []
  calls := 0

/-- What the program does: it clears its stack pointer and calls the system. -/
def programMoves : List UserMove :=
  [.compute { eip := 0x08048056#32, esp := 0#32, eax := 0#32 }, .event (.int 0x30)]

/-- The process once it has been loaded. -/
def programProcess : Option UserProcess :=
  (programStart.processExecute (smallEnv true) [97]).bind fun result =>
    match result with
    | .started _ process loaded => some
        { machine := loaded.machine
          pd := process.pagedir
          regs := { eip := process.entry, esp := physBase, eax := 0#32 } }
    | _ => none

theorem programProcess_initial {p : UserProcess} (started : programProcess = some p) :
    (userSystem (smallEnv true) programStart).initial (.running p) := by
  rcases Option.bind_eq_some_iff.mp started with ⟨result, ran, shape⟩
  cases result with
  | refused _ => cases shape
  | failed _ _ => cases shape
  | started thread process loaded =>
      cases shape
      exact ⟨[97], thread, process, loaded, ran, rfl⟩

end CS162.Userprog
