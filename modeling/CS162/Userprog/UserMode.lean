import CS162.Userprog.Exception
import CS162.Userprog.ProcessSafety

/-!
# Running a user program

A user program computes with its registers and its own writable pages as it likes,
and causes one event after the other.  The accessed and dirty bits that the
processor sets while it runs are left out; no function that is called here reads
them.
-/

namespace CS162.Userprog

open CS162.Foundation CS162.Filesys Machine

/-- A process in user mode: memory, its page directory and its registers. -/
structure UserProcess where
  machine : Machine
  pd : Word
  regs : UserRegs

inductive UserMove where
  | compute (regs : UserRegs)
  | store (va value : Word)
  | event (event : UserEvent)
deriving DecidableEq

inductive UserState where
  | running (p : UserProcess)
  | exited (m : Machine)
  | panicked

namespace UserProcess

/-- The frame that the processor writes to for a store in user mode. -/
def storeFrame (p : UserProcess) (va : Word) : Option Word :=
  if isUserVaddr va then
    (pteOf p.machine p.pd va).bind fun pte =>
      if hasFlag pte pteP && hasFlag pte pteW && hasFlag pte pteU then
        pteGetPage pte
      else none
  else none

/-- What the kernel does with an event, and the addresses of the bytes that it reads
as arguments of a system call. -/
def handle (boot : Boot) (p : UserProcess) (event : UserEvent) : Handled × List Word :=
  intrHandler boot p.pd p.machine (userFrame event p.regs)

def after (p : UserProcess) : Handled → UserState
  | .returns frame => .running { p with regs := frame.regs }
  | .exits m => .exited m
  | .panics => .panicked

end UserProcess

def UserState.step (boot : Boot) : UserState → UserMove → Option UserState
  | .running p, .compute regs => some (.running { p with regs := regs })
  | .running p, .store va value =>
      (p.storeFrame va).map fun frame =>
        .running
          { p with machine := p.machine.store frame ((pgOfs va).toNat / 4) value }
  | .running p, .event event => some (p.after (p.handle boot event).1)
  | .exited _, _ => none
  | .panicked, _ => none

/-- The runs of a program from a successful `load` on. -/
def userSystem (env : ExecEnv) (st : LoadState) : TransitionSystem UserState UserMove where
  initial state :=
    ∃ name thread process loaded,
      st.processExecute env name = some (.started thread process loaded) ∧
        state = .running
          { machine := loaded.machine
            pd := process.pagedir
            regs := { eip := process.entry, esp := physBase, eax := 0#32 } }
  step := UserState.step env.boot

/-- The page belongs to the process: its directory, a page table or a frame that is
mapped. -/
def OwnPage (p : UserProcess) (page : Word) : Prop :=
  page = p.pd ∨ page ∈ pageTables p.machine p.pd ∨
    ∃ va, isUserVaddr va = true ∧ pgOfs va = 0#32 ∧
      p.machine.pagedirGetPage p.pd va = some (some page)

/-- The address is in a page that the process has mapped. -/
def OwnByte (p : UserProcess) (va : Word) : Prop :=
  isUserVaddr va = true ∧ ∃ place, p.machine.pagedirGetPage p.pd va = some (some place)

/-- Only pages of the process have been freed, all of them, and no other page has
changed. -/
def Alone (p : UserProcess) (m : Machine) : Prop :=
  ∀ page, (OwnPage p page → page ∉ m.used) ∧
    (¬OwnPage p page → (page ∈ m.used ↔ page ∈ p.machine.used) ∧ m.word page = p.machine.word page)

/-- The event ends with a return to the process or with its end alone, and arguments
are read from its own pages only. -/
def Contained (boot : Boot) (p : UserProcess) (event : UserEvent) : Prop :=
  (∀ va ∈ (p.handle boot event).2, OwnByte p va) ∧
    match (p.handle boot event).1 with
    | .returns frame => frame.cs = selUcseg
    | .exits m => Alone p m
    | .panics => False

instance vectors_neZero : NeZero (256 : Nat) := ⟨by decide⟩

/-- A system call finds its number in pages of the process, and its argument as well
if it is `exit`. -/
def ArgumentsMapped (p : UserProcess) (event : UserEvent) : Prop :=
  event = .int 0x30 →
    (∀ va ∈ wordBytes p.regs.esp, OwnByte p va) ∧
      (readWord p.machine p.pd p.regs.esp = some sysExit →
        ∀ va ∈ wordBytes (p.regs.esp + 4#32), OwnByte p va)

instance (p : UserProcess) (va : Word) : Decidable (OwnByte p va) :=
  decidable_of_iff
    (isUserVaddr va = true ∧ (p.machine.pagedirGetPage p.pd va).join.isSome = true)
    (by simp [OwnByte, Option.isSome_iff_exists, Option.join_eq_some_iff])

instance (p : UserProcess) (event : UserEvent) : Decidable (ArgumentsMapped p event) :=
  inferInstanceAs (Decidable (_ → _ ∧ (_ → _)))

/-- `kill` takes the event for one of the user program: it looks at `cs`, which is
half of `eip` in the frame of a stack-segment fault. -/
def OriginSeen (p : UserProcess) (event : UserEvent) : Prop :=
  event.arrives.1 = 0x0c#8 → p.regs.eip.setWidth 16 = selUcseg

instance (p : UserProcess) (event : UserEvent) : Decidable (OriginSeen p event) :=
  inferInstanceAs (Decidable (_ → _))

/-- The handlers are prepared for the event. -/
def Foreseen (p : UserProcess) (event : UserEvent) : Prop :=
  OriginSeen p event ∧ ArgumentsMapped p event

instance (p : UserProcess) (event : UserEvent) : Decidable (Foreseen p event) :=
  inferInstanceAs (Decidable (_ ∧ _))

def UserState.foreseen : UserState → UserMove → Bool
  | .running p, .event event => decide (Foreseen p event)
  | _, _ => true

/-! ## The pages of a process -/

namespace Loads

variable {boot : Boot} {base before : Machine} {pd page : Word}
variable {tables : Nat → Option Word}
variable {known : Nat → Option PageEntry} {m : Machine}

theorem frame_used (loads : Loads boot base pd [] before tables known m)
    (frame : page ∈ framesOf known) : page ∈ before.used := by
  apply loads.used.mem_iff.mpr
  rw [List.nil_append]
  exact List.mem_append_left _ frame

theorem frame_not_base (loads : Loads boot base pd [] before tables known m)
    (frame : page ∈ framesOf known) : page ∉ base.used := by
  intro member
  have once := loads.once
  rw [List.nil_append] at once
  exact (List.nodup_append.mp once).2.2 page frame page member rfl

/-- A frame of the process is written to. -/
theorem fill_frame (loads : Loads boot base pd [] before tables known m)
    (frame : page ∈ framesOf known) (contents : Nat → Word) :
    Loads boot base pd [] (before.fillPage page contents) tables known
      (m.fillPage page contents) := by
  have notBase := loads.frame_not_base frame
  exact
    { sound := loads.sound.fill_page (loads.frame_used frame)
        (fun same => notBase (same ▸ loads.init)) contents
      used := loads.used
      kept := fun other member => by
        have different : other ≠ page := fun same => notBase (same ▸ member)
        rw [fillPage_word_other contents different]
        exact loads.kept other member
      init := loads.init }

theorem foreign (loads : Loads boot base pd [] before tables known m) :
    DirSound.Foreign before known := by
  intro number frame inRange mapped
  apply loads.frame_used
  exact List.mem_filterMap.mpr ⟨number, List.mem_range.mpr inRange, mapped⟩

end Loads

namespace DirSound

variable {boot : Boot} {before : Machine} {pd : Word}
variable {tables : Nat → Option Word} {m : Machine}
variable {known : Nat → Option PageEntry}

/-- The entry that the processor finds for a user address, where a page is
present. -/
theorem present_entry (sound : DirSound boot before pd tables m known)
    {va pte : Word} (user : isUserVaddr va = true) (found : pteOf m pd va = some pte)
    (present : hasFlag pte pteP = true) :
    ∃ entry, known (pgNo va) = some entry ∧ PageEntry.ofPte pte = entry ∧
      entry.present = true := by
  cases table : tables (pdNo va) with
  | none =>
      have absent : pdeGetPt 0#32 = none := by decide
      rw [pteOf, sound.missing ((isUserVaddr_iff va).mp user) table, absent] at found
      cases found
  | some pt =>
      rcases sound.table table with ⟨_, valid, _, written⟩
      rw [pteOf, written, tableEntry, pdeGetPt_created valid, Option.map_some,
        Option.some.injEq] at found
      subst found
      have shows := sound.entries table (ptNo_lt va)
      rw [← pgNo_indices] at shows
      cases isKnown : known (pgNo va) with
      | none =>
          rw [isKnown] at shows
          have absent : hasFlag (m.word pt (ptNo va)) pteP = false := shows
          rw [present] at absent
          cases absent
      | some entry =>
          rw [isKnown] at shows
          have equal : PageEntry.ofPte (m.word pt (ptNo va)) = entry := shows
          refine ⟨entry, rfl, equal, ?_⟩
          rw [← equal]
          exact present

theorem mem_framesOf (known : Nat → Option PageEntry) {va frame : Word}
    (user : isUserVaddr va = true) (mapped : frameOf (known (pgNo va)) = some frame) :
    frame ∈ framesOf known :=
  List.mem_filterMap.mpr ⟨pgNo va, List.mem_range.mpr (pgNo_lt_of_user user), mapped⟩

end DirSound

/-- A store to one word of a page is a way to fill the page. -/
theorem store_eq_fillPage (m : Machine) (page : Word) (place : Nat) (value : Word) :
    m.store page place value = m.fillPage page fun index =>
        if index = place then value else m.word page index := by
  have words : (m.store page place value).word = (m.fillPage page fun index =>
        if index = place then value else m.word page index).word := by
    funext other index
    change (if other = page ∧ index = place then value else m.word other index) =
      if other = page then (if index = place then value else m.word page index)
        else m.word other index
    by_cases same : other = page
    · subst same
      by_cases here : index = place
      · rw [if_pos ⟨rfl, here⟩, if_pos rfl, if_pos here]
      · rw [if_neg fun both => here both.2, if_pos rfl, if_neg here]
    · rw [if_neg fun both => same both.1, if_neg same]
  calc
    m.store page place value = { m with word := (m.store page place value).word } := rfl
    _ = m.fillPage page _ := by
      rw [words]
      rfl

/-! ## Handling an event -/

section Events

variable {env : ExecEnv} {st : LoadState} {thread : Word} {p : UserProcess}

/-- The pages of a process that runs. -/
def UserSound (env : ExecEnv) (st : LoadState) (p : UserProcess) : Prop :=
  ∃ thread, Occupies env st thread p.pd p.machine

theorem UserSound.loads (sound : UserSound env st p) :
    ∃ base before tables known, IsPage env.boot.initPageDir ∧
      Loads env.boot base p.pd [] before tables known p.machine := by
  rcases sound with ⟨_, base, _, booted, _, before, tables, known, loads⟩
  exact ⟨base, before, tables, known, booted.valid, loads⟩

end Events

end CS162.Userprog
