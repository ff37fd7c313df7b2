import CS162.Userprog.PagedirDestroy

/-!
# A page directory is a partial map

What `pagedir_get_page` answers and which bits the entry of a page has are
determined by the calls on that page.  A page on which `pagedir_set_page` has never
succeeded has no entry of its own: its bits exist when another page has brought the
page table into being.
-/

namespace CS162.Userprog

open CS162.Foundation Machine

/-- The entry that the processor finds for an address. -/
def pteOf (m : Machine) (pd va : Word) : Option Word :=
  (pdeGetPt (m.word pd (pdNo va))).map fun pt => m.word pt (ptNo va)

/-- The directory of a session acts as the map that its calls describe. -/
structure PartialMap (boot : Boot) (before : Machine) (s : PagedirSession) : Prop where
  get : ∀ uaddr, isUserVaddr uaddr = true →
    s.machine.pagedirGetPage s.pd uaddr =
      some ((mappedFrame s.events (pgNo uaddr)).map fun frame => frame + pgOfs uaddr)
  bits : ∀ vpage entry, isUserVaddr vpage = true →
    entryOf s.events (pgNo vpage) = some entry →
      (pteOf s.machine s.pd vpage).map PageEntry.ofPte = some entry ∧
        s.machine.pagedirIsDirty s.pd vpage = some entry.dirty ∧
        s.machine.pagedirIsAccessed s.pd vpage = some entry.accessed
  kernel : ∀ va, isKernelVaddr va = true →
    pteOf s.machine s.pd va = pteOf before boot.initPageDir va
  total : ∀ call, Allowed boot s call →
    ∃ target, (pagedirSystem boot before).step s call = some target
  others : ∀ call target va, (pagedirSystem boot before).step s call = some target →
    isUserVaddr va = true → pgNo va ≠ call.page →
      target.machine.pagedirGetPage target.pd va = s.machine.pagedirGetPage s.pd va ∧
        ((entryOf s.events (pgNo va)).isSome →
          (pteOf target.machine target.pd va).map PageEntry.ofPte =
            (pteOf s.machine s.pd va).map PageEntry.ofPte)
  refused : ∀ call target, (pagedirSystem boot before).step s call = some target →
    target.events = s.events ++ [⟨call, .flag false⟩] → target.machine = s.machine
  destroyed : (mappedFrames s.events).Nodup →
    (∀ frame ∈ mappedFrames s.events, frame ∈ before.used) →
      s.machine.used.Perm (pageTables s.machine s.pd ++ s.pd :: before.used) ∧
        ∃ after, s.machine.pagedirDestroy boot s.pd = some after ∧
          s.machine.used.Perm
            (mappedFrames s.events ++ pageTables s.machine s.pd ++ s.pd :: after.used)

section Map

variable {boot : Boot} {before : Machine} {s : PagedirSession}
variable {tables : Nat → Option Word}

namespace DirSound

/-- The entry of a page of which something is known. -/
theorem pteOf_known {pd : Word} {m : Machine} {known : Nat → Option PageEntry}
    (sound : DirSound boot before pd tables m known) {va : Word} {entry : PageEntry}
    (user : isUserVaddr va = true) (isKnown : known (pgNo va) = some entry) :
    ∃ pte, pteOf m pd va = some pte ∧ PageEntry.ofPte pte = entry := by
  rcases sound.isFlag user pteP with ⟨_, _, bit⟩
  rcases bit entry isKnown with ⟨pt, table, shows, _⟩
  rcases sound.table table with ⟨_, valid, _, written⟩
  refine ⟨m.word pt (ptNo va), ?_, shows⟩
  rw [pteOf, written, tableEntry, pdeGetPt_created valid]
  rfl

theorem bits
    (sound : DirSound boot before s.pd tables s.machine (entryOf s.events))
    {vpage : Word} {entry : PageEntry} (user : isUserVaddr vpage = true)
    (isKnown : entryOf s.events (pgNo vpage) = some entry) :
    (pteOf s.machine s.pd vpage).map PageEntry.ofPte = some entry ∧
      s.machine.pagedirIsDirty s.pd vpage = some entry.dirty ∧
      s.machine.pagedirIsAccessed s.pd vpage = some entry.accessed := by
  rcases sound.isFlag user pteD with ⟨dirty, isDirty, dirtyBit⟩
  rcases sound.isFlag user pteA with ⟨accessed, isAccessed, accessedBit⟩
  refine ⟨?_, ?_, ?_⟩
  · rcases sound.pteOf_known user isKnown with ⟨pte, found, shows⟩
    rw [found, Option.map_some, shows]
  · rcases dirtyBit entry isKnown with ⟨pt, _, shows, read⟩
    have bit := congrArg PageEntry.dirty shows
    rw [Machine.pagedirIsDirty, isDirty, read, ← bit]
    rfl
  · rcases accessedBit entry isKnown with ⟨pt, _, shows, read⟩
    have bit := congrArg PageEntry.accessed shows
    rw [Machine.pagedirIsAccessed, isAccessed, read, ← bit]
    rfl

theorem kernel_mapping
    (sound : DirSound boot before s.pd tables s.machine (entryOf s.events))
    (booted : Booted boot before) {va : Word} (kernel : isKernelVaddr va = true) :
    pteOf s.machine s.pd va = pteOf before boot.initPageDir va := by
  have large := (isKernelVaddr_iff va).mp kernel
  rw [pteOf, pteOf, sound.kernel _ large]
  cases table : pdeGetPt (before.word boot.initPageDir (pdNo va)) with
  | none => rfl
  | some pt =>
      have used := booted.tables (pdNo va) pt large table
      have foreign := sound.not_own used
      rw [Option.map_some, Option.map_some, sound.outside foreign.1 foreign.2]

end DirSound

/-- The step of the system, for a call that is allowed. -/
theorem step_some {call : PagedirCall} {target : PagedirSession}
    (stepped : (pagedirSystem boot before).step s call = some target) :
    Allowed boot s call ∧ ∃ reply after,
      call.perform boot s.pd s.machine = some (reply, after) ∧
        target = { s with
          machine := after
          events := s.events ++ [⟨call, reply⟩] } := by
  change PagedirSession.step boot s call = some target at stepped
  by_cases allowed : Allowed boot s call
  · rw [PagedirSession.step, if_pos allowed, Option.map_eq_some_iff] at stepped
    rcases stepped with ⟨⟨reply, after⟩, performed, same⟩
    exact ⟨allowed, reply, after, performed, same.symm⟩
  · rw [PagedirSession.step, if_neg allowed] at stepped
    cases stepped

theorem entryOf_other {call : PagedirCall} {number : Nat} (reply : PagedirReply)
    (other : number ≠ call.page) :
    entryOf (s.events ++ [⟨call, reply⟩]) number = entryOf s.events number := by
  rw [entryOf_snoc]
  exact Function.update_of_ne other _ _

/-- In every run of calls on a page directory, each page is mapped as the calls on
that page say, whatever the other calls and the allocations of page tables. -/
theorem pagedir_partial_map (booted : Booted boot before)
    (reachable : (pagedirSystem boot before).Reachable s) :
    PartialMap boot before s := by
  rcases session_sound booted reachable with ⟨tables, sound⟩
  exact
    { get := fun uaddr user => sound.getPage user
      bits := fun vpage entry user isKnown => sound.bits user isKnown
      kernel := fun va kernel => sound.kernel_mapping booted kernel
      total := fun call allowed => by
        rcases perform_sound sound allowed with ⟨reply, after, _, performed, _⟩
        refine ⟨{ s with
          machine := after
          events := s.events ++ [⟨call, reply⟩] }, ?_⟩
        change PagedirSession.step boot s call = _
        rw [PagedirSession.step, if_pos allowed, performed]
        rfl
      others := fun call target va stepped user other => by
        rcases session_sound booted (reachable.step stepped) with ⟨_, targetSound⟩
        rcases step_some stepped with ⟨_, reply, after, _, rfl⟩
        have kept := entryOf_other (s := s) reply other
        constructor
        · rw [targetSound.getPage user, sound.getPage user]
          dsimp only
          rw [kept]
        · intro isSet
          rcases Option.isSome_iff_exists.mp isSet with ⟨entry, isKnown⟩
          rw [(targetSound.bits user (kept.trans isKnown)).1, (sound.bits user isKnown).1]
      refused := fun call target stepped events => by
        rcases step_some stepped with ⟨allowed, reply, after, performed, rfl⟩
        rcases perform_sound sound allowed with ⟨otherReply, otherAfter, _, again, _, unchanged⟩
        rw [performed, Option.some.injEq, Prod.mk.injEq] at again
        have last := List.append_cancel_left events
        rw [List.cons.injEq, PagedirEvent.mk.injEq] at last
        rw [again.2]
        exact unchanged (again.1.symm.trans last.1.2)
      destroyed := fun once used => by
        have foreign : DirSound.Foreign before (entryOf s.events) := by
          intro number frame inRange mapped
          apply used
          exact List.mem_filterMap.mpr ⟨number, List.mem_range.mpr inRange, mapped⟩
        constructor
        · rw [sound.pageTables_eq]
          exact sound.used
        · exact sound.destroy once foreign }

end Map

/-! ## Small sessions -/

/-- A kernel whose memory is 16 MB large and has one page table. -/
def smallBoot : Boot where
  initPageDir := 0xc0100000#32
  initRamPages := 4096

def smallMachine : Machine where
  word := fun page index =>
    if page = 0xc0100000#32 ∧ index = 768 then tableEntry 0xc0101000#32 else 0#32
  cr3 := 0x00100000#32
  used := [0xc0100000#32, 0xc0101000#32, 0xc0200000#32]

theorem smallMachine_booted : Booted smallBoot smallMachine where
  valid := ⟨by decide, by decide⟩
  directory := List.mem_cons_self
  tables := by
    intro index pt _ table
    by_cases first : index = 768
    · subst first
      have only : pdeGetPt (smallMachine.word smallBoot.initPageDir 768) = some 0xc0101000#32 := by
        decide +kernel
      rw [only, Option.some.injEq] at table
      rw [← table]
      decide
    · have zero : smallMachine.word smallBoot.initPageDir index = 0#32 :=
        if_neg fun same => first same.2
      have absent : pdeGetPt 0#32 = none := by decide
      rw [zero, absent] at table
      cases table
  user := by
    intro index small
    exact if_neg fun same => by omega
  active := by decide
  usedOnce := by decide

/-- A session that starts in the page at `0xc0102000`. -/
def smallSession : PagedirSession where
  pd := 0xc0102000#32
  machine := (smallMachine.pagedirCreate smallBoot (some 0xc0102000#32)).2
  events := []

theorem smallSession_initial : PagedirStart smallBoot smallMachine smallSession :=
  ⟨⟨⟨by decide, by decide⟩, by decide⟩, rfl, rfl⟩

/-- A page is mapped, written to and looked up. -/
theorem pagedir_partial_map_mapped :
    ∃ s, mappedFrame s.events 0x8048 = some 0xc0200000#32 ∧
      PartialMap smallBoot smallMachine s := by
  have passed : (((pagedirSystem smallBoot smallMachine).run smallSession
      [.setPage 0x08048000#32 0xc0200000#32 true (some 0xc0103000#32),
        .setDirty 0x08048000#32 true, .getPage 0x08048123#32]).any fun s =>
          mappedFrame s.events 0x8048 = some 0xc0200000#32) = true := by
    decide +kernel
  rcases (Option.any_eq_true _ _).mp passed with ⟨s, execution, mapped⟩
  have reachable : (pagedirSystem smallBoot smallMachine).Reachable s :=
    TransitionSystem.Reachable.of_run (.initial smallSession_initial) execution
  exact ⟨s, of_decide_eq_true mapped, pagedir_partial_map smallMachine_booted reachable⟩

/-- The same call on a page that was never mapped makes it dirty or not, as another
page has a page table there or not; and where a frame is mapped at two pages,
`pagedir_destroy` frees it twice. -/
theorem pagedir_map_fails :
    (∃ first second, (pagedirSystem smallBoot smallMachine).Reachable first ∧
      (pagedirSystem smallBoot smallMachine).Reachable second ∧
      (first.events.filter fun event => event.call.page = 2) =
        (second.events.filter fun event => event.call.page = 2) ∧
      first.machine.pagedirIsDirty first.pd 0x2000#32 ≠
        second.machine.pagedirIsDirty second.pd 0x2000#32) ∧
    ∃ s, (pagedirSystem smallBoot smallMachine).Reachable s ∧
      mappedFrame s.events 1 = some 0xc0200000#32 ∧
      mappedFrame s.events 2 = some 0xc0200000#32 ∧
      s.machine.pagedirDestroy smallBoot s.pd = none := by
  have start : (pagedirSystem smallBoot smallMachine).Reachable smallSession :=
    .initial smallSession_initial
  constructor
  · have alone : (((pagedirSystem smallBoot smallMachine).run smallSession
        [.setDirty 0x2000#32 true]).any fun s =>
          s.events = [⟨.setDirty 0x2000#32 true, .nothing⟩] &&
            s.machine.pagedirIsDirty s.pd 0x2000#32 = some false) = true := by
      decide +kernel
    have beside : (((pagedirSystem smallBoot smallMachine).run smallSession
        [.setPage 0x1000#32 0xc0200000#32 true (some 0xc0103000#32),
          .setDirty 0x2000#32 true]).any fun s =>
          (s.events.filter fun event => event.call.page = 2) =
              [⟨.setDirty 0x2000#32 true, .nothing⟩] &&
            s.machine.pagedirIsDirty s.pd 0x2000#32 = some true) = true := by
      decide +kernel
    rcases (Option.any_eq_true _ _).mp alone with ⟨first, firstRun, firstTest⟩
    rcases (Option.any_eq_true _ _).mp beside with ⟨second, secondRun, secondTest⟩
    rw [Bool.and_eq_true, decide_eq_true_eq, decide_eq_true_eq] at firstTest secondTest
    refine ⟨first, second, start.of_run firstRun, start.of_run secondRun, ?_, ?_⟩
    · rw [firstTest.1, secondTest.1]
      decide
    · rw [firstTest.2, secondTest.2]
      decide
  · have twice : (((pagedirSystem smallBoot smallMachine).run smallSession
        [.setPage 0x1000#32 0xc0200000#32 true (some 0xc0103000#32),
          .setPage 0x2000#32 0xc0200000#32 true none]).any fun s =>
          (s.machine.pagedirDestroy smallBoot s.pd).isNone &&
            (mappedFrame s.events 1 = some 0xc0200000#32 &&
              mappedFrame s.events 2 = some 0xc0200000#32)) = true := by
      decide +kernel
    rcases (Option.any_eq_true _ _).mp twice with ⟨s, execution, tested⟩
    rw [Bool.and_eq_true, Bool.and_eq_true, decide_eq_true_eq, decide_eq_true_eq,
      Option.isNone_iff_eq_none] at tested
    exact ⟨s, start.of_run execution, tested.2.1, tested.2.2, tested.1⟩

end CS162.Userprog
