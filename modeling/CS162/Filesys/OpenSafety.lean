import CS162.Filesys.OpenSteps

/-!
# Files that are opened undisturbed

If no thread executes a statement of `inode_open` or `inode_close` while another one
is in the way, the list of open inodes stays in order, and whoever opens a file
reads the bytes of that file.
-/

namespace CS162.Filesys.OpenSteps

open CS162.Foundation

/-- No other inode's fields are being set, and no other inode is being read. -/
def Doing.Only (doing : Doing) (inode : Nat) : Prop :=
  (∀ other, doing.assigns = some other → other = inode) ∧
    ∀ other, doing.sleepsOn = some other → other = inode

namespace OpenState

section Views

variable {Index : Type} (state : OpenState Index)

/-- The fields of an inode are being set. -/
def Assigning (inode : Nat) : Prop := ∃ i, (state.threads i).doing.assigns = some inode

/-- An inode is being read from the disk. -/
def Sleeping (inode : Nat) : Prop := ∃ i, (state.threads i).doing.sleepsOn = some inode

/-- An inode in memory is that of a sector. -/
def HasSector (inode sector : Nat) : Prop :=
  ∃ cell, state.heap inode = some cell ∧ cell.sector = sector

/-- How many have an inode open. -/
def live [Fintype Index] (inode : Nat) : Nat := total (Thread.count inode) state.threads

/-- No inode in the list is that of a sector. -/
def Absent (sector : Nat) : Prop := ∀ other ∈ state.openInodes, ¬state.HasSector other sector

/-- What holds before the next statement of a thread. -/
def StageSound [Fintype Index] : Doing → Prop
  | .opening _ sector (.search e) =>
      ∃ passed rest, state.openInodes = passed ++ rest ∧ rest.head? = e ∧
        ∀ other ∈ passed, ¬state.HasSector other sector
  | .opening _ sector (.found inode) =>
      inode ∈ state.openInodes ∧ state.HasSector inode sector ∧
        ¬state.Sleeping inode
  | .opening _ sector .allocate => state.Absent sector
  | .opening _ sector (.link inode) =>
      inode ∉ state.openInodes ∧ (state.heap inode).isSome = true ∧
        state.Absent sector
  | .opening _ sector (.assign inode) =>
      inode ∈ state.openInodes ∧
        ∀ other ∈ state.openInodes, other ≠ inode →
          ¬state.HasSector other sector
  | .closing _ (.unlink inode) =>
      inode ∈ state.openInodes ∧ state.live inode = 0
  | .closing _ (.free inode) =>
      inode ∉ state.openInodes ∧ (state.heap inode).isSome = true
  | _ => True

end Views

/-- The invariant. -/
structure Sound {Index : Type} [Fintype Index] (disk : Memory)
    (state : OpenState Index) : Prop where
  nodup : state.openInodes.Nodup
  allocated : ∀ inode ∈ state.openInodes, ∃ cell, state.heap inode = some cell
  once : ∀ inode ∈ state.openInodes, ∀ other ∈ state.openInodes, ∀ sector,
      ¬state.Assigning inode → ¬state.Assigning other →
        state.HasSector inode sector → state.HasSector other sector → inode = other
  counted :
    ∀ inode ∈ state.openInodes, ¬state.Assigning inode →
      ∀ cell, state.heap inode = some cell → cell.openCnt = state.live inode
  ready :
    ∀ inode ∈ state.openInodes, ¬state.Assigning inode → ¬state.Sleeping inode →
      ∀ cell, state.heap inode = some cell → cell.data = diskInode disk cell.sector
  referenced : ∀ i, ∀ reference ∈ (state.threads i).references,
      reference.inode ∈ state.openInodes ∧ ¬state.Assigning reference.inode ∧
        ¬state.Sleeping reference.inode ∧ state.HasSector reference.inode reference.sector
  asleep :
    ∀ i inode, (state.threads i).doing.sleepsOn = some inode →
      inode ∈ state.openInodes ∧ ¬state.Assigning inode ∧
        (∃ sector, (state.threads i).doing.sector = some sector ∧
          state.HasSector inode sector) ∧
          ∀ j, (state.threads j).doing.sleepsOn = some inode → j = i
  stage : ∀ i, state.StageSound (state.threads i).doing
  read : ∀ i, ∀ result ∈ (state.threads i).read,
      result.byte = byteAt disk (diskInode disk result.reference.sector) result.offset

namespace Sound

variable {Index : Type} [Fintype Index] {disk : Memory} {state : OpenState Index}

/-- The invariant says what is guaranteed. -/
theorem guarantee (sound : state.Sound disk) : OpenGuarantee disk state where
  nodup := sound.nodup
  allocated := sound.allocated
  once := by
    intro inode here other there cell otherCell known otherKnown set otherSet same
    apply sound.once inode here other there cell.sector
    · intro ⟨i, assigns⟩
      exact set i assigns
    · intro ⟨i, assigns⟩
      exact otherSet i assigns
    · exact ⟨cell, known, rfl⟩
    · exact ⟨otherCell, otherKnown, same.symm⟩
  counted := by
    intro inode here cell known set
    apply sound.counted inode here _ cell known
    intro ⟨i, assigns⟩
    exact set i assigns
  faithful := by
    intro i reference member
    rcases sound.referenced i reference member with ⟨here, set, awake, cell, known, same⟩
    have data := sound.ready reference.inode here set awake cell known
    rw [same] at data
    exact ⟨here, cell, known, same, data⟩
  read := sound.read

/-- Nobody has an inode open that is not in the list, or whose fields are being
set. -/
theorem live_eq_zero (sound : state.Sound disk) {inode : Nat}
    (unused : inode ∉ state.openInodes ∨ state.Assigning inode) :
    state.live inode = 0 := by
  have alone (here : inode ∈ state.openInodes) (set : ¬state.Assigning inode) :
      False := by
    rcases unused with absent | assigning
    · exact absent here
    · exact set assigning
  apply total_eq_zero_iff.mpr
  intro i
  unfold Thread.count
  have unreferenced : ((state.threads i).references.map Reference.inode).count inode = 0 := by
    apply List.count_eq_zero_of_not_mem
    intro member
    rcases List.mem_map.mp member with ⟨reference, listed, rfl⟩
    have facts := sound.referenced i reference listed
    exact alone facts.1 facts.2.1
  have awake : (state.threads i).doing.sleepsOn ≠ some inode := by
    intro asleep
    have facts := sound.asleep i inode asleep
    exact alone facts.1 facts.2.1
  rw [unreferenced, if_neg awake]

/-- An inode that is not open has no reference to it and no thread reads it. -/
theorem unused_of_live {inode : Nat} (unused : state.live inode = 0) :
    ¬state.Sleeping inode ∧
      ∀ i, ∀ reference ∈ (state.threads i).references, reference.inode ≠ inode := by
  have zero := total_eq_zero_iff.mp unused
  constructor
  · intro ⟨i, asleep⟩
    have count := zero i
    unfold Thread.count at count
    rw [if_pos asleep] at count
    omega
  · intro i reference member same
    have count := zero i
    unfold Thread.count at count
    have positive : 0 < ((state.threads i).references.map
        Reference.inode).count inode :=
      List.count_pos_iff.mpr (same ▸ List.mem_map_of_mem member)
    omega

end Sound

/-- What holds before a statement depends on the list, on the sectors of the inodes
and on who has them open. -/
theorem StageSound.congr {Index : Type} [Fintype Index]
    {state after : OpenState Index} {doing : Doing} (sound : state.StageSound doing)
    (openInodes : after.openInodes = state.openInodes)
    (sectors : ∀ inode sector, after.HasSector inode sector ↔ state.HasSector inode sector)
    (allocated : ∀ inode, (after.heap inode).isSome = (state.heap inode).isSome)
    (sleeping : ∀ inode, after.Sleeping inode → state.Sleeping inode)
    (live : ∀ inode, after.live inode = state.live inode) :
    after.StageSound doing := by
  have absent (sector : Nat) (none : state.Absent sector) : after.Absent sector := by
    intro other here has
    rw [openInodes] at here
    exact none other here ((sectors other sector).mp has)
  cases doing with
  | opening purpose sector stage =>
      cases stage with
      | enter => trivial
      | search e =>
          rcases sound with ⟨passed, rest, split, head, none⟩
          refine ⟨passed, rest, openInodes.trans split, head, ?_⟩
          intro other here has
          exact none other here ((sectors other sector).mp has)
      | found inode =>
          rcases sound with ⟨here, has, awake⟩
          refine ⟨openInodes ▸ here, (sectors inode sector).mpr has, ?_⟩
          intro asleep
          exact awake (sleeping inode asleep)
      | allocate => exact absent sector sound
      | link inode =>
          rcases sound with ⟨outside, known, none⟩
          refine ⟨?_, (allocated inode).trans known, absent sector none⟩
          rw [openInodes]
          exact outside
      | assign inode =>
          rcases sound with ⟨here, none⟩
          refine ⟨openInodes ▸ here, ?_⟩
          intro other member different has
          rw [openInodes] at member
          exact none other member different ((sectors other sector).mp has)
      | sleep inode => trivial
  | closing found stage =>
      cases stage with
      | drop reference => trivial
      | unlink inode =>
          rcases sound with ⟨here, unused⟩
          exact ⟨openInodes ▸ here, (live inode).trans unused⟩
      | free inode =>
          rcases sound with ⟨outside, known⟩
          refine ⟨?_, (allocated inode).trans known⟩
          rw [openInodes]
          exact outside
  | idle => trivial
  | dirOpen name root => trivial
  | lookup name root entry => trivial
  | fileOpen file => trivial

section Updates

variable {Index : Type} [DecidableEq Index] {disk : Memory}
variable {state : OpenState Index} {i : Index} {thread : Thread}

theorem setThread_self : (state.setThread i thread).threads i = thread := by
  change Function.update state.threads i thread i = thread
  rw [Function.update_self]

theorem setThread_of_ne {j : Index} (different : j ≠ i) :
    (state.setThread i thread).threads j = state.threads j := by
  change Function.update state.threads i thread j = state.threads j
  rw [Function.update_of_ne different]

/-- Where the other threads go on as before, it depends on one whether some thread does a
thing. -/
theorem some_doing_iff {after : OpenState Index} (holds : Doing → Prop)
    (elsewhere : ∀ j, j ≠ i → after.threads j = state.threads j)
    (same : holds (after.threads i).doing ↔ holds (state.threads i).doing) :
    (∃ j, holds (after.threads j).doing) ↔ ∃ j, holds (state.threads j).doing := by
  apply exists_congr
  intro j
  by_cases here : j = i
  · rw [here]
    exact same
  · rw [elsewhere j here]

theorem assigning_setThread
    (same : thread.doing.assigns = (state.threads i).doing.assigns) (inode : Nat) :
    (state.setThread i thread).Assigning inode ↔ state.Assigning inode := by
  apply some_doing_iff (·.assigns = some inode) fun j different => setThread_of_ne different
  rw [setThread_self, same]

theorem sleeping_setThread
    (same : thread.doing.sleepsOn = (state.threads i).doing.sleepsOn) (inode : Nat) :
    (state.setThread i thread).Sleeping inode ↔ state.Sleeping inode := by
  apply some_doing_iff (·.sleepsOn = some inode) fun j different => setThread_of_ne different
  rw [setThread_self, same]

variable [Fintype Index]

/-- The counts move with the references of the thread that is replaced. -/
theorem live_setThread (inode : Nat) :
    (state.setThread i thread).live inode + (state.threads i).count inode =
      state.live inode + thread.count inode :=
  total_update (Thread.count inode) state.threads i thread

namespace Sound

/-- A thread goes on without touching the inodes. -/
theorem setThread (sound : state.Sound disk)
    (assigns : thread.doing.assigns = (state.threads i).doing.assigns)
    (sleeps : thread.doing.sleepsOn = none) (slept : (state.threads i).doing.sleepsOn = none)
    (references : thread.references.Perm (state.threads i).references)
    (stage : state.StageSound thread.doing)
    (read : ∀ result ∈ thread.read,
      result.byte = byteAt disk (diskInode disk result.reference.sector) result.offset) :
    (state.setThread i thread).Sound disk := by
  have assigning := assigning_setThread assigns
  have sleeping := sleeping_setThread (sleeps.trans slept.symm)
  have live (inode : Nat) : (state.setThread i thread).live inode = state.live inode := by
    apply total_update_of_eq
    unfold Thread.count
    rw [sleeps, slept, (references.map Reference.inode).count_eq]
  exact
    { nodup := sound.nodup
      allocated := sound.allocated
      once := by
        intro inode here other there sector set otherSet
        exact sound.once inode here other there sector
          (fun assigned => set ((assigning inode).mpr assigned))
          (fun assigned => otherSet ((assigning other).mpr assigned))
      counted := by
        intro inode here set cell known
        rw [live inode]
        exact sound.counted inode here
          (fun assigned => set ((assigning inode).mpr assigned)) cell known
      ready := by
        intro inode here set awake
        exact sound.ready inode here
          (fun assigned => set ((assigning inode).mpr assigned))
          (fun asleep => awake ((sleeping inode).mpr asleep))
      referenced := by
        intro j reference member
        have before : ∃ k, reference ∈ (state.threads k).references := by
          by_cases here : j = i
          · rw [here, setThread_self] at member
            exact ⟨i, references.mem_iff.mp member⟩
          · rw [setThread_of_ne here] at member
            exact ⟨j, member⟩
        rcases before with ⟨k, listed⟩
        rcases sound.referenced k reference listed with ⟨here, set, awake, has⟩
        exact ⟨here, fun assigned => set ((assigning _).mp assigned),
          fun asleep => awake ((sleeping _).mp asleep), has⟩
      asleep := by
        intro j inode asleep
        by_cases here : j = i
        · rw [here, setThread_self, sleeps] at asleep
          cases asleep
        · rw [setThread_of_ne here] at asleep ⊢
          rcases sound.asleep j inode asleep with ⟨inside, set, has, only⟩
          refine ⟨inside, fun assigned => set ((assigning _).mp assigned), has, ?_⟩
          intro k other
          by_cases there : k = i
          · rw [there, setThread_self, sleeps] at other
            cases other
          · rw [setThread_of_ne there] at other
            exact only k other
      stage := by
        intro j
        have unchanged {doing : Doing} (before : state.StageSound doing) :
            (state.setThread i thread).StageSound doing :=
          before.congr rfl (fun _ _ => Iff.rfl) (fun _ => rfl)
            (fun inode => (sleeping inode).mp) live
        by_cases here : j = i
        · rw [here, setThread_self]
          exact unchanged stage
        · rw [setThread_of_ne here]
          exact unchanged (sound.stage j)
      read := by
        intro j
        by_cases here : j = i
        · rw [here, setThread_self]
          exact read
        · rw [setThread_of_ne here]
          exact sound.read j }

/-- A thread does something with one inode, and the other inodes stay as they
are. -/
theorem touch {after : OpenState Index} {inode : Nat} (sound : state.Sound disk)
    (elsewhere : ∀ j, j ≠ i → after.threads j = state.threads j)
    (listed : ∀ other, other ≠ inode → (other ∈ after.openInodes ↔ other ∈ state.openInodes))
    (heap : ∀ other, other ≠ inode → after.heap other = state.heap other)
    (references : ∀ reference ∈ (after.threads i).references,
      reference.inode ≠ inode → reference ∈ (state.threads i).references)
    (count : ∀ other, other ≠ inode → (after.threads i).count other = (state.threads i).count other)
    (before : (state.threads i).doing.Only inode) (now : (after.threads i).doing.Only inode)
    (nodup : after.openInodes.Nodup)
    (allocated : inode ∈ after.openInodes → ∃ cell, after.heap inode = some cell)
    (once : inode ∈ after.openInodes → ¬after.Assigning inode →
      ∀ other ∈ after.openInodes, other ≠ inode → ¬after.Assigning other →
        ∀ sector, after.HasSector inode sector → ¬after.HasSector other sector)
    (counted : inode ∈ after.openInodes → ¬after.Assigning inode →
      ∀ cell, after.heap inode = some cell → cell.openCnt = after.live inode)
    (ready : inode ∈ after.openInodes → ¬after.Assigning inode →
      ¬after.Sleeping inode → ∀ cell, after.heap inode = some cell →
        cell.data = diskInode disk cell.sector)
    (referenced : ∀ j, ∀ reference ∈ (after.threads j).references,
      reference.inode = inode →
        inode ∈ after.openInodes ∧ ¬after.Assigning inode ∧
          ¬after.Sleeping inode ∧ after.HasSector inode reference.sector)
    (asleep : ∀ j, (after.threads j).doing.sleepsOn = some inode →
      inode ∈ after.openInodes ∧ ¬after.Assigning inode ∧
        (∃ sector, (after.threads j).doing.sector = some sector ∧
          after.HasSector inode sector) ∧
          ∀ k, (after.threads k).doing.sleepsOn = some inode → k = j)
    (stage : ∀ j, after.StageSound (after.threads j).doing)
    (read : (after.threads i).read = (state.threads i).read) :
    after.Sound disk := by
  have updated : after.threads = Function.update state.threads i (after.threads i) := by
    funext j
    by_cases here : j = i
    · rw [here, Function.update_self]
    · rw [Function.update_of_ne here, elsewhere j here]
  have live (other : Nat) (different : other ≠ inode) : after.live other = state.live other := by
    unfold live
    rw [updated]
    exact total_update_of_eq (count other different)
  have assigning (other : Nat) (different : other ≠ inode) :
      after.Assigning other ↔ state.Assigning other :=
    some_doing_iff (·.assigns = some other) elsewhere
      (iff_of_false (fun assigned => different (now.1 other assigned))
        (fun assigned => different (before.1 other assigned)))
  have sleeping (other : Nat) (different : other ≠ inode) :
      after.Sleeping other ↔ state.Sleeping other :=
    some_doing_iff (·.sleepsOn = some other) elsewhere
      (iff_of_false (fun asleep => different (now.2 other asleep))
        (fun asleep => different (before.2 other asleep)))
  have sectors (other sector : Nat) (different : other ≠ inode) :
      after.HasSector other sector ↔ state.HasSector other sector := by
    unfold HasSector
    rw [heap other different]
  exact
    { nodup := nodup
      allocated := by
        intro other here
        by_cases same : other = inode
        · rw [same] at here ⊢
          exact allocated here
        · rw [heap other same]
          exact sound.allocated other ((listed other same).mp here)
      once := by
        intro first here second there sector firstSet secondSet has same
        by_cases isFirst : first = inode
        · by_cases isSecond : second = inode
          · rw [isFirst, isSecond]
          · rw [isFirst] at here firstSet has
            exact absurd same (once here firstSet second there isSecond secondSet sector has)
        · by_cases isSecond : second = inode
          · rw [isSecond] at there secondSet same
            exact absurd has (once there secondSet first here isFirst firstSet sector same)
          · exact sound.once first ((listed first isFirst).mp here) second
              ((listed second isSecond).mp there) sector
              (fun assigned => firstSet ((assigning first isFirst).mpr assigned))
              (fun assigned => secondSet ((assigning second isSecond).mpr assigned))
              ((sectors first sector isFirst).mp has)
              ((sectors second sector isSecond).mp same)
      counted := by
        intro other here set cell known
        by_cases same : other = inode
        · rw [same] at here set known ⊢
          exact counted here set cell known
        · rw [live other same]
          exact sound.counted other ((listed other same).mp here)
            (fun assigned => set ((assigning other same).mpr assigned)) cell
            ((heap other same).symm.trans known)
      ready := by
        intro other here set awake cell known
        by_cases same : other = inode
        · rw [same] at here set awake known
          exact ready here set awake cell known
        · exact sound.ready other ((listed other same).mp here)
            (fun assigned => set ((assigning other same).mpr assigned))
            (fun asleep => awake ((sleeping other same).mpr asleep)) cell
            ((heap other same).symm.trans known)
      referenced := by
        intro j reference member
        by_cases same : reference.inode = inode
        · rw [same]
          exact referenced j reference member same
        · have earlier : reference ∈ (state.threads j).references := by
            by_cases here : j = i
            · rw [here] at member ⊢
              exact references reference member same
            · rw [← elsewhere j here]
              exact member
          rcases sound.referenced j reference earlier with ⟨here, set, awake, has⟩
          exact ⟨(listed _ same).mpr here, fun assigned => set ((assigning _ same).mp assigned),
            fun asleep => awake ((sleeping _ same).mp asleep),
            (sectors _ _ same).mpr has⟩
      asleep := by
        intro j other sleeps
        by_cases same : other = inode
        · rw [same] at sleeps ⊢
          exact asleep j sleeps
        · have different : j ≠ i := by
            intro here
            exact same (now.2 other (here ▸ sleeps))
          rw [elsewhere j different] at sleeps ⊢
          rcases sound.asleep j other sleeps with ⟨here, set, ⟨sector, called, has⟩, only⟩
          refine ⟨(listed other same).mpr here,
            fun assigned => set ((assigning other same).mp assigned),
            ⟨sector, called, (sectors other sector same).mpr has⟩, ?_⟩
          intro k also
          have apart : k ≠ i := by
            intro there
            exact same (now.2 other (there ▸ also))
          rw [elsewhere k apart] at also
          exact only k also
      stage := stage
      read := by
        intro j
        by_cases here : j = i
        · rw [here, read]
          exact sound.read i
        · rw [elsewhere j here]
          exact sound.read j }

end Sound

end Updates

section Clear

variable {Index : Type} {state : OpenState Index} {i : Index}
variable {inode : Nat} {wanted : Option Nat}

theorem stageSound_of_idle [Fintype Index] {doing : Doing}
    (idle : doing.busy = false) : state.StageSound doing := by
  cases doing with
  | opening purpose sector stage => cases stage <;> trivial
  | closing found stage => cases stage <;> trivial
  | _ => trivial

theorem assigns_of_idle {doing : Doing} (idle : doing.busy = false) : doing.assigns = none := by
  cases doing with
  | opening purpose sector stage => cases stage <;> first | rfl | cases idle
  | _ => rfl

/-- No other thread is in the way. -/
def Clear (state : OpenState Index) (i : Index) (sector : Option Nat) : Prop :=
  ∀ other, other ≠ i → (state.threads other).doing.clear sector = true

namespace Clear

theorem busy (clear : state.Clear i wanted) {j : Index} (different : j ≠ i) :
    (state.threads j).doing.busy = false := by
  have free := clear j different
  rw [Doing.clear, Bool.and_eq_true, Bool.not_eq_true'] at free
  exact free.1

/-- Whoever sleeps reads another sector. -/
theorem sector_ne (clear : state.Clear i wanted) {j : Index} (different : j ≠ i)
    (asleep : (state.threads j).doing.sleepsOn = some inode) :
    (state.threads j).doing.sector ≠ wanted := by
  have free := clear j different
  rw [Doing.clear, Bool.and_eq_true, asleep] at free
  exact of_decide_eq_true free.2

/-- No other thread sets the fields of an inode. -/
theorem assigning (clear : state.Clear i wanted) (assigned : state.Assigning inode) :
    (state.threads i).doing.assigns = some inode := by
  rcases assigned with ⟨j, assigns⟩
  by_cases here : j = i
  · exact here ▸ assigns
  · rw [assigns_of_idle (clear.busy here)] at assigns
    cases assigns

end Clear

end Clear

section Stores

variable {Index : Type} (state : OpenState Index)

theorem store_self (inode : Nat)
    (cell : Option InodeCell) : (state.store inode cell).heap inode = cell := by
  change Function.update state.heap inode cell inode = cell
  rw [Function.update_self]

theorem store_of_ne {inode other : Nat} (different : other ≠ inode) (cell : Option InodeCell) :
    (state.store inode cell).heap other = state.heap other := by
  change Function.update state.heap inode cell other = state.heap other
  rw [Function.update_of_ne different]

/-- Storing an inode changes nothing but what is in its place. -/
theorem store_keeps {inode : Nat} {new : InodeCell} {base : OpenState Index}
    (stored : state.store inode (some new) = base) :
    base.threads = state.threads ∧ base.openInodes = state.openInodes ∧
      base.heap inode = some new ∧
      (∀ other, other ≠ inode → base.heap other = state.heap other) ∧
      ∀ found, base.heap inode = some found → found = new := by
  subst stored
  have cellNow := store_self state inode (some new)
  refine ⟨rfl, rfl, cellNow, fun other different => store_of_ne state different _, ?_⟩
  intro found there
  rw [cellNow, Option.some.injEq] at there
  exact there.symm

end Stores

/-- How often something that is being done counts among those that have an inode
open. -/
def holds (doing : Doing) (inode : Nat) : Nat :=
  (doing.references.map Reference.inode).count inode + if doing.sleepsOn = some inode then 1 else 0

section Then

variable {Index : Type} [DecidableEq Index] {state base : OpenState Index}
variable {i : Index} {inode : Nat} {doing : Doing}

theorem live_then [Fintype Index] (same : base.threads = state.threads) (inode : Nat) :
    (base.doThen i doing).live inode + holds (state.threads i).doing inode =
      state.live inode + holds doing inode := by
  have moved : (base.doThen i doing).live inode + (base.threads i).count inode =
      base.live inode +
        Thread.count inode { base.threads i with doing := doing } :=
    live_setThread inode
  unfold Thread.count Thread.references at moved
  simp only [List.map_append, List.count_append] at moved
  have lives : base.live inode = state.live inode := by
    unfold live
    rw [same]
  rw [← lives, ← same]
  unfold holds
  omega

theorem doThen_self : (base.doThen i doing).threads i = { base.threads i with doing := doing } :=
  setThread_self

theorem sleeping_then (same : base.threads = state.threads)
    (asleep : (base.doThen i doing).Sleeping inode) :
    doing.sleepsOn = some inode ∨
      ∃ j, j ≠ i ∧ (state.threads j).doing.sleepsOn = some inode := by
  rcases asleep with ⟨j, sleeps⟩
  by_cases here : j = i
  · rw [here] at sleeps
    rw [doThen_self] at sleeps
    exact Or.inl sleeps
  · have other : (base.doThen i doing).threads j = base.threads j :=
      setThread_of_ne here
    rw [other, same] at sleeps
    exact Or.inr ⟨j, here, sleeps⟩

theorem assigning_then (same : base.threads = state.threads)
    (assigned : (base.doThen i doing).Assigning inode) :
    doing.assigns = some inode ∨
      ∃ j, j ≠ i ∧ (state.threads j).doing.assigns = some inode := by
  rcases assigned with ⟨j, assigns⟩
  by_cases here : j = i
  · rw [here] at assigns
    rw [doThen_self] at assigns
    exact Or.inl assigns
  · have other : (base.doThen i doing).threads j = base.threads j :=
      setThread_of_ne here
    rw [other, same] at assigns
    exact Or.inr ⟨j, here, assigns⟩

/-- Only the thread itself sets the fields of an inode. -/
theorem Clear.assigning_then {wanted : Option Nat} (clear : state.Clear i wanted)
    (same : base.threads = state.threads) (assigned : (base.doThen i doing).Assigning inode) :
    doing.assigns = some inode := by
  rcases OpenState.assigning_then same assigned with here | ⟨j, different, assigns⟩
  · exact here
  · rw [assigns_of_idle (clear.busy different)] at assigns
    cases assigns

theorem assigning_self (assigns : doing.assigns = some inode) :
    (base.doThen i doing).Assigning inode := by
  refine ⟨i, ?_⟩
  rw [doThen_self]
  exact assigns

theorem sleeping_self (sleeps : doing.sleepsOn = some inode) :
    (base.doThen i doing).Sleeping inode := by
  refine ⟨i, ?_⟩
  rw [doThen_self]
  exact sleeps

/-- The other threads set the same fields as before. -/
theorem assigning_other (same : base.threads = state.threads)
    (own : (state.threads i).doing.assigns = none)
    (assigned : state.Assigning inode) : (base.doThen i doing).Assigning inode := by
  rcases assigned with ⟨j, assigns⟩
  have different : j ≠ i := by
    intro here
    rw [here, own] at assigns
    cases assigns
  have other : (base.doThen i doing).threads j = base.threads j := setThread_of_ne different
  refine ⟨j, ?_⟩
  rw [other, same]
  exact assigns

end Then

section Steps

variable {Index : Type} [Fintype Index] {disk : Memory}
variable {state : OpenState Index} {i : Index} {purpose : Purpose}
variable {sector inode : Nat} {found : Option Reference} {cell : InodeCell}

theorem Sound.nextInode_eq {passed tail : List Nat} {e : Nat}
    (sound : state.Sound disk) (split : state.openInodes = passed ++ e :: tail) :
    nextInode state.openInodes e = tail.head? := by
  have nodup := sound.nodup
  rw [split, List.nodup_append] at nodup
  have before : ∀ other ∈ passed, decide (other ≠ e) = true := by
    intro other member
    exact decide_eq_true (nodup.2.2 other member e List.mem_cons_self)
  have here : (e :: tail).dropWhile (fun other => decide (other ≠ e)) = e :: tail := by
    rw [List.dropWhile_cons_of_neg]
    simp
  rw [nextInode, split, List.dropWhile_append_of_pos before, here, List.tail_cons]

/-- The search goes on, or it has found an inode that nobody is reading. -/
theorem Sound.searched {e : Nat} (sound : state.Sound disk)
    (doing : (state.threads i).doing = .opening purpose sector (.search (some e)))
    (clear : state.Clear i (some sector)) (known : state.heap e = some cell) :
    e ∈ state.openInodes ∧
      state.StageSound (.opening purpose sector
        (if cell.sector = sector then .found e
          else .search (nextInode state.openInodes e))) := by
  have stage := sound.stage i
  rw [doing] at stage
  rcases stage with ⟨passed, rest, split, head, none⟩
  cases rest with
  | nil => cases head
  | cons first tail =>
      cases head
      have here : e ∈ state.openInodes := by
        rw [split]
        exact List.mem_append_right passed List.mem_cons_self
      refine ⟨here, ?_⟩
      by_cases same : cell.sector = sector
      · rw [if_pos same]
        refine ⟨here, ⟨cell, known, same⟩, ?_⟩
        intro ⟨j, asleep⟩
        have different : j ≠ i := by
          intro self
          rw [self, doing] at asleep
          cases asleep
        rcases sound.asleep j e asleep with
          ⟨_, _, ⟨called, calls, other, otherKnown, otherSector⟩, _⟩
        rw [known, Option.some.injEq] at otherKnown
        apply clear.sector_ne different asleep
        rw [calls, ← otherSector, ← otherKnown, same]
      · rw [if_neg same, sound.nextInode_eq split]
        refine ⟨passed ++ [e], tail, ?_, rfl, ?_⟩
        · rw [split, List.append_assoc]
          rfl
        · intro other member has
          rcases List.mem_append.mp member with earlier | last
          · exact none other earlier has
          · rcases has with ⟨otherCell, otherKnown, otherSector⟩
            rw [List.mem_singleton.mp last, known, Option.some.injEq] at otherKnown
            exact same (otherKnown ▸ otherSector)

variable [DecidableEq Index]

/-- The references when `inode_open` returns. -/
theorem opened_references (purpose : Purpose) (reference : Reference) :
    (purpose.opened (some reference)).references = reference :: purpose.references := by
  cases purpose <;> rfl

/-- What is to hold of a reference. -/
def Refers (state : OpenState Index) (reference : Reference) : Prop :=
  reference.inode ∈ state.openInodes ∧ ¬state.Assigning reference.inode ∧
    ¬state.Sleeping reference.inode ∧ state.HasSector reference.inode reference.sector

/-- A thread goes on after something has happened to one inode. -/
theorem Sound.touchThen {base : OpenState Index} {doing : Doing}
    (sound : state.Sound disk) (same : base.threads = state.threads)
    (listed : ∀ other, other ≠ inode → (other ∈ base.openInodes ↔ other ∈ state.openInodes))
    (heap : ∀ other, other ≠ inode → base.heap other = state.heap other)
    (before : (state.threads i).doing.Only inode) (now : doing.Only inode)
    (members : ∀ reference ∈ doing.references, reference.inode ≠ inode →
      reference ∈ (state.threads i).doing.references)
    (moved : ∀ other, other ≠ inode →
      (doing.references.map Reference.inode).count other =
        ((state.threads i).doing.references.map Reference.inode).count other)
    (nodup : base.openInodes.Nodup)
    (allocated : inode ∈ base.openInodes → ∃ cell, base.heap inode = some cell)
    (once : inode ∈ base.openInodes → ¬(base.doThen i doing).Assigning inode →
      ∀ other ∈ base.openInodes, other ≠ inode →
        ¬(base.doThen i doing).Assigning other → ∀ sector,
          base.HasSector inode sector → ¬base.HasSector other sector)
    (counted : inode ∈ base.openInodes → ¬(base.doThen i doing).Assigning inode →
      ∀ cell, base.heap inode = some cell → cell.openCnt = (base.doThen i doing).live inode)
    (ready : inode ∈ base.openInodes → ¬(base.doThen i doing).Assigning inode →
      ¬(base.doThen i doing).Sleeping inode → ∀ cell,
        base.heap inode = some cell → cell.data = diskInode disk cell.sector)
    (old : ∀ j, ∀ reference ∈ (state.threads j).references,
      reference.inode = inode → (base.doThen i doing).Refers reference)
    (new : ∀ reference ∈ doing.references,
      reference.inode = inode → (base.doThen i doing).Refers reference)
    (asleep : (base.doThen i doing).Sleeping inode →
      inode ∈ base.openInodes ∧ ¬(base.doThen i doing).Assigning inode ∧
        doing.sleepsOn = some inode ∧
          (∃ sector, doing.sector = some sector ∧ base.HasSector inode sector) ∧
            ∀ j, j ≠ i → (state.threads j).doing.sleepsOn ≠ some inode)
    (stage : (base.doThen i doing).StageSound doing)
    (others : ∀ j, j ≠ i → (base.doThen i doing).StageSound (state.threads j).doing) :
    (base.doThen i doing).Sound disk := by
  have self : (base.doThen i doing).threads i = { state.threads i with doing := doing } := by
    rw [← same]
    exact setThread_self
  have elsewhere : ∀ j, j ≠ i →
      (base.doThen i doing).threads j = state.threads j := by
    intro j different
    rw [← same]
    exact setThread_of_ne different
  have selfDoing : ((base.doThen i doing).threads i).doing = doing := by
    rw [self]
  have quiet {stage : Doing} {other : Nat} (only : stage.Only inode)
      (different : other ≠ inode) : stage.sleepsOn ≠ some other :=
    fun sleeps => different (only.2 other sleeps)
  refine sound.touch elsewhere listed heap ?_ ?_ before (selfDoing.symm ▸ now) nodup
    allocated once counted ready ?_ ?_ ?_ ?_
  · intro reference member different
    rw [self] at member
    rcases List.mem_append.mp member with held | file
    · exact List.mem_append_left _ (members reference held different)
    · exact List.mem_append_right _ file
  · intro other different
    rw [self]
    unfold Thread.count Thread.references
    rw [List.map_append, List.map_append, List.count_append, List.count_append,
      moved other different, if_neg (quiet now different),
      if_neg (quiet before different)]
  · intro j reference member here
    have facts : (base.doThen i doing).Refers reference := by
      by_cases there : j = i
      · rw [there, self] at member
        rcases List.mem_append.mp member with held | file
        · exact new reference held here
        · exact old i reference (List.mem_append_right _ file) here
      · rw [elsewhere j there] at member
        exact old j reference member here
    rw [Refers, here] at facts
    exact facts
  · intro j sleeps
    rcases asleep ⟨j, sleeps⟩ with ⟨here, set, _, has, alone⟩
    have isSelf : j = i := by
      apply Classical.byContradiction
      intro different
      rw [elsewhere j different] at sleeps
      exact alone j different sleeps
    rw [isSelf, selfDoing]
    refine ⟨here, set, has, ?_⟩
    intro k also
    apply Classical.byContradiction
    intro different
    rw [elsewhere k different] at also
    exact alone k different also
  · intro j
    by_cases here : j = i
    · rw [here, selfDoing]
      exact stage
    · rw [elsewhere j here]
      exact others j here
  · rw [self]

theorem only_of_quiet {doing : Doing} (assigns : doing.assigns = none)
    (sleeps : doing.sleepsOn = none) : doing.Only inode := by
  constructor
  · intro other assigned
    rw [assigns] at assigned
    cases assigned
  · intro other asleep
    rw [sleeps] at asleep
    cases asleep

theorem opened_quiet (purpose : Purpose) (result : Option Reference) :
    (purpose.opened result).assigns = none ∧
      (purpose.opened result).sleepsOn = none ∧
        (purpose.opened result).busy = false := by
  cases purpose <;> cases result <;> exact ⟨rfl, rfl, rfl⟩

/-- An inode is counted anew when a thread gets or closes a reference to it. -/
theorem Sound.recount {wanted : Option Nat} {next : Doing} {new : InodeCell}
    (sound : state.Sound disk) (clear : state.Clear i wanted)
    (set : (state.threads i).doing.assigns = none) (slept : (state.threads i).doing.sleepsOn = none)
    (assigns : next.assigns = none) (sleeps : next.sleepsOn = none)
    (here : inode ∈ state.openInodes) (awake : ¬state.Sleeping inode)
    (known : state.heap inode = some cell) (sameSector : new.sector = cell.sector)
    (sameData : new.data = cell.data)
    (count : new.openCnt + holds (state.threads i).doing inode = cell.openCnt + holds next inode)
    (members : ∀ reference ∈ next.references,
      reference ∈ (state.threads i).doing.references ∨ reference = ⟨inode, cell.sector⟩)
    (moved : ∀ other, other ≠ inode →
      (next.references.map Reference.inode).count other =
        ((state.threads i).doing.references.map Reference.inode).count other)
    (stage : ((state.store inode (some new)).doThen i next).StageSound next) :
    ((state.store inode (some new)).doThen i next).Sound disk := by
  have noneAssigned : ∀ other, ¬state.Assigning other := by
    intro other assigned
    have own := clear.assigning assigned
    rw [set] at own
    cases own
  generalize stored : state.store inode (some new) = base at stage ⊢
  rcases store_keeps state stored with ⟨same, listed, cellNow, heap, cellIs⟩
  have stillSet : ¬(base.doThen i next).Assigning inode := by
    intro assigned
    have own := clear.assigning_then same assigned
    rw [assigns] at own
    cases own
  have stillAwake : ¬(base.doThen i next).Sleeping inode := by
    intro asleep
    rcases sleeping_then same asleep with own | ⟨j, _, other⟩
    · rw [sleeps] at own
      cases own
    · exact awake ⟨j, other⟩
  have refers : ∀ reference : Reference, reference.inode = inode →
      reference.sector = cell.sector → (base.doThen i next).Refers reference := by
    intro reference isInode isSector
    rw [Refers, isInode]
    refine ⟨?_, stillSet, stillAwake, new, cellNow, ?_⟩
    · change inode ∈ base.openInodes
      rw [listed]
      exact here
    · rw [sameSector, isSector]
  have old : ∀ j, ∀ reference ∈ (state.threads j).references,
      reference.inode = inode → (base.doThen i next).Refers reference := by
    intro j reference member isInode
    rcases sound.referenced j reference member with ⟨_, _, _, found, there, isSector⟩
    rw [isInode, known, Option.some.injEq] at there
    exact refers reference isInode (there ▸ isSector.symm)
  refine sound.touchThen same (fun _ _ => by rw [listed]) heap
    (only_of_quiet set slept) (only_of_quiet assigns sleeps) ?_ moved
    (listed ▸ sound.nodup) (fun _ => ⟨new, cellNow⟩) ?_ ?_ ?_ old ?_
    (fun asleep => absurd asleep stillAwake) stage
    (fun j different => stageSound_of_idle (clear.busy different))
  · intro reference member different
    rcases members reference member with held | fresh
    · exact held
    · exact absurd (congrArg Reference.inode fresh) different
  · intro _ _ other there different _ wanted ⟨found, foundKnown, foundSector⟩
      ⟨second, secondKnown, secondSector⟩
    rw [cellIs found foundKnown] at foundSector
    rw [heap other different] at secondKnown
    rw [listed] at there
    exact different (sound.once inode here other there wanted (noneAssigned inode)
      (noneAssigned other) ⟨cell, known, sameSector ▸ foundSector⟩
      ⟨second, secondKnown, secondSector⟩).symm
  · intro _ _ found foundKnown
    rw [cellIs found foundKnown]
    have before := sound.counted inode here (noneAssigned inode) cell known
    have counts := @live_then _ _ _ _ i next _ same inode
    omega
  · intro _ _ _ found foundKnown
    rw [cellIs found foundKnown, sameData, sameSector]
    exact sound.ready inode here (noneAssigned inode) awake cell known
  · intro reference member isInode
    rcases members reference member with held | fresh
    · exact old i reference (List.mem_append_left _ held) isInode
    · exact refers reference isInode (congrArg Reference.sector fresh)

/-- An inode that was found in the list is reopened. -/
theorem Sound.reopen (sound : state.Sound disk)
    (doing : (state.threads i).doing = .opening purpose sector (.found inode))
    (clear : state.Clear i (some sector)) (known : state.heap inode = some cell) :
    ((state.store inode
      (some { cell with openCnt := cell.openCnt + 1 })).doThen i
        (purpose.opened (some ⟨inode, sector⟩))).Sound disk := by
  have stage := sound.stage i
  rw [doing] at stage
  rcases stage with ⟨here, ⟨found, foundKnown, foundSector⟩, awake⟩
  rw [known, Option.some.injEq] at foundKnown
  subst foundKnown
  rcases opened_quiet purpose (some ⟨inode, sector⟩) with ⟨assigns, sleeps, idle⟩
  have references := opened_references purpose ⟨inode, sector⟩
  refine sound.recount clear (by rw [doing]; rfl) (by rw [doing]; rfl) assigns
    sleeps here awake known ?_ ?_ ?_ ?_ ?_ (stageSound_of_idle idle)
  · rfl
  · rfl
  · unfold holds
    rw [references, doing, sleeps, List.map_cons, List.count_cons_self]
    change cell.openCnt + 1 + (((purpose.references.map Reference.inode).count inode +
      0 : Nat) : Int) = _
    rw [if_neg (by intro none; cases none)]
    push_cast
    omega
  · intro reference member
    rw [references] at member
    rcases List.mem_cons.mp member with fresh | held
    · right
      rw [fresh, foundSector]
    · left
      rw [doing]
      exact held
  · intro other different
    rw [references, doing, List.map_cons, List.count_cons_of_ne different.symm]
    rfl

/-- What follows `inode_close` is another statement of neither function. -/
theorem closed_quiet (found : Option Reference) :
    (closed found).assigns = none ∧ (closed found).sleepsOn = none ∧
      (closed found).busy = false ∧ (closed found).references = found.toList := by
  cases found <;> exact ⟨rfl, rfl, rfl, rfl⟩

/-- A reference is given up. -/
theorem Sound.drop {reference : Reference} (sound : state.Sound disk)
    (doing : (state.threads i).doing = .closing found (.drop reference))
    (clear : state.Clear i none) (known : state.heap reference.inode = some cell) :
    ((state.store reference.inode
      (some { cell with openCnt := cell.openCnt - 1 })).doThen i
        (if cell.openCnt - 1 = 0 then .closing found (.unlink reference.inode)
          else closed found)).Sound disk := by
  have held : reference ∈ (state.threads i).references := by
    apply List.mem_append_left
    rw [doing]
    exact List.mem_append_right _ List.mem_cons_self
  rcases sound.referenced i reference held with ⟨here, set, awake, _⟩
  rcases closed_quiet found with ⟨assigns, sleeps, idle, references⟩
  generalize isNext : (if cell.openCnt - 1 = 0 then
    Doing.closing found (.unlink reference.inode) else closed found) = next
  have quiet : next.assigns = none ∧ next.sleepsOn = none ∧
      next.references = found.toList := by
    rw [← isNext]
    split
    · exact ⟨rfl, rfl, rfl⟩
    · exact ⟨assigns, sleeps, references⟩
  rcases quiet with ⟨assigns', sleeps', references'⟩
  have counts : holds (state.threads i).doing reference.inode = holds next reference.inode + 1 := by
    have old : (Doing.closing found (.drop reference)).references =
        found.toList ++ [reference] := rfl
    have awake' : (Doing.closing found (.drop reference)).sleepsOn = none := rfl
    unfold holds
    rw [doing, references', sleeps', old, awake', if_neg (by intro none; cases none),
      List.map_append, List.count_append, List.map_singleton,
      List.count_singleton_self]
  refine sound.recount clear (by rw [doing]; rfl) (by rw [doing]; rfl) assigns'
    sleeps' here awake known ?_ ?_ ?_ ?_ ?_ ?_
  · rfl
  · rfl
  · rw [counts]
    push_cast
    omega
  · intro other member
    left
    rw [references'] at member
    rw [doing]
    exact List.mem_append_left _ member
  · intro other different
    rw [references', doing]
    change _ = ((found.toList ++ [reference]).map Reference.inode).count other
    rw [List.map_append, List.count_append, List.map_singleton,
      List.count_singleton, if_neg (by simpa using different.symm), Nat.add_zero]
  · rw [← isNext]
    split
    · rename_i zero
      refine ⟨here, ?_⟩
      have before := sound.counted reference.inode here set cell known
      have after := @live_then _ _ state (state.store reference.inode
          (some { cell with openCnt := cell.openCnt - 1 })) i next _ rfl reference.inode
      rw [if_pos zero] at isNext
      rw [isNext]
      omega
    · exact stageSound_of_idle idle

/-- Something happens to an inode that nobody has open, which leaves it outside of the
list or about to be set. -/
theorem Sound.touchUnused {wanted : Option Nat} {base : OpenState Index}
    {next : Doing} (sound : state.Sound disk) (clear : state.Clear i wanted)
    (same : base.threads = state.threads)
    (listed : ∀ other, other ≠ inode → (other ∈ base.openInodes ↔ other ∈ state.openInodes))
    (heap : ∀ other, other ≠ inode → base.heap other = state.heap other)
    (unused : state.live inode = 0) (before : (state.threads i).doing.Only inode)
    (sleeps : next.sleepsOn = none) (now : ∀ other, next.assigns = some other → other = inode)
    (references : next.references = (state.threads i).doing.references)
    (nodup : base.openInodes.Nodup)
    (setting : inode ∈ base.openInodes →
      next.assigns = some inode ∧ ∃ cell, base.heap inode = some cell)
    (stage : (base.doThen i next).StageSound next) :
    (base.doThen i next).Sound disk := by
  rcases unused_of_live unused with ⟨awake, unreferenced⟩
  have only : next.Only inode := by
    refine ⟨now, ?_⟩
    intro other asleep
    rw [sleeps] at asleep
    cases asleep
  have assigned (here : inode ∈ base.openInodes) : (base.doThen i next).Assigning inode :=
    assigning_self (setting here).1
  refine sound.touchThen same listed heap before only ?_ ?_ nodup
    (fun here => (setting here).2) (fun here set => absurd (assigned here) set)
    (fun here set => absurd (assigned here) set)
    (fun here set => absurd (assigned here) set)
    (fun j reference member here => absurd here (unreferenced j reference member))
    ?_ ?_ stage (fun j different => stageSound_of_idle (clear.busy different))
  · intro reference member _
    exact references ▸ member
  · intro other _
    rw [references]
  · intro reference member here
    apply absurd here
    apply unreferenced i reference
    exact List.mem_append_left _ (references ▸ member)
  · intro asleep
    rcases sleeping_then same asleep with own | ⟨j, _, other⟩
    · rw [sleeps] at own
      cases own
    · exact absurd ⟨j, other⟩ awake

/-- `malloc` gives an inode that is nowhere in the list. -/
theorem Sound.allocate {garbage : InodeCell} (sound : state.Sound disk)
    (doing : (state.threads i).doing = .opening purpose sector .allocate)
    (clear : state.Clear i (some sector)) (free : state.heap inode = none) :
    ((state.store inode (some garbage)).doThen i
      (.opening purpose sector (.link inode))).Sound disk := by
  have absent : inode ∉ state.openInodes := by
    intro here
    rcases sound.allocated inode here with ⟨cell, known⟩
    rw [free] at known
    cases known
  have stage := sound.stage i
  rw [doing] at stage
  refine sound.touchUnused clear rfl (fun _ _ => Iff.rfl)
    (fun other different => store_of_ne state different _)
    (sound.live_eq_zero (Or.inl absent))
    (only_of_quiet (by rw [doing]; rfl) (by rw [doing]; rfl)) rfl
    (fun _ none => by cases none) (by rw [doing]; rfl) sound.nodup
    (fun here => absurd here absent) ?_
  refine ⟨absent, ?_, ?_⟩
  · change ((state.store inode (some garbage)).heap inode).isSome = true
    rw [store_self]
    rfl
  · intro other here ⟨cell, known, isSector⟩
    have different : other ≠ inode := fun same => absent (same ▸ here)
    change (state.store inode (some garbage)).heap other = some cell at known
    rw [store_of_ne state different] at known
    exact stage other here ⟨cell, known, isSector⟩

/-- `list_push_front` puts it into the list, where its fields are to be set. -/
theorem Sound.link (sound : state.Sound disk)
    (doing : (state.threads i).doing = .opening purpose sector (.link inode))
    (clear : state.Clear i (some sector)) :
    (({ state with openInodes := inode :: state.openInodes } :
      OpenState Index).doThen i
        (.opening purpose sector (.assign inode))).Sound disk := by
  have stage := sound.stage i
  rw [doing] at stage
  rcases stage with ⟨absent, known, none⟩
  refine sound.touchUnused clear rfl ?_ (fun _ _ => rfl)
    (sound.live_eq_zero (Or.inl absent))
    (only_of_quiet (by rw [doing]; rfl) (by rw [doing]; rfl)) rfl
    (fun other same => (Option.some.inj same).symm) (by rw [doing]; rfl)
    (List.nodup_cons.mpr ⟨absent, sound.nodup⟩)
    (fun _ => ⟨rfl, Option.isSome_iff_exists.mp known⟩) ?_
  · intro other different
    exact List.mem_cons.trans (or_iff_right different)
  · refine ⟨List.mem_cons_self, ?_⟩
    intro other member different
    rcases List.mem_cons.mp member with same | here
    · exact absurd same different
    · exact none other here

/-- `list_remove` takes an inode that nobody has open out of the list. -/
theorem Sound.unlink (sound : state.Sound disk)
    (doing : (state.threads i).doing = .closing found (.unlink inode))
    (clear : state.Clear i none) :
    inode ∈ state.openInodes ∧
      (({ state with openInodes := state.openInodes.erase inode } :
        OpenState Index).doThen i
          (.closing found (.free inode))).Sound disk := by
  have stage := sound.stage i
  rw [doing] at stage
  rcases stage with ⟨here, unused⟩
  have gone : inode ∉ state.openInodes.erase inode := by
    rw [sound.nodup.mem_erase_iff]
    exact fun both => both.1 rfl
  rcases sound.allocated inode here with ⟨cell, known⟩
  refine ⟨here, ?_⟩
  refine sound.touchUnused clear rfl ?_ (fun _ _ => rfl) unused
    (only_of_quiet (by rw [doing]; rfl) (by rw [doing]; rfl)) rfl
    (fun _ none => by cases none) (by rw [doing]; rfl) (sound.nodup.erase inode)
    (fun back => absurd back gone) ⟨gone, ?_⟩
  · intro other different
    exact List.mem_erase_of_ne different
  · change (state.heap inode).isSome = true
    rw [known]
    rfl

/-- `free` of an inode that is not in the list any more. -/
theorem Sound.free (sound : state.Sound disk)
    (doing : (state.threads i).doing = .closing found (.free inode)) (clear : state.Clear i none) :
    (∃ cell, state.heap inode = some cell) ∧
      ((state.store inode none).doThen i (closed found)).Sound disk := by
  have stage := sound.stage i
  rw [doing] at stage
  rcases stage with ⟨absent, known⟩
  rcases closed_quiet found with ⟨assigns, sleeps, idle, references⟩
  refine ⟨Option.isSome_iff_exists.mp known, ?_⟩
  refine sound.touchUnused clear rfl (fun _ _ => Iff.rfl)
    (fun other different => store_of_ne state different _)
    (sound.live_eq_zero (Or.inl absent))
    (only_of_quiet (by rw [doing]; rfl) (by rw [doing]; rfl)) sleeps ?_
    (by rw [doing, references]; rfl) sound.nodup (fun here => absurd here absent)
    (stageSound_of_idle idle)
  intro other same
  rw [assigns] at same
  cases same

/-- The fields of a new inode are set. -/
theorem Sound.assign (sound : state.Sound disk)
    (doing : (state.threads i).doing = .opening purpose sector (.assign inode))
    (clear : state.Clear i (some sector)) (cell : InodeCell) :
    ((state.store inode (some { cell with sector := sector, openCnt := 1 })).doThen i
      (.opening purpose sector (.sleep inode))).Sound disk := by
  have stage := sound.stage i
  rw [doing] at stage
  rcases stage with ⟨here, none⟩
  have assigned : state.Assigning inode := by
    refine ⟨i, ?_⟩
    rw [doing]
    rfl
  have zero := sound.live_eq_zero (Or.inr assigned)
  rcases unused_of_live zero with ⟨awake, unreferenced⟩
  generalize stored : state.store inode (some { cell with sector := sector, openCnt := 1 }) = base
  rcases store_keeps state stored with ⟨same, listed, cellNow, heap, cellIs⟩
  have references : (Doing.opening purpose sector (.sleep inode)).references =
      (state.threads i).doing.references := by
    rw [doing]
    rfl
  refine sound.touchThen same (fun _ _ => by rw [listed]) heap ?_ ?_ ?_ ?_
    (listed ▸ sound.nodup) (fun _ => ⟨_, cellNow⟩) ?_ ?_ ?_ ?_ ?_ ?_ trivial
    (fun j different => stageSound_of_idle (clear.busy different))
  · rw [doing]
    refine ⟨fun other assigns => (Option.some.inj assigns).symm, ?_⟩
    intro other asleep
    cases asleep
  · refine ⟨?_, fun other asleep => (Option.some.inj asleep).symm⟩
    intro other assigns
    cases assigns
  · intro reference member _
    exact references ▸ member
  · intro other _
    rw [references]
  · intro _ _ other there different _ wanted ⟨found, foundKnown, foundSector⟩
      ⟨second, secondKnown, secondSector⟩
    rw [cellIs found foundKnown] at foundSector
    rw [heap other different] at secondKnown
    rw [listed] at there
    exact none other there different ⟨second, secondKnown, secondSector.trans foundSector.symm⟩
  · intro _ _ found foundKnown
    rw [cellIs found foundKnown]
    have counts := @live_then _ _ _ _ i (.opening purpose sector (.sleep inode)) _ same inode
    have asleep : (Doing.opening purpose sector (.sleep inode)).sleepsOn = some inode := rfl
    have before : (Doing.opening purpose sector (.assign inode)).sleepsOn =
        Option.none := rfl
    unfold holds at counts
    rw [references, zero, asleep, if_pos rfl, doing, before,
      if_neg (by intro none; cases none)] at counts
    dsimp only
    omega
  · intro _ _ rested
    exact absurd (sleeping_self rfl) rested
  · intro j reference member isInode
    exact absurd isInode (unreferenced j reference member)
  · intro reference member isInode
    apply absurd isInode
    apply unreferenced i reference
    exact List.mem_append_left _ (references ▸ member)
  · intro _
    refine ⟨listed ▸ here, ?_, rfl, ⟨sector, rfl, _, cellNow, rfl⟩, ?_⟩
    · intro still
      have own := clear.assigning_then same still
      cases own
    · intro j _ asleep
      exact awake ⟨j, asleep⟩

/-- The inode has been read. -/
theorem Sound.wake (sound : state.Sound disk)
    (doing : (state.threads i).doing = .opening purpose sector (.sleep inode)) :
    ∃ cell, state.heap inode = some cell ∧
      ((state.store inode (some { cell with data := diskInode disk sector })).doThen i
        (purpose.opened (some ⟨inode, sector⟩))).Sound disk := by
  have asleep : (state.threads i).doing.sleepsOn = some inode := by
    rw [doing]
    rfl
  rcases sound.asleep i inode asleep with ⟨here, set, ⟨called, calls, cell, known, isSector⟩, only⟩
  rw [doing] at calls
  rw [← Option.some.inj calls] at isSector
  refine ⟨cell, known, ?_⟩
  rcases opened_quiet purpose (some ⟨inode, sector⟩) with ⟨assigns, sleeps, idle⟩
  have references := opened_references purpose ⟨inode, sector⟩
  generalize purpose.opened (some ⟨inode, sector⟩) = next at *
  generalize stored : state.store inode (some { cell with data := diskInode disk sector }) = base
  rcases store_keeps state stored with ⟨same, listed, cellNow, heap, cellIs⟩
  have noneSet : (state.threads i).doing.assigns = none := by
    rw [doing]
    rfl
  have stillSet : ¬(base.doThen i next).Assigning inode := by
    intro assigned
    rcases assigning_then same assigned with own | ⟨j, _, other⟩
    · rw [assigns] at own
      cases own
    · exact set ⟨j, other⟩
  have awake : ¬(base.doThen i next).Sleeping inode := by
    intro still
    rcases sleeping_then same still with own | ⟨j, different, other⟩
    · rw [sleeps] at own
      cases own
    · exact different (only j other)
  have unreferenced : ∀ j, ∀ reference ∈ (state.threads j).references, reference.inode ≠ inode := by
    intro j reference member isInode
    have facts := sound.referenced j reference member
    exact facts.2.2.1 ⟨i, isInode.symm ▸ asleep⟩
  have held : holds next inode = holds (state.threads i).doing inode := by
    have before : (Doing.opening purpose sector (.sleep inode)).references =
        purpose.references := rfl
    have slept : (Doing.opening purpose sector (.sleep inode)).sleepsOn = some inode := rfl
    unfold holds
    rw [references, sleeps, doing, before, slept, if_pos rfl,
      if_neg (by intro none; cases none), List.map_cons, List.count_cons_self]
  have moved : ∀ other, other ≠ inode →
      (next.references.map Reference.inode).count other =
        ((state.threads i).doing.references.map Reference.inode).count other := by
    intro other different
    rw [references, doing, List.map_cons, List.count_cons_of_ne different.symm]
    rfl
  have live : ∀ other, (base.doThen i next).live other = state.live other := by
    intro other
    have counts := @live_then _ _ _ _ i next _ same other
    have equal : holds next other = holds (state.threads i).doing other := by
      by_cases here' : other = inode
      · rw [here', held]
      · unfold holds
        rw [moved other here', sleeps, asleep, if_neg (by intro none; cases none),
          if_neg (fun both => here' (Option.some.inj both).symm)]
    omega
  have sectors : ∀ other wanted, (base.doThen i next).HasSector other wanted ↔
      state.HasSector other wanted := by
    intro other wanted
    change base.HasSector other wanted ↔ _
    by_cases here' : other = inode
    · rw [here', HasSector, HasSector, cellNow, known]
      simp
    · rw [HasSector, heap other here']
      rfl
  have fresh : (base.doThen i next).Refers ⟨inode, sector⟩ :=
    ⟨listed ▸ here, stillSet, awake, _, cellNow, isSector⟩
  refine sound.touchThen same (fun _ _ => by rw [listed]) heap ?_
    (only_of_quiet assigns sleeps) ?_ moved (listed ▸ sound.nodup)
    (fun _ => ⟨_, cellNow⟩) ?_ ?_ ?_ ?_ ?_ (fun still => absurd still awake)
    (stageSound_of_idle idle) ?_
  · rw [doing]
    refine ⟨?_, fun other slept => (Option.some.inj slept).symm⟩
    intro other assigned
    cases assigned
  · intro reference member different
    rw [references] at member
    rcases List.mem_cons.mp member with new | old
    · exact absurd (congrArg Reference.inode new) different
    · rw [doing]
      exact old
  · intro _ _ other there different otherSet wanted has otherHas
    rw [listed] at there
    apply different
    apply (sound.once inode here other there wanted set _ _ _).symm
    · intro assigned
      exact otherSet (assigning_other same noneSet assigned)
    · exact (sectors inode wanted).mp has
    · exact (sectors other wanted).mp otherHas
  · intro _ _ found foundKnown
    rw [cellIs found foundKnown, live]
    exact sound.counted inode here set cell known
  · intro _ _ _ found foundKnown
    rw [cellIs found foundKnown]
    dsimp only
    rw [isSector]
  · intro j reference member isInode
    exact absurd isInode (unreferenced j reference member)
  · intro reference member isInode
    rw [references] at member
    rcases List.mem_cons.mp member with new | old
    · rw [new]
      exact fresh
    · apply absurd isInode
      apply unreferenced i reference
      apply List.mem_append_left
      rw [doing]
      exact old
  · intro j _
    have listedThen : (base.doThen i next).openInodes = state.openInodes := listed
    apply (sound.stage j).congr listedThen sectors
    · intro other
      change (base.heap other).isSome = _
      by_cases here' : other = inode
      · rw [here', cellNow, known]
        rfl
      · rw [heap other here']
    · intro other still
      rcases sleeping_then same still with own | ⟨k, _, slept⟩
      · rw [sleeps] at own
        cases own
      · exact ⟨k, slept⟩
    · exact live

end Steps

section Advance

variable {Index : Type} [Fintype Index] [DecidableEq Index] {disk : Memory}
variable {state : OpenState Index} {i : Index} {phase : OpenPhase Index}

/-- A step that leads to a state in which the invariant holds. -/
def Leads (disk : Memory) (phase : OpenPhase Index) : Prop :=
  ∃ after, phase = .running after ∧ after.Sound disk

/-- A thread goes on with what it has open. -/
theorem Sound.goOn {next : Doing} (sound : state.Sound disk)
    (set : (state.threads i).doing.assigns = none) (slept : (state.threads i).doing.sleepsOn = none)
    (assigns : next.assigns = none) (sleeps : next.sleepsOn = none)
    (references : next.references = (state.threads i).doing.references)
    (stage : state.StageSound next) : (state.doThen i next).Sound disk := by
  have same : ({ state.threads i with doing := next } : Thread).references.Perm
      (state.threads i).references := by
    apply List.Perm.of_eq
    change next.references ++ _ = _
    rw [references]
    rfl
  exact sound.setThread (assigns.trans set.symm) sleeps slept same stage (sound.read i)

/-- The loop goes on to the next inode or leaves. -/
theorem search_leads {purpose : Purpose} {sector : Nat} {e : Option Nat}
    {memory : Option (Nat × InodeCell)} (sound : state.Sound disk)
    (doing : (state.threads i).doing = .opening purpose sector (.search e))
    (clear : state.Clear i (some sector))
    (run : state.openStep disk i memory purpose sector (.search e) =
      some phase) : Leads disk phase := by
  have before := sound.stage i
  rw [doing] at before
  rcases before with ⟨passed, rest, split, head, absent⟩
  have assigns : (state.threads i).doing.assigns = none := by
    rw [doing]
    rfl
  have sleeps : (state.threads i).doing.sleepsOn = none := by
    rw [doing]
    rfl
  have references : purpose.references = (state.threads i).doing.references := by
    rw [doing]
    rfl
  cases e with
  | none =>
      rw [List.head?_eq_none_iff.mp head, List.append_nil] at split
      have nowhere : state.Absent sector := by
        intro other here
        rw [split] at here
        exact absent other here
      cases run
      exact ⟨_, rfl, sound.goOn assigns sleeps rfl rfl references nowhere⟩
  | some e =>
      have inside : e ∈ state.openInodes := by
        rw [split]
        exact List.mem_append_right passed (List.mem_of_mem_head? head)
      rcases sound.allocated e inside with ⟨cell, known⟩
      have found := (sound.searched doing clear known).2
      rw [openStep, if_pos inside, deref, known] at run
      cases run
      refine ⟨_, rfl, sound.goOn assigns sleeps ?_ ?_ references found⟩
      · split <;> rfl
      · split <;> rfl

/-- `malloc` finds memory for a new inode or not. -/
theorem allocate_leads {purpose : Purpose} {sector : Nat}
    {memory : Option (Nat × InodeCell)} (sound : state.Sound disk)
    (doing : (state.threads i).doing = .opening purpose sector .allocate)
    (clear : state.Clear i (some sector))
    (run : state.openStep disk i memory purpose sector .allocate =
      some phase) : Leads disk phase := by
  cases memory with
  | none =>
      rcases opened_quiet purpose none with ⟨assigns, sleeps, idle⟩
      have references : (purpose.opened none).references = (state.threads i).doing.references := by
        rw [doing]
        cases purpose <;> rfl
      cases run
      refine ⟨_, rfl, sound.goOn ?_ ?_ assigns sleeps references (stageSound_of_idle idle)⟩
      · rw [doing]
        rfl
      · rw [doing]
        rfl
  | some memory =>
      rcases memory with ⟨inode, garbage⟩
      rw [openStep] at run
      by_cases free : (state.heap inode).isNone = true
      · rw [if_pos free] at run
        cases run
        exact ⟨_, rfl, sound.allocate doing clear (Option.isNone_iff_eq_none.mp free)⟩
      · rw [if_neg free] at run
        cases run

/-- A statement of `inode_open`. -/
theorem openStep_leads {purpose : Purpose} {sector : Nat} {stage : OpenStage}
    {memory : Option (Nat × InodeCell)} (sound : state.Sound disk)
    (doing : (state.threads i).doing = .opening purpose sector stage)
    (clear : (∀ inode, stage ≠ .sleep inode) → state.Clear i (some sector))
    (run : state.openStep disk i memory purpose sector stage = some phase) :
    Leads disk phase := by
  have before := sound.stage i
  rw [doing] at before
  cases stage with
  | enter =>
      have start : state.StageSound
          (.opening purpose sector (.search state.openInodes.head?)) :=
        ⟨[], state.openInodes, rfl, rfl, by simp⟩
      cases run
      refine ⟨_, rfl, sound.goOn ?_ ?_ rfl rfl ?_ start⟩
      · rw [doing]
        rfl
      · rw [doing]
        rfl
      · rw [doing]
        rfl
  | search e =>
      exact search_leads sound doing (clear (by simp)) run
  | found inode =>
      rcases sound.allocated inode before.1 with ⟨cell, known⟩
      rw [openStep, deref, known] at run
      cases run
      exact ⟨_, rfl, sound.reopen doing (clear (by simp)) known⟩
  | allocate =>
      exact allocate_leads sound doing (clear (by simp)) run
  | link inode =>
      cases run
      exact ⟨_, rfl, sound.link doing (clear (by simp))⟩
  | assign inode =>
      rcases sound.allocated inode before.1 with ⟨cell, known⟩
      rw [openStep, deref, known] at run
      cases run
      exact ⟨_, rfl, sound.assign doing (clear (by simp)) cell⟩
  | sleep inode =>
      rcases sound.wake doing with ⟨cell, known, after⟩
      rw [openStep, deref, known] at run
      cases run
      exact ⟨_, rfl, after⟩

/-- A statement of `inode_close`. -/
theorem closeStep_leads {found : Option Reference} {stage : CloseStage}
    (sound : state.Sound disk) (doing : (state.threads i).doing = .closing found stage)
    (clear : state.Clear i none) :
    Leads disk (state.closeStep i found stage) := by
  cases stage with
  | drop reference =>
      have held : reference ∈ (state.threads i).references := by
        apply List.mem_append_left
        rw [doing]
        exact List.mem_append_right _ List.mem_cons_self
      rcases sound.referenced i reference held with ⟨_, _, _, cell, known, _⟩
      rw [closeStep, deref, known]
      exact ⟨_, rfl, sound.drop doing clear known⟩
  | unlink inode =>
      rcases sound.unlink doing clear with ⟨here, after⟩
      rw [closeStep, if_pos here]
      exact ⟨_, rfl, after⟩
  | free inode =>
      rcases sound.free doing clear with ⟨⟨cell, known⟩, after⟩
      rw [closeStep, deref, known]
      exact ⟨_, rfl, after⟩

/-- An entry of the root directory is looked at with the directory open. -/
theorem lookupStep_quiet (name : List UInt8) (root : Reference) (entry : Nat) (cell : InodeCell) :
    (lookupStep disk name root entry cell).assigns = none ∧
      (lookupStep disk name root entry cell).sleepsOn = none ∧
        (lookupStep disk name root entry cell).busy = false ∧
          (lookupStep disk name root entry cell).references = [root] := by
  unfold lookupStep
  by_cases past : cell.data.length.toNat < (entry + 1) * direntSize
  · rw [if_pos past]
    exact ⟨rfl, rfl, rfl, rfl⟩
  · rw [if_neg past]
    cases entryOf (slot disk cell.data.start entry) with
    | none => exact ⟨rfl, rfl, rfl, rfl⟩
    | some result =>
        by_cases same : result.1 = name
        · dsimp only
          rw [if_pos same]
          exact ⟨rfl, rfl, rfl, rfl⟩
        · dsimp only
          rw [if_neg same]
          exact ⟨rfl, rfl, rfl, rfl⟩

/-- What lets a thread go on: in `inode_open` before it reads the disk and in
`inode_close` nobody is in the way. -/
def Permits (state : OpenState Index) (i : Index) : Doing → Prop
  | .opening _ sector stage =>
      (∀ inode, stage ≠ .sleep inode) → state.Clear i (some sector)
  | .closing _ _ => state.Clear i none
  | _ => True

theorem advance_leads {memory : Option (Nat × InodeCell)}
    (sound : state.Sound disk) (permits : state.Permits i (state.threads i).doing)
    (run : state.advance disk i memory = some phase) : Leads disk phase := by
  unfold advance at run
  cases doing : (state.threads i).doing with
  | idle =>
      rw [doing] at run
      cases run
  | opening purpose sector stage =>
      rw [doing] at run permits
      exact openStep_leads sound doing permits run
  | closing found stage =>
      rw [doing] at run permits
      cases run
      exact closeStep_leads sound doing permits
  | dirOpen name root =>
      rw [doing] at run
      cases run
      refine ⟨_, rfl, sound.goOn ?_ ?_ ?_ ?_ ?_ ?_⟩
      · rw [doing]
        rfl
      · rw [doing]
        rfl
      · split <;> rfl
      · split <;> rfl
      · rw [doing]
        split <;> rfl
      · split <;> trivial
  | lookup name root entry =>
      have held : root ∈ (state.threads i).references := by
        apply List.mem_append_left
        rw [doing]
        exact List.mem_cons_self
      rcases sound.referenced i root held with ⟨_, _, _, cell, known, _⟩
      rcases @lookupStep_quiet disk name root entry cell with ⟨assigns, sleeps, idle, references⟩
      rw [doing] at run
      dsimp only at run
      rw [deref, known] at run
      cases run
      refine ⟨_, rfl, sound.goOn ?_ ?_ assigns sleeps ?_ (stageSound_of_idle idle)⟩
      · rw [doing]
        rfl
      · rw [doing]
        rfl
      · rw [doing]
        exact references
  | fileOpen file =>
      rw [doing] at run
      dsimp only at run
      by_cases present : memory.isSome = true
      · rw [if_pos present] at run
        cases run
        refine ⟨_, rfl, sound.setThread ?_ rfl ?_ ?_ trivial (sound.read i)⟩
        · rw [doing]
          rfl
        · rw [doing]
          rfl
        · apply List.Perm.of_eq
          unfold Thread.references
          rw [doing]
          rfl
      · rw [if_neg present] at run
        cases run
        refine ⟨_, rfl, sound.goOn ?_ ?_ rfl rfl ?_ trivial⟩
        · rw [doing]
          rfl
        · rw [doing]
          rfl
        · rw [doing]
          rfl

/-- A condition of the run gives every statement what it needs. -/
theorem permits_of_undisturbed {memory : Option (Nat × InodeCell)}
    (allowed : undisturbed (.running state) (i, .advance memory) = true) :
    state.Permits i (state.threads i).doing := by
  unfold undisturbed at allowed
  dsimp only at allowed
  cases doing : (state.threads i).doing with
  | opening purpose sector stage =>
      rw [doing] at allowed
      intro awake
      cases stage with
      | sleep inode => exact absurd rfl (awake inode)
      | _ =>
          have clear := of_decide_eq_true allowed
          exact clear
  | closing found stage =>
      rw [doing] at allowed
      have clear := of_decide_eq_true allowed
      exact clear
  | _ => trivial

/-- Every action of a thread that nobody disturbs keeps the invariant. -/
theorem step_leads {action : OpenAction} (sound : state.Sound disk)
    (allowed : undisturbed (.running state) (i, action) = true)
    (run : state.step disk i action = some phase) : Leads disk phase := by
  cases action with
  | advance memory =>
      exact advance_leads sound (permits_of_undisturbed allowed) run
  | filesysOpen name =>
      cases doing : (state.threads i).doing with
      | idle =>
          rw [step, doing] at run
          cases run
          refine ⟨_, rfl, sound.goOn ?_ ?_ rfl rfl ?_ trivial⟩
          · rw [doing]
            rfl
          · rw [doing]
            rfl
          · rw [doing]
            rfl
      | _ =>
          rw [step, doing] at run
          cases run
  | fileRead reference offset =>
      cases doing : (state.threads i).doing with
      | idle =>
          rw [step, doing] at run
          dsimp only at run
          by_cases held : reference ∈ (state.threads i).files
          · rw [if_pos held] at run
            have member : reference ∈ (state.threads i).references := List.mem_append_right _ held
            rcases sound.referenced i reference member with ⟨here, set, awake, cell, known, same⟩
            have data := sound.ready reference.inode here set awake cell known
            rw [same] at data
            rw [deref, known] at run
            cases run
            have sleeps : (state.threads i).doing.sleepsOn = none := by
              rw [doing]
              rfl
            refine ⟨_, rfl, sound.setThread rfl sleeps sleeps (List.Perm.refl _) (sound.stage i) ?_⟩
            intro result isResult
            cases isResult
            rw [data]
          · rw [if_neg held] at run
            cases run
      | _ =>
          rw [step, doing] at run
          cases run
  | fileClose reference =>
      cases doing : (state.threads i).doing with
      | idle =>
          rw [step, doing] at run
          dsimp only at run
          by_cases held : reference ∈ (state.threads i).files
          · rw [if_pos held] at run
            cases run
            refine ⟨_, rfl, sound.setThread ?_ rfl ?_ ?_ trivial (sound.read i)⟩
            · rw [doing]
              rfl
            · rw [doing]
              rfl
            · unfold Thread.references
              rw [doing]
              exact (List.perm_cons_erase held).symm
          · rw [if_neg held] at run
            cases run
      | _ =>
          rw [step, doing] at run
          cases run

end Advance

end OpenState

section Runs

variable {Index : Type} [Fintype Index] [DecidableEq Index] {disk : Memory}

/-- At the start one thread has the file of the free map open. -/
theorem sound_of_started {state : OpenState Index} (start : started disk state) :
    state.Sound disk := by
  rcases start with ⟨first, inode, heap, listed, threads⟩
  have idle (j : Index) : (state.threads j).doing = .idle := by
    rw [threads]
    by_cases here : j = first
    · rw [here, Function.update_self]
    · rw [Function.update_of_ne here]
  have unread (j : Index) : (state.threads j).read = none := by
    rw [threads]
    by_cases here : j = first
    · rw [here, Function.update_self]
    · rw [Function.update_of_ne here]
  have set (other : Nat) : ¬state.Assigning other := by
    intro ⟨j, assigns⟩
    rw [idle j] at assigns
    cases assigns
  have awake (other : Nat) : ¬state.Sleeping other := by
    intro ⟨j, sleeps⟩
    rw [idle j] at sleeps
    cases sleeps
  have known : state.heap inode = some ⟨freeMapSector, 1, diskInode disk freeMapSector⟩ := by
    rw [heap, Function.update_self]
  have only {other : Nat} (here : other ∈ state.openInodes) : other = inode := by
    rw [listed] at here
    exact List.mem_singleton.mp here
  have references (j : Index) {reference : Reference}
      (member : reference ∈ (state.threads j).references) :
      j = first ∧ reference = ⟨inode, freeMapSector⟩ := by
    unfold Thread.references at member
    rw [idle j, threads] at member
    by_cases here : j = first
    · rw [here, Function.update_self] at member
      exact ⟨here, List.mem_singleton.mp member⟩
    · rw [Function.update_of_ne here] at member
      cases member
  have live : state.live inode = 1 := by
    have rest : total (Thread.count inode) (fun _ : Index => ({} : Thread)) = 0 := by
      apply total_eq_zero_iff.mpr
      intro j
      rfl
    have changed := total_update (Thread.count inode) (fun _ : Index => {}) first
      ({ files := [⟨inode, freeMapSector⟩] } : Thread)
    have one : Thread.count inode
        ({ files := [⟨inode, freeMapSector⟩] } : Thread) = 1 := by
      simp [Thread.count, Thread.references, Doing.references, Doing.sleepsOn]
    have none : Thread.count inode ({} : Thread) = 0 := rfl
    unfold OpenState.live
    rw [threads]
    omega
  exact
    { nodup := by
        rw [listed]
        exact List.nodup_singleton inode
      allocated := by
        intro other here
        rw [only here]
        exact ⟨_, known⟩
      once := by
        intro other here another there _ _ _ _ _
        rw [only here, only there]
      counted := by
        intro other here _ cell isCell
        rw [only here] at isCell ⊢
        rw [known] at isCell
        cases isCell
        rw [live]
        rfl
      ready := by
        intro other here _ _ cell isCell
        rw [only here, known] at isCell
        cases isCell
        rfl
      referenced := by
        intro j reference member
        rw [(references j member).2]
        refine ⟨?_, set inode, awake inode, _, known, rfl⟩
        rw [listed]
        exact List.mem_cons_self
      asleep := by
        intro j other sleeps
        exact absurd ⟨j, sleeps⟩ (awake other)
      stage := by
        intro j
        rw [idle j]
        trivial
      read := by
        intro j result isResult
        rw [unread j] at isResult
        cases isResult }

/-- In every run in which no statement of `inode_open` or `inode_close` is executed
while another thread is in the way, files are shared correctly. -/
theorem openSystem_guarantee {phase : OpenPhase Index}
    (reachable : ((openSystem disk Index).restrict undisturbed).Reachable phase) :
    phase.Guarantee disk := by
  have leads : OpenState.Leads disk phase := by
    apply reachable.invariant (OpenState.Leads disk)
    · intro start initial
      cases start with
      | running state => exact ⟨state, rfl, sound_of_started initial⟩
      | undefined => cases initial
    · intro before label after _ sound moved
      rcases sound with ⟨state, rfl, sound⟩
      rcases TransitionSystem.restrict_step_iff.mp moved with ⟨allowed, run⟩
      exact OpenState.step_leads sound allowed run
  rcases leads with ⟨state, rfl, sound⟩
  exact sound.guarantee

end Runs

section Races

variable (disk : Memory)

/-- Two threads after the start of the kernel. -/
def twoThreads : OpenState Bool where
  heap := Function.update (fun _ => none) 7
    (some ⟨freeMapSector, 1, diskInode disk freeMapSector⟩)
  openInodes := [7]
  threads := Function.update (fun _ => {}) true { files := [⟨7, freeMapSector⟩] }

theorem started_twoThreads : started disk (twoThreads disk) := ⟨true, 7, rfl, rfl, rfl⟩

/-- A thread opens a file as far as the sleep in `block_read` for the inode of the
root directory; memory for this inode is found at an address. -/
def openingRoot (garbage : InodeCell) : List (Bool × OpenAction) :=
  [(false, .filesysOpen []), (false, .advance none), (false, .advance none),
    (false, .advance none), (false, .advance (some (8, garbage))),
    (false, .advance none), (false, .advance none)]

/-- Another thread opens a file meanwhile. -/
def secondOpening : List (Bool × OpenAction) :=
  [(true, .filesysOpen []), (true, .advance none), (true, .advance none), (true, .advance none)]

/-- One of two threads has opened the root directory, and has been alone. -/
theorem openSystem_guarantee_twoThreads :
    ∃ phase, ((openSystem zeros Bool).restrict undisturbed).run
          (.running (twoThreads zeros))
          (openingRoot ⟨5, 9, diskInode zeros 3⟩ ++ [(false, .advance none)]) =
        some phase ∧
      phase.Guarantee zeros := by
  have reached : ∃ phase, ((openSystem zeros Bool).restrict undisturbed).run
      (.running (twoThreads zeros))
      (openingRoot ⟨5, 9, diskInode zeros 3⟩ ++ [(false, .advance none)]) = some phase := ⟨_, rfl⟩
  rcases reached with ⟨phase, run⟩
  have start : ((openSystem zeros Bool).restrict undisturbed).Reachable
      (.running (twoThreads zeros)) := .initial (started_twoThreads zeros)
  exact ⟨phase, run, openSystem_guarantee (start.of_run run)⟩

/-- The other thread finds the inode in the list and has the root directory open
before it has been read. -/
theorem openSystem_races (garbage : InodeCell) :
    ∃ state, (openSystem disk Bool).Reachable (.running state) ∧
      (state.threads true).references = [⟨8, rootDirSector⟩, ⟨7, freeMapSector⟩] ∧
        state.heap 8 = some ⟨rootDirSector, 2, garbage.data⟩ := by
  have reached : ∃ state, (openSystem disk Bool).run (.running (twoThreads disk))
        (openingRoot garbage ++ secondOpening) = some (.running state) ∧
      (state.threads true).references = [⟨8, rootDirSector⟩, ⟨7, freeMapSector⟩] ∧
        state.heap 8 = some ⟨rootDirSector, 2, garbage.data⟩ :=
    ⟨_, rfl, rfl, rfl⟩
  rcases reached with ⟨state, run, held, known⟩
  have start : (openSystem disk Bool).Reachable (.running (twoThreads disk)) :=
    .initial (started_twoThreads disk)
  exact ⟨state, start.of_run run, held, known⟩

theorem longer_ne (data : InodeDisk) :
    ({ data with length := data.length + 1 } : InodeDisk) ≠ data := by
  intro same
  have lengths := congrArg InodeDisk.length same
  dsimp only at lengths
  omega

/-- An inode that has not been read yet is returned to the second thread, on every
disk. -/
theorem openSystem_halfOpened : ¬∃ disk : Memory, ∀ phase : OpenPhase Bool,
      (openSystem disk Bool).Reachable phase → phase.Guarantee disk := by
  intro claim
  rcases claim with ⟨disk, claim⟩
  rcases openSystem_races disk
      ⟨5, 9, { diskInode disk rootDirSector with
        length := (diskInode disk rootDirSector).length + 1 }⟩ with
    ⟨state, reached, held, known⟩
  have member : (⟨8, rootDirSector⟩ : Reference) ∈ (state.threads true).references := by
    rw [held]
    exact List.mem_cons_self
  rcases (claim _ reached).faithful true _ member with ⟨_, cell, isCell, _, data⟩
  rw [known] at isCell
  cases isCell
  exact longer_ne _ data

end Races

end CS162.Filesys.OpenSteps
