import CS162.Foundation.TransitionSystem
import CS162.Userprog.Pagedir

/-!
# Calls on a page directory

A session is a page directory made by `pagedir_create`, the calls that have been
made on it and their results.  The calls alone say what is mapped where; that the
two levels of tables agree with them is the invariant `DirSound`.
-/

namespace CS162.Userprog

open CS162.Foundation Machine

/-- The functions on a page directory.  What `palloc_get_page` would return to
`pagedir_set_page` is a part of the call. -/
inductive PagedirCall where
  | setPage (upage kpage : Word) (writable : Bool) (grant : Option Word)
  | getPage (uaddr : Word)
  | clearPage (upage : Word)
  | isDirty (vpage : Word)
  | setDirty (vpage : Word) (dirty : Bool)
  | isAccessed (vpage : Word)
  | setAccessed (vpage : Word) (accessed : Bool)
deriving DecidableEq

inductive PagedirReply where
  | nothing
  | flag (value : Bool)
  | address (found : Option Word)
deriving DecidableEq

/-- A call that has returned. -/
structure PagedirEvent where
  call : PagedirCall
  reply : PagedirReply
deriving DecidableEq

namespace PagedirCall

/-- The address that a call is about. -/
def address : PagedirCall → Word
  | setPage upage _ _ _ => upage
  | getPage uaddr => uaddr
  | clearPage upage => upage
  | isDirty vpage => vpage
  | setDirty vpage _ => vpage
  | isAccessed vpage => vpage
  | setAccessed vpage _ => vpage

/-- The number of the page that a call is about. -/
def page (call : PagedirCall) : Nat := pgNo call.address

def perform (boot : Boot) (pd : Word) (m : Machine) : PagedirCall → Option (PagedirReply × Machine)
  | setPage upage kpage writable grant =>
      (m.pagedirSetPage boot pd upage kpage writable grant).map fun done =>
        (.flag done.1, done.2)
  | getPage uaddr =>
      (m.pagedirGetPage pd uaddr).map fun found => (.address found, m)
  | clearPage upage =>
      (m.pagedirClearPage boot pd upage).map fun after => (.nothing, after)
  | isDirty vpage =>
      (m.pagedirIsDirty pd vpage).map fun value => (.flag value, m)
  | setDirty vpage dirty =>
      (m.pagedirSetDirty boot pd vpage dirty).map fun after => (.nothing, after)
  | isAccessed vpage =>
      (m.pagedirIsAccessed pd vpage).map fun value => (.flag value, m)
  | setAccessed vpage accessed =>
      (m.pagedirSetAccessed boot pd vpage accessed).map fun after =>
        (.nothing, after)

end PagedirCall

/-! ## What the calls say -/

/-- What is known of a page after one more call on it. -/
def PageEntry.after (entry : Option PageEntry) (event : PagedirEvent) : Option PageEntry :=
  match event.call, event.reply with
  | .setPage _ kpage writable _, .flag true =>
      some { frame := kpage
             writable := writable
             dirty := false
             accessed := false
             present := true }
  | .clearPage _, _ => entry.map fun entry => { entry with present := false }
  | .setDirty _ dirty, _ => entry.map fun entry => { entry with dirty := dirty }
  | .setAccessed _ accessed, _ =>
      entry.map fun entry => { entry with accessed := accessed }
  | _, _ => entry

/-- What the calls on one page say of it: nothing until `pagedir_set_page` has
succeeded there. -/
def entryOf (events : List PagedirEvent) (number : Nat) : Option PageEntry :=
  (events.filter fun event => event.call.page = number).foldl PageEntry.after none

/-- The frame of a page of which this is known. -/
def frameOf (entry : Option PageEntry) : Option Word :=
  entry.bind fun entry => if entry.present then some entry.frame else none

/-- The frame that a page is mapped to. -/
def mappedFrame (events : List PagedirEvent) (number : Nat) : Option Word :=
  frameOf (entryOf events number)

/-- The frames of all pages that are mapped. -/
def mappedFrames (events : List PagedirEvent) : List Word :=
  (List.range (768 * 1024)).filterMap (mappedFrame events)

theorem entryOf_append (events : List PagedirEvent) (event : PagedirEvent) (number : Nat) :
    entryOf (events ++ [event]) number =
      if event.call.page = number then
        PageEntry.after (entryOf events number) event
      else entryOf events number := by
  rw [entryOf, List.filter_append, List.foldl_append]
  by_cases own : event.call.page = number
  · rw [if_pos own, List.filter_singleton, decide_eq_true own]
    rfl
  · rw [if_neg own, List.filter_singleton, decide_eq_false own]
    rfl

/-! ## Sessions -/

/-- A page directory with the calls that have been made on it. -/
structure PagedirSession where
  pd : Word
  machine : Machine
  events : List PagedirEvent

/-- A page that is not in use. -/
def Granted (m : Machine) (page : Word) : Prop := IsPage page ∧ page ∉ m.used

instance (m : Machine) (page : Word) : Decidable (Granted m page) :=
  inferInstanceAs (Decidable (_ ∧ _))

/-- What `palloc_get_page` may return. -/
def MayReturn (m : Machine) : Option Word → Prop
  | none => True
  | some page => Granted m page

instance (m : Machine) (grant : Option Word) : Decidable (MayReturn m grant) :=
  match grant with
  | none => .isTrue trivial
  | some page => inferInstanceAs (Decidable (Granted m page))

/-- A call that the functions allow: on a user address, at the start of a page
where a page is meant, and `pagedir_set_page` only where no page is mapped and
with a page of memory. -/
def Allowed (boot : Boot) (s : PagedirSession) : PagedirCall → Prop
  | .setPage upage kpage _ grant =>
      pgOfs upage = 0#32 ∧ isUserVaddr upage = true ∧
        mappedFrame s.events (pgNo upage) = none ∧
        IsPage kpage ∧
        (vtop kpage).any (fun paddr => pgNo paddr < boot.initRamPages) = true ∧
        MayReturn s.machine grant
  | .clearPage upage => pgOfs upage = 0#32 ∧ isUserVaddr upage = true
  | call => isUserVaddr call.address = true

instance (boot : Boot) (s : PagedirSession) (call : PagedirCall) :
    Decidable (Allowed boot s call) :=
  match call with
  | .setPage _ _ _ _ => inferInstanceAs (Decidable (_ ∧ _ ∧ _ ∧ _ ∧ _ ∧ _))
  | .clearPage _ => inferInstanceAs (Decidable (_ ∧ _))
  | .getPage _ => inferInstanceAs (Decidable (_ = _))
  | .isDirty _ => inferInstanceAs (Decidable (_ = _))
  | .setDirty _ _ => inferInstanceAs (Decidable (_ = _))
  | .isAccessed _ => inferInstanceAs (Decidable (_ = _))
  | .setAccessed _ _ => inferInstanceAs (Decidable (_ = _))

/-- A call is made. -/
def PagedirSession.step (boot : Boot) (s : PagedirSession) (call : PagedirCall) :
    Option PagedirSession :=
  if Allowed boot s call then
    (call.perform boot s.pd s.machine).map fun done =>
      { s with
        machine := done.2
        events := s.events ++ [⟨call, done.1⟩] }
  else none

/-- The kernel after `paging_init`: its directory and its page tables are in use,
no user address is mapped, and the processor uses a directory of the kernel. -/
structure Booted (boot : Boot) (m : Machine) : Prop where
  valid : IsPage boot.initPageDir
  directory : boot.initPageDir ∈ m.used
  tables : ∀ index pt, 768 ≤ index →
    pdeGetPt (m.word boot.initPageDir index) = some pt → pt ∈ m.used
  user : ∀ index, index < 768 → m.word boot.initPageDir index = 0#32
  active : m.cr3 < physBase
  usedOnce : m.used.Nodup

/-- A session starts when `pagedir_create` has returned a page. -/
def PagedirStart (boot : Boot) (before : Machine) (s : PagedirSession) : Prop :=
  Granted before s.pd ∧
    before.pagedirCreate boot (some s.pd) = (some s.pd, s.machine) ∧
    s.events = []

def pagedirSystem (boot : Boot) (before : Machine) :
    TransitionSystem PagedirSession PagedirCall where
  initial := PagedirStart boot before
  step := PagedirSession.step boot

end CS162.Userprog
