import Mathlib.Data.List.Perm.Basic
import Mathlib.Logic.Function.Basic
import CS162.Userprog.PagedirCalls

/-!
# The tables of a page directory

The directory has an entry for each page table that was made for it and no other
below `PHYS_BASE`, and the entry of a page says what the calls on that page say.
The tables and the directory are pages of their own, so a write to one of them
leaves everything else alone.
-/

namespace CS162.Userprog

open CS162.Foundation Machine

/-- An entry of a page table says what is known of its page. -/
def Shows (pte : Word) : Option PageEntry → Prop
  | none => hasFlag pte pteP = false
  | some entry => PageEntry.ofPte pte = entry

/-- The entry of the directory for a page table. -/
def tableEntry (pt : Word) : Word := (pt - physBase) ||| pteU ||| pteP ||| pteW

/-- The page directory and its page tables agree with what is known of the pages;
`before` is the memory in which the directory was made. -/
structure DirSound (boot : Boot) (before : Machine) (pd : Word)
    (tables : Nat → Option Word) (m : Machine) (known : Nat → Option PageEntry) : Prop where
  valid : IsPage pd
  notInit : pd ≠ boot.initPageDir
  active : m.cr3 < physBase
  kernel : ∀ index, 768 ≤ index → m.word pd index = before.word boot.initPageDir index
  missing : ∀ {index}, index < 768 → tables index = none → m.word pd index = 0#32
  table : ∀ {index pt}, tables index = some pt →
    index < 768 ∧ IsPage pt ∧ pt ≠ pd ∧ m.word pd index = tableEntry pt
  apart : ∀ {index other pt}, tables index = some pt → tables other = some pt → index = other
  entries : ∀ {index pt place}, tables index = some pt → place < 1024 →
    Shows (m.word pt place) (known (index * 1024 + place))
  unknown : ∀ {index place}, index < 768 → tables index = none → place < 1024 →
    known (index * 1024 + place) = none
  frames : ∀ {number entry}, known number = some entry → IsPage entry.frame
  outside : ∀ {page}, page ≠ pd → (∀ index, tables index ≠ some page) →
    m.word page = before.word page
  used : m.used.Perm ((List.range 768).filterMap tables ++ pd :: before.used)
  usedOnce : m.used.Nodup

section Writes

variable {m : Machine} {page : Word} {place : Nat} {value : Word}

theorem store_word_same : (m.store page place value).word page place = value := if_pos ⟨rfl, rfl⟩

theorem store_word_other {other : Word} {index : Nat} (different : other = page → index ≠ place) :
    (m.store page place value).word other index = m.word other index :=
  if_neg fun same => different same.1 same.2

theorem fillPage_word_same (contents : Nat → Word) (index : Nat) :
    (m.fillPage page contents).word page index = contents index :=
  if_pos rfl

theorem fillPage_word_other (contents : Nat → Word) {other : Word} (different : other ≠ page) :
    (m.fillPage page contents).word other = m.word other := by
  funext index
  exact if_neg different

end Writes

theorem tableEntry_ne_zero (pt : Word) : tableEntry pt ≠ 0#32 :=
  ne_zero_of_hasFlag (created_present pt)

/-- The list of the tables when one has been added. -/
theorem filterMap_update {tables : Nat → Option Word} {index : Nat} (pt : Word)
    {count : Nat} (inDirectory : index < count) (new : tables index = none) :
    ((List.range count).filterMap (Function.update tables index (some pt))).Perm
      (pt :: (List.range count).filterMap tables) := by
  induction count with
  | zero => exact absurd inDirectory (Nat.not_lt_zero index)
  | succ count inductionHypothesis =>
      rw [List.range_succ, List.filterMap_append, List.filterMap_append]
      by_cases last : index = count
      · subst last
        have same : (List.range index).filterMap
            (Function.update tables index (some pt)) = (List.range index).filterMap tables := by
          apply List.filterMap_congr
          intro other member
          exact Function.update_of_ne (Nat.ne_of_lt (List.mem_range.mp member)) _ _
        have added : [index].filterMap (Function.update tables index (some pt)) = [pt] := by
          rw [List.filterMap_cons, Function.update_self]
          rfl
        have none : [index].filterMap tables = [] := by
          rw [List.filterMap_cons, new]
          rfl
        rw [same, added, none, List.append_nil]
        exact List.perm_append_singleton pt _
      · have smaller : index < count := by omega
        have kept : [count].filterMap (Function.update tables index (some pt)) =
            [count].filterMap tables := by
          apply List.filterMap_congr
          intro other member
          rw [List.mem_singleton] at member
          subst member
          exact Function.update_of_ne (Ne.symm last) _ _
        rw [kept]
        exact (inductionHypothesis smaller).append_right _

/-! ## A new directory -/

theorem start_sound {boot : Boot} {before : Machine} {s : PagedirSession}
    (booted : Booted boot before) (start : PagedirStart boot before s) :
    DirSound boot before s.pd (fun _ => none) s.machine (entryOf s.events) := by
  rcases start with ⟨⟨valid, fresh⟩, made, events⟩
  have machine : s.machine = (before.obtain s.pd).fillPage s.pd (before.word boot.initPageDir) :=
    (congrArg Prod.snd made).symm
  have contents : ∀ index, s.machine.word s.pd index = before.word boot.initPageDir index := by
    intro index
    rw [machine]
    exact fillPage_word_same _ index
  have none : ∀ number, entryOf s.events number = none := by
    intro number
    rw [events]
    rfl
  have used : s.machine.used = s.pd :: before.used := by
    rw [machine]
    rfl
  exact
    { valid := valid
      notInit := fun same => fresh (same ▸ booted.directory)
      active := by
        rw [machine]
        exact booted.active
      kernel := fun index _ => contents index
      missing := fun small _ => (contents _).trans (booted.user _ small)
      table := fun impossible => by cases impossible
      apart := fun impossible => by cases impossible
      entries := fun impossible => by cases impossible
      unknown := fun _ _ _ => none _
      frames := fun known => by
        rw [none] at known
        cases known
      outside := fun other _ => by
        rw [machine]
        exact fillPage_word_other _ other
      used := by
        have empty : (List.range 768).filterMap (fun _ => (Option.none : Option Word)) = [] :=
          List.filterMap_eq_nil_iff.mpr fun _ _ => rfl
        rw [used, empty]
        exact List.Perm.refl _
      usedOnce := by
        rw [used]
        exact List.nodup_cons.mpr ⟨fresh, booted.usedOnce⟩ }

namespace DirSound

variable {boot : Boot} {before : Machine} {pd : Word}
variable {tables : Nat → Option Word} {m : Machine}
variable {known : Nat → Option PageEntry}

/-! ## The entry of an address -/

theorem entryAt_eq (sound : DirSound boot before pd tables m known) {va pt : Word}
    (table : tables (pdNo va) = some pt) :
    m.entryAt pd va = some (some (pt, ptNo va), m) := by
  rcases sound.table table with ⟨_, valid, _, entry⟩
  rw [Machine.entryAt, entry, tableEntry, pdeGetPt_created valid]
  rfl

theorem lookup_found (sound : DirSound boot before pd tables m known)
    {va pt : Word} (user : isUserVaddr va = true) (create : Bool)
    (grant : Option Word) (table : tables (pdNo va) = some pt) :
    m.lookupPage pd va create grant = some (some (pt, ptNo va), m) := by
  have some : m.word pd (pdNo va) ≠ 0#32 := by
    rw [(sound.table table).2.2.2]
    exact tableEntry_ne_zero pt
  rw [Machine.lookupPage.eq_def, if_neg sound.valid.ne_zero, user, Bool.not_true,
    Bool.and_false, if_neg Bool.false_ne_true, if_neg some, sound.entryAt_eq table]

theorem lookup_missing (sound : DirSound boot before pd tables m known)
    {va : Word} (user : isUserVaddr va = true) (grant : Option Word)
    (table : tables (pdNo va) = none) :
    m.lookupPage pd va false grant = some (none, m) := by
  have zero := sound.missing ((isUserVaddr_iff va).mp user) table
  rw [Machine.lookupPage.eq_def, if_neg sound.valid.ne_zero, Bool.false_and,
    if_neg Bool.false_ne_true, if_pos zero, if_neg Bool.false_ne_true]

theorem lookup_refused (sound : DirSound boot before pd tables m known)
    {va : Word} (user : isUserVaddr va = true) (table : tables (pdNo va) = none) :
    m.lookupPage pd va true none = some (none, m) := by
  have zero := sound.missing ((isUserVaddr_iff va).mp user) table
  rw [Machine.lookupPage.eq_def, if_neg sound.valid.ne_zero, user, Bool.not_true,
    Bool.and_false, if_neg Bool.false_ne_true, if_pos zero, if_pos rfl]

/-! ## A page table is added -/

/-- The memory when `lookup_page` has made a page table. -/
def withTable (m : Machine) (pd va pt : Word) : Machine :=
  ((m.obtain pt).fillPage pt fun _ => 0#32).store pd (pdNo va) (tableEntry pt)

theorem not_owned (sound : DirSound boot before pd tables m known) {page : Word}
    (fresh : page ∉ m.used) : page ≠ pd ∧ ∀ index, tables index ≠ some page := by
  constructor
  · intro same
    subst same
    apply fresh
    apply sound.used.mem_iff.mpr
    exact List.mem_append_right _ List.mem_cons_self
  · intro index table
    apply fresh
    apply sound.used.mem_iff.mpr
    apply List.mem_append_left
    exact List.mem_filterMap.mpr ⟨index, List.mem_range.mpr (sound.table table).1, table⟩

theorem add_table (sound : DirSound boot before pd tables m known)
    {va pt : Word} (user : isUserVaddr va = true)
    (new : tables (pdNo va) = none) (granted : Granted m pt) :
    DirSound boot before pd (Function.update tables (pdNo va) (some pt))
      (withTable m pd va pt) known := by
  rcases granted with ⟨valid, fresh⟩
  rcases sound.not_owned fresh with ⟨notDirectory, notTable⟩
  have small := (isUserVaddr_iff va).mp user
  have directory : ∀ index, index ≠ pdNo va →
      (withTable m pd va pt).word pd index = m.word pd index := by
    intro index other
    rw [withTable, store_word_other fun _ => other, fillPage_word_other _ (Ne.symm notDirectory)]
    rfl
  have own : (withTable m pd va pt).word pd (pdNo va) = tableEntry pt := store_word_same
  have cleared : ∀ place, (withTable m pd va pt).word pt place = 0#32 := by
    intro place
    rw [withTable, store_word_other fun same => absurd same notDirectory]
    exact fillPage_word_same _ place
  have kept : ∀ page, page ≠ pd → page ≠ pt →
      (withTable m pd va pt).word page = m.word page := by
    intro page first second
    funext place
    rw [withTable, store_word_other fun same => absurd same first, fillPage_word_other _ second]
    rfl
  have cases_table : ∀ {index page},
      Function.update tables (pdNo va) (some pt) index = some page →
        (index = pdNo va ∧ page = pt) ∨
          (index ≠ pdNo va ∧ tables index = some page) := by
    intro index page table
    by_cases same : index = pdNo va
    · subst same
      rw [Function.update_self] at table
      exact Or.inl ⟨rfl, (Option.some.inj table).symm⟩
    · rw [Function.update_of_ne same] at table
      exact Or.inr ⟨same, table⟩
  have used : (withTable m pd va pt).used = pt :: m.used := rfl
  exact
    { valid := sound.valid
      notInit := sound.notInit
      active := sound.active
      kernel := fun index large => by
        rw [directory index (by omega)]
        exact sound.kernel index large
      missing := fun {index} inDirectory table => by
        by_cases same : index = pdNo va
        · subst same
          rw [Function.update_self] at table
          cases table
        · rw [Function.update_of_ne same] at table
          rw [directory index same]
          exact sound.missing inDirectory table
      table := fun {index page} table => by
        rcases cases_table table with ⟨rfl, rfl⟩ | ⟨other, old⟩
        · exact ⟨small, valid, notDirectory, own⟩
        · rcases sound.table old with ⟨inDirectory, oldValid, oldOther, entry⟩
          exact ⟨inDirectory, oldValid, oldOther, (directory index other).trans entry⟩
      apart := fun {index other page} first second => by
        rcases cases_table first with ⟨rfl, rfl⟩ | ⟨_, oldFirst⟩
        · rcases cases_table second with ⟨rfl, _⟩ | ⟨_, oldSecond⟩
          · rfl
          · exact absurd oldSecond (notTable other)
        · rcases cases_table second with ⟨rfl, rfl⟩ | ⟨_, oldSecond⟩
          · exact absurd oldFirst (notTable index)
          · exact sound.apart oldFirst oldSecond
      entries := fun {index page place} table inTable => by
        rcases cases_table table with ⟨rfl, rfl⟩ | ⟨_, old⟩
        · rw [sound.unknown small new inTable, cleared]
          rfl
        · have different : page ≠ pt := fun same => notTable index (same ▸ old)
          rw [kept page (sound.table old).2.2.1 different]
          exact sound.entries old inTable
      unknown := fun {index place} inDirectory table inTable => by
        by_cases same : index = pdNo va
        · subst same
          rw [Function.update_self] at table
          cases table
        · rw [Function.update_of_ne same] at table
          exact sound.unknown inDirectory table inTable
      frames := sound.frames
      outside := fun {page} other tablesOther => by
        have different : page ≠ pt := by
          intro same
          apply tablesOther (pdNo va)
          rw [Function.update_self, same]
        rw [kept page other different]
        apply sound.outside other
        intro index table
        apply tablesOther index
        have distinct : index ≠ pdNo va := by
          intro same
          rw [same, new] at table
          cases table
        rw [Function.update_of_ne distinct]
        exact table
      used := by
        rw [used]
        have added := filterMap_update pt small new
        exact (sound.used.cons pt).trans (added.symm.append_right _)
      usedOnce := by
        rw [used]
        exact List.nodup_cons.mpr ⟨fresh, sound.usedOnce⟩ }

theorem lookup_granted (sound : DirSound boot before pd tables m known)
    {va pt : Word} (user : isUserVaddr va = true)
    (new : tables (pdNo va) = none) (granted : Granted m pt) :
    m.lookupPage pd va true (some pt) = some (some (pt, ptNo va), withTable m pd va pt) := by
  have zero := sound.missing ((isUserVaddr_iff va).mp user) new
  have created : pdeCreate pt = some (tableEntry pt) := pdeCreate_eq granted.1
  have added := (sound.add_table user new granted).entryAt_eq
    (Function.update_self (pdNo va) (some pt) tables)
  rw [Machine.lookupPage.eq_def, if_neg sound.valid.ne_zero, user, Bool.not_true,
    Bool.and_false, if_neg Bool.false_ne_true, if_pos zero, if_pos rfl]
  dsimp only
  rw [created, Option.bind_some]
  exact added

/-! ## An entry is written -/

theorem write (sound : DirSound boot before pd tables m known)
    {index place : Nat} {pt value : Word} {entry : Option PageEntry}
    (table : tables index = some pt) (inTable : place < 1024) (shows : Shows value entry)
    (frame : ∀ known, entry = some known → IsPage known.frame) :
    DirSound boot before pd tables (m.store pt place value)
      (Function.update known (index * 1024 + place) entry) := by
  rcases sound.table table with ⟨small, _, notDirectory, _⟩
  have directory : ∀ other, (m.store pt place value).word pd other = m.word pd other := by
    intro other
    exact store_word_other fun same => absurd same.symm notDirectory
  exact
    { valid := sound.valid
      notInit := sound.notInit
      active := sound.active
      kernel := fun other large => (directory other).trans (sound.kernel other large)
      missing := fun inDirectory none =>
        (directory _).trans (sound.missing inDirectory none)
      table := fun old => by
        rcases sound.table old with ⟨inDirectory, valid, other, written⟩
        exact ⟨inDirectory, valid, other, (directory _).trans written⟩
      apart := sound.apart
      entries := fun {otherIndex page otherPlace} old inside => by
        by_cases same : otherIndex = index ∧ otherPlace = place
        · rcases same with ⟨rfl, rfl⟩
          rw [table] at old
          cases old
          rw [store_word_same, Function.update_self]
          exact shows
        · have number : otherIndex * 1024 + otherPlace ≠ index * 1024 + place := by
            omega
          have kept : page = pt → otherPlace ≠ place := by
            intro samePage samePlace
            subst samePage
            exact same ⟨sound.apart old table, samePlace⟩
          rw [store_word_other kept, Function.update_of_ne number]
          exact sound.entries old inside
      unknown := fun {otherIndex otherPlace} inDirectory none inside => by
        have different : otherIndex ≠ index := by
          intro same
          rw [same, table] at none
          cases none
        have number : otherIndex * 1024 + otherPlace ≠ index * 1024 + place := by
          omega
        rw [Function.update_of_ne number]
        exact sound.unknown inDirectory none inside
      frames := fun {number found} isKnown => by
        by_cases same : number = index * 1024 + place
        · subst same
          rw [Function.update_self] at isKnown
          exact frame found isKnown
        · rw [Function.update_of_ne same] at isKnown
          exact sound.frames isKnown
      outside := fun {page} other tablesOther => by
        have different : page ≠ pt := fun same => tablesOther index (same ▸ table)
        funext otherPlace
        rw [store_word_other fun same => absurd same different]
        exact congrFun (sound.outside other tablesOther) otherPlace
      used := sound.used
      usedOnce := sound.usedOnce }

/-- Flushing the translations of the processor changes nothing in memory. -/
theorem invalidate (sound : DirSound boot before pd tables m known) :
    m.invalidatePagedir boot pd = some m := by
  rw [Machine.invalidatePagedir, ptov, if_pos sound.active, Option.bind_some]
  by_cases same : m.cr3 + physBase = pd
  · have address : pd - physBase = m.cr3 := by
      rw [← same, BitVec.add_sub_cancel]
    rw [if_pos same, Machine.pagedirActivate, if_neg sound.valid.ne_zero,
      vtop_eq sound.valid.2, address]
    rfl
  · exact if_neg same

/-! ## What the functions answer -/

theorem pteGetPage_eq (sound : DirSound boot before pd tables m known)
    {number : Nat} {pte : Word} {entry : PageEntry}
    (isKnown : known number = some entry) (shows : PageEntry.ofPte pte = entry) :
    pteGetPage pte = some entry.frame := by
  have valid := sound.frames isKnown
  have frame : (PageEntry.ofPte pte).frame = entry.frame := congrArg PageEntry.frame shows
  have physical : pte &&& pteAddr = entry.frame - physBase := by
    rw [← frame, PageEntry.ofPte_frame, BitVec.add_sub_cancel]
  rw [pteGetPage, physical, ptov_physical valid.2]

theorem getPage (sound : DirSound boot before pd tables m known) {uaddr : Word}
    (user : isUserVaddr uaddr = true) :
    m.pagedirGetPage pd uaddr =
      some ((frameOf (known (pgNo uaddr))).map fun page => page + pgOfs uaddr) := by
  rw [Machine.pagedirGetPage, user, Bool.not_true, if_neg Bool.false_ne_true, pgNo_indices]
  cases table : tables (pdNo uaddr) with
  | none =>
      rw [sound.lookup_missing user none table,
        sound.unknown ((isUserVaddr_iff uaddr).mp user) table (ptNo_lt uaddr)]
      rfl
  | some pt =>
      have shows := sound.entries table (ptNo_lt uaddr)
      rw [sound.lookup_found user false none table]
      change (if hasFlag (m.word pt (ptNo uaddr)) pteP then
        (pteGetPage (m.word pt (ptNo uaddr))).map
          fun page => some (page + pgOfs uaddr) else some none) = _
      cases isKnown : known (pdNo uaddr * 1024 + ptNo uaddr) with
      | none =>
          rw [isKnown] at shows
          rw [if_neg (by rw [shows]; exact Bool.false_ne_true)]
          rfl
      | some entry =>
          rw [isKnown] at shows
          have present : hasFlag (m.word pt (ptNo uaddr)) pteP = entry.present :=
            congrArg PageEntry.present shows
          rw [present, sound.pteGetPage_eq isKnown shows]
          cases set : entry.present with
          | true => simp [frameOf, set]
          | false => simp [frameOf, set]

/-- A flag of a page of which something is known. -/
theorem isFlag (sound : DirSound boot before pd tables m known) {vpage : Word}
    (user : isUserVaddr vpage = true) (flag : Word) :
    ∃ value, m.isFlag flag pd vpage = some value ∧
      ∀ entry, known (pgNo vpage) = some entry →
        ∃ pt, tables (pdNo vpage) = some pt ∧
          PageEntry.ofPte (m.word pt (ptNo vpage)) = entry ∧
            value = hasFlag (m.word pt (ptNo vpage)) flag := by
  cases table : tables (pdNo vpage) with
  | none =>
      refine ⟨false, ?_, ?_⟩
      · rw [Machine.isFlag, sound.lookup_missing user none table]
        rfl
      · intro entry isKnown
        rw [pgNo_indices, sound.unknown ((isUserVaddr_iff vpage).mp user) table
          (ptNo_lt vpage)] at isKnown
        cases isKnown
  | some pt =>
      refine ⟨hasFlag (m.word pt (ptNo vpage)) flag, ?_, ?_⟩
      · rw [Machine.isFlag, sound.lookup_found user false none table]
        rfl
      · intro entry isKnown
        have shows := sound.entries table (ptNo_lt vpage)
        rw [← pgNo_indices, isKnown] at shows
        exact ⟨pt, rfl, shows, rfl⟩

end DirSound

end CS162.Userprog
