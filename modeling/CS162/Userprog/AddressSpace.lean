import CS162.Filesys.InodeIo
import CS162.Foundation.Pack
import CS162.Userprog.Exception
import CS162.Userprog.ProcessSafety
import CS162.Userprog.Segments

/-!
# The pages that a process is given

A space says for each page of the user what it should contain.  The page directory
of a process that is being loaded maps the pages of a space and no others.
-/

namespace CS162.Userprog

open CS162.Foundation CS162.Filesys Machine
open CS162.Devices (blockSectorSize)

/-- The contents of a page and whether the user may write to it. -/
structure UserPage where
  bytes : Memory
  writable : Bool

/-- The pages of the user by their numbers. -/
abbrev Space := Nat → Option UserPage

/-- The entry of a page is there exactly if the page is, and its frame contains
what the page should. -/
def PageShown (m : Machine) (page : Option UserPage) (entry : Option PageEntry) :
    Prop :=
  match page with
  | none => entry = none
  | some page =>
      ∃ shown, entry = some shown ∧ shown.present = true ∧
        shown.writable = page.writable ∧
          Memory.AgreeOn (LoadState.pageBytes m shown.frame) page.bytes 0 pgSize

/-- The numbers of the pages of the user. -/
def userPages : Nat := 768 * 1024

/-- The directory maps the pages of a space. -/
def Maps (boot : Boot) (base : Machine) (pd : Word) (pending : List Word)
    (space : Space) (m : Machine) : Prop :=
  ∃ before tables known, Loads boot base pd pending before tables known m ∧
    ∀ number, number < userPages → PageShown before (space number) (known number)

section Pages

variable {boot : Boot} {base before m other : Machine} {pd page upage : Word}
variable {pending : List Word} {tables : Nat → Option Word}
variable {known : Nat → Option PageEntry} {space : Space}

/-- Only the frame matters. -/
theorem PageShown.congr {wanted : Option UserPage} {entry : Option PageEntry}
    (shown : PageShown m wanted entry)
    (same : ∀ frame, frameOf entry = some frame →
      other.word frame = m.word frame) : PageShown other wanted entry := by
  cases wanted with
  | none => exact shown
  | some wanted =>
      rcases shown with ⟨found, known, present, writable, bytes⟩
      refine ⟨found, known, present, writable, ?_⟩
      have frame : other.word found.frame = m.word found.frame := by
        apply same
        rw [known, frameOf, Option.bind_some, if_pos present]
      intro place lower upper
      rw [← bytes place lower upper]
      simp only [LoadState.pageBytes, frame]

theorem mem_framesOf_number {number : Nat} {frame : Word}
    (user : number < userPages) (mapped : frameOf (known number) = some frame) :
    frame ∈ framesOf known :=
  List.mem_filterMap.mpr ⟨number, List.mem_range.mpr user, mapped⟩

/-- The frames of the pages are beside the directory, and are not pending. -/
theorem Loads.frame_beside
    (loads : Loads boot base pd pending before tables known m) {frame : Word}
    (member : frame ∈ framesOf known) :
    frame ∈ before.used ∧ frame ∉ pending := by
  constructor
  · apply loads.used.mem_iff.mpr
    exact List.mem_append_right _ (List.mem_append_left _ member)
  · intro here
    have apart := (List.nodup_append.mp loads.once).2.2
    exact apart frame here frame (List.mem_append_left _ member) rfl

/-- What is beside the directory is as it was without the directory. -/
theorem Loads.word_beside
    (loads : Loads boot base pd pending before tables known m) {frame : Word}
    (used : frame ∈ before.used) : m.word frame = before.word frame := by
  rcases loads.sound.not_own used with ⟨notDirectory, notTable⟩
  exact loads.sound.outside notDirectory notTable

namespace Maps

theorem obtain_page (maps : Maps boot base pd pending space m) (fresh : page ∉ m.used) :
    Maps boot base pd (page :: pending) space (m.obtain page) := by
  rcases maps with ⟨before, tables, known, loads, shown⟩
  refine ⟨before.obtain page, tables, known, loads.obtain_page fresh, ?_⟩
  intro number user
  exact (shown number user).congr fun _ _ => rfl

theorem fill_page (maps : Maps boot base pd (page :: pending) space m) (contents : Nat → Word) :
    Maps boot base pd (page :: pending) space (m.fillPage page contents) := by
  rcases maps with ⟨before, tables, known, loads, shown⟩
  refine ⟨_, tables, known, loads.fill_page contents, ?_⟩
  intro number user
  apply (shown number user).congr
  intro frame mapped
  have beside := loads.frame_beside (mem_framesOf_number user mapped)
  apply fillPage_word_other
  intro same
  rw [same] at beside
  exact beside.2 List.mem_cons_self

/-- A page that `pagedir_get_page` does not find is not in the space. -/
theorem absent (maps : Maps boot base pd pending space m) (user : isUserVaddr upage = true)
    (looked : m.pagedirGetPage pd upage = some none) :
    space (pgNo upage) = none := by
  rcases maps with ⟨before, tables, known, loads, shown⟩
  rw [loads.sound.getPage user, Option.some.injEq, Option.map_eq_none_iff]
    at looked
  have here := shown (pgNo upage) (pgNo_lt_of_user user)
  cases wanted : space (pgNo upage) with
  | none => rfl
  | some page =>
      rw [wanted] at here
      rcases here with ⟨entry, isKnown, present, -, -⟩
      rw [isKnown, frameOf, Option.bind_some, if_pos present] at looked
      cases looked

/-- The pending page is installed. -/
theorem set_page (maps : Maps boot base pd [page] space m) {writable : Bool}
    {grant : Option Word} {after : Machine} (valid : IsPage page)
    (user : isUserVaddr upage = true) (looked : m.pagedirGetPage pd upage = some none)
    (granted : MayReturn m grant)
    (set : m.pagedirSetPage boot pd upage page writable grant = some (true, after)) :
    Maps boot base pd []
      (Function.update space (pgNo upage)
        (some ⟨LoadState.pageBytes m page, writable⟩)) after := by
  rcases maps with ⟨before, tables, known, loads, shown⟩
  have unmapped : frameOf (known (pgNo upage)) = none := by
    rw [loads.sound.getPage user, Option.some.injEq, Option.map_eq_none_iff]
      at looked
    exact looked
  rcases loads.set_page_known unmapped valid granted set with ⟨refused, -⟩ | ⟨-, tables, installed⟩
  · cases refused
  · have beside : page ∈ before.used := by
      apply loads.used.mem_iff.mpr
      exact List.mem_append_left _ (List.mem_singleton_self page)
    refine ⟨before, tables, _, installed, ?_⟩
    intro number inRange
    by_cases same : number = pgNo upage
    · subst same
      rw [Function.update_self, Function.update_self]
      refine ⟨_, rfl, rfl, rfl, ?_⟩
      intro place _ _
      simp only [LoadState.pageBytes, loads.word_beside beside]
    · rw [Function.update_of_ne same, Function.update_of_ne same]
      exact shown number inRange

/-- Only the bytes of the page matter. -/
theorem update_bytes {number : Nat} {bytes wanted : Memory} {writable : Bool}
    (maps : Maps boot base pd pending (Function.update space number (some ⟨bytes, writable⟩)) m)
    (agree : bytes.AgreeOn wanted 0 pgSize) :
    Maps boot base pd pending
      (Function.update space number (some ⟨wanted, writable⟩)) m := by
  rcases maps with ⟨before, tables, known, loads, shown⟩
  refine ⟨before, tables, known, loads, ?_⟩
  intro other user
  have here := shown other user
  by_cases same : other = number
  · subst same
    rw [Function.update_self] at here ⊢
    rcases here with ⟨entry, isKnown, present, write, same⟩
    exact ⟨entry, isKnown, present, write, same.trans agree⟩
  · rw [Function.update_of_ne same] at here ⊢
    exact here

end Maps

end Pages

/-! ## The file -/

/-- An open file with its contents. -/
def FileHolds (fs : Fs) (inode : Nat) (contents : Memory) (length : Nat) : Prop :=
  ∃ found, fs.findInode inode = some found ∧ found.data.Within fs.deviceSize ∧
    found.data.length = length ∧ contents = fs.disk.drop (found.data.start * blockSectorSize)

section Files

variable {env : ExecEnv} {st after : LoadState} {file later : File}
variable {contents buffer result : Memory} {length size : Nat}

/-- A read that is not short. -/
theorem FileHolds.read (holds : FileHolds st.fs file.inode contents length)
    (read : st.fileRead env file buffer size = some (result, size, later, after)) :
    result = buffer.splice 0 size (contents.drop file.pos) ∧
      (size = 0 ∨ file.pos + size ≤ length) ∧
        later = { file with pos := file.pos + size } ∧
          after = { st with calls := st.calls + 1 } := by
  rcases holds with ⟨found, here, within, whole, bytes⟩
  rw [LoadState.fileRead, Fs.inodeReadAt_moved here within, Option.map_some,
    Option.some.injEq, Prod.mk.injEq, Prod.mk.injEq, Prod.mk.injEq] at read
  rcases read with ⟨value, count, moved, next⟩
  dsimp only at value count moved
  have bound := @Fs.movedCount_le found.data (env.bounce st.calls) size file.pos
  rw [count] at value moved bound
  refine ⟨?_, ?_, moved.symm, next.symm⟩
  · have shifted :
        (contents.drop file.pos) =
          st.fs.disk.drop (found.data.start * blockSectorSize + file.pos) := by
      rw [bytes]
      funext place
      rw [Memory.drop, Memory.drop, Memory.drop, Nat.add_assoc]
    rw [← value, shifted]
  · rw [Fs.moveCount, whole] at bound
    omega

/-- The length fits the type of offsets. -/
theorem FileHolds.small {fs : Fs} {inode : Nat}
    (holds : FileHolds fs inode contents length) : length < 2147483648 := by
  rcases holds with ⟨found, -, within, whole, -⟩
  have onDevice := within.onDevice
  have addressable := within.addressable
  have bound := le_divRoundUp_mul found.data.length.toNat (show 0 < blockSectorSize by decide)
  rw [whole, Int.toNat_natCast] at onDevice bound
  unfold sectorsFor at onDevice
  unfold deviceLimit at addressable
  unfold blockSectorSize at *
  omega

theorem FileHolds.fileLength (holds : FileHolds st.fs file.inode contents length) :
    st.fileLength file = some (length : Int) := by
  rcases holds with ⟨found, here, -, whole, -⟩
  rw [LoadState.fileLength, here, Option.map_some, whole]

end Files

/-! ## The functions of `load`, when they succeed -/

/-- The state of a `load` that has installed the pages of a space. -/
structure LoadMaps (env : ExecEnv) (base : Machine) (pd : Word) (fs : Fs)
    (pending : List Word) (space : Space) (st : LoadState) : Prop where
  maps : Maps env.boot base pd pending space st.machine
  fs : st.fs = fs

section Functions

variable {env : ExecEnv} {base : Machine} {pd page upage : Word} {fs : Fs}
variable {st after : LoadState} {file later : File} {space : Space}
variable {contents buffer result : Memory} {length size : Nat}
variable {pending : List Word} {writable : Bool}

theorem installPage_maps (state : LoadMaps env base pd fs [page] space st) (valid : IsPage page)
    (installed : st.installPage env pd upage page writable = some (true, after)) :
    space (pgNo upage) = none ∧
      LoadMaps env base pd fs []
        (Function.update space (pgNo upage)
          (some ⟨LoadState.pageBytes st.machine page, writable⟩)) after := by
  rcases installPage_cases installed with ⟨failed, -⟩ | ⟨user, looked, machine, setPage, rfl⟩
  · cases failed
  · exact ⟨state.maps.absent user looked,
        state.maps.set_page valid user looked (mayReturn env st.calls st.machine) setPage,
        state.fs⟩

theorem installOrFree_maps (state : LoadMaps env base pd fs [page] space st) (valid : IsPage page)
    (installed : st.installOrFree env pd upage page writable = some (true, after)) :
    space (pgNo upage) = none ∧
      LoadMaps env base pd fs []
        (Function.update space (pgNo upage)
          (some ⟨LoadState.pageBytes st.machine page, writable⟩)) after := by
  rw [LoadState.installOrFree, Option.bind_eq_some_iff] at installed
  rcases installed with ⟨⟨made, middle⟩, tried, rest⟩
  cases made with
  | false =>
      rw [if_neg Bool.false_ne_true] at rest
      rcases Option.map_eq_some_iff.mp rest with ⟨_, _, same⟩
      cases same
  | true =>
      rw [if_pos rfl] at rest
      cases rest
      exact installPage_maps state valid tried

theorem LoadMaps.obtain (state : LoadMaps env base pd fs pending space st)
    (got : env.palloc.get st.calls st.machine.used = some page) :
    IsPage page ∧
      LoadMaps env base pd fs (page :: pending) space
        { st with calls := st.calls + 1, machine := st.machine.obtain page } := by
  rcases env.palloc.fresh got with ⟨valid, fresh⟩
  exact ⟨valid, state.maps.obtain_page fresh, state.fs⟩

theorem LoadMaps.called (state : LoadMaps env base pd fs pending space st) (more : Nat) :
    LoadMaps env base pd fs pending space { st with calls := st.calls + more } :=
  ⟨state.maps, state.fs⟩

theorem LoadMaps.fill (state : LoadMaps env base pd fs (page :: pending) space st)
    (words : Nat → Word) :
    LoadMaps env base pd fs (page :: pending) space
      { st with machine := st.machine.fillPage page words } :=
  ⟨state.maps.fill_page words, state.fs⟩

/-- A page that has been filled with the bytes of a buffer. -/
theorem pageBytes_fillPage (m : Machine) (page : Word) (buffer : Memory) :
    LoadState.pageBytes (m.fillPage page fun index => loadWord buffer (4 * index))
      page = buffer := by
  funext place
  have number : (loadWord buffer (4 * (place / 4))).toNat = buffer.load32 (4 * (place / 4)) := by
    rw [loadWord, BitVec.toNat_ofNat]
    exact Nat.mod_eq_of_lt (Memory.load32_lt buffer _)
  rw [LoadState.pageBytes, fillPage_word_same, number,
    Memory.byteOf_load32 _ _ (Nat.mod_lt place (by decide)), Nat.div_add_mod]

/-- What a page is filled with: bytes of the file, and then zeros. -/
def filledPage (contents : Memory) (count : Nat) : Memory := fun place =>
  if place < count then contents place else 0

theorem loadPage_maps (state : LoadMaps env base pd fs [] space st)
    (holds : FileHolds fs file.inode contents length) (fits : size ≤ pgSize)
    (loaded : st.loadPage env pd file upage size writable = some (true, later, after)) :
    space (pgNo upage) = none ∧
      (size = 0 ∨ file.pos + size ≤ length) ∧
        later = { file with pos := file.pos + size } ∧
          LoadMaps env base pd fs []
            (Function.update space (pgNo upage)
              (some ⟨filledPage (contents.drop file.pos) size, writable⟩))
            after := by
  rw [LoadState.loadPage, LoadState.pallocGetPage] at loaded
  cases got : env.palloc.get st.calls st.machine.used with
  | none =>
      rw [got] at loaded
      cases loaded
  | some kpage =>
      rw [got] at loaded
      rcases state.obtain got with ⟨valid, obtained⟩
      rcases Option.bind_eq_some_iff.mp loaded with ⟨⟨buffer, count, moved, next⟩, read, rest⟩
      dsimp only at rest
      by_cases short : count ≠ size
      · rw [if_pos short] at rest
        rcases Option.map_eq_some_iff.mp rest with ⟨_, _, same⟩
        cases same
      · rw [if_neg short] at rest
        have exactly : count = size := not_not.mp short
        subst exactly
        rcases Option.map_eq_some_iff.mp rest with ⟨⟨made, installed⟩, tried, same⟩
        cases same
        rw [← obtained.fs] at holds
        rcases holds.read read with ⟨value, inside, position, rfl⟩
        rw [if_pos rfl] at tried
        have filled := (obtained.called 1).fill fun index =>
          loadWord (buffer.fill count (pgSize - count) 0) (4 * index)
        rcases installOrFree_maps filled valid tried with ⟨new, done⟩
        rw [pageBytes_fillPage] at done
        refine ⟨new, inside, position, done.maps.update_bytes ?_, done.fs⟩
        intro place _ inPage
        rw [filledPage, Memory.fill, value]
        by_cases fromFile : place < count
        · rw [if_neg (by omega), if_pos fromFile, Memory.splice, if_pos (by omega), Nat.sub_zero]
        · rw [if_pos (by omega), if_neg fromFile]

/-- What a page of a segment contains: the bytes that belong there of those that
are read from a position of the file on. -/
def segmentBytes (contents : Memory) (pos count i : Nat) : Memory := fun place =>
  if place < pgSize ∧ i * pgSize + place < count then
    contents (pos + i * pgSize + place)
  else 0

theorem segmentBytes_zero (contents : Memory) (pos count : Nat) :
    segmentBytes contents pos count 0 = filledPage (contents.drop pos) (min count pgSize) := by
  funext place
  rw [segmentBytes, filledPage, Memory.drop, Nat.zero_mul, Nat.zero_add, Nat.add_zero]
  congr 1
  rw [eq_iff_iff]
  omega

theorem segmentBytes_succ (contents : Memory) (pos count i : Nat) :
    segmentBytes contents (pos + min count pgSize) (count - pgSize) i =
      segmentBytes contents pos count (i + 1) := by
  funext place
  rw [segmentBytes, segmentBytes, Nat.succ_mul]
  by_cases inside : place < pgSize ∧ i * pgSize + pgSize + place < count
  · have whole : min count pgSize = pgSize := by omega
    rw [if_pos inside, if_pos ⟨inside.1, by omega⟩, whole]
    congr 1
    omega
  · rw [if_neg inside, if_neg (by omega)]

/-- The space with the pages of a segment. -/
def segmentSpace (contents : Memory) (pos count first pages : Nat) (writable : Bool)
    (space : Space) : Space := fun number =>
  if first ≤ number ∧ number < first + pages then
    some ⟨segmentBytes contents pos count (number - first), writable⟩
  else space number

theorem segmentSpace_none (contents : Memory) (pos count first : Nat)
    (writable : Bool) (space : Space) :
    segmentSpace contents pos count first 0 writable space = space := by
  funext number
  rw [segmentSpace, if_neg (by omega)]

/-- The first page of a segment and the others. -/
theorem segmentSpace_succ (contents : Memory) (pos count first pages : Nat)
    (writable : Bool) (space : Space) :
    segmentSpace contents (pos + min count pgSize) (count - pgSize) (first + 1)
        pages writable
        (Function.update space first
          (some ⟨filledPage (contents.drop pos) (min count pgSize), writable⟩)) =
      segmentSpace contents pos count first (pages + 1) writable space := by
  funext number
  rw [segmentSpace, segmentSpace]
  by_cases here : number = first
  · subst here
    rw [if_neg (by omega), if_pos (by omega), Function.update_self, Nat.sub_self, segmentBytes_zero]
  · rw [Function.update_of_ne here]
    by_cases inside : first + 1 ≤ number ∧ number < first + 1 + pages
    · have place : number - first = number - (first + 1) + 1 := by omega
      rw [if_pos inside, if_pos (by omega), segmentBytes_succ, place]
    · rw [if_neg inside, if_neg (by omega)]

/-- The loop of `load_segment` installs pages that are not there yet. -/
theorem loadPages_maps {rounds first : Nat} {r : SegmentRound}
    (state : LoadMaps env base pd fs [] space st)
    (holds : FileHolds fs file.inode contents length) (place : r.upage.toNat = first * pgSize)
    (rest : r.readBytes.toNat + r.zeroBytes.toNat = rounds * pgSize)
    (below : (first + rounds) * pgSize ≤ physBase.toNat)
    (loaded : LoadState.loadPages env pd writable rounds r.upage r.readBytes
      r.zeroBytes file st = some (true, later, after)) :
    (∀ number, first ≤ number → number < first + rounds → space number = none) ∧
      (r.readBytes.toNat = 0 ∨ file.pos + r.readBytes.toNat ≤ length) ∧
        later.inode = file.inode ∧
          LoadMaps env base pd fs []
            (segmentSpace contents file.pos r.readBytes.toNat first rounds writable
              space) after := by
  induction rounds generalizing first r file space st with
  | zero =>
      cases loaded
      rw [segmentSpace_none]
      refine ⟨?_, Or.inl ?_, rfl, state⟩
      · intro number lower upper
        omega
      · omega
  | succ rounds inductionHypothesis =>
      have kernel : physBase.toNat = 3221225472 := rfl
      have room : r.upage.toNat + pgSize < 4294967296 := by
        rw [place]
        rw [kernel] at below
        unfold pgSize at below ⊢
        omega
      have goesOn : ¬(r.readBytes = 0#32 ∧ r.zeroBytes = 0#32) := by
        intro finished
        rw [finished.1, finished.2, BitVec.toNat_zero, Nat.succ_mul] at rest
        unfold pgSize at rest
        omega
      rcases SegmentRound.next_numbers rest room with ⟨-, readNext, restNext, placeNext⟩
      have count := SegmentRound.toNat_pageReadBytes r
      have number : pgNo r.upage = first := by
        rw [pgNo_eq, place]
        exact Nat.mul_div_cancel first (by decide)
      rw [loadPages_round, if_neg goesOn, Option.bind_eq_some_iff] at loaded
      rcases loaded with ⟨⟨went, moved, middle⟩, loadedPage, others⟩
      cases went with
      | false => cases others
      | true =>
          rw [if_pos rfl] at others
          rcases loadPage_maps state holds (by omega) loadedPage with
            ⟨new, inside, position, installed⟩
          rw [number] at new installed
          have placed : r.next.upage.toNat = (first + 1) * pgSize := by
            rw [placeNext, place, Nat.succ_mul]
          have onTop : (first + 1 + rounds) * pgSize ≤ physBase.toNat := by
            rw [Nat.add_assoc, Nat.add_comm 1]
            exact below
          have moves : FileHolds fs moved.inode contents length := by
            rw [position]
            exact holds
          rcases inductionHypothesis installed moves placed restNext onTop others
            with ⟨otherNew, otherInside, sameFile, all⟩
          rw [position, readNext] at otherInside
          rw [position, readNext, count, segmentSpace_succ] at all
          refine ⟨?_, ?_, ?_, all⟩
          · intro page lower upper
            by_cases here : page = first
            · rw [here]
              exact new
            · have later := otherNew page (by omega) (by omega)
              rw [Function.update_of_ne here] at later
              exact later
          · dsimp only at otherInside
            omega
          · rw [sameFile, position]

end Functions

end CS162.Userprog
