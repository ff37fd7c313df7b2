import CS162.Userprog.AddressSpace
import CS162.Userprog.UserSafety

/-!
# The image of an executable

After a successful `load` the pages of the user are the pages of the segments and
the page of the stack.
-/

namespace CS162.Userprog

open CS162.Foundation CS162.Filesys Machine
open CS162.Devices (blockSectorSize)

/-! ## Segments that are placed one after the other -/

namespace Elf32Phdr

/-- The segment has a part of a page. -/
def Covers (phdr : Elf32Phdr) (number : Nat) : Prop :=
  phdr.vaddr.toNat / pgSize ≤ number ∧ number < phdr.vaddr.toNat / pgSize + segmentPages phdr

/-- The space with the pages of the segment. -/
def place (phdr : Elf32Phdr) (contents : Memory) (space : Space) : Space :=
  segmentSpace contents (segmentPlan phdr).filePage.toNat
    (segmentPlan phdr).readBytes.toNat (phdr.vaddr.toNat / pgSize)
    (segmentPages phdr) (segmentPlan phdr).writable space

/-- What a page of the segment contains. -/
def page (phdr : Elf32Phdr) (contents : Memory) (number : Nat) : UserPage where
  bytes :=
    segmentBytes contents (segmentPlan phdr).filePage.toNat
      (segmentPlan phdr).readBytes.toNat (number - phdr.vaddr.toNat / pgSize)
  writable := (segmentPlan phdr).writable

variable {phdr : Elf32Phdr} {contents : Memory} {space : Space} {number : Nat}

theorem place_covered (covers : phdr.Covers number) :
    phdr.place contents space number = some (phdr.page contents number) :=
  if_pos covers

theorem place_outside (outside : ¬phdr.Covers number) :
    phdr.place contents space number = space number :=
  if_neg outside

end Elf32Phdr

/-- The segments of the headers are valid and are placed on pages that are not there
yet. -/
inductive Placed (contents : Memory) (length : Nat) : List Elf32Phdr → Space → Space → Prop where
  | nil {space : Space} : Placed contents length [] space space
  | other {phdr : Elf32Phdr} {rest : List Elf32Phdr} {space final : Space} :
      phdr.type ≠ ptLoad → Placed contents length rest space final →
        Placed contents length (phdr :: rest) space final
  | load {phdr : Elf32Phdr} {rest : List Elf32Phdr} {space final : Space} :
      phdr.type = ptLoad → Accepted phdr length →
        phdr.offset.toNat + phdr.filesz.toNat ≤ length →
          (∀ number, phdr.Covers number → space number = none) →
            Placed contents length rest (phdr.place contents space) final →
              Placed contents length (phdr :: rest) space final

/-- A segment that is loaded. -/
def Loadable (phdrs : List Elf32Phdr) (phdr : Elf32Phdr) : Prop := phdr ∈ phdrs ∧ phdr.type = ptLoad

namespace Loadable

variable {first phdr : Elf32Phdr} {rest : List Elf32Phdr}

theorem head_or_tail (loadable : Loadable (first :: rest) phdr) :
    phdr = first ∨ Loadable rest phdr :=
  (List.mem_cons.mp loadable.1).imp_right fun member => ⟨member, loadable.2⟩

theorem tail (loadable : Loadable (first :: rest) phdr) (different : first.type ≠ ptLoad) :
    Loadable rest phdr := by
  rcases loadable.head_or_tail with rfl | later
  · exact absurd loadable.2 different
  · exact later

theorem cons (loadable : Loadable rest phdr) : Loadable (first :: rest) phdr :=
  ⟨List.mem_cons_of_mem first loadable.1, loadable.2⟩

end Loadable

namespace Placed

variable {contents : Memory} {length number : Nat} {phdrs : List Elf32Phdr}
variable {phdr : Elf32Phdr} {space final : Space}

/-- A page that is there stays as it is. -/
theorem kept (placed : Placed contents length phdrs space final) {page : UserPage}
    (here : space number = some page) : final number = some page := by
  induction placed with
  | nil => exact here
  | other _ _ inductionHypothesis => exact inductionHypothesis here
  | @load phdr rest space final _ _ _ new _ inductionHypothesis =>
      apply inductionHypothesis
      rw [Elf32Phdr.place_outside]
      · exact here
      · intro covers
        rw [new number covers] at here
        cases here

/-- The segments are placed on new pages. -/
theorem new (placed : Placed contents length phdrs space final)
    (loadable : Loadable phdrs phdr) (covers : phdr.Covers number) :
    space number = none := by
  induction placed with
  | nil => cases loadable.1
  | other different _ inductionHypothesis =>
      exact inductionHypothesis (loadable.tail different)
  | @load first rest space final _ _ _ fresh _ inductionHypothesis =>
      rcases loadable.head_or_tail with rfl | remaining
      · exact fresh number covers
      · have later := inductionHypothesis remaining
        by_cases both : first.Covers number
        · rw [Elf32Phdr.place_covered both] at later
          cases later
        · rw [Elf32Phdr.place_outside both] at later
          exact later

theorem covered (placed : Placed contents length phdrs space final)
    (loadable : Loadable phdrs phdr) (covers : phdr.Covers number) :
    final number = some (phdr.page contents number) := by
  induction placed with
  | nil => cases loadable.1
  | other different _ inductionHypothesis =>
      exact inductionHypothesis (loadable.tail different)
  | load _ _ _ _ others inductionHypothesis =>
      rcases loadable.head_or_tail with rfl | remaining
      · exact others.kept (Elf32Phdr.place_covered covers)
      · exact inductionHypothesis remaining

theorem outside (placed : Placed contents length phdrs space final)
    (none : ∀ phdr, Loadable phdrs phdr → ¬phdr.Covers number) :
    final number = space number := by
  induction placed with
  | nil => rfl
  | other _ _ inductionHypothesis =>
      apply inductionHypothesis
      intro phdr loadable
      exact none phdr loadable.cons
  | load isLoad _ _ _ _ inductionHypothesis =>
      rw [inductionHypothesis]
      · exact Elf32Phdr.place_outside (none _ ⟨List.mem_cons_self, isLoad⟩)
      · intro phdr loadable
        exact none phdr loadable.cons

/-- No page belongs to two segments. -/
theorem apart (placed : Placed contents length phdrs space final) :
    phdrs.Pairwise fun first second =>
      first.type = ptLoad → second.type = ptLoad →
        ∀ number, ¬(first.Covers number ∧ second.Covers number) := by
  induction placed with
  | nil => exact List.Pairwise.nil
  | other different _ inductionHypothesis =>
      refine List.Pairwise.cons ?_ inductionHypothesis
      intro second _ isLoad
      exact absurd isLoad different
  | load _ _ _ _ others inductionHypothesis =>
      refine List.Pairwise.cons ?_ inductionHypothesis
      intro second member _ isLoad number both
      have free := others.new ⟨member, isLoad⟩ both.2
      rw [Elf32Phdr.place_covered both.1] at free
      cases free

theorem accepted (placed : Placed contents length phdrs space final)
    (loadable : Loadable phdrs phdr) :
    Accepted phdr length ∧ phdr.offset.toNat + phdr.filesz.toNat ≤ length := by
  induction placed with
  | nil => cases loadable.1
  | other different _ inductionHypothesis =>
      exact inductionHypothesis (loadable.tail different)
  | load _ accepted inFile _ _ inductionHypothesis =>
      rcases loadable.head_or_tail with rfl | remaining
      · exact ⟨accepted, inFile⟩
      · exact inductionHypothesis remaining

end Placed

/-! ## The headers of a file -/

/-- The program headers from an offset on. -/
def programHeaders (contents : Memory) : Nat → Nat → List Elf32Phdr
  | 0, _ => []
  | count + 1, offset =>
      .ofBytes (contents.drop offset) :: programHeaders contents count (offset + phdrSize)

section Headers

variable {env : ExecEnv} {base : Machine} {pd : Word} {fs : Fs}
variable {st after : LoadState} {file later : File} {space : Space}
variable {contents buffer other : Memory} {length : Nat} {phdr : Elf32Phdr}

theorem loadWord_congr {address : Nat} (agree : buffer.AgreeOn other address (address + 4)) :
    loadWord buffer address = loadWord other address := by
  rw [loadWord, loadWord, agree.load32_eq]

theorem Elf32Phdr.ofBytes_congr (agree : buffer.AgreeOn other 0 phdrSize) :
    Elf32Phdr.ofBytes buffer = Elf32Phdr.ofBytes other := by
  have words :
      ∀ address, address + 4 ≤ phdrSize →
        loadWord buffer address = loadWord other address := by
    intro address inside
    exact loadWord_congr (agree.mono (Nat.zero_le _) inside)
  rw [ofBytes, ofBytes, words 0 (by decide), words 4 (by decide),
    words 8 (by decide), words 16 (by decide), words 20 (by decide),
    words 24 (by decide)]

theorem load16_congr {address : Nat} (agree : buffer.AgreeOn other address (address + 2)) :
    load16 buffer address = load16 other address := by
  rw [load16, load16, agree address (Nat.le_refl _) (by omega),
    agree (address + 1) (by omega) (by omega)]

theorem Elf32Ehdr.ofBytes_congr (agree : buffer.AgreeOn other 0 ehdrSize) :
    Elf32Ehdr.ofBytes buffer = Elf32Ehdr.ofBytes other := by
  have words :
      ∀ address, address + 4 ≤ ehdrSize →
        loadWord buffer address = loadWord other address := by
    intro address inside
    exact loadWord_congr (agree.mono (Nat.zero_le _) inside)
  have halves :
      ∀ address, address + 2 ≤ ehdrSize →
        load16 buffer address = load16 other address := by
    intro address inside
    exact load16_congr (agree.mono (Nat.zero_le _) inside)
  have ident : (List.range 7).map buffer = (List.range 7).map other := by
    apply List.map_congr_left
    intro place member
    have small := List.mem_range.mp member
    apply agree place (Nat.zero_le _)
    unfold ehdrSize
    omega
  rw [ofBytes, ofBytes, ident, halves 16 (by decide), halves 18 (by decide),
    words 20 (by decide), words 24 (by decide), words 28 (by decide),
    halves 42 (by decide), halves 44 (by decide)]

theorem loadHeader_maps (state : LoadMaps env base pd fs [] space st)
    (holds : FileHolds fs file.inode contents length)
    (loaded : st.loadHeader env pd file length phdr = some (true, later, after)) :
    later.inode = file.inode ∧
      ((phdr.type ≠ ptLoad ∧ LoadMaps env base pd fs [] space after) ∨
        phdr.type = ptLoad ∧ Accepted phdr length ∧
          phdr.offset.toNat + phdr.filesz.toNat ≤ length ∧
            (∀ number, phdr.Covers number → space number = none) ∧
              LoadMaps env base pd fs [] (phdr.place contents space) after) := by
  rw [LoadState.loadHeader] at loaded
  split at loaded
  · cases loaded
  · split at loaded
    · rename_i different
      cases loaded
      exact ⟨rfl, Or.inl ⟨different, state⟩⟩
    · rename_i isLoad
      split at loaded
      · rename_i valid
        have small : (length : Int) < 2147483648 := by
          exact_mod_cast holds.small
        have accepted := accepted_of_validateSegment (Int.natCast_nonneg length) small valid
        rcases accepted.plan_numbers with ⟨place, seek, reads, covers, zeros⟩
        rw [accepted.loadSegment_eq small st env pd file 0, Nat.add_zero] at loaded
        have rest : (segmentPlan phdr).readBytes.toNat +
            (segmentPlan phdr).zeroBytes.toNat = segmentPages phdr * pgSize := by
          omega
        rcases
          @loadPages_maps _ _ _ _ _ _
            { file with pos := (segmentPlan phdr).filePage.toNat } _ _ _ _ _ _ _
            ((segmentPlan phdr).round 0) state holds place rest
            accepted.pages_below.2 loaded with
          ⟨new, inside, same, installed⟩
        refine ⟨same, Or.inr ⟨not_not.mp isLoad, accepted, ?_, ?_, installed⟩⟩
        · have inFile := accepted.inFile
          have sameOffset := accepted.sameOffset
          change (segmentPlan phdr).readBytes.toNat = 0 ∨
            (segmentPlan phdr).filePage.toNat +
              (segmentPlan phdr).readBytes.toNat ≤ length at inside
          rw [reads, seek] at inside
          by_cases some : 0 < phdr.filesz.toNat
          · rw [if_pos some] at inside
            have divided := Nat.div_add_mod' phdr.offset.toNat pgSize
            omega
          · omega
        · intro number covers
          exact new number covers.1 covers.2
      · cases loaded

theorem fileSeek_eq {pos : Int} (nonneg : 0 ≤ pos) :
    LoadState.fileSeek file pos = some { file with pos := pos.toNat } :=
  if_pos nonneg

/-- The loop of `load` places the segments of the headers that it reads. -/
theorem loadHeaders_maps {count : Nat} {fileOfs : Int} (state : LoadMaps env base pd fs [] space st)
    (holds : FileHolds fs file.inode contents length)
    (loaded : LoadState.loadHeaders env pd count fileOfs file st = some (true, later, after)) :
    later.inode = file.inode ∧
      ∃ final,
        Placed contents length (programHeaders contents count fileOfs.toNat) space
            final ∧
          LoadMaps env base pd fs [] final after := by
  induction count generalizing fileOfs file st space with
  | zero =>
      cases loaded
      exact ⟨rfl, space, .nil, state⟩
  | succ count inductionHypothesis =>
      have opened : FileHolds st.fs file.inode contents length := by
        rw [state.fs]
        exact holds
      rw [LoadState.loadHeaders, opened.fileLength, Option.bind_some] at loaded
      by_cases outside : fileOfs < 0 ∨ (length : Int) < fileOfs
      · rw [if_pos outside] at loaded
        cases loaded
      · rw [not_or, Int.not_lt, Int.not_lt] at outside
        rw [if_neg (by omega), fileSeek_eq outside.1, Option.bind_some,
          Option.bind_eq_some_iff] at loaded
        rcases loaded with ⟨⟨buffer, number, readFile, next⟩, read, rest⟩
        dsimp only at rest
        by_cases short : number ≠ phdrSize
        · rw [if_pos short] at rest
          cases rest
        · rw [if_neg short, Option.bind_eq_some_iff] at rest
          rw [not_not.mp short] at read
          have sought : FileHolds st.fs
              ({ file with pos := fileOfs.toNat } : File).inode contents length :=
            opened
          rcases sought.read read with ⟨value, inside, position, called⟩
          have header : Elf32Phdr.ofBytes buffer = .ofBytes (contents.drop fileOfs.toNat) := by
            rw [value]
            exact Elf32Phdr.ofBytes_congr (Memory.splice_zero_agreeOn _ _ _)
          rcases rest with ⟨⟨went, headerFile, middle⟩, headerLoaded, others⟩
          rw [header] at headerLoaded
          have called : LoadMaps env base pd fs [] space next := by
            rw [called]
            exact state.called 1
          have moved : FileHolds fs readFile.inode contents length := by
            rw [position]
            exact holds
          have small := holds.small
          have offset : (wrapSigned (fileOfs + phdrSize)).toNat = fileOfs.toNat + phdrSize := by
            unfold phdrSize at inside ⊢
            rw [wrapSigned_of_lt (by omega) (by dsimp only at inside; omega)]
            omega
          cases went with
          | false => cases others
          | true =>
              rw [if_pos rfl] at others
              rcases loadHeader_maps called moved headerLoaded with
                ⟨same, ⟨different, skipped⟩ | ⟨isLoad, accepted, inFile, new, placed⟩⟩
              · have further : FileHolds fs headerFile.inode contents length := by
                  rw [same]
                  exact moved
                rcases inductionHypothesis skipped further others with ⟨last, final, all, done⟩
                rw [offset] at all
                refine ⟨?_, final, .other different all, done⟩
                rw [last, same, position]
              · have further : FileHolds fs headerFile.inode contents length := by
                  rw [same]
                  exact moved
                rcases inductionHypothesis placed further others with ⟨last, final, all, done⟩
                rw [offset] at all
                refine ⟨?_, final, .load isLoad accepted inFile new all, done⟩
                rw [last, same, position]

/-- The number of the page of the stack. -/
def stackPage : Nat := 786431

/-- `setup_stack` installs a page of zeros. -/
theorem setupStack_maps (state : LoadMaps env base pd fs [] space st)
    (loaded : st.setupStack env pd = some (true, after)) :
    space stackPage = none ∧
      LoadMaps env base pd fs []
        (Function.update space stackPage (some ⟨fun _ => 0, true⟩)) after := by
  have number : pgNo (physBase - BitVec.ofNat 32 pgSize) = stackPage := by
    decide
  rw [LoadState.setupStack, LoadState.pallocGetPage] at loaded
  cases got : env.palloc.get st.calls st.machine.used with
  | none =>
      rw [got] at loaded
      cases loaded
  | some kpage =>
      rw [got] at loaded
      rcases state.obtain got with ⟨valid, obtained⟩
      have filled := obtained.fill fun _ => 0#32
      rcases installOrFree_maps filled valid loaded with ⟨new, done⟩
      rw [number] at new done
      refine ⟨new, done.maps.update_bytes ?_, done.fs⟩
      intro place _ _
      rw [LoadState.pageBytes, fillPage_word_same, BitVec.toNat_zero, Memory.byteOf, Nat.zero_div]
      rfl

/-- The program headers of a file. -/
def headersOf (contents : Memory) : List Elf32Phdr :=
  programHeaders contents (Elf32Ehdr.ofBytes contents).phnum
    (Elf32Ehdr.ofBytes contents).phoff.toInt.toNat

theorem loadFile_maps {entry : Word} (state : LoadMaps env base pd fs [] space st)
    (holds : FileHolds fs file.inode contents length) (start : file.pos = 0)
    (loaded : st.loadFile env pd file = some (some entry, later, after)) :
    ∃ final, Placed contents length (headersOf contents) space final ∧
      final stackPage = none ∧
        LoadMaps env base pd fs []
          (Function.update final stackPage (some ⟨fun _ => 0, true⟩)) after := by
  have opened : FileHolds st.fs file.inode contents length := by
    rw [state.fs]
    exact holds
  rw [LoadState.loadFile, Option.bind_eq_some_iff] at loaded
  rcases loaded with ⟨⟨buffer, number, moved, next⟩, read, rest⟩
  dsimp only at rest
  by_cases short : number ≠ ehdrSize ∨ (Elf32Ehdr.ofBytes buffer).valid = false
  · rw [if_pos short] at rest
    cases rest
  · rw [if_neg short, Option.bind_eq_some_iff] at rest
    rw [not_or] at short
    rw [not_not.mp short.1] at read
    rcases opened.read read with ⟨value, -, position, called⟩
    have whole : contents.drop 0 = contents := by
      funext place
      rw [Memory.drop, Nat.zero_add]
    have header : Elf32Ehdr.ofBytes buffer = .ofBytes contents := by
      rw [value, start, whole]
      exact Elf32Ehdr.ofBytes_congr (Memory.splice_zero_agreeOn _ _ _)
    rcases rest with ⟨⟨went, headersFile, middle⟩, headers, others⟩
    rw [header] at headers
    have called : LoadMaps env base pd fs [] space next := by
      rw [called]
      exact state.called 1
    have further : FileHolds fs moved.inode contents length := by
      rw [position]
      exact holds
    cases went with
    | false =>
        rw [if_neg Bool.false_ne_true] at others
        cases others
    | true =>
        rcases loadHeaders_maps called further headers with ⟨-, final, placed, done⟩
        rw [if_pos rfl] at others
        rcases Option.map_eq_some_iff.mp others with ⟨⟨made, stacked⟩, stack, same⟩
        cases made with
        | false => cases same
        | true =>
            cases same
            rcases setupStack_maps done stack with ⟨new, all⟩
            exact ⟨final, placed, new, all⟩

end Headers

/-! ## What the user finds -/

section Image

variable {boot : Boot} {base m : Machine} {pd va : Word} {space final : Space}
variable {contents : Memory} {length : Nat} {phdrs : List Elf32Phdr}
variable {phdr : Elf32Phdr}

/-- The entry of a page of the space, and a byte of the page. -/
theorem Maps.found (maps : Maps boot base pd [] space m) {page : UserPage}
    (user : isUserVaddr va = true) (here : space (pgNo va) = some page) :
    readByte m pd va = some (page.bytes (pgOfs va).toNat) ∧
      (pteOf m pd va).map (hasFlag · pteW) = some page.writable := by
  rcases maps with ⟨before, tables, known, loads, shown⟩
  have inRange : pgNo va < userPages := pgNo_lt_of_user user
  have entry := shown (pgNo va) inRange
  rw [here] at entry
  rcases entry with ⟨entry, isKnown, present, writable, bytes⟩
  rcases loads.sound.pteOf_known user isKnown with ⟨pte, looked, reading⟩
  have flag : hasFlag pte pteP = true := by
    rw [← present, ← reading]
    rfl
  have write : hasFlag pte pteW = page.writable := by
    rw [← writable, ← reading]
    rfl
  have mapped : frameOf (known (pgNo va)) = some entry.frame := by
    rw [isKnown, frameOf, Option.bind_some, if_pos present]
  have beside := (loads.frame_beside (mem_framesOf_number inRange mapped)).1
  constructor
  · rw [readByte, looked, Option.bind_some, if_pos flag,
      loads.sound.pteGetPage_eq isKnown reading, Option.map_some]
    congr 1
    have inPage : (pgOfs va).toNat < pgSize := by
      rw [toNat_pgOfs]
      exact Nat.mod_lt _ (by decide)
    rw [← bytes _ (Nat.zero_le _) inPage, LoadState.pageBytes, LoadState.pageBytes,
      loads.word_beside beside]
  · rw [looked, Option.map_some, write]

/-- There is no page that is not in the space. -/
theorem Maps.missing (maps : Maps boot base pd [] space m)
    (user : isUserVaddr va = true) (absent : space (pgNo va) = none) :
    m.pagedirGetPage pd va = some none := by
  rcases maps with ⟨before, tables, known, loads, shown⟩
  have entry := shown (pgNo va) (pgNo_lt_of_user user)
  rw [absent] at entry
  have unknown : known (pgNo va) = none := entry
  rw [loads.sound.getPage user, unknown]
  rfl

/-- The address space of the executable: the segments with their bytes of the file,
zeros after them, and the stack; nothing else. -/
structure ElfImage (contents : Memory) (length : Nat) (phdrs : List Elf32Phdr)
    (pd : Word) (m : Machine) : Prop where
  inFile : ∀ phdr, Loadable phdrs phdr → phdr.offset.toNat + phdr.filesz.toNat ≤ length
  bytes : ∀ phdr, Loadable phdrs phdr → ∀ j, j < phdr.memsz.toNat →
    (phdr.vaddr + BitVec.ofNat 32 j).toNat = phdr.vaddr.toNat + j ∧
      readByte m pd (phdr.vaddr + BitVec.ofNat 32 j) =
        some (if j < phdr.filesz.toNat then contents (phdr.offset.toNat + j) else 0)
  writable : ∀ phdr, Loadable phdrs phdr → ∀ va, phdr.Covers (pgNo va) →
    (pteOf m pd va).map (hasFlag · pteW) = some (decide (phdr.flags &&& pfW ≠ 0#32))
  apart : phdrs.Pairwise fun first second =>
    first.type = ptLoad → second.type = ptLoad →
      ∀ number, ¬(first.Covers number ∧ second.Covers number)
  belowStack : ∀ phdr, Loadable phdrs phdr → ¬phdr.Covers stackPage
  stack : ∀ va, pgNo va = stackPage → readByte m pd va = some 0
  others : ∀ va, isUserVaddr va = true → pgNo va ≠ stackPage →
    (∀ phdr, Loadable phdrs phdr → ¬phdr.Covers (pgNo va)) → m.pagedirGetPage pd va = some none

/-- The pages of a segment are pages of the user. -/
theorem Accepted.covers_user (accepted : Accepted phdr length)
    (covers : phdr.Covers (pgNo va)) : isUserVaddr va = true := by
  have below := accepted.pages_below.2
  have kernel : physBase.toNat = 3221225472 := rfl
  have upper := covers.2
  rw [isUserVaddr, decide_eq_true_eq, BitVec.lt_def, kernel]
  rw [pgNo_eq] at upper
  rw [kernel] at below
  unfold pgSize at below upper
  omega

/-- The address of a byte of a segment. -/
theorem Accepted.address (accepted : Accepted phdr length) {j : Nat}
    (inside : j < phdr.memsz.toNat) :
    (phdr.vaddr + BitVec.ofNat 32 j).toNat = phdr.vaddr.toNat + j ∧
      phdr.Covers (pgNo (phdr.vaddr + BitVec.ofNat 32 j)) := by
  have below := accepted.below
  have kernel : physBase.toNat = 3221225472 := rfl
  rw [kernel] at below
  have small : (BitVec.ofNat 32 j).toNat = j := by
    rw [BitVec.toNat_ofNat]
    omega
  have sum : (phdr.vaddr + BitVec.ofNat 32 j).toNat = phdr.vaddr.toNat + j := by
    rw [BitVec.toNat_add, small]
    omega
  refine ⟨sum, ?_⟩
  rw [Elf32Phdr.Covers, pgNo_eq, sum, segmentPages]
  unfold pgSize
  omega

/-- A byte of a page of a segment. -/
theorem Accepted.page_bytes (accepted : Accepted phdr length) {j : Nat}
    (inside : j < phdr.memsz.toNat) :
    (phdr.page contents (pgNo (phdr.vaddr + BitVec.ofNat 32 j))).bytes
        (pgOfs (phdr.vaddr + BitVec.ofNat 32 j)).toNat =
      if j < phdr.filesz.toNat then contents (phdr.offset.toNat + j) else 0 := by
  have sum := (accepted.address inside).1
  have sameOffset := accepted.sameOffset
  rcases accepted.plan_numbers with ⟨-, seek, reads, -, -⟩
  rw [Elf32Phdr.page, toNat_pgOfs, pgNo_eq, sum]
  simp only [segmentBytes]
  rw [seek, reads]
  unfold pgSize at *
  by_cases fromFile : j < phdr.filesz.toNat
  · rw [if_pos fromFile, if_pos (by omega : 0 < phdr.filesz.toNat), if_pos (by omega)]
    congr 1
    omega
  · rw [if_neg fromFile]
    apply if_neg
    split <;> omega

theorem Placed.image (placed : Placed contents length phdrs (fun _ => none) final)
    (free : final stackPage = none)
    (maps : Maps boot base pd [] (Function.update final stackPage (some ⟨fun _ => 0, true⟩)) m) :
    ElfImage contents length phdrs pd m := by
  have belowStack : ∀ phdr, Loadable phdrs phdr → ¬phdr.Covers stackPage := by
    intro phdr loadable covers
    rw [placed.covered loadable covers] at free
    cases free
  have covered :
      ∀ phdr, Loadable phdrs phdr → ∀ number, phdr.Covers number →
        Function.update final stackPage (some ⟨fun _ => 0, true⟩) number =
          some (phdr.page contents number) := by
    intro phdr loadable number covers
    have different : number ≠ stackPage := by
      intro same
      rw [same] at covers
      exact belowStack phdr loadable covers
    rw [Function.update_of_ne different]
    exact placed.covered loadable covers
  exact
    { inFile := fun phdr loadable => (placed.accepted loadable).2
      bytes := fun phdr loadable j inside => by
        have accepted := (placed.accepted loadable).1
        rcases accepted.address inside with ⟨sum, covers⟩
        refine ⟨sum, ?_⟩
        have read := maps.found (accepted.covers_user covers) (covered phdr loadable _ covers)
        rw [read.1, accepted.page_bytes inside]
      writable := fun phdr loadable va covers => by
        have accepted := (placed.accepted loadable).1
        exact (maps.found (accepted.covers_user covers) (covered phdr loadable _ covers)).2
      apart := placed.apart
      belowStack := belowStack
      stack := fun va onStack => by
        have user : isUserVaddr va = true := by
          have kernel : physBase.toNat = 3221225472 := rfl
          rw [isUserVaddr, decide_eq_true_eq, BitVec.lt_def, kernel]
          rw [pgNo_eq] at onStack
          unfold stackPage at onStack
          omega
        have here :
            Function.update final stackPage (some ⟨fun _ => 0, true⟩) (pgNo va) =
              some ⟨fun _ => 0, true⟩ := by
          rw [onStack, Function.update_self]
        exact (maps.found user here).1
      others := fun va user notStack uncovered => by
        apply maps.missing user
        rw [Function.update_of_ne notStack, placed.outside uncovered] }

end Image

/-! ## The whole of `load` -/

section Load

variable {env : ExecEnv} {st : LoadState} {name : List UInt8} {opened : Fs}
variable {file : File} {contents : Memory} {length : Nat} {result : Loaded}
variable {entry : Word}

/-- A file is opened at its start. -/
theorem pos_of_filesysOpen {fs : Fs} {mallocs : Mallocs}
    (opens : fs.filesysOpen name mallocs = some (opened, some file)) :
    file.pos = 0 := by
  rcases Option.bind_eq_some_iff.mp opens with ⟨root, _, rest⟩
  rcases Option.bind_eq_some_iff.mp rest with ⟨looked, _, rest⟩
  rcases Option.bind_eq_some_iff.mp rest with ⟨closedDir, _, last⟩
  unfold Fs.fileOpen Fs.openHandle at last
  split at last
  · cases last
    rfl
  · rcases Option.map_eq_some_iff.mp last with ⟨_, _, impossible⟩
    cases impossible

/-- `load` where it succeeds, with the file that it opens. -/
theorem load_image (booted : Booted env.boot st.machine)
    (opens : st.fs.filesysOpen name env.mallocs = some (opened, some file))
    (holds : FileHolds opened file.inode contents length)
    (loaded : st.load env name = some result) (succeeds : result.entry = some entry) :
    ∃ pd, result.pagedir = some pd ∧
      ElfImage contents length (headersOf contents) pd result.state.machine := by
  rw [LoadState.load] at loaded
  cases given : env.palloc.get st.calls st.machine.used with
  | none =>
      rw [given] at loaded
      cases loaded
      cases succeeds
  | some pd =>
      rw [given] at loaded
      rcases Option.bind_eq_some_iff.mp loaded with ⟨machine, activated, rest⟩
      rcases Option.map_eq_some_iff.mp rest with ⟨⟨found, after⟩, into, same⟩
      subst same
      have created := created_loads booted (env.palloc.fresh given) activated
      rw [LoadState.loadInto, opens, Option.bind_some] at into
      dsimp only at into
      rcases Option.bind_eq_some_iff.mp into with ⟨⟨got, later, middle⟩, ran, rest⟩
      rcases Option.map_eq_some_iff.mp rest with ⟨closed, _, equal⟩
      cases equal
      have empty : LoadMaps env st.machine pd opened [] (fun _ => none)
          { machine := machine
            fs := opened
            blocks := .file file.inode :: st.blocks
            calls := st.calls + 1 } :=
        ⟨⟨_, _, _, created, fun _ _ => rfl⟩, rfl⟩
      dsimp only at succeeds
      rw [succeeds] at ran
      rcases loadFile_maps empty holds (pos_of_filesysOpen opens) ran with ⟨final, placed, free, all⟩
      exact ⟨pd, rfl, placed.image free all.maps⟩

/-- Every header that `validate_segment` accepts is loaded without a wrap, in as
many rounds as the segment has pages, and a `load` that succeeds gives the process
the address space that the file describes. -/
theorem elf_load_exact (booted : Booted env.boot st.machine)
    (opens : st.fs.filesysOpen name env.mallocs = some (opened, some file))
    (holds : FileHolds opened file.inode contents length) :
    (∀ phdr, validateSegment phdr length = true →
      SegmentExact phdr ∧
        ∀ (st : LoadState) (pd : Word) (file : File) (more : Nat),
          st.loadSegment env pd file (segmentPlan phdr) =
            LoadState.loadPages env pd (segmentPlan phdr).writable
              (segmentPages phdr + more) (segmentPlan phdr).memPage
              (segmentPlan phdr).readBytes (segmentPlan phdr).zeroBytes
              { file with pos := (segmentPlan phdr).filePage.toNat } st) ∧
      ∀ result entry, st.load env name = some result → result.entry = some entry →
        ∃ pd, result.pagedir = some pd ∧
          ElfImage contents length (headersOf contents) pd
            result.state.machine := by
  constructor
  · intro phdr valid
    have small : (length : Int) < 2147483648 := by
      exact_mod_cast holds.small
    have accepted := accepted_of_validateSegment (Int.natCast_nonneg length) small valid
    refine ⟨accepted.segmentExact small, ?_⟩
    intro st pd file more
    exact accepted.loadSegment_eq small st env pd file more
  · intro result entry loaded succeeds
    exact load_image booted opens holds loaded succeeds

end Load

/-- The small program is loaded. -/
theorem elf_load_exact_small : ∃ opened file contents result entry pd,
      FileHolds opened file.inode contents 88 ∧
        programStart.fs.filesysOpen [97] (smallEnv true).mallocs = some (opened, some file) ∧
        programStart.load (smallEnv true) [97] = some result ∧
        result.entry = some entry ∧ result.pagedir = some pd ∧
          ElfImage contents 88 (headersOf contents) pd result.state.machine := by
  have opening : ((programStart.fs.filesysOpen [97] (smallEnv true).mallocs).any
      fun opened => opened.2.any fun file =>
        (opened.1.findInode file.inode).any fun found =>
          decide (found.data = ⟨4, 88, inodeMagic⟩ ∧ opened.1.deviceSize = 16)) =
        true := by
    decide +kernel
  have loading : ((programStart.load (smallEnv true) [97]).any fun result =>
      result.entry.isSome) = true := by
    decide +kernel
  rcases (Option.any_eq_true _ _).mp opening with ⟨⟨opened, found⟩, opens, test⟩
  rcases (Option.any_eq_true _ _).mp test with ⟨file, isFile, test⟩
  rcases (Option.any_eq_true _ _).mp test with ⟨inode, here, test⟩
  rcases of_decide_eq_true test with ⟨data, size⟩
  dsimp only at isFile here size
  subst isFile
  have holds : FileHolds opened file.inode
      (opened.disk.drop (inode.data.start * blockSectorSize)) 88 := by
    refine ⟨inode, here, ?_, ?_, rfl⟩
    · rw [data, size]
      exact ⟨by decide, by decide, by decide⟩
    · rw [data]
      rfl
  rcases (Option.any_eq_true _ _).mp loading with ⟨result, loaded, isLoaded⟩
  rcases Option.isSome_iff_exists.mp isLoaded with ⟨entry, succeeds⟩
  rcases (elf_load_exact smallMachine_booted opens holds).2 result entry loaded
    succeeds with ⟨pd, pagedir, image⟩
  exact ⟨opened, file, _, result, entry, pd, holds, opens, loaded, succeeds, pagedir, image⟩

end CS162.Userprog
