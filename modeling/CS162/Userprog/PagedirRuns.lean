import CS162.Userprog.PagedirSafety

/-!
# Runs of calls on a page directory

Every call that is allowed returns, and the directory agrees with what the calls
say in every session.
-/

namespace CS162.Userprog

open CS162.Foundation Machine

/-! ## One call -/

namespace DirSound

variable {boot : Boot} {before : Machine} {pd : Word}
variable {tables : Nat → Option Word} {m : Machine}
variable {known : Nat → Option PageEntry}

/-- The write of `pagedir_set_page` to the entry that `lookup_page` has found. -/
theorem install (sound : DirSound boot before pd tables m known)
    {upage kpage pt : Word} (writable : Bool) (valid : IsPage kpage)
    (unmapped : frameOf (known (pgNo upage)) = none) (table : tables (pdNo upage) = some pt) :
    hasFlag (m.word pt (ptNo upage)) pteP = false ∧
      ∃ pte, pteCreateUser kpage writable = some pte ∧
        DirSound boot before pd tables (m.store pt (ptNo upage) pte)
          (Function.update known (pgNo upage) (some
            { frame := kpage
              writable := writable
              dirty := false
              accessed := false
              present := true })) := by
  have inTable := ptNo_lt upage
  have shows := sound.entries table inTable
  rw [← pgNo_indices] at shows
  constructor
  · cases isKnown : known (pgNo upage) with
    | none =>
        rw [isKnown] at shows
        exact shows
    | some entry =>
        rw [isKnown] at shows unmapped
        have present : hasFlag (m.word pt (ptNo upage)) pteP = entry.present :=
          congrArg PageEntry.present shows
        rw [present]
        cases set : entry.present with
        | false => rfl
        | true =>
            simp only [frameOf, Option.bind_some, set, if_true] at unmapped
            cases unmapped
  · refine ⟨_, pteCreateUser_eq valid writable, ?_⟩
    rw [pgNo_indices]
    apply sound.write table inTable
    · exact ofPte_created valid writable
    · intro entry same
      cases same
      exact valid

theorem setPage (sound : DirSound boot before pd tables m known)
    {upage kpage : Word} (writable : Bool) {grant : Option Word}
    (aligned : pgOfs upage = 0#32) (user : isUserVaddr upage = true)
    (unmapped : frameOf (known (pgNo upage)) = none) (valid : IsPage kpage)
    (ram : (vtop kpage).any (fun paddr => pgNo paddr < boot.initRamPages) = true)
    (granted : MayReturn m grant) :
    (m.pagedirSetPage boot pd upage kpage writable grant = some (false, m)) ∨
      ∃ after tables,
        m.pagedirSetPage boot pd upage kpage writable grant = some (true, after) ∧
          DirSound boot before pd tables after
            (Function.update known (pgNo upage) (some
              { frame := kpage
                writable := writable
                dirty := false
                accessed := false
                present := true })) := by
  -- both ways to find an entry end in the same write
  have written : ∀ {pt tables found},
      DirSound boot before pd tables found known →
      tables (pdNo upage) = some pt →
      m.lookupPage pd upage true grant = some (some (pt, ptNo upage), found) →
      ∃ after tables,
        m.pagedirSetPage boot pd upage kpage writable grant = some (true, after) ∧
          DirSound boot before pd tables after
            (Function.update known (pgNo upage) (some
              { frame := kpage
                writable := writable
                dirty := false
                accessed := false
                present := true })) := by
    intro pt tables found foundSound table lookup
    rcases foundSound.install writable valid unmapped table with ⟨absent, pte, created, installed⟩
    refine ⟨_, tables, ?_, installed⟩
    rw [Machine.pagedirSetPage, if_neg (not_not_intro aligned),
      if_neg (not_not_intro valid.1), user, Bool.not_true, if_neg Bool.false_ne_true,
      ram, Bool.not_true, if_neg Bool.false_ne_true, if_neg sound.notInit, lookup,
      Option.bind_some]
    dsimp only
    rw [absent, if_neg Bool.false_ne_true, created]
    rfl
  cases table : tables (pdNo upage) with
  | some pt =>
      exact Or.inr (written sound table (sound.lookup_found user true grant table))
  | none =>
      cases grant with
      | none =>
          apply Or.inl
          rw [Machine.pagedirSetPage, if_neg (not_not_intro aligned),
            if_neg (not_not_intro valid.1), user, Bool.not_true,
            if_neg Bool.false_ne_true, ram, Bool.not_true, if_neg Bool.false_ne_true,
            if_neg sound.notInit, sound.lookup_refused user table]
          rfl
      | some pt =>
          have fresh : Granted m pt := granted
          apply Or.inr
          exact written (sound.add_table user table fresh)
            (Function.update_self _ _ _) (sound.lookup_granted user table fresh)

theorem clearPage (sound : DirSound boot before pd tables m known)
    {upage : Word} (aligned : pgOfs upage = 0#32) (user : isUserVaddr upage = true) :
    ∃ after, m.pagedirClearPage boot pd upage = some after ∧
      DirSound boot before pd tables after
        (Function.update known (pgNo upage)
          ((known (pgNo upage)).map fun entry => { entry with present := false })) := by
  have inTable := ptNo_lt upage
  rw [Machine.pagedirClearPage, if_neg (not_not_intro aligned), user, Bool.not_true,
    if_neg Bool.false_ne_true]
  cases table : tables (pdNo upage) with
  | none =>
      have unknown := sound.unknown ((isUserVaddr_iff upage).mp user) table inTable
      rw [← pgNo_indices] at unknown
      refine ⟨m, ?_, ?_⟩
      · rw [sound.lookup_missing user none table]
        rfl
      · rw [unknown, Option.map_none, ← unknown, Function.update_eq_self]
        exact sound
  | some pt =>
      have shows := sound.entries table inTable
      rw [← pgNo_indices] at shows
      rw [sound.lookup_found user false none table, Option.bind_some]
      dsimp only
      cases isKnown : known (pgNo upage) with
      | none =>
          rw [isKnown] at shows
          have absent : hasFlag (m.word pt (ptNo upage)) pteP = false := shows
          refine ⟨m, ?_, ?_⟩
          · rw [absent, if_neg Bool.false_ne_true]
          · rw [Option.map_none, ← isKnown, Function.update_eq_self]
            exact sound
      | some entry =>
          rw [isKnown] at shows
          have entryShown : PageEntry.ofPte (m.word pt (ptNo upage)) = entry := shows
          have present : hasFlag (m.word pt (ptNo upage)) pteP = entry.present :=
            congrArg PageEntry.present entryShown
          rw [present]
          cases set : entry.present with
          | false =>
              refine ⟨m, if_neg Bool.false_ne_true, ?_⟩
              have same : { entry with present := false } = entry := by
                rw [← set]
              rw [Option.map_some, same, ← isKnown, Function.update_eq_self]
              exact sound
          | true =>
              have written : DirSound boot before pd tables
                  (m.store pt (ptNo upage) (m.word pt (ptNo upage) &&& ~~~pteP))
                  (Function.update known (pgNo upage)
                    (some { entry with present := false })) := by
                rw [pgNo_indices]
                apply sound.write table inTable
                · rw [← entryShown]
                  exact ofPte_clear_present _
                · intro other same
                  cases same
                  have valid := sound.frames isKnown
                  exact valid
              exact ⟨_, (if_pos rfl).trans written.invalidate, written⟩

theorem setFlag (sound : DirSound boot before pd tables m known)
    {vpage flag : Word} {value : Bool} (change : PageEntry → PageEntry)
    (user : isUserVaddr vpage = true) (apart : flag &&& pteP = 0#32)
    (changed : ∀ pte, PageEntry.ofPte (putFlag flag value pte) = change (PageEntry.ofPte pte))
    (frame : ∀ entry, (change entry).frame = entry.frame) :
    ∃ after, m.setFlag boot flag pd vpage value = some after ∧
      DirSound boot before pd tables after
        (Function.update known (pgNo vpage) ((known (pgNo vpage)).map change)) := by
  have inTable := ptNo_lt vpage
  cases table : tables (pdNo vpage) with
  | none =>
      have unknown := sound.unknown ((isUserVaddr_iff vpage).mp user) table inTable
      rw [← pgNo_indices] at unknown
      refine ⟨m, ?_, ?_⟩
      · rw [Machine.setFlag, sound.lookup_missing user none table]
        rfl
      · rw [unknown, Option.map_none, ← unknown, Function.update_eq_self]
        exact sound
  | some pt =>
      have shows := sound.entries table inTable
      rw [← pgNo_indices] at shows
      have written : DirSound boot before pd tables
          (m.store pt (ptNo vpage) (putFlag flag value (m.word pt (ptNo vpage))))
          (Function.update known (pgNo vpage) ((known (pgNo vpage)).map change)) := by
        cases isKnown : known (pgNo vpage) with
        | none =>
            rw [isKnown] at shows
            rw [pgNo_indices]
            apply sound.write table inTable
            · exact (hasFlag_putFlag _ apart).trans shows
            · intro other same
              cases same
        | some entry =>
            rw [isKnown] at shows
            rw [pgNo_indices]
            apply sound.write table inTable
            · exact (changed _).trans (congrArg change shows)
            · intro other same
              rw [Option.map_some, Option.some.injEq] at same
              rw [← same, frame]
              exact sound.frames isKnown
      refine ⟨_, ?_, written⟩
      rw [Machine.setFlag, sound.lookup_found user false none table, Option.bind_some]
      cases value with
      | true => exact if_pos rfl
      | false => exact (if_neg Bool.false_ne_true).trans written.invalidate

end DirSound

/-! ## A whole session -/

section Session

variable {boot : Boot} {before : Machine} {s : PagedirSession}
variable {tables : Nat → Option Word}

theorem entryOf_snoc (events : List PagedirEvent) (event : PagedirEvent) :
    entryOf (events ++ [event]) =
      Function.update (entryOf events) event.call.page
        (PageEntry.after (entryOf events event.call.page) event) := by
  funext number
  rw [entryOf_append]
  by_cases own : event.call.page = number
  · subst own
    rw [if_pos rfl, Function.update_self]
  · rw [if_neg own, Function.update_of_ne (Ne.symm own)]

/-- A call returns, and the directory agrees with what the calls say. -/
def Performs (boot : Boot) (before : Machine) (s : PagedirSession) (call : PagedirCall) : Prop :=
  ∃ reply after tables,
    call.perform boot s.pd s.machine = some (reply, after) ∧
      DirSound boot before s.pd tables after (entryOf (s.events ++ [⟨call, reply⟩])) ∧
      (reply = .flag false → after = s.machine)

/-- A call that changes neither the memory nor what is known. -/
theorem performs_query
    (sound : DirSound boot before s.pd tables s.machine (entryOf s.events))
    {call : PagedirCall} {reply : PagedirReply}
    (performed : call.perform boot s.pd s.machine = some (reply, s.machine))
    (silent : ∀ entry, PageEntry.after entry ⟨call, reply⟩ = entry) :
    Performs boot before s call := by
  refine ⟨reply, s.machine, tables, performed, ?_, fun _ => rfl⟩
  rw [entryOf_snoc, silent, Function.update_eq_self]
  exact sound

/-- A call that changes what is known of one page. -/
theorem performs_update {call : PagedirCall} {reply : PagedirReply} {after : Machine}
    (performed : call.perform boot s.pd s.machine = some (reply, after))
    (effective : reply ≠ .flag false)
    (sound : DirSound boot before s.pd tables after
      (Function.update (entryOf s.events) call.page
        (PageEntry.after (entryOf s.events call.page) ⟨call, reply⟩))) :
    Performs boot before s call := by
  refine ⟨reply, after, tables, performed, ?_, fun refused => absurd refused effective⟩
  rw [entryOf_snoc]
  exact sound

/-- Every call that is allowed returns, and keeps the directory sound. -/
theorem perform_sound
    (sound : DirSound boot before s.pd tables s.machine (entryOf s.events))
    {call : PagedirCall} (allowed : Allowed boot s call) :
    Performs boot before s call := by
  cases call with
  | setPage upage kpage writable grant =>
      rcases allowed with ⟨aligned, user, unmapped, valid, ram, granted⟩
      rcases sound.setPage writable aligned user unmapped valid ram
        granted with refused | ⟨after, tables, done, kept⟩
      · have performed : (PagedirCall.setPage upage kpage writable grant).perform
            boot s.pd s.machine = some (.flag false, s.machine) := by
          rw [PagedirCall.perform, refused]
          rfl
        exact performs_query sound performed fun _ => rfl
      · have performed : (PagedirCall.setPage upage kpage writable grant).perform
            boot s.pd s.machine = some (.flag true, after) := by
          rw [PagedirCall.perform, done]
          rfl
        exact performs_update performed (by decide) kept
  | getPage uaddr =>
      have performed := congrArg (Option.map fun found =>
        (PagedirReply.address found, s.machine)) (sound.getPage allowed)
      exact performs_query sound performed fun _ => rfl
  | clearPage upage =>
      rcases sound.clearPage allowed.1 allowed.2 with ⟨after, done, kept⟩
      have performed := congrArg (Option.map fun after =>
        (PagedirReply.nothing, after)) done
      exact performs_update performed (by decide) kept
  | isDirty vpage =>
      rcases sound.isFlag allowed pteD with ⟨value, answered, _⟩
      have performed := congrArg (Option.map fun value =>
        (PagedirReply.flag value, s.machine)) answered
      exact performs_query sound performed fun _ => rfl
  | setDirty vpage dirty =>
      have apart : pteD &&& pteP = 0#32 := by decide
      rcases sound.setFlag (fun entry => { entry with dirty := dirty }) allowed apart
        (ofPte_putDirty · dirty) (fun _ => rfl) with ⟨after, done, kept⟩
      have performed := congrArg (Option.map fun after =>
        (PagedirReply.nothing, after)) done
      exact performs_update performed (by decide) kept
  | isAccessed vpage =>
      rcases sound.isFlag allowed pteA with ⟨value, answered, _⟩
      have performed := congrArg (Option.map fun value =>
        (PagedirReply.flag value, s.machine)) answered
      exact performs_query sound performed fun _ => rfl
  | setAccessed vpage accessed =>
      have apart : pteA &&& pteP = 0#32 := by decide
      rcases sound.setFlag (fun entry => { entry with accessed := accessed }) allowed apart
        (ofPte_putAccessed · accessed) (fun _ => rfl) with ⟨after, done, kept⟩
      have performed := congrArg (Option.map fun after =>
        (PagedirReply.nothing, after)) done
      exact performs_update performed (by decide) kept

theorem session_sound (booted : Booted boot before)
    (reachable : (pagedirSystem boot before).Reachable s) :
    ∃ tables, DirSound boot before s.pd tables s.machine (entryOf s.events) := by
  induction reachable with
  | initial start =>
      exact ⟨_, start_sound booted start⟩
  | @step s target call _ stepped inductionHypothesis =>
      rcases inductionHypothesis with ⟨tables, sound⟩
      change PagedirSession.step boot s call = some target at stepped
      by_cases allowed : Allowed boot s call
      · rcases perform_sound sound allowed with ⟨reply, after, tables, done, kept, _⟩
        rw [PagedirSession.step, if_pos allowed, done, Option.map_some,
          Option.some.injEq] at stepped
        subst stepped
        exact ⟨tables, kept⟩
      · rw [PagedirSession.step, if_neg allowed] at stepped
        cases stepped

end Session

end CS162.Userprog
