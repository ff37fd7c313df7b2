import CS162.HwShell.Launching

/-!
# The descriptors that the shell leaks

Which lines leave the shell with the descriptors that it had before.
-/

namespace CS162.HwShell

open CS162.Foundation

/-- No call of `open` for the parts of a stage succeeds; the calls are numbered. -/
def opensNone (opens : Nat → Bool) : Nat → List Item → Bool
  | _, [] => true
  | n, .word _ :: rest => opensNone opens n rest
  | n, .output _ :: rest => !opens n && opensNone opens (n + 1) rest
  | n, .input _ :: _ => !opens n

/-- No call of `open` for the parts of a stage succeeds but that for the last `>`. -/
def opensLast (opens : Nat → Bool) : Nat → List Item → Bool
  | _, [] => true
  | n, .word _ :: rest => opensLast opens n rest
  | n, .output _ :: rest =>
      (!opens n || (outputs rest).isEmpty) && opensLast opens (n + 1) rest
  | n, .input _ :: _ => !opens n

/-- Nothing is opened for the stages before a pipe symbol, and their calls of `pipe` are as
they should be. -/
def stagesQuiet (outcomes : ParseOutcomes) (pipeFine : Nat → Bool) : Nat → List Stage → Bool
  | _, [] => true
  | number, stage :: rest =>
      opensNone (outcomes.openPiped number) 0 (items stage).1 && pipeFine number &&
        stagesQuiet outcomes pipeFine (number + 1) rest

/-- Nothing is closed if a descriptor is closed. -/
def harmless (table : DescriptorTable Descriptor) (descriptor : Int) : Bool :=
  decide (descriptor = 0) || (table.entry descriptor).isNone

/-- `pipe` succeeds, or nothing is closed when what the array holds is closed. -/
def pipeHarmless (outcomes : ParseOutcomes) (table : DescriptorTable Descriptor)
    (number : Nat) : Bool :=
  (outcomes.pipe number).all fun pipefd => harmless table pipefd.1 && harmless table pipefd.2

/-- A line leaves the descriptors as they are: if it is accepted, only the last `>` of the
last stage is opened and nothing else is closed, and otherwise nothing is opened. -/
def lineClean (shell : Shell) (entered : Outcomes × List UInt8) : Bool :=
  let outcomes := entered.1.toParseOutcomes
  let tokens := words (textOf entered.2)
  let split := acceptedStages outcomes 0 (stagesOf tokens)
  if (lookup tokens.head?).isSome then true
  else if lineAccepted outcomes tokens then
    stagesQuiet outcomes (pipeHarmless outcomes shell.descriptors) 0 split.1 &&
      opensLast outcomes.openLast 0 (items (restOf outcomes tokens)).1
  else
    stagesQuiet outcomes (fun number => (outcomes.pipe number).isSome) 0 split.1 &&
      (decide (split.2.length ≤ 1) || split.2.head?.all fun stage =>
        opensNone (outcomes.openPiped split.1.length) 0 (items stage).1) &&
      opensNone outcomes.openLast 0 (items (restOf outcomes tokens)).1

/-- The same descriptors are open. -/
def SameOpen (before after : DescriptorTable Descriptor) : Prop :=
  ∀ descriptor, after.IsOpen descriptor ↔ before.IsOpen descriptor

section Parsing

variable {opens : Nat → Bool} {parts : List Item} {p : Parsing}

/-- If nothing is opened, the descriptors stay as they are. -/
theorem run_of_opensNone (none : opensNone opens p.opens parts = true) :
    (Parsing.run opens parts p).1.descriptors = p.descriptors := by
  induction parts generalizing p with
  | nil => rfl
  | cons part parts inductionHypothesis =>
      cases part with
      | word token => exact @inductionHypothesis (p.word token) none
      | output name =>
          rw [opensNone, Bool.and_eq_true, Bool.not_eq_true'] at none
          rw [Parsing.run, none.1]
          exact @inductionHypothesis (p.output false name) none.2
      | input name =>
          rw [opensNone, Bool.not_eq_true'] at none
          rw [Parsing.run, none, if_neg Bool.false_ne_true]
          rfl

/-- Behind the last `>` nothing is opened any more. -/
theorem run_of_opensLast_done (none : opensLast opens p.opens parts = true)
    (done : (outputs parts).isEmpty = true) :
    (Parsing.run opens parts p).1.descriptors = p.descriptors ∧
      (Parsing.run opens parts p).1.redirectOut = p.redirectOut := by
  induction parts generalizing p with
  | nil => exact ⟨rfl, rfl⟩
  | cons part parts inductionHypothesis =>
      cases part with
      | word token => exact @inductionHypothesis (p.word token) none done
      | output name => cases done
      | input name =>
          rw [opensLast, Bool.not_eq_true'] at none
          rw [Parsing.run, none, if_neg Bool.false_ne_true]
          exact ⟨rfl, rfl⟩

/-- If only the last `>` is opened, the task has the one new descriptor. -/
theorem run_of_opensLast (last : opensLast opens p.opens parts = true)
    (unset : p.redirectOut = -1) :
    ((Parsing.run opens parts p).1.descriptors = p.descriptors ∧
        (Parsing.run opens parts p).1.redirectOut = -1) ∨
      p.descriptors.entry (Parsing.run opens parts p).1.redirectOut = none ∧
        ∀ descriptor, descriptor ≠ (Parsing.run opens parts p).1.redirectOut →
          (Parsing.run opens parts p).1.descriptors.entry descriptor =
            p.descriptors.entry descriptor := by
  induction parts generalizing p with
  | nil => exact Or.inl ⟨rfl, unset⟩
  | cons part parts inductionHypothesis =>
      cases part with
      | word token => exact @inductionHypothesis (p.word token) last unset
      | output name =>
          rw [opensLast, Bool.and_eq_true] at last
          rw [Parsing.run]
          cases success : opens p.opens with
          | false => exact @inductionHypothesis (p.output false name) last.2 rfl
          | true =>
              have done : (outputs parts).isEmpty = true := by
                have either := last.1
                rw [success] at either
                exact either
              have rest := @run_of_opensLast_done opens parts (p.output true name) last.2 done
              rw [rest.1, rest.2]
              refine Or.inr ⟨DescriptorTable.entry_lowest, ?_⟩
              intro descriptor other
              exact (DescriptorTable.entry_allocate _ _).trans (if_neg other)
      | input name =>
          rw [opensLast, Bool.not_eq_true'] at last
          rw [Parsing.run, last, if_neg Bool.false_ne_true]
          exact Or.inl ⟨rfl, unset⟩

end Parsing

section Open

variable {table before after third : DescriptorTable Descriptor}

theorem SameOpen.refl (table : DescriptorTable Descriptor) : SameOpen table table :=
  fun _ => Iff.rfl

theorem SameOpen.trans (one : SameOpen before after) (two : SameOpen after third) :
    SameOpen before third :=
  fun descriptor => (two descriptor).trans (one descriptor)

theorem isOpen_setCloexec (set descriptor : Int) :
    (setCloexec table set).IsOpen descriptor ↔ table.IsOpen descriptor := by
  rw [isOpen_iff_fileAt, isOpen_iff_fileAt, fileAt_setCloexec]

theorem isOpen_of_entry_eq {descriptor : Int}
    (same : after.entry descriptor = before.entry descriptor) :
    after.IsOpen descriptor ↔ before.IsOpen descriptor := by
  rw [DescriptorTable.IsOpen, DescriptorTable.IsOpen, same]

theorem not_isOpen_of_none {descriptor : Int} (free : table.entry descriptor = none) :
    ¬table.IsOpen descriptor := by
  rw [DescriptorTable.IsOpen, free]
  exact Bool.false_ne_true

theorem harmless_iff {descriptor : Int} :
    harmless table descriptor = true ↔ descriptor = 0 ∨ ¬table.IsOpen descriptor := by
  rw [harmless, Bool.or_eq_true, decide_eq_true_eq, DescriptorTable.IsOpen, Bool.not_eq_true,
    Option.isSome_eq_false_iff]

end Open

/-- A descriptor is one of the tasks that are stored, or that of the next one. -/
def Taken (b : Building) (descriptor : Int) : Prop :=
  Used (b.tasks.map CommandTask.redirects) descriptor ∨ descriptor = b.nextIn

/-- What is open is what was open before the line and what belongs to the tasks, and these
have nothing in common but descriptor 0. -/
structure Owned (table : DescriptorTable Descriptor) (b : Building) : Prop where
  kept : ∀ descriptor, table.IsOpen descriptor → b.descriptors.IsOpen descriptor
  owned : ∀ descriptor, b.descriptors.IsOpen descriptor →
    table.IsOpen descriptor ∨ Taken b descriptor
  foreign : ∀ descriptor, Taken b descriptor → descriptor = 0 ∨ ¬table.IsOpen descriptor

section Building

variable {outcomes : ParseOutcomes} {table : DescriptorTable Descriptor} {b : Building}

theorem Owned.start (shell : Shell) :
    Owned shell.descriptors { descriptors := shell.descriptors, pipes := shell.pipes } where
  kept := fun _ isOpen => isOpen
  owned := fun _ isOpen => Or.inl isOpen
  foreign := by
    intro descriptor taken
    rcases taken with ⟨_, member, _⟩ | same
    · cases member
    · have minus : descriptor = -1 := same
      rw [minus]
      exact Or.inr (not_isOpen_of_none (DescriptorTable.entry_of_neg (by decide)))

/-- What is taken after a task has been stored. -/
theorem taken_append {front : List CommandTask} {added : CommandTask} {descriptor : Int} :
    Used ((front ++ [added]).map CommandTask.redirects) descriptor ↔
      Used (front.map CommandTask.redirects) descriptor ∨
        descriptor = added.redirectIn ∨ descriptor = added.redirectOut := by
  constructor
  · intro ⟨pair, member, either⟩
    rw [List.map_append] at member
    rcases List.mem_append.mp member with old | new
    · exact Or.inl ⟨pair, old, either⟩
    · rw [List.mem_singleton.mp new] at either
      exact Or.inr either
  · intro either
    rw [List.map_append]
    rcases either with ⟨pair, member, same⟩ | new
    · exact ⟨pair, List.mem_append_left _ member, same⟩
    · exact ⟨added.redirects, List.mem_append_right _ (List.mem_singleton_self _), new⟩

theorem parse_of_opensNone {stage : Stage}
    (quiet : opensNone (outcomes.openPiped b.tasks.length) 0 (items stage).1 = true) :
    (b.parse outcomes stage).descriptors = b.descriptors :=
  @run_of_opensNone (outcomes.openPiped b.tasks.length) (items stage).1
    { descriptors := b.descriptors } quiet

/-- A stage for which nothing is opened takes the ends of its pipe only. -/
theorem Owned.addStage (owned : Owned table b) {stage : Stage}
    (quiet : opensNone (outcomes.openPiped b.tasks.length) 0 (items stage).1 = true)
    (fine : pipeHarmless outcomes table b.tasks.length = true) :
    Owned table (b.addStage outcomes stage) := by
  have same := parse_of_opensNone quiet
  cases made : outcomes.pipe b.tasks.length with
  | none =>
      rcases @addPiped_of_made outcomes { b with
          descriptors := (b.parse outcomes stage).descriptors }
        (taskOf (b.parse outcomes stage)) made with
        ⟨readEnd, writeEnd, after, added, freeRead, freeWrite, reads, writes, others⟩
      rw [same] at freeRead freeWrite others
      rw [Building.addStage, added]
      refine ⟨?_, ?_, ?_⟩
      · intro descriptor isOpen
        rcases Option.isSome_iff_exists.mp (owned.kept descriptor isOpen) with ⟨known, entry⟩
        have kept := grows_of_others freeRead freeWrite others descriptor known entry
        exact DescriptorTable.isOpen_of_entry kept
      · intro descriptor isOpen
        by_cases isRead : descriptor = readEnd
        · exact Or.inr (Or.inr isRead)
        · by_cases isWrite : descriptor = writeEnd
          · exact Or.inr (Or.inl (taken_append.mpr (Or.inr (Or.inr isWrite))))
          · have there := (isOpen_of_entry_eq (others descriptor isRead isWrite)).mp isOpen
            rcases owned.owned descriptor there with old | used | next
            · exact Or.inl old
            · exact Or.inr (Or.inl (taken_append.mpr (Or.inl used)))
            · exact Or.inr (Or.inl (taken_append.mpr (Or.inr (Or.inl next))))
      · intro descriptor taken
        have free : b.descriptors.entry descriptor = none → ¬table.IsOpen descriptor :=
          fun none isOpen => not_isOpen_of_none none (owned.kept descriptor isOpen)
        rcases taken with used | isRead
        · rcases taken_append.mp used with old | isNext | isWrite
          · exact owned.foreign descriptor (Or.inl old)
          · exact owned.foreign descriptor (Or.inr isNext)
          · rw [isWrite] at free ⊢
            exact Or.inr (free freeWrite)
        · rw [isRead] at free ⊢
          exact Or.inr (free freeRead)
  | some pipefd =>
      have added := @addPiped_of_failed outcomes { b with
        descriptors := (b.parse outcomes stage).descriptors }
        (taskOf (b.parse outcomes stage)) pipefd made
      rw [pipeHarmless, made, Option.all_some, Bool.and_eq_true] at fine
      have flags : ∀ descriptor, (setCloexec (setCloexec (b.parse outcomes stage).descriptors
          pipefd.1) pipefd.2).IsOpen descriptor ↔ b.descriptors.IsOpen descriptor := by
        intro descriptor
        rw [isOpen_setCloexec, isOpen_setCloexec, same]
      rw [Building.addStage, added]
      refine ⟨fun descriptor isOpen => (flags descriptor).mpr (owned.kept descriptor isOpen),
        ?_, ?_⟩
      · intro descriptor isOpen
        rcases owned.owned descriptor ((flags descriptor).mp isOpen) with old | used | next
        · exact Or.inl old
        · exact Or.inr (Or.inl (taken_append.mpr (Or.inl used)))
        · exact Or.inr (Or.inl (taken_append.mpr (Or.inr (Or.inl next))))
      · intro descriptor taken
        rcases taken with used | isRead
        · rcases taken_append.mp used with old | isNext | isWrite
          · exact owned.foreign descriptor (Or.inl old)
          · exact owned.foreign descriptor (Or.inr isNext)
          · rw [isWrite]
            exact harmless_iff.mp fine.2
        · rw [isRead]
          exact harmless_iff.mp fine.1

/-- If all stages before a pipe symbol are accepted, the tasks own what is new. -/
theorem Owned.pipeStages {stages : List Stage} (owned : Owned table b)
    (quiet : stagesQuiet outcomes (pipeHarmless outcomes table) b.tasks.length
      (acceptedStages outcomes b.tasks.length stages).1 = true)
    (all : (acceptedStages outcomes b.tasks.length stages).2.length ≤ 1) :
    Owned table (HwShell.pipeStages outcomes stages b).1 := by
  fun_induction HwShell.pipeStages outcomes stages b with
  | case1 stage next rest b valid inductionHypothesis =>
      rw [acceptedStages, if_pos valid, stagesQuiet, Bool.and_eq_true, Bool.and_eq_true] at quiet
      rw [acceptedStages, if_pos valid] at all
      rw [length_addStage] at inductionHypothesis
      exact inductionHypothesis (owned.addStage quiet.1.1 quiet.1.2) quiet.2 all
  | case2 stage next rest b invalid =>
      rw [acceptedStages, if_neg invalid] at all
      exact absurd all (Nat.not_le.mpr
        (Nat.succ_le_succ (Nat.succ_le_succ (Nat.zero_le _))))
  | case3 stages b short => exact owned

/-- If nothing is opened and no pipe is made, the descriptors stay open or closed. -/
theorem sameOpen_pipeStages {stages : List Stage}
    (quiet : stagesQuiet outcomes (fun number => (outcomes.pipe number).isSome) b.tasks.length
      (acceptedStages outcomes b.tasks.length stages).1 = true)
    (stop : (acceptedStages outcomes b.tasks.length stages).2.length ≤ 1 ∨
      ∀ stage ∈ (acceptedStages outcomes b.tasks.length stages).2.head?,
        opensNone (outcomes.openPiped (b.tasks.length +
          (acceptedStages outcomes b.tasks.length stages).1.length)) 0 (items stage).1 = true) :
    SameOpen b.descriptors (pipeStages outcomes stages b).1.descriptors := by
  fun_induction pipeStages outcomes stages b with
  | case1 stage next rest b valid inductionHypothesis =>
      rw [acceptedStages, if_pos valid, stagesQuiet, Bool.and_eq_true, Bool.and_eq_true] at quiet
      have index : b.tasks.length +
          ((acceptedStages outcomes (b.tasks.length + 1) (next :: rest)).1.length + 1) =
            b.tasks.length + 1 +
              (acceptedStages outcomes (b.tasks.length + 1) (next :: rest)).1.length := by
        omega
      rw [acceptedStages, if_pos valid, List.length_cons, index] at stop
      rw [length_addStage] at inductionHypothesis
      rcases Option.isSome_iff_exists.mp quiet.1.2 with ⟨pipefd, made⟩
      have added := @addPiped_of_failed outcomes { b with
        descriptors := (b.parse outcomes stage).descriptors }
        (taskOf (b.parse outcomes stage)) pipefd made
      have first : SameOpen b.descriptors (b.addStage outcomes stage).descriptors := by
        intro descriptor
        rw [Building.addStage, added, isOpen_setCloexec, isOpen_setCloexec,
          parse_of_opensNone quiet.1.1]
      exact first.trans (inductionHypothesis quiet.2 stop)
  | case2 stage next rest b invalid =>
      rw [acceptedStages, if_neg invalid] at stop
      rcases stop with short | none
      · exact absurd short (Nat.not_le.mpr (Nat.succ_le_succ (Nat.succ_le_succ (Nat.zero_le _))))
      · dsimp only
        rw [parse_of_opensNone (none stage rfl)]
        exact SameOpen.refl _
  | case3 stages b short => exact SameOpen.refl _

/-- If the tasks own what is new and the last stage opens at most its last `>`, what was open
before is left when the descriptors of the tasks are closed. -/
theorem Owned.sameOpen (owned : Owned table b) {rest : Stage} (input : table.IsOpen 0)
    (last : opensLast outcomes.openLast 0 (items rest).1 = true) :
    SameOpen table (closeAll (b.parseLast outcomes rest).descriptors
      (b.tasks.map CommandTask.redirects ++ [(b.lastTask outcomes rest).redirects])) := by
  have grows : Grows b.descriptors (b.parseLast outcomes rest).descriptors :=
    run_grows _ _ { descriptors := b.descriptors }
  have parsed : ((b.parseLast outcomes rest).descriptors = b.descriptors ∧
        (b.parseLast outcomes rest).redirectOut = -1) ∨
      b.descriptors.entry (b.parseLast outcomes rest).redirectOut = none ∧
        ∀ descriptor, descriptor ≠ (b.parseLast outcomes rest).redirectOut →
          (b.parseLast outcomes rest).descriptors.entry descriptor =
            b.descriptors.entry descriptor :=
    @run_of_opensLast outcomes.openLast (items rest).1 { descriptors := b.descriptors } last rfl
  have used : ∀ descriptor, Used (b.tasks.map CommandTask.redirects ++
      [(b.lastTask outcomes rest).redirects]) descriptor ↔
        Taken b descriptor ∨ descriptor = (b.parseLast outcomes rest).redirectOut := by
    intro descriptor
    have split := @taken_append b.tasks (b.lastTask outcomes rest) descriptor
    rw [List.map_append] at split
    rw [Taken, or_assoc]
    exact split
  -- The last task has no descriptor of its own, or a new one.
  have foreign : ¬table.IsOpen (b.parseLast outcomes rest).redirectOut := by
    rcases parsed with ⟨_, unset⟩ | ⟨free, _⟩
    · rw [unset]
      exact not_isOpen_of_none (DescriptorTable.entry_of_neg (by decide))
    · exact fun isOpen => not_isOpen_of_none free (owned.kept _ isOpen)
  have before : ∀ descriptor, (b.parseLast outcomes rest).descriptors.IsOpen descriptor →
      b.descriptors.IsOpen descriptor ∨
        descriptor = (b.parseLast outcomes rest).redirectOut := by
    intro descriptor isOpen
    rcases parsed with ⟨same, _⟩ | ⟨_, others⟩
    · rw [same] at isOpen
      exact Or.inl isOpen
    · by_cases new : descriptor = (b.parseLast outcomes rest).redirectOut
      · exact Or.inr new
      · exact Or.inl ((isOpen_of_entry_eq (others descriptor new)).mp isOpen)
  intro descriptor
  rcases @entry_closeAll (b.parseLast outcomes rest).descriptors descriptor
    (b.tasks.map CommandTask.redirects ++ [(b.lastTask outcomes rest).redirects]) with
    ⟨closed, taken, nonzero⟩ | ⟨kept, unused⟩
  · apply iff_of_false (not_isOpen_of_none closed)
    rcases (used descriptor).mp taken with task | isLast
    · exact (owned.foreign descriptor task).resolve_left nonzero
    · rw [isLast]
      exact foreign
  · rw [isOpen_of_entry_eq kept]
    constructor
    · intro isOpen
      by_cases zero : descriptor = 0
      · rw [zero]
        exact input
      · rcases before descriptor isOpen with old | isLast
        · rcases owned.owned descriptor old with start | task
          · exact start
          · exact absurd ⟨(used descriptor).mpr (Or.inl task), zero⟩ unused
        · exact absurd ⟨(used descriptor).mpr (Or.inr isLast), zero⟩ unused
    · intro isOpen
      rcases Option.isSome_iff_exists.mp (owned.kept descriptor isOpen) with ⟨known, entry⟩
      exact DescriptorTable.isOpen_of_entry (grows _ _ entry)

end Building

section Lines

variable {outcomes : ParseOutcomes} {shell : Shell} {line : List UInt8}

/-- A line that is accepted and clean leaves the descriptors that were open. -/
theorem sameOpen_of_accepts (input : shell.descriptors.IsOpen 0) (accepts : Accepts outcomes line)
    (quiet : stagesQuiet outcomes (pipeHarmless outcomes shell.descriptors) 0
      (acceptedStages outcomes 0 (stagesOf (words (textOf line)))).1 = true)
    (last : opensLast outcomes.openLast 0
      (items (restOf outcomes (words (textOf line)))).1 = true) :
    SameOpen shell.descriptors
      (closeAll (lineTable outcomes shell line) (lineRedirects outcomes shell line)) := by
  have all := accepts.accepted
  rw [lineAccepted, Bool.and_eq_true] at all
  have short := (stagesValid_iff (List.splitOn_ne_nil _ _) accepts.launchable.last).mp all.1
  have owned : Owned shell.descriptors (built outcomes shell (words (textOf line))) :=
    (Owned.start shell).pipeStages quiet short
  exact owned.sameOpen input last

/-- A line that is rejected and clean leaves the descriptors that were open. -/
theorem sameOpen_of_rejected
    (quiet : stagesQuiet outcomes (fun number => (outcomes.pipe number).isSome) 0
      (acceptedStages outcomes 0 (stagesOf (words (textOf line)))).1 = true)
    (stop : (acceptedStages outcomes 0 (stagesOf (words (textOf line)))).2.length ≤ 1 ∨
      ∀ stage ∈ (acceptedStages outcomes 0 (stagesOf (words (textOf line)))).2.head?,
        opensNone (outcomes.openPiped
          (acceptedStages outcomes 0 (stagesOf (words (textOf line)))).1.length) 0
            (items stage).1 = true)
    (last : opensNone outcomes.openLast 0
      (items (restOf outcomes (words (textOf line)))).1 = true) :
    SameOpen shell.descriptors (lineTable outcomes shell line) := by
  have built : SameOpen shell.descriptors
      (built outcomes shell (words (textOf line))).descriptors := by
    apply sameOpen_pipeStages quiet
    change _ ∨ ∀ stage ∈ _, opensNone (outcomes.openPiped (0 + _)) 0 (items stage).1 = true
    rw [Nat.zero_add]
    exact stop
  have table : lineTable outcomes shell line =
      (HwShell.built outcomes shell (words (textOf line))).descriptors :=
    @run_of_opensNone outcomes.openLast (items (restOf outcomes (words (textOf line)))).1
      { descriptors := (HwShell.built outcomes shell (words (textOf line))).descriptors } last
  rw [table]
  exact built

end Lines

section Rounds

variable {shell after start : Shell} {entered : Outcomes × List UInt8}

/-- A clean line keeps the descriptors. -/
theorem step_sameOpen (input : shell.descriptors.IsOpen 0) (clean : lineClean shell entered = true)
    (moved : (shellSystem start).step shell entered = some after) :
    SameOpen shell.descriptors after.descriptors := by
  rcases entered with ⟨outcomes, line⟩
  rw [lineClean] at clean
  dsimp only at clean
  rcases step_cases moved with ⟨builtin, _, ends⟩ | ⟨accepts, tasks, _, rfl⟩ |
    ⟨plain, rejected, rfl⟩
  · rw [(runBuiltin_shell ends).1]
    exact SameOpen.refl _
  · rw [accepts.plain, Option.isSome_none, if_neg Bool.false_ne_true, accepts.accepted,
      if_pos rfl, Bool.and_eq_true] at clean
    exact sameOpen_of_accepts input accepts clean.1 clean.2
  · rw [plain, Option.isSome_none, if_neg Bool.false_ne_true, rejected,
      if_neg Bool.false_ne_true, Bool.and_eq_true, Bool.and_eq_true, Bool.or_eq_true,
      decide_eq_true_eq, Option.all_eq_true] at clean
    exact sameOpen_of_rejected clean.1.1 clean.1.2 clean.2

end Rounds

/-- However many clean lines are entered, the same descriptors stay open. -/
theorem descriptors_kept (start shell : Shell) (input : start.descriptors.IsOpen 0)
    (reached : ((shellSystem start).restrict lineClean).Reachable shell) :
    SameOpen start.descriptors shell.descriptors := by
  apply reached.invariant fun shell => SameOpen start.descriptors shell.descriptors
  · intro shell initial
    rw [initial]
    exact SameOpen.refl _
  · intro shell entered after _ same moved
    rcases TransitionSystem.restrict_step_iff.mp moved with ⟨clean, moved⟩
    exact same.trans (step_sameOpen ((same 0).mpr input) clean moved)

theorem descriptors_kept_piped :
    ∃ shell, (shellSystem firstShell).step firstShell (fineOutcomes, pipedLine) = some shell ∧
      SameOpen firstShell.descriptors shell.descriptors := by
  rcases handleLine_of_accepts pipedLine_accepts firstShell with ⟨tasks, _, run⟩
  have moved : (shellSystem firstShell).step firstShell (fineOutcomes, pipedLine) = some _ :=
    congrArg LineEnd.shell run
  have clean : lineClean firstShell (fineOutcomes, pipedLine) = true := by
    rw [lineClean, words_pipedLine]
    decide +kernel
  exact ⟨_, moved, descriptors_kept firstShell _ rfl (TransitionSystem.Reachable.step
    (TransitionSystem.Reachable.initial rfl)
    (TransitionSystem.restrict_step_iff.mpr ⟨clean, moved⟩))⟩

/-- The file of `<` stays open. -/
theorem descriptors_kept_input :
    ∃ shell, (shellSystem firstShell).Reachable shell ∧
      ¬SameOpen firstShell.descriptors shell.descriptors := by
  rcases handleLine_of_accepts inputLine_accepts firstShell with ⟨tasks, _, run⟩
  have moved : (shellSystem firstShell).step firstShell (fineOutcomes, inputLine) = some _ :=
    congrArg LineEnd.shell run
  refine ⟨_, TransitionSystem.Reachable.step (TransitionSystem.Reachable.initial rfl) moved, ?_⟩
  intro same
  have closed := same 3
  rw [lineTable, lineRedirects, words_inputLine] at closed
  exact absurd (closed.mp rfl) (by decide +kernel)

end CS162.HwShell
