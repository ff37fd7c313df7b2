import CS162.HwShell.LineSafety

/-!
# Starting the child processes

The descriptors that the shell closes while it starts the child processes, and those that
it gives to each of them.
-/

namespace CS162.HwShell

open CS162.Foundation

/-- What a descriptor refers to. -/
def fileAt (table : DescriptorTable Descriptor) (descriptor : Int) : Option OpenFile :=
  (table.entry descriptor).map Descriptor.file

/-- The descriptors of a child process are set up from those of its task. -/
def childTable (table : DescriptorTable Descriptor) (redirects : Int × Int) :
    DescriptorTable Descriptor :=
  let table := if redirects.1 ≥ 0 then dup2 table redirects.1.toNat 0 else table
  let table := if redirects.2 ≥ 0 then dup2 table redirects.2.toNat 1 else table
  closeOnExec table

/-- The descriptors of some tasks are closed. -/
def closeAll (table : DescriptorTable Descriptor) (redirects : List (Int × Int)) :
    DescriptorTable Descriptor :=
  redirects.foldl (fun table pair => closeUnlessZero (closeUnlessZero table pair.1) pair.2) table

/-- A descriptor is one of a list of tasks. -/
def Used (redirects : List (Int × Int)) (descriptor : Int) : Prop :=
  ∃ pair ∈ redirects, descriptor = pair.1 ∨ descriptor = pair.2

section Tables

variable {table : DescriptorTable Descriptor} {descriptor : Int}

theorem fileAt_of_entry {known : Descriptor} (there : table.entry descriptor = some known) :
    fileAt table descriptor = some known.file := by
  rw [fileAt, there]
  rfl

theorem entry_of_fileAt {file : OpenFile} (there : fileAt table descriptor = some file) :
    ∃ known, table.entry descriptor = some known ∧ known.file = file :=
  Option.map_eq_some_iff.mp there

theorem isOpen_iff_fileAt :
    table.IsOpen descriptor ↔ ∃ file, fileAt table descriptor = some file := by
  rw [DescriptorTable.IsOpen, fileAt, Option.isSome_iff_exists]
  cases table.entry descriptor with
  | none => simp
  | some known => simp

/-- The flag `FD_CLOEXEC` does not change what a descriptor refers to. -/
theorem fileAt_setCloexec (set : Int) :
    fileAt (setCloexec table set) descriptor = fileAt table descriptor := by
  unfold setCloexec
  cases there : table.entry set with
  | none => rfl
  | some known =>
      have nonneg := DescriptorTable.nonneg_of_entry there
      dsimp only
      rw [fileAt, DescriptorTable.entry_put, Int.toNat_of_nonneg nonneg]
      by_cases same : descriptor = set
      · rw [if_pos same, same, fileAt, there]
        rfl
      · rw [if_neg same]
        rfl

/-- Other descriptors keep their flags. -/
theorem entry_setCloexec_of_ne {set : Int} (other : descriptor ≠ set) :
    (setCloexec table set).entry descriptor = table.entry descriptor := by
  unfold setCloexec
  cases there : table.entry set with
  | none => rfl
  | some known =>
      have nonneg := DescriptorTable.nonneg_of_entry there
      dsimp only
      rw [DescriptorTable.entry_put, Int.toNat_of_nonneg nonneg, if_neg other]

theorem entry_closeUnlessZero (closed : Int) :
    (closeUnlessZero table closed).entry descriptor =
      if descriptor = closed ∧ closed ≠ 0 then none else table.entry descriptor := by
  unfold closeUnlessZero
  by_cases zero : closed ≠ 0
  · rw [if_pos zero, DescriptorTable.entry_close]
    by_cases same : descriptor = closed
    · rw [if_pos same, if_pos ⟨same, zero⟩]
    · rw [if_neg same, if_neg fun both => same both.1]
  · rw [if_neg zero, if_neg fun both => zero both.2]

theorem entry_closePair (pair : Int × Int) :
    (closeUnlessZero (closeUnlessZero table pair.1) pair.2).entry descriptor =
      if (descriptor = pair.1 ∨ descriptor = pair.2) ∧ descriptor ≠ 0 then none
      else table.entry descriptor := by
  rw [entry_closeUnlessZero, entry_closeUnlessZero]
  by_cases second : descriptor = pair.2 ∧ pair.2 ≠ 0
  · rw [if_pos second, if_pos ⟨Or.inr second.1, second.1 ▸ second.2⟩]
  · by_cases first : descriptor = pair.1 ∧ pair.1 ≠ 0
    · rw [if_neg second, if_pos first, if_pos ⟨Or.inl first.1, first.1 ▸ first.2⟩]
    · rw [if_neg second, if_neg first, if_neg]
      intro ⟨either, zero⟩
      rcases either with one | two
      · exact first ⟨one, one ▸ zero⟩
      · exact second ⟨two, two ▸ zero⟩

theorem used_cons {pair : Int × Int} {redirects : List (Int × Int)} :
    Used (pair :: redirects) descriptor ↔
      (descriptor = pair.1 ∨ descriptor = pair.2) ∨ Used redirects descriptor := by
  rw [Used, List.exists_mem_cons_iff]
  rfl

/-- What is closed is what the tasks use, but never descriptor 0. -/
theorem entry_closeAll (redirects : List (Int × Int)) :
    ((closeAll table redirects).entry descriptor = none ∧ Used redirects descriptor ∧
        descriptor ≠ 0) ∨
      ((closeAll table redirects).entry descriptor = table.entry descriptor ∧
        ¬(Used redirects descriptor ∧ descriptor ≠ 0)) := by
  induction redirects generalizing table with
  | nil =>
      refine Or.inr ⟨rfl, ?_⟩
      intro ⟨⟨_, member, _⟩, _⟩
      cases member
  | cons pair redirects inductionHypothesis =>
      rw [used_cons]
      rcases @inductionHypothesis (closeUnlessZero (closeUnlessZero table pair.1) pair.2) with
        ⟨closed, used, nonzero⟩ | ⟨kept, unused⟩
      · exact Or.inl ⟨closed, Or.inr used, nonzero⟩
      · rw [entry_closePair] at kept
        by_cases here : (descriptor = pair.1 ∨ descriptor = pair.2) ∧ descriptor ≠ 0
        · rw [if_pos here] at kept
          exact Or.inl ⟨kept, Or.inl here.1, here.2⟩
        · rw [if_neg here] at kept
          refine Or.inr ⟨kept, ?_⟩
          intro ⟨either, nonzero⟩
          rcases either with first | later
          · exact here ⟨first, nonzero⟩
          · exact unused ⟨later, nonzero⟩

/-- `dup2` gives a number another meaning, without the flag. -/
theorem entry_dup2 (old new : Nat) :
    (dup2 table old new).entry descriptor =
      if descriptor = new ∧ old ≠ new ∧ (table.entry old).isSome = true then
        (table.entry old).map fun known => { known with cloexec := false }
      else table.entry descriptor := by
  unfold dup2
  cases there : table.entry old with
  | none =>
      rw [if_neg]
      intro ⟨_, _, isSome⟩
      cases isSome
  | some known =>
      dsimp only
      by_cases same : old = new
      · rw [if_pos same, if_neg fun all => all.2.1 same]
      · rw [if_neg same, DescriptorTable.entry_put]
        by_cases here : descriptor = new
        · rw [if_pos here, if_pos ⟨here, same, rfl⟩]
          rfl
        · rw [if_neg here, if_neg fun all => here all.1]

theorem entry_closeOnExec :
    (closeOnExec table).entry descriptor =
      (table.entry descriptor).bind fun known => if known.cloexec then none else some known :=
  DescriptorTable.entry_map _ _

/-- A descriptor of the task comes to the number 0, and another one to the number 1. -/
theorem childTable_files {redirects : Int × Int} {source target : Descriptor}
    (reads : if redirects.1 ≥ 0 then redirects.1 ≠ 0 ∧ table.entry redirects.1 = some source
      else table.entry 0 = some source ∧ source.cloexec = false)
    (writes : if redirects.2 ≥ 0 then
        redirects.2 ≠ 0 ∧ redirects.2 ≠ 1 ∧ table.entry redirects.2 = some target
      else table.entry 1 = some target ∧ target.cloexec = false) :
    fileAt (childTable table redirects) 0 = some source.file ∧
      fileAt (childTable table redirects) 1 = some target.file := by
  -- The first call of `dup2` concerns the number 0 only.
  have first : ∃ after : DescriptorTable Descriptor,
      (if redirects.1 ≥ 0 then dup2 table redirects.1.toNat 0 else table) = after ∧
        after.entry 0 = some ⟨source.file, false⟩ ∧
          ∀ other : Int, other ≠ 0 → after.entry other = table.entry other := by
    refine ⟨_, rfl, ?_⟩
    by_cases given : redirects.1 ≥ 0
    · rw [if_pos given] at reads ⊢
      have index : ((redirects.1.toNat : Nat) : Int) = redirects.1 := Int.toNat_of_nonneg given
      constructor
      · rw [entry_dup2, index, reads.2, if_pos ⟨rfl, by omega, rfl⟩]
        rfl
      · intro other nonzero
        rw [entry_dup2, if_neg fun all => nonzero all.1]
    · rw [if_neg given] at reads ⊢
      refine ⟨?_, fun _ _ => rfl⟩
      rw [reads.1, ← reads.2]
  rcases first with ⟨after, same, zero, others⟩
  have second : ∃ ready : DescriptorTable Descriptor,
      (if redirects.2 ≥ 0 then dup2 after redirects.2.toNat 1 else after) = ready ∧
        ready.entry 1 = some ⟨target.file, false⟩ ∧ ready.entry 0 = after.entry 0 := by
    refine ⟨_, rfl, ?_⟩
    by_cases given : redirects.2 ≥ 0
    · rw [if_pos given] at writes ⊢
      have index : ((redirects.2.toNat : Nat) : Int) = redirects.2 := Int.toNat_of_nonneg given
      constructor
      · rw [entry_dup2, index, others _ writes.1, writes.2.2, if_pos ⟨rfl, by omega, rfl⟩]
        rfl
      · rw [entry_dup2, if_neg fun all => absurd all.1 (by decide)]
    · rw [if_neg given] at writes ⊢
      refine ⟨?_, rfl⟩
      rw [others 1 (by decide), writes.1, ← writes.2]
  rcases second with ⟨ready, same', one, kept⟩
  rw [childTable, same, same']
  constructor
  · rw [fileAt, entry_closeOnExec, kept, zero]
    rfl
  · rw [fileAt, entry_closeOnExec, one]
    rfl

end Tables

section Steps

variable {outcomes : ParseOutcomes} {b : Building} {task : CommandTask}

theorem parse_grows {stage : Stage} : Grows b.descriptors (b.parse outcomes stage).descriptors :=
  run_grows _ _ { descriptors := b.descriptors }

/-- `pipe` succeeds, and the task writes to the new pipe. -/
theorem addPiped_of_made (made : outcomes.pipe b.tasks.length = none) :
    ∃ (readEnd writeEnd : Nat) (table : DescriptorTable Descriptor),
      b.addPiped outcomes task =
        { descriptors := table
          pipes := b.pipes + 1
          tasks := b.tasks ++ [{ task with redirectIn := b.nextIn, redirectOut := writeEnd }]
          nextIn := readEnd } ∧
      b.descriptors.entry readEnd = none ∧ b.descriptors.entry writeEnd = none ∧
      fileAt table readEnd = some (.pipeRead b.pipes) ∧
      fileAt table writeEnd = some (.pipeWrite b.pipes) ∧
      ∀ descriptor : Int, descriptor ≠ readEnd → descriptor ≠ writeEnd →
        table.entry descriptor = b.descriptors.entry descriptor := by
  let first := b.descriptors.allocate ⟨.pipeRead b.pipes, false⟩
  let second := first.2.allocate ⟨.pipeWrite b.pipes, false⟩
  have freeRead : b.descriptors.entry first.1 = none := DescriptorTable.entry_lowest
  have freeWrite : first.2.entry second.1 = none := DescriptorTable.entry_lowest
  have entryFirst := @DescriptorTable.entry_allocate _ b.descriptors ⟨.pipeRead b.pipes, false⟩
  have entrySecond := @DescriptorTable.entry_allocate _ first.2 ⟨.pipeWrite b.pipes, false⟩
  have different : (second.1 : Int) ≠ first.1 := by
    intro same
    rw [same] at freeWrite
    rw [entryFirst, if_pos rfl] at freeWrite
    cases freeWrite
  refine ⟨first.1, second.1, setCloexec (setCloexec second.2 first.1) second.1, ?_, freeRead,
    ?_, ?_, ?_, ?_⟩
  · unfold Building.addPiped Building.makePipe
    rw [made]
  · rw [entryFirst, if_neg different] at freeWrite
    exact freeWrite
  · rw [fileAt_setCloexec, fileAt_setCloexec, fileAt, entrySecond,
      if_neg (Ne.symm different), entryFirst, if_pos rfl]
    rfl
  · rw [fileAt_setCloexec, fileAt_setCloexec, fileAt, entrySecond, if_pos rfl]
    rfl
  · intro descriptor notRead notWrite
    rw [entry_setCloexec_of_ne notWrite, entry_setCloexec_of_ne notRead, entrySecond,
      if_neg notWrite, entryFirst, if_neg notRead]

/-- What is open stays open while a pipe is made. -/
theorem grows_of_others {before after : DescriptorTable Descriptor} {readEnd writeEnd : Nat}
    (freeRead : before.entry readEnd = none) (freeWrite : before.entry writeEnd = none)
    (others : ∀ descriptor : Int, descriptor ≠ readEnd → descriptor ≠ writeEnd →
      after.entry descriptor = before.entry descriptor) : Grows before after := by
  intro descriptor known there
  rw [others descriptor, there]
  · intro same
    rw [same, freeRead] at there
    cases there
  · intro same
    rw [same, freeWrite] at there
    cases there

/-- `pipe` fails, and the task gets what the array holds. -/
theorem addPiped_of_failed {pipefd : Int × Int}
    (failed : outcomes.pipe b.tasks.length = some pipefd) :
    b.addPiped outcomes task =
      { b with
        descriptors := setCloexec (setCloexec b.descriptors pipefd.1) pipefd.2
        tasks := b.tasks ++ [{ task with redirectIn := b.nextIn, redirectOut := pipefd.2 }]
        nextIn := pipefd.1 } := by
  unfold Building.addPiped Building.makePipe
  rw [failed]

end Steps

section Launch

variable {outcomes : Outcomes}

/-- An entry of a list with one more item behind it. -/
theorem getElem?_concat {Item : Type} {items : List Item} {item found : Item} {number : Nat}
    (there : (items ++ [item])[number]? = some found) :
    items[number]? = some found ∨ number = items.length ∧ found = item := by
  rw [List.getElem?_append] at there
  split_ifs at there with old
  · exact Or.inl there
  · rcases List.getElem?_eq_some_iff.mp there with ⟨inside, here⟩
    rw [List.length_singleton] at inside
    rw [List.getElem_singleton] at here
    exact Or.inr ⟨by omega, here.symm⟩

/-- What the loop closes. -/
theorem launchLoop_descriptors (leader : Int) (stage : Nat) (tasks : List CommandTask)
    (table : DescriptorTable Descriptor) :
    (launchLoop outcomes leader stage tasks table).2.2 =
      closeAll table (tasks.map CommandTask.redirects) := by
  induction tasks generalizing leader stage table with
  | nil => rfl
  | cons task tasks inductionHypothesis => exact inductionHypothesis _ _ _

/-- Every child process is one of a task, and gets what is open when the loop comes to
it. -/
theorem launchLoop_children {leader : Int} {stage : Nat} {tasks : List CommandTask}
    {table : DescriptorTable Descriptor} {child : Child}
    (member : child ∈ (launchLoop outcomes leader stage tasks table).2.1) :
    ∃ front task back, tasks = front ++ task :: back ∧ child.stage = stage + front.length ∧
      child.descriptors =
        childTable (closeAll table (front.map CommandTask.redirects)) task.redirects := by
  induction tasks generalizing leader stage table with
  | nil => cases member
  | cons task tasks inductionHypothesis =>
      rcases List.mem_append.mp member with here | later
      · rcases Option.map_eq_some_iff.mp (Option.mem_toList.mp here) with ⟨pid, _, made⟩
        rw [← made]
        exact ⟨[], task, tasks, rfl, rfl, rfl⟩
      · rcases inductionHypothesis later with ⟨front, found, back, split, number, table'⟩
        refine ⟨task :: front, found, back, congrArg (task :: ·) split, ?_, table'⟩
        rw [number, List.length_cons]
        omega

/-- If `fork` succeeds for a stage, there is a child process. -/
theorem launchLoop_of_fork {leader : Int} {stage : Nat} {front back : List CommandTask}
    {task : CommandTask} {table : DescriptorTable Descriptor}
    (forks : (outcomes.fork (stage + front.length)).isSome = true) :
    ∃ child ∈ (launchLoop outcomes leader stage (front ++ task :: back) table).2.1,
      child.stage = stage + front.length ∧ child.descriptors =
        childTable (closeAll table (front.map CommandTask.redirects)) task.redirects := by
  induction front generalizing leader stage table with
  | nil =>
      rcases Option.isSome_iff_exists.mp forks with ⟨pid, forked⟩
      rw [List.length_nil, Nat.add_zero] at forked
      rw [List.nil_append, launchLoop, forked]
      exact ⟨_, List.mem_append_left _ (List.mem_singleton_self _), rfl, rfl⟩
  | cons first front inductionHypothesis =>
      have later : (outcomes.fork (stage + 1 + front.length)).isSome = true := by
        rw [List.length_cons] at forks
        rw [Nat.add_assoc, Nat.add_comm 1]
        exact forks
      rcases @inductionHypothesis _ (stage + 1) _ later with ⟨child, member, number, table'⟩
      refine ⟨child, List.mem_append_right _ member, ?_, table'⟩
      rw [number, List.length_cons]
      omega

end Launch

section Accepted

variable {outcomes : ParseOutcomes} {line : List UInt8}

/-- The last stage of a line that is accepted is parsed as the last one. -/
theorem Accepts.stages (accepts : Accepts outcomes line) :
    (acceptedStages outcomes 0 (stagesOf (words (textOf line)))).1 ++
        [restOf outcomes (words (textOf line))] = stagesOf (words (textOf line)) := by
  have all := accepts.accepted
  rw [lineAccepted, Bool.and_eq_true] at all
  exact acceptedStages_restOf ((stagesValid_iff (List.splitOn_ne_nil _ _)
    accepts.launchable.last).mp all.1)

/-- The descriptors of the tasks of a line. -/
def lineRedirects (outcomes : ParseOutcomes) (shell : Shell) (line : List UInt8) :
    List (Int × Int) :=
  (built outcomes shell (words (textOf line))).tasks.map CommandTask.redirects ++
    [((built outcomes shell (words (textOf line))).lastTask outcomes
      (restOf outcomes (words (textOf line)))).redirects]

/-- What is open when all stages of a line are parsed. -/
def lineTable (outcomes : ParseOutcomes) (shell : Shell) (line : List UInt8) :
    DescriptorTable Descriptor :=
  ((built outcomes shell (words (textOf line))).parseLast outcomes
    (restOf outcomes (words (textOf line)))).descriptors

theorem length_lineRedirects (accepts : Accepts outcomes line) (shell : Shell) :
    (lineRedirects outcomes shell line).length = (stagesOf (words (textOf line))).length := by
  have stages := congrArg List.length accepts.stages
  rw [List.length_append, List.length_singleton] at stages
  rw [lineRedirects, List.length_append, List.length_map, length_built, List.length_singleton,
    stages]

/-- What the loop that starts the child processes leaves. -/
def launched (outcomes : Outcomes) (shell : Shell) (line : List UInt8) (tasks : List CommandTask) :
    List CommandTask × List Child × DescriptorTable Descriptor :=
  launchLoop outcomes (-1) 0 tasks (lineTable outcomes.toParseOutcomes shell line)

/-- The stages of a line that is accepted are started. -/
theorem handleLine_of_accepts {outcomes : Outcomes}
    (accepts : Accepts outcomes.toParseOutcomes line) (shell : Shell) :
    ∃ tasks, tasks.map CommandTask.redirects = lineRedirects outcomes.toParseOutcomes shell line ∧
      handleLine outcomes shell line =
        .prompt ⟨closeAll (lineTable outcomes.toParseOutcomes shell line)
            (lineRedirects outcomes.toParseOutcomes shell line),
          (built outcomes.toParseOutcomes shell (words (textOf line))).pipes,
          (((shell.jobs.checkBackground outcomes).start (launched outcomes shell line tasks).1
            (launched outcomes shell line tasks).2.1).record outcomes
              (marked (restOf outcomes.toParseOutcomes (words (textOf line))))
              (launched outcomes shell line tasks).1).survive outcomes.ends⟩
          (launched outcomes shell line tasks).2.1 := by
  have run := @handleLine_of_short outcomes shell line accepts.short
  rw [accepts.plain, Option.elim_none] at run
  rcases @parseLine_of_fine outcomes.toParseOutcomes
    { shell with jobs := shell.jobs.checkBackground outcomes } _ accepts.launchable.room
    accepts.launchable.last accepts.launchable.named accepts.launchable.searches with
    ⟨parse, parses, redirects, table, pipes, background, valid⟩
  have closed := @launchLoop_descriptors outcomes (-1) 0 parse.tasks
    (lineTable outcomes.toParseOutcomes shell line)
  have same : parse.descriptors = lineTable outcomes.toParseOutcomes shell line := table
  have pairs : parse.tasks.map CommandTask.redirects =
      lineRedirects outcomes.toParseOutcomes shell line := redirects
  rw [pairs] at closed
  refine ⟨parse.tasks, pairs, ?_⟩
  rw [run, runCommands, parses]
  dsimp only
  rw [valid, if_pos accepts.accepted, pipes, background, same, closed]
  rfl

/-- Nothing is started for a line that is rejected. -/
theorem handleLine_of_rejected {outcomes : Outcomes}
    (short : ∀ word ∈ words (textOf line), word.length < 4095)
    (plain : lookup (words (textOf line)).head? = none)
    (launchable : Launchable outcomes.toParseOutcomes (words (textOf line)))
    (rejected : lineAccepted outcomes.toParseOutcomes (words (textOf line)) = false)
    (shell : Shell) :
    handleLine outcomes shell line = .prompt ⟨lineTable outcomes.toParseOutcomes shell line,
        (built outcomes.toParseOutcomes shell (words (textOf line))).pipes,
        (shell.jobs.checkBackground outcomes).survive outcomes.ends⟩ [] := by
  have run := @handleLine_of_short outcomes shell line short
  rw [plain, Option.elim_none] at run
  rcases @parseLine_of_fine outcomes.toParseOutcomes
    { shell with jobs := shell.jobs.checkBackground outcomes } _ launchable.room
    launchable.last launchable.named launchable.searches with
    ⟨parse, parses, _, table, pipes, _, valid⟩
  have same : parse.descriptors = lineTable outcomes.toParseOutcomes shell line := table
  rw [run, runCommands, parses]
  dsimp only
  rw [valid, rejected, if_neg Bool.false_ne_true, pipes, same]
  rfl

/-- A round that ends at the prompt has executed a built-in command, has started the stages
of the line, or has rejected it. -/
theorem step_cases {start shell after : Shell} {outcomes : Outcomes}
    (moved : (shellSystem start).step shell (outcomes, line) = some after) :
    (∃ builtin, lookup (words (textOf line)).head? = some builtin ∧
        (runBuiltin outcomes { shell with jobs := shell.jobs.checkBackground outcomes }
          builtin).shell = some after) ∨
      (Accepts outcomes.toParseOutcomes line ∧ ∃ tasks,
        tasks.map CommandTask.redirects = lineRedirects outcomes.toParseOutcomes shell line ∧
        after = ⟨closeAll (lineTable outcomes.toParseOutcomes shell line)
            (lineRedirects outcomes.toParseOutcomes shell line),
          (built outcomes.toParseOutcomes shell (words (textOf line))).pipes,
          (((shell.jobs.checkBackground outcomes).start (launched outcomes shell line tasks).1
            (launched outcomes shell line tasks).2.1).record outcomes
              (marked (restOf outcomes.toParseOutcomes (words (textOf line))))
              (launched outcomes shell line tasks).1).survive outcomes.ends⟩) ∨
      lookup (words (textOf line)).head? = none ∧
        lineAccepted outcomes.toParseOutcomes (words (textOf line)) = false ∧
        after = ⟨lineTable outcomes.toParseOutcomes shell line,
          (built outcomes.toParseOutcomes shell (words (textOf line))).pipes,
          (shell.jobs.checkBackground outcomes).survive outcomes.ends⟩ := by
  have ends : (handleLine outcomes shell line).shell = some after := moved
  by_cases short : ∀ word ∈ words (textOf line), word.length < 4095
  · have run := @handleLine_of_short outcomes shell line short
    cases command : lookup (words (textOf line)).head? with
    | some builtin =>
        rw [run, command, Option.elim_some] at ends
        exact Or.inl ⟨builtin, rfl, ends⟩
    | none =>
        by_cases launchable : Launchable outcomes.toParseOutcomes (words (textOf line))
        · cases accepted : lineAccepted outcomes.toParseOutcomes (words (textOf line)) with
          | true =>
              have accepts : Accepts outcomes.toParseOutcomes line :=
                ⟨short, command, launchable, accepted⟩
              rcases handleLine_of_accepts accepts shell with ⟨tasks, redirects, prompt⟩
              rw [prompt] at ends
              exact Or.inr (Or.inl ⟨accepts, tasks, redirects, (Option.some.inj ends).symm⟩)
          | false =>
              rw [handleLine_of_rejected short command launchable accepted shell] at ends
              exact Or.inr (Or.inr ⟨rfl, rfl, (Option.some.inj ends).symm⟩)
        · rcases @runCommands_of_bad outcomes
            { shell with jobs := shell.jobs.checkBackground outcomes } _ launchable with
            ⟨crash, crashes⟩
          rw [run, command, Option.elim_none, crashes] at ends
          cases ends
  · have long : ∃ word ∈ words (textOf line), 4095 ≤ word.length := by
      by_contra none
      exact short fun word member => Nat.lt_of_not_le fun long => none ⟨word, member, long⟩
    rw [handleLine_of_long long] at ends
    cases ends

/-- A built-in command leaves the descriptors and the pipes. -/
theorem runBuiltin_shell {shell after : Shell} {outcomes : Outcomes} {builtin : Builtin}
    (prompt : (runBuiltin outcomes shell builtin).shell = some after) :
    after.descriptors = shell.descriptors ∧ after.pipes = shell.pipes := by
  cases builtin with
  | exit => cases prompt
  | _ =>
      rw [← Option.some.inj prompt]
      exact ⟨rfl, rfl⟩

end Accepted

end CS162.HwShell
