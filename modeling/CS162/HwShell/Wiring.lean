import CS162.HwShell.Launching

/-!
# The wiring of a pipeline

What the standard input and the standard output of a child process refer to when its
program starts.
-/

namespace CS162.HwShell

open CS162.Foundation

/-- What is at a number stays there. -/
def FilesKept (before after : DescriptorTable Descriptor) : Prop :=
  ∀ descriptor file, fileAt before descriptor = some file → fileAt after descriptor = some file

/-- The write ends of pipes belong to the pipes that have been made. -/
def PipesBelow (table : DescriptorTable Descriptor) (pipes : Nat) : Prop :=
  ∀ descriptor pipe, fileAt table descriptor = some (.pipeWrite pipe) → pipe < pipes

section Files

variable {table before after : DescriptorTable Descriptor}

theorem FilesKept.of_grows (grows : Grows before after) : FilesKept before after := by
  intro descriptor file there
  rcases entry_of_fileAt there with ⟨known, entry, same⟩
  rw [fileAt_of_entry (grows descriptor known entry), same]

/-- What a stage opens are files. -/
theorem run_files {opens : Nat → Bool} {parts : List Item} {p : Parsing} {descriptor : Int}
    {file : OpenFile}
    (there : fileAt (Parsing.run opens parts p).1.descriptors descriptor = some file) :
    fileAt p.descriptors descriptor = some file ∨ ∃ name write, file = .opened name write := by
  have allocated : ∀ {table : DescriptorTable Descriptor} {name : List UInt8} {write : Bool},
      fileAt (table.allocate ⟨.opened name write, true⟩).2 descriptor = some file →
        fileAt table descriptor = some file ∨ ∃ name write, file = .opened name write := by
    intro table name write new
    rw [fileAt, DescriptorTable.entry_allocate] at new
    split_ifs at new
    · exact Or.inr ⟨name, write, (Option.some.inj new).symm⟩
    · exact Or.inl new
  induction parts generalizing p with
  | nil => exact Or.inl there
  | cons part parts inductionHypothesis =>
      cases part with
      | word token => exact @inductionHypothesis (p.word token) there
      | output name =>
          rcases inductionHypothesis there with old | new
          · unfold Parsing.output at old
            split at old
            · exact allocated old
            · exact Or.inl old
          · exact Or.inr new
      | input name =>
          rw [Parsing.run] at there
          split at there
          · rcases inductionHypothesis there with old | new
            · exact allocated old
            · exact Or.inr new
          · exact Or.inl there

theorem PipesBelow.parsed {opens : Nat → Bool} {stage : Stage} {pipes : Nat}
    (below : PipesBelow table pipes) :
    PipesBelow (parsed opens table stage).descriptors pipes := by
  intro descriptor pipe there
  rcases run_files there with old | ⟨name, write, new⟩
  · exact below descriptor pipe old
  · cases new

/-- What is open when the program starts was open before. -/
theorem fileAt_closeOnExec {descriptor : Int} {file : OpenFile}
    (there : fileAt (closeOnExec table) descriptor = some file) :
    fileAt table descriptor = some file := by
  rcases entry_of_fileAt there with ⟨known, entry, same⟩
  rw [entry_closeOnExec] at entry
  rcases Option.bind_eq_some_iff.mp entry with ⟨before, entry', kept⟩
  split_ifs at kept
  rw [fileAt_of_entry entry', Option.some.inj kept, same]

/-- A copy refers to what one of the numbers refers to. -/
theorem fileAt_dup2 {old new : Nat} {descriptor : Int} {file : OpenFile}
    (there : fileAt (dup2 table old new) descriptor = some file) :
    ∃ own, fileAt table own = some file ∧ (descriptor ≠ new → own = descriptor) := by
  rw [fileAt, entry_dup2] at there
  split_ifs at there with copied
  · rcases Option.map_eq_some_iff.mp there with ⟨copy, made, same⟩
    rcases Option.map_eq_some_iff.mp made with ⟨known, entry, rfl⟩
    refine ⟨old, by rw [fileAt_of_entry entry, ← same], ?_⟩
    exact fun other => absurd copied.1 other
  · exact ⟨descriptor, there, fun _ => rfl⟩

/-- The descriptors of a child process are descriptors of the shell. -/
theorem fileAt_childTable {redirects : Int × Int} {descriptor : Int} {file : OpenFile}
    (there : fileAt (childTable table redirects) descriptor = some file) :
    ∃ own, fileAt table own = some file ∧
      ((descriptor ≠ 0 ∨ redirects.1 < 0) → (descriptor ≠ 1 ∨ redirects.2 < 0) →
        own = descriptor) := by
  have last := fileAt_closeOnExec there
  have second : ∃ own, fileAt (if redirects.1 ≥ 0 then dup2 table redirects.1.toNat 0
      else table) own = some file ∧ ((descriptor ≠ 1 ∨ redirects.2 < 0) → own = descriptor) := by
    by_cases given : redirects.2 ≥ 0
    · rw [if_pos given] at last
      rcases fileAt_dup2 last with ⟨own, file, same⟩
      exact ⟨own, file, fun either => same (either.resolve_right (Int.not_lt.mpr given))⟩
    · rw [if_neg given] at last
      exact ⟨descriptor, last, fun _ => rfl⟩
  rcases second with ⟨own, file, same⟩
  by_cases given : redirects.1 ≥ 0
  · rw [if_pos given] at file
    rcases fileAt_dup2 file with ⟨first, file, same'⟩
    refine ⟨first, file, fun one two => ?_⟩
    rw [same two] at same'
    exact same' (one.resolve_right (Int.not_lt.mpr given))
  · rw [if_neg given] at file
    exact ⟨own, file, fun _ two => same two⟩

/-- Without a redirection the standard input is that of the shell, if it is open. -/
theorem fileAt_childTable_zero {redirects : Int × Int} {file : OpenFile}
    (negative : redirects.1 < 0) (there : fileAt (childTable table redirects) 0 = some file) :
    fileAt table 0 = some file := by
  rcases fileAt_childTable there with ⟨own, file, same⟩
  rw [same (Or.inr negative) (Or.inl (by decide))] at file
  exact file

/-- Without a redirection the standard output is that of the shell, if it is open. -/
theorem fileAt_childTable_one {redirects : Int × Int} {file : OpenFile}
    (negative : redirects.2 < 0) (there : fileAt (childTable table redirects) 1 = some file) :
    fileAt table 1 = some file := by
  rcases fileAt_childTable there with ⟨own, file, same⟩
  rw [same (Or.inl (by decide)) (Or.inr negative)] at file
  exact file

theorem fileAt_closeAll {redirects : List (Int × Int)} {descriptor : Int} {file : OpenFile}
    (there : fileAt (closeAll table redirects) descriptor = some file) :
    fileAt table descriptor = some file := by
  rcases @entry_closeAll table descriptor redirects with ⟨closed, _⟩ | ⟨kept, _⟩
  · rw [fileAt, closed] at there
    cases there
  · rw [fileAt, kept] at there
    exact there

end Files

/-- The shell before a line: its standard input and output are what it was started with,
and the pipes are numbered in the order in which they are made. -/
structure Standard (shell : Shell) : Prop where
  input : shell.descriptors.entry 0 = some ⟨.inherited 0, false⟩
  output : shell.descriptors.entry 1 = some ⟨.inherited 1, false⟩
  pipes : PipesBelow shell.descriptors shell.pipes

/-- A stage reads from the pipe before it, the first one from nothing. -/
def StageReads (shell : Shell) (table : DescriptorTable Descriptor) (number : Nat)
    (descriptor : Int) : Prop :=
  (number = 0 → descriptor = -1) ∧
    ∀ before, number = before + 1 →
      fileAt table descriptor = some (.pipeRead (shell.pipes + before))

/-- The tasks that are stored are connected by pipes. -/
structure Connected (shell : Shell) (b : Building) : Prop where
  input : b.descriptors.entry 0 = some ⟨.inherited 0, false⟩
  output : b.descriptors.entry 1 = some ⟨.inherited 1, false⟩
  pipes : b.pipes = shell.pipes + b.tasks.length
  next : StageReads shell b.descriptors b.tasks.length b.nextIn
  reads : ∀ number task, b.tasks[number]? = some task →
    StageReads shell b.descriptors number task.redirectIn
  writes : ∀ number task, b.tasks[number]? = some task →
    fileAt b.descriptors task.redirectOut = some (.pipeWrite (shell.pipes + number))

/-- What is true of the tasks that are stored even if `pipe` fails. -/
structure Bounded (outcomes : ParseOutcomes) (shell : Shell) (b : Building) : Prop where
  input : fileAt b.descriptors 0 = some (.inherited 0)
  output : fileAt b.descriptors 1 = some (.inherited 1)
  below : PipesBelow b.descriptors b.pipes
  count : b.pipes ≤ shell.pipes + b.tasks.length
  missing : (∃ number < b.tasks.length, outcomes.pipe number ≠ none) →
    b.pipes < shell.pipes + b.tasks.length
  first : ∀ descriptor, (b.tasks.map CommandTask.redirectIn ++ [b.nextIn]).head? =
    some descriptor → descriptor = -1

section Invariants

variable {outcomes : ParseOutcomes} {shell : Shell} {b : Building}

theorem StageReads.keep {before after : DescriptorTable Descriptor} {number : Nat}
    {descriptor : Int} (reads : StageReads shell before number descriptor)
    (kept : FilesKept before after) : StageReads shell after number descriptor :=
  ⟨reads.1, fun pipe same => kept descriptor _ (reads.2 pipe same)⟩

theorem Connected.start (standard : Standard shell) :
    Connected shell { descriptors := shell.descriptors, pipes := shell.pipes } where
  input := standard.input
  output := standard.output
  pipes := rfl
  next := ⟨fun _ => rfl, fun _ impossible => absurd impossible (Nat.zero_ne_add_one _)⟩
  reads := fun _ _ none => absurd none (by simp)
  writes := fun _ _ none => absurd none (by simp)

theorem Bounded.start (standard : Standard shell) :
    Bounded outcomes shell { descriptors := shell.descriptors, pipes := shell.pipes } where
  input := fileAt_of_entry standard.input
  output := fileAt_of_entry standard.output
  below := standard.pipes
  count := Nat.le_refl _
  missing := fun ⟨_, inside, _⟩ => absurd inside (Nat.not_lt_zero _)
  first := fun _ same => (Option.some.inj same).symm

/-- A stage with a pipe behind it goes on with the connection. -/
theorem Connected.addStage (connected : Connected shell b) (stage : Stage)
    (made : outcomes.pipe b.tasks.length = none) :
    Connected shell (b.addStage outcomes stage) := by
  have grows := @parse_grows outcomes b stage
  rcases @addPiped_of_made outcomes { b with
      descriptors := (b.parse outcomes stage).descriptors } (taskOf (b.parse outcomes stage))
    made with ⟨readEnd, writeEnd, table, added, freeRead, freeWrite, reads, writes, others⟩
  have entries := grows.trans (grows_of_others freeRead freeWrite others)
  have kept : FilesKept b.descriptors table := FilesKept.of_grows entries
  rw [Building.addStage, added]
  refine ⟨entries _ _ connected.input, entries _ _ connected.output, ?_, ?_, ?_, ?_⟩
  · rw [List.length_append, List.length_singleton, connected.pipes, Nat.add_assoc]
  · refine ⟨fun impossible => ?_, fun before same => ?_⟩
    · rw [List.length_append, List.length_singleton] at impossible
      exact absurd impossible (Nat.succ_ne_zero _)
    · rw [List.length_append, List.length_singleton] at same
      rw [← Nat.succ.inj same, ← connected.pipes]
      exact reads
  · intro number task there
    rcases getElem?_concat there with old | ⟨last, here⟩
    · exact (connected.reads number task old).keep kept
    · rw [here, last]
      exact connected.next.keep kept
  · intro number task there
    rcases getElem?_concat there with old | ⟨last, here⟩
    · exact kept _ _ (connected.writes number task old)
    · rw [here, last, ← connected.pipes]
      exact writes

/-- A stage keeps the bounds, whether `pipe` fails or not. -/
theorem Bounded.addStage (bounded : Bounded outcomes shell b) (stage : Stage) :
    Bounded outcomes shell (b.addStage outcomes stage) := by
  have grows := @parse_grows outcomes b stage
  have parsedBelow : PipesBelow (b.parse outcomes stage).descriptors b.pipes :=
    PipesBelow.parsed bounded.below
  have input := FilesKept.of_grows grows _ _ bounded.input
  have output := FilesKept.of_grows grows _ _ bounded.output
  have count := bounded.count
  have missing := bounded.missing
  have first := bounded.first
  have head : ∀ (added : CommandTask) (next : Int), added.redirectIn = b.nextIn →
      ∀ descriptor, ((b.tasks ++ [added]).map CommandTask.redirectIn ++ [next]).head? =
        some descriptor → descriptor = -1 := by
    intro added next same descriptor here
    apply first descriptor
    rw [List.map_append, List.map_singleton, same, List.append_assoc] at here
    cases old : b.tasks.map CommandTask.redirectIn with
    | nil =>
        rw [old] at here
        exact here
    | cons one rest =>
        rw [old] at here
        exact here
  cases made : outcomes.pipe b.tasks.length with
  | none =>
      rcases @addPiped_of_made outcomes { b with
          descriptors := (b.parse outcomes stage).descriptors }
        (taskOf (b.parse outcomes stage)) made with
        ⟨readEnd, writeEnd, table, added, freeRead, freeWrite, reads, writes, others⟩
      have own := FilesKept.of_grows (grows_of_others freeRead freeWrite others)
      rw [Building.addStage, added]
      refine ⟨own _ _ input, own _ _ output, ?_, ?_, ?_, head _ _ rfl⟩
      · intro descriptor pipe there
        dsimp only at there ⊢
        by_cases isRead : descriptor = readEnd
        · rw [isRead, reads] at there
          cases there
        · by_cases isWrite : descriptor = writeEnd
          · rw [isWrite, writes] at there
            cases there
            exact Nat.lt_succ_self _
          · rw [fileAt, others descriptor isRead isWrite] at there
            exact Nat.lt_succ_of_lt (parsedBelow descriptor pipe there)
      · rw [List.length_append, List.length_singleton]
        dsimp only
        omega
      · intro someFailed
        rcases someFailed with ⟨number, inside, failed⟩
        rw [List.length_append, List.length_singleton] at inside ⊢
        dsimp only at inside ⊢
        have before : number < b.tasks.length := by
          by_contra last
          have same : number = b.tasks.length := by omega
          rw [same] at failed
          exact failed made
        have strict := missing ⟨number, before, failed⟩
        omega
  | some pipefd =>
      have added := @addPiped_of_failed outcomes { b with
        descriptors := (b.parse outcomes stage).descriptors }
        (taskOf (b.parse outcomes stage)) pipefd made
      have same : ∀ descriptor, fileAt (setCloexec (setCloexec
          (b.parse outcomes stage).descriptors pipefd.1) pipefd.2) descriptor =
            fileAt (b.parse outcomes stage).descriptors descriptor := by
        intro descriptor
        rw [fileAt_setCloexec, fileAt_setCloexec]
      rw [Building.addStage, added]
      refine ⟨(same 0).trans input, (same 1).trans output, ?_, ?_, ?_, head _ _ rfl⟩
      · intro descriptor pipe there
        exact parsedBelow descriptor pipe ((same descriptor).symm.trans there)
      · rw [List.length_append, List.length_singleton]
        dsimp only
        omega
      · intro _
        rw [List.length_append, List.length_singleton]
        dsimp only
        omega

theorem Connected.pipeStages {stages : List Stage} (connected : Connected shell b)
    (made : ∀ number < (HwShell.pipeStages outcomes stages b).1.tasks.length,
      outcomes.pipe number = none) :
    Connected shell (HwShell.pipeStages outcomes stages b).1 := by
  fun_induction HwShell.pipeStages outcomes stages b with
  | case1 stage next rest b valid inductionHypothesis =>
      have grows := length_pipeStages outcomes (next :: rest) (b.addStage outcomes stage)
      rw [length_addStage] at grows
      exact inductionHypothesis (connected.addStage stage (made _ grows)) made
  | case2 stage next rest b invalid =>
      have grows := @parse_grows outcomes b stage
      have kept := FilesKept.of_grows grows
      exact ⟨grows _ _ connected.input, grows _ _ connected.output, connected.pipes,
        connected.next.keep kept,
        fun number task there => (connected.reads number task there).keep kept,
        fun number task there => kept _ _ (connected.writes number task there)⟩
  | case3 stages b short => exact connected

theorem Bounded.pipeStages {stages : List Stage} (bounded : Bounded outcomes shell b) :
    Bounded outcomes shell (HwShell.pipeStages outcomes stages b).1 := by
  fun_induction HwShell.pipeStages outcomes stages b with
  | case1 stage next rest b valid inductionHypothesis =>
      exact inductionHypothesis (bounded.addStage stage)
  | case2 stage next rest b invalid =>
      have grows := @parse_grows outcomes b stage
      have kept := FilesKept.of_grows grows
      exact ⟨kept _ _ bounded.input, kept _ _ bounded.output, PipesBelow.parsed bounded.below,
        bounded.count, bounded.missing, bounded.first⟩
  | case3 stages b short => exact bounded

end Invariants

/-! ## The child processes -/

/-- The descriptors of all tasks of a line, of which the last one may write to a file. -/
structure ConnectedTasks (shell : Shell) (target : Option (List UInt8))
    (table : DescriptorTable Descriptor) (redirects : List (Int × Int)) : Prop where
  input : table.entry 0 = some ⟨.inherited 0, false⟩
  output : table.entry 1 = some ⟨.inherited 1, false⟩
  reads : ∀ number pair, redirects[number]? = some pair → StageReads shell table number pair.1
  writes : ∀ number pair, redirects[number]? = some pair → number + 1 < redirects.length →
    fileAt table pair.2 = some (.pipeWrite (shell.pipes + number))
  last : ∀ number pair, redirects[number]? = some pair → number + 1 = redirects.length →
    RefersTo table pair.2 true target

section Children

variable {shell : Shell} {target : Option (List UInt8)}
variable {table : DescriptorTable Descriptor} {redirects front back : List (Int × Int)}
variable {pair : Int × Int}

theorem getElem?_split (split : redirects = front ++ pair :: back) :
    redirects[front.length]? = some pair := by
  rw [split, List.getElem?_append_right (Nat.le_refl _), Nat.sub_self]
  rfl

theorem length_split (split : redirects = front ++ pair :: back) :
    front.length < redirects.length := by
  rw [split, List.length_append, List.length_cons]
  omega

/-- What a descriptor of a task refers to. -/
theorem ConnectedTasks.file (connected : ConnectedTasks shell target table redirects)
    {number : Nat} {descriptor : Int} {known : Descriptor}
    (here : redirects[number]? = some pair) (there : table.entry descriptor = some known)
    (either : descriptor = pair.1 ∨ descriptor = pair.2) :
    (∃ before, number = before + 1 ∧ known.file = .pipeRead (shell.pipes + before)) ∨
      known.file = .pipeWrite (shell.pipes + number) ∨
        number + 1 = redirects.length ∧ ∃ name, known.file = .opened name true := by
  have file := fileAt_of_entry there
  have inside : number < redirects.length := (List.getElem?_eq_some_iff.mp here).1
  rcases either with isRead | isWrite
  · have reads := connected.reads number pair here
    rw [← isRead] at reads
    cases number with
    | zero =>
        rw [reads.1 rfl, DescriptorTable.entry_of_neg (by decide)] at there
        cases there
    | succ before =>
        rw [reads.2 before rfl] at file
        exact Or.inl ⟨before, rfl, (Option.some.inj file).symm⟩
  · by_cases more : number + 1 < redirects.length
    · have writes := connected.writes number pair here more
      rw [← isWrite, file] at writes
      exact Or.inr (Or.inl (Option.some.inj writes))
    · have last := connected.last number pair here (by omega)
      rw [← isWrite] at last
      cases target with
      | none =>
          have none : descriptor = -1 := last
          rw [none, DescriptorTable.entry_of_neg (by decide)] at there
          cases there
      | some name =>
          have entry : table.entry descriptor = some ⟨.opened name true, true⟩ := last
          rw [there, Option.some.injEq] at entry
          rw [entry]
          exact Or.inr (Or.inr ⟨by omega, name, rfl⟩)

/-- What the tasks before a task have closed is not used by it. -/
theorem ConnectedTasks.kept (connected : ConnectedTasks shell target table redirects)
    (split : redirects = front ++ pair :: back) {descriptor : Int} {known : Descriptor}
    (there : table.entry descriptor = some known)
    (noRead : ∀ number, number + 1 < front.length → known.file ≠ .pipeRead (shell.pipes + number))
    (noWrite : ∀ number < front.length, known.file ≠ .pipeWrite (shell.pipes + number)) :
    (closeAll table front).entry descriptor = some known := by
  rcases @entry_closeAll table descriptor front with ⟨_, ⟨used, member, either⟩, _⟩ | ⟨kept, _⟩
  · rcases List.getElem?_of_mem member with ⟨number, here⟩
    have inside : number < front.length := (List.getElem?_eq_some_iff.mp here).1
    have longer := length_split split
    have inAll : redirects[number]? = some used := by
      rw [split, List.getElem?_append_left inside]
      exact here
    rcases connected.file inAll there either with ⟨before, same, reads⟩ | writes | ⟨last, _⟩
    · exact absurd reads (noRead before (by omega))
    · exact absurd writes (noWrite number inside)
    · omega
  · rw [kept, there]

/-- Where a task reads from. -/
theorem ConnectedTasks.source (connected : ConnectedTasks shell target table redirects)
    (split : redirects = front ++ pair :: back) :
    ∃ source : Descriptor,
      (if pair.1 ≥ 0 then pair.1 ≠ 0 ∧ (closeAll table front).entry pair.1 = some source
        else (closeAll table front).entry 0 = some source ∧ source.cloexec = false) ∧
      source.file = if front.length = 0 then .inherited 0
        else .pipeRead (shell.pipes + (front.length - 1)) := by
  have reads := connected.reads front.length pair (getElem?_split split)
  cases length : front.length with
  | zero =>
      have none := reads.1 length
      refine ⟨⟨.inherited 0, false⟩, ?_, rfl⟩
      rw [none, if_neg (by decide)]
      refine ⟨connected.kept split connected.input ?_ ?_, rfl⟩
      · exact fun _ _ same => by cases same
      · exact fun _ _ same => by cases same
  | succ before =>
      rcases entry_of_fileAt (reads.2 before length) with ⟨known, entry, file⟩
      refine ⟨known, ?_, file⟩
      rw [if_pos (DescriptorTable.nonneg_of_entry entry)]
      constructor
      · intro zero
        rw [zero, connected.input, Option.some.injEq] at entry
        rw [← entry] at file
        cases file
      · apply connected.kept split entry
        · intro number earlier same
          rw [file] at same
          have equal := OpenFile.pipeRead.inj same
          omega
        · intro number earlier same
          rw [file] at same
          cases same

/-- Where a task writes to. -/
theorem ConnectedTasks.sink (connected : ConnectedTasks shell target table redirects)
    (split : redirects = front ++ pair :: back) :
    ∃ sink : Descriptor,
      (if pair.2 ≥ 0 then
          pair.2 ≠ 0 ∧ pair.2 ≠ 1 ∧ (closeAll table front).entry pair.2 = some sink
        else (closeAll table front).entry 1 = some sink ∧ sink.cloexec = false) ∧
      sink.file = if front.length + 1 < redirects.length then
          .pipeWrite (shell.pipes + front.length)
        else target.elim (.inherited 1) fun name => .opened name true := by
  have opened : ∀ {known : Descriptor}, table.entry pair.2 = some known →
      (∀ number, known.file ≠ .inherited number) →
      (∀ number, known.file ≠ .pipeRead number) →
      (∀ number < front.length, known.file ≠ .pipeWrite (shell.pipes + number)) →
      if pair.2 ≥ 0 then
          pair.2 ≠ 0 ∧ pair.2 ≠ 1 ∧ (closeAll table front).entry pair.2 = some known
        else (closeAll table front).entry 1 = some known ∧ known.cloexec = false := by
    intro known entry own noRead noWrite
    rw [if_pos (DescriptorTable.nonneg_of_entry entry)]
    refine ⟨?_, ?_, connected.kept split entry (fun number _ => noRead _) noWrite⟩
    · intro zero
      rw [zero, connected.input, Option.some.injEq] at entry
      rw [← entry] at own
      exact own 0 rfl
    · intro one
      rw [one, connected.output, Option.some.injEq] at entry
      rw [← entry] at own
      exact own 1 rfl
  have here := getElem?_split split
  by_cases more : front.length + 1 < redirects.length
  · rw [if_pos more]
    rcases entry_of_fileAt (connected.writes _ pair here more) with ⟨known, entry, file⟩
    refine ⟨known, opened entry ?_ ?_ ?_, file⟩
    · intro number same
      rw [file] at same
      cases same
    · intro number same
      rw [file] at same
      cases same
    · intro number earlier same
      rw [file] at same
      have equal := OpenFile.pipeWrite.inj same
      omega
  · have longer := length_split split
    have last := connected.last _ pair here (by omega)
    rw [if_neg more]
    cases target with
    | none =>
        have none : pair.2 = -1 := last
        refine ⟨⟨.inherited 1, false⟩, ?_, rfl⟩
        rw [none, if_neg (by decide)]
        refine ⟨connected.kept split connected.output ?_ ?_, rfl⟩
        · exact fun _ _ same => by cases same
        · exact fun _ _ same => by cases same
    | some name =>
        have entry : table.entry pair.2 = some ⟨.opened name true, true⟩ := last
        refine ⟨_, opened entry ?_ ?_ ?_, rfl⟩
        · exact fun _ same => by cases same
        · exact fun _ same => by cases same
        · exact fun _ _ same => by cases same

end Children

/-- What a stage reads from: the pipe before it, or for the first one the file of its last
`<`, or what the shell reads from. -/
def stageInput (shell : Shell) (stages : List Stage) (number : Nat) : Option OpenFile :=
  if number = 0 then
    ((stages.head?.bind fun stage => (inputs (items stage).1).getLast?).map fun name =>
      OpenFile.opened name false).or (fileAt shell.descriptors 0)
  else some (.pipeRead (shell.pipes + (number - 1)))

/-- What a stage writes to: the pipe behind it, or for the last one the file of its last
`>`, or what the shell writes to. -/
def stageOutput (shell : Shell) (stages : List Stage) (number : Nat) : Option OpenFile :=
  if number + 1 < stages.length then some (.pipeWrite (shell.pipes + number))
  else
    ((stages.getLast?.bind fun stage => (outputs (items stage).1).getLast?).map fun name =>
      OpenFile.opened name true).or (fileAt shell.descriptors 1)

/-- Every child process starts its program with the standard input and output that belong
to its stage, whatever `fork` returns. -/
def Wired (outcomes : ParseOutcomes) (shell : Shell) (line : List UInt8) : Prop :=
  ∀ calls : Outcomes, calls.toParseOutcomes = outcomes → ∀ after children,
    handleLine calls shell line = .prompt after children → ∀ child ∈ children,
      fileAt child.descriptors 0 = stageInput shell (stagesOf (words (textOf line))) child.stage ∧
        fileAt child.descriptors 1 = stageOutput shell (stagesOf (words (textOf line))) child.stage

/-- Every `fork` succeeds. -/
def everyFork (outcomes : ParseOutcomes) : Outcomes where
  toParseOutcomes := outcomes
  fork stage := some (pidOf stage)
  setpgid _ := true
  wait _ := some .exited
  groupWait := true
  killpg := true
  unset := none
  ends _ := false

section Lines

variable {outcomes : ParseOutcomes} {shell : Shell} {line : List UInt8}

/-- The last `>` is the last one, whether its file is opened or not. -/
theorem lastOutput_name {opens : Nat → Bool} {number : Nat} {parts : List Item}
    {target : Option (List UInt8 × Bool)} :
    (lastOutput opens number parts target).map Prod.fst =
      ((outputs parts).getLast?).or (target.map Prod.fst) := by
  induction parts generalizing number target with
  | nil => rfl
  | cons part parts inductionHypothesis =>
      cases part with
      | word token => exact inductionHypothesis
      | input name => exact inductionHypothesis
      | output name =>
          have later := @inductionHypothesis (number + 1) (some (name, opens number))
          rw [lastOutput, later]
          change _ = ((name :: outputs parts).getLast?).or _
          rw [List.getLast?_cons]
          cases (outputs parts).getLast? <;> rfl

/-- The descriptors of the last stage. -/
theorem parseLast_redirects {b : Building} {rest : Stage}
    (valid : stageValid outcomes.openLast rest = true) :
    RefersTo (b.parseLast outcomes rest).descriptors (b.parseLast outcomes rest).redirectOut
      true (openedName (lastOutput outcomes.openLast 0 (items rest).1 none)) := by
  rw [stageValid, Bool.and_eq_true, Bool.and_eq_true] at valid
  have complete := run_complete outcomes.openLast (items rest).1 { descriptors := b.descriptors }
  rw [valid.1.2] at complete
  exact (@run_redirects outcomes.openLast (items rest).1 { descriptors := b.descriptors } none
    none complete rfl rfl).2

theorem built_bounded (standard : Standard shell) :
    Bounded outcomes shell (built outcomes shell (words (textOf line))) :=
  (Bounded.start standard).pipeStages

theorem built_grows :
    Grows (built outcomes shell (words (textOf line))).descriptors
      (lineTable outcomes shell line) :=
  run_grows _ _ { descriptors := (built outcomes shell (words (textOf line))).descriptors }

theorem getLast?_stagesOf (accepts : Accepts outcomes line) :
    (stagesOf (words (textOf line))).getLast? = some (restOf outcomes (words (textOf line))) := by
  rw [← accepts.stages, List.getLast?_concat]

/-- A file that is opened is that of the last `>`. -/
theorem openedName_lastOutput {opens : Nat → Bool} {parts : List Item}
    (opened : ∀ target ∈ lastOutput opens 0 parts none, target.2 = true) :
    openedName (lastOutput opens 0 parts none) = (outputs parts).getLast? := by
  have name := @lastOutput_name opens 0 parts none
  rw [Option.map_none, Option.or_none] at name
  rw [← name]
  cases target : lastOutput opens 0 parts none with
  | none => rfl
  | some pair =>
      rcases pair with ⟨name, success⟩
      have isOpened : success = true := opened _ target
      rw [isOpened]
      rfl

/-- The stages are connected if `pipe` succeeds between them. -/
theorem connected_line (standard : Standard shell) (accepts : Accepts outcomes line)
    (made : ∀ number, number + 1 < (stagesOf (words (textOf line))).length →
      outcomes.pipe number = none) :
    ConnectedTasks shell (openedName (lastOutput outcomes.openLast 0
        (items (restOf outcomes (words (textOf line)))).1 none))
      (lineTable outcomes shell line) (lineRedirects outcomes shell line) := by
  have length := length_lineRedirects accepts shell
  have count : (lineRedirects outcomes shell line).length =
      (built outcomes shell (words (textOf line))).tasks.length + 1 := by
    rw [lineRedirects, List.length_append, List.length_map]
    rfl
  have succeed : ∀ number < (built outcomes shell (words (textOf line))).tasks.length,
      outcomes.pipe number = none := by
    intro number inside
    exact made number (by omega)
  have connected : Connected shell (built outcomes shell (words (textOf line))) :=
    (Connected.start standard).pipeStages succeed
  have grows := @built_grows outcomes shell line
  have kept := FilesKept.of_grows grows
  have piped : ∀ number pair, (lineRedirects outcomes shell line)[number]? = some pair →
      (∃ task, (built outcomes shell (words (textOf line))).tasks[number]? = some task ∧
        task.redirects = pair) ∨
      number = (built outcomes shell (words (textOf line))).tasks.length ∧
        pair = ((built outcomes shell (words (textOf line))).lastTask outcomes
          (restOf outcomes (words (textOf line)))).redirects := by
    intro number pair there
    rcases getElem?_concat there with old | ⟨last, here⟩
    · rw [List.getElem?_map, Option.map_eq_some_iff] at old
      exact Or.inl old
    · rw [List.length_map] at last
      exact Or.inr ⟨last, here⟩
  refine ⟨grows _ _ connected.input, grows _ _ connected.output, ?_, ?_, ?_⟩
  · intro number pair there
    rcases piped number pair there with ⟨task, stored, rfl⟩ | ⟨rfl, rfl⟩
    · exact (connected.reads number task stored).keep kept
    · exact connected.next.keep kept
  · intro number pair there more
    rcases piped number pair there with ⟨task, stored, rfl⟩ | ⟨rfl, rfl⟩
    · exact kept _ _ (connected.writes number task stored)
    · omega
  · intro number pair there last
    rcases piped number pair there with ⟨task, stored, rfl⟩ | ⟨rfl, rfl⟩
    · have inside := (List.getElem?_eq_some_iff.mp stored).1
      omega
    · exact @parseLast_redirects outcomes (built outcomes shell (words (textOf line))) _
        accepts.launchable.last

/-- The child process of a stage, if all of them are started. -/
theorem Wired.child (wired : Wired outcomes shell line) (accepts : Accepts outcomes line)
    {front back : List (Int × Int)} {pair : Int × Int}
    (split : lineRedirects outcomes shell line = front ++ pair :: back) :
    fileAt (childTable (closeAll (lineTable outcomes shell line) front) pair) 0 =
        stageInput shell (stagesOf (words (textOf line))) front.length ∧
      fileAt (childTable (closeAll (lineTable outcomes shell line) front) pair) 1 =
        stageOutput shell (stagesOf (words (textOf line))) front.length := by
  rcases @handleLine_of_accepts line (everyFork outcomes) accepts shell with ⟨tasks, redirects, run⟩
  have parts : tasks.map CommandTask.redirects = front ++ pair :: back := redirects.trans split
  rcases List.map_eq_append_iff.mp parts with ⟨first, later, tasksSplit, isFront, isBack⟩
  rcases List.map_eq_cons_iff.mp isBack with ⟨task, rest, laterSplit, isPair, _⟩
  rw [laterSplit] at tasksSplit
  rcases @launchLoop_of_fork (everyFork outcomes) (-1) 0 first rest task
    (lineTable outcomes shell line) rfl with ⟨child, member, number, descriptors⟩
  rw [← tasksSplit] at member
  have files := wired (everyFork outcomes) rfl _ _ run child member
  have length : first.length = front.length := by
    rw [← isFront, List.length_map]
  rw [descriptors, number, Nat.zero_add, length, isFront, isPair] at files
  exact files

/-- If the stages are connected and the first one has no `<`, all child processes have the
standard input and output that belong to their stages. -/
theorem wired_of_connected (standard : Standard shell) (accepts : Accepts outcomes line)
    (noInput : ∀ stage ∈ (stagesOf (words (textOf line))).head?, inputs (items stage).1 = [])
    (connected : ConnectedTasks shell
      (outputs (items (restOf outcomes (words (textOf line)))).1).getLast?
      (lineTable outcomes shell line) (lineRedirects outcomes shell line)) :
    Wired outcomes shell line := by
  intro calls same after children run child member
  cases same
  rcases @handleLine_of_accepts line calls accepts shell with ⟨tasks, redirects, run'⟩
  rw [run'] at run
  cases run
  rcases launchLoop_children member with ⟨front, task, back, tasksSplit, number, descriptors⟩
  have split : lineRedirects calls.toParseOutcomes shell line =
      front.map CommandTask.redirects ++ task.redirects :: back.map CommandTask.redirects := by
    rw [← redirects, tasksSplit, List.map_append, List.map_cons]
  have length : front.length = (front.map CommandTask.redirects).length := by
    rw [List.length_map]
  rcases connected.source split with ⟨source, reads, sourceFile⟩
  rcases connected.sink split with ⟨sink, writes, sinkFile⟩
  have files := childTable_files reads writes
  have count := length_lineRedirects accepts shell
  rw [descriptors, files.1, files.2, sourceFile, sinkFile, number, Nat.zero_add, length]
  constructor
  · have none : (stagesOf (words (textOf line))).head?.bind
        (fun stage => (inputs (items stage).1).getLast?) = none := by
      apply Option.bind_eq_none_iff.mpr
      intro stage first
      rw [noInput stage first]
      rfl
    rw [stageInput, none, Option.map_none, Option.none_or, fileAt_of_entry standard.input]
    split_ifs <;> rfl
  · rw [stageOutput, getLast?_stagesOf accepts, count, Option.bind_some,
      fileAt_of_entry standard.output]
    split_ifs
    · rfl
    · cases (outputs (items (restOf calls.toParseOutcomes (words (textOf line)))).1).getLast? <;>
        rfl

/-- If all child processes have the standard input that belongs to their stages, there is
no `<` in the first one. -/
theorem Wired.no_input (wired : Wired outcomes shell line) (standard : Standard shell)
    (accepts : Accepts outcomes line) :
    ∀ stage ∈ (stagesOf (words (textOf line))).head?, inputs (items stage).1 = [] := by
  intro stage isFirst
  by_contra nonempty
  rcases List.eq_nil_or_concat (inputs (items stage).1) with empty | ⟨before, name, concat⟩
  · exact nonempty empty
  have last : (inputs (items stage).1).getLast? = some name := by
    rw [concat, List.concat_eq_append, List.getLast?_concat]
  cases all : lineRedirects outcomes shell line with
  | nil =>
      rw [lineRedirects] at all
      exact absurd (List.append_eq_nil_iff.mp all).2 (List.cons_ne_nil _ _)
  | cons pair back =>
      have bounded := @built_bounded outcomes shell line standard
      have negative : pair.1 = -1 := by
        apply bounded.first
        have firsts := congrArg (List.map Prod.fst) all
        rw [lineRedirects, List.map_append, List.map_map] at firsts
        exact congrArg List.head? firsts
      have files := (@Wired.child outcomes shell line wired accepts [] back pair all).1
      rw [List.length_nil, stageInput, if_pos rfl, Option.mem_def.mp isFirst, Option.bind_some, last] at files
      have own := fileAt_closeAll (fileAt_childTable_zero (by rw [negative]; decide) files)
      have input := FilesKept.of_grows (@built_grows outcomes shell line) _ _ bounded.input
      rw [input] at own
      cases own

/-- If all child processes have the standard output that belongs to their stages, the file
of the last `>` of the last one has been opened. -/
theorem Wired.opened (wired : Wired outcomes shell line) (standard : Standard shell)
    (accepts : Accepts outcomes line) :
    ∀ target ∈ lastOutput outcomes.openLast 0
      (items (restOf outcomes (words (textOf line)))).1 none, target.2 = true := by
  intro target isTarget
  by_contra failed
  have count := length_lineRedirects accepts shell
  have files := (@Wired.child outcomes shell line wired accepts _ [] _ rfl).2
  have length : ((built outcomes shell (words (textOf line))).tasks.map
      CommandTask.redirects).length + 1 = (stagesOf (words (textOf line))).length := by
    rw [← count, lineRedirects, List.length_append]
    rfl
  have name := @lastOutput_name outcomes.openLast 0
    (items (restOf outcomes (words (textOf line)))).1 none
  rw [Option.map_none, Option.or_none, Option.mem_def.mp isTarget] at name
  rw [stageOutput, length, if_neg (Nat.lt_irrefl _), getLast?_stagesOf accepts,
    Option.bind_some, ← name] at files
  have negative := @parseLast_redirects outcomes
    (built outcomes shell (words (textOf line))) _ accepts.launchable.last
  rw [Option.mem_def.mp isTarget] at negative
  have none : openedName (some target) = none := by
    rcases target with ⟨file, success⟩
    rw [Bool.not_eq_true] at failed
    dsimp only at failed
    rw [failed]
    rfl
  rw [none] at negative
  have minus : ((built outcomes shell (words (textOf line))).lastTask outcomes
      (restOf outcomes (words (textOf line)))).redirects.2 = -1 := negative
  have own := fileAt_closeAll (fileAt_childTable_one (by rw [minus]; decide) files)
  have output := FilesKept.of_grows (@built_grows outcomes shell line) _ _
    (@built_bounded outcomes shell line standard).output
  rw [output] at own
  cases own

/-- If all child processes have the standard output that belongs to their stages, every
call of `pipe` has succeeded. -/
theorem Wired.made (wired : Wired outcomes shell line) (standard : Standard shell)
    (accepts : Accepts outcomes line) :
    ∀ number, number + 1 < (stagesOf (words (textOf line))).length →
      outcomes.pipe number = none := by
  intro number inside
  by_contra failed
  have bounded := @built_bounded outcomes shell line standard
  have count := length_lineRedirects accepts shell
  have tasks : (lineRedirects outcomes shell line).length =
      (built outcomes shell (words (textOf line))).tasks.length + 1 := by
    rw [lineRedirects, List.length_append, List.length_map]
    rfl
  have missing := bounded.missing ⟨number, by omega, failed⟩
  -- The stage before the last one cannot write to a pipe that has not been made.
  have here : (lineRedirects outcomes shell line).length - 2 <
      (lineRedirects outcomes shell line).length := by omega
  have split := (List.take_append_drop ((lineRedirects outcomes shell line).length - 2)
    (lineRedirects outcomes shell line)).symm
  rw [List.drop_eq_getElem_cons here] at split
  have files := (wired.child accepts split).2
  have length : ((lineRedirects outcomes shell line).take
      ((lineRedirects outcomes shell line).length - 2)).length =
        (stagesOf (words (textOf line))).length - 2 := by
    rw [List.length_take, ← count]
    omega
  rw [length, stageOutput, if_pos (by omega)] at files
  rcases fileAt_childTable files with ⟨own, there, _⟩
  have below : PipesBelow (lineTable outcomes shell line)
      (built outcomes shell (words (textOf line))).pipes := PipesBelow.parsed bounded.below
  have small := below own _ (fileAt_closeAll there)
  omega

end Lines

/-! ## The shell between two lines -/

/-- Every call of `pipe` for a line succeeds. -/
def pipesMade (entered : Outcomes × List UInt8) : Bool :=
  (List.range (stagesOf (words (textOf entered.2))).length).all fun number =>
    (entered.1.pipe number).isNone

section Rounds

variable {start shell after : Shell} {entered : Outcomes × List UInt8}

theorem pipe_of_made (made : pipesMade entered = true) {number : Nat}
    (inside : number < (stagesOf (words (textOf entered.2))).length) :
    entered.1.pipe number = none :=
  Option.isNone_iff_eq_none.mp (List.all_eq_true.mp made number (List.mem_range.mpr inside))

/-- What the tasks of a line have closed is not the standard output of the shell. -/
theorem ConnectedTasks.output_kept {target : Option (List UInt8)}
    {table : DescriptorTable Descriptor} {redirects : List (Int × Int)}
    (connected : ConnectedTasks shell target table redirects) :
    (closeAll table redirects).entry 1 = some ⟨.inherited 1, false⟩ := by
  rcases @entry_closeAll table 1 redirects with ⟨_, ⟨used, member, either⟩, _⟩ | ⟨kept, _⟩
  · rcases List.getElem?_of_mem member with ⟨number, here⟩
    rcases connected.file here connected.output either with
      ⟨before, _, reads⟩ | writes | ⟨_, name, opened⟩
    · cases reads
    · cases writes
    · cases opened
  · rw [kept, connected.output]

theorem input_kept {table : DescriptorTable Descriptor} {redirects : List (Int × Int)} :
    (closeAll table redirects).entry 0 = table.entry 0 := by
  rcases @entry_closeAll table 0 redirects with ⟨_, _, nonzero⟩ | ⟨kept, _⟩
  · exact absurd rfl nonzero
  · exact kept

/-- A line keeps the standard input and output of the shell if `pipe` succeeds. -/
theorem Standard.step (standard : Standard shell) (made : pipesMade entered = true)
    (moved : (shellSystem start).step shell entered = some after) : Standard after := by
  rcases entered with ⟨outcomes, line⟩
  have bounded := @built_bounded outcomes.toParseOutcomes shell line standard
  have below : PipesBelow (lineTable outcomes.toParseOutcomes shell line)
      (built outcomes.toParseOutcomes shell (words (textOf line))).pipes :=
    PipesBelow.parsed bounded.below
  have few : (built outcomes.toParseOutcomes shell (words (textOf line))).tasks.length ≤
      (stagesOf (words (textOf line))).length := by
    have whole := congrArg List.length (acceptedStages_append outcomes.toParseOutcomes 0
      (stagesOf (words (textOf line))))
    rw [List.length_append] at whole
    rw [length_built]
    omega
  have connected : Connected shell
      (built outcomes.toParseOutcomes shell (words (textOf line))) :=
    (Connected.start standard).pipeStages fun number inside =>
      pipe_of_made made (Nat.lt_of_lt_of_le inside few)
  have grows := @built_grows outcomes.toParseOutcomes shell line
  rcases step_cases moved with ⟨builtin, _, ends⟩ | ⟨accepts, tasks, _, rfl⟩ | ⟨_, _, rfl⟩
  · rcases runBuiltin_shell ends with ⟨descriptors, pipes⟩
    refine ⟨?_, ?_, ?_⟩
    · rw [descriptors]
      exact standard.input
    · rw [descriptors]
      exact standard.output
    · rw [descriptors, pipes]
      exact standard.pipes
  · have tasksConnected := connected_line standard accepts fun number inside =>
      pipe_of_made made (Nat.lt_of_succ_lt inside)
    refine ⟨?_, tasksConnected.output_kept, ?_⟩
    · rw [input_kept]
      exact tasksConnected.input
    · exact fun descriptor pipe there => below descriptor pipe (fileAt_closeAll there)
  · exact ⟨grows _ _ connected.input, grows _ _ connected.output, below⟩

/-- However many lines are entered, the standard input and output of the shell stay what
they are as long as `pipe` succeeds. -/
theorem standard_of_reachable (standard : Standard start)
    (reached : ((shellSystem start).restrict fun _ => pipesMade).Reachable shell) :
    Standard shell := by
  apply reached.invariant Standard
  · intro shell initial
    rw [initial]
    exact standard
  · intro shell entered after _ known moved
    rcases TransitionSystem.restrict_step_iff.mp moved with ⟨made, moved⟩
    exact known.step made moved

end Rounds

/-- The child processes of a line that is accepted have the standard input and output that
belong to their stages if the first stage has no `<`, the file of the last `>` of the last
one has been opened, and `pipe` has succeeded between all of them. -/
theorem wired_iff (outcomes : ParseOutcomes) (shell : Shell) (line : List UInt8)
    (standard : Standard shell) (accepts : Accepts outcomes line) :
    Wired outcomes shell line ↔
      (∀ stage ∈ (stagesOf (words (textOf line))).head?, inputs (items stage).1 = []) ∧
      (∀ stage ∈ (stagesOf (words (textOf line))).getLast?,
        ∀ target ∈ lastOutput outcomes.openLast 0 (items stage).1 none, target.2 = true) ∧
      ∀ number, number + 1 < (stagesOf (words (textOf line))).length →
        outcomes.pipe number = none := by
  have last := getLast?_stagesOf accepts
  constructor
  · intro wired
    refine ⟨wired.no_input standard accepts, ?_, wired.made standard accepts⟩
    intro stage isLast
    rw [last, Option.mem_some] at isLast
    rw [← isLast]
    exact wired.opened standard accepts
  · intro ⟨noInput, opened, made⟩
    have connected := connected_line standard accepts made
    rw [openedName_lastOutput (opened _ (Option.mem_def.mpr last))] at connected
    exact wired_of_connected standard accepts noInput connected

/-- The shell before the first line has no pipes. -/
theorem firstShell_standard : Standard firstShell where
  input := rfl
  output := rfl
  pipes := by
    intro descriptor pipe there
    rcases entry_of_fileAt there with ⟨known, entry, file⟩
    obtain ⟨number, rfl⟩ := Int.eq_ofNat_of_zero_le (DescriptorTable.nonneg_of_entry entry)
    rw [DescriptorTable.entry_natCast] at entry
    have member := List.mem_of_getElem? (Option.join_eq_some_iff.mp entry)
    have inherited : ∀ slot ∈ firstShell.descriptors.slots, ∀ known ∈ slot,
        ∀ pipe, known.file ≠ .pipeWrite pipe := by
      intro slot inTable known isKnown pipe
      rcases List.mem_cons.mp inTable with rfl | inTable
      · rw [← Option.mem_some.mp isKnown]
        exact fun same => by cases same
      · rcases List.mem_cons.mp inTable with rfl | inTable
        · rw [← Option.mem_some.mp isKnown]
          exact fun same => by cases same
        · rw [List.mem_singleton.mp inTable] at isKnown
          rw [← Option.mem_some.mp isKnown]
          exact fun same => by cases same
    exact absurd file (inherited _ member known rfl pipe)

theorem wired_iff_piped : Wired fineOutcomes.toParseOutcomes firstShell pipedLine := by
  apply (wired_iff fineOutcomes.toParseOutcomes firstShell pipedLine firstShell_standard
    pipedLine_accepts).mpr
  rw [words_pipedLine]
  exact ⟨by decide +kernel, by decide +kernel, fun _ _ => rfl⟩

/-- The file of `<` is not read. -/
theorem wired_iff_input : ¬Wired fineOutcomes.toParseOutcomes firstShell inputLine := by
  intro wired
  have noInput := wired.no_input firstShell_standard inputLine_accepts
  rw [words_inputLine] at noInput
  exact absurd (noInput [[97], [60], [98]] rfl) (by decide +kernel)

end CS162.HwShell
