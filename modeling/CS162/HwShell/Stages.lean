import CS162.HwShell.Parsing
import CS162.HwShell.Shell

/-!
# The stages of a line

The loop over the pipe symbols in `main`, stage by stage instead of index by index.
-/

namespace CS162.HwShell

open CS162.Foundation

/-- The tokens of a stage of a pipeline. -/
abbrev Stage := List (List UInt8)

/-- The stages of a line. -/
def stagesOf (tokens : List (List UInt8)) : List Stage := tokens.splitOn pipeSymbol

/-- The tokens of some stages, with pipe symbols between them. -/
def joined (stages : List Stage) : List (List UInt8) := [pipeSymbol].intercalate stages

namespace Building

/-- What a stage before a pipe symbol is parsed to. -/
def parse (b : Building) (outcomes : ParseOutcomes) (stage : Stage) : Parsing :=
  parsed (outcomes.openPiped b.tasks.length) b.descriptors stage

/-- A stage before a pipe symbol is parsed and its task is stored. -/
def addStage (b : Building) (outcomes : ParseOutcomes) (stage : Stage) : Building :=
  { b with descriptors := (b.parse outcomes stage).descriptors : Building }.addPiped outcomes
    (taskOf (b.parse outcomes stage))

/-- What the last stage is parsed to. -/
def parseLast (b : Building) (outcomes : ParseOutcomes) (stage : Stage) : Parsing :=
  parsed outcomes.openLast b.descriptors stage

/-- The task of the last stage. -/
def lastTask (b : Building) (outcomes : ParseOutcomes) (stage : Stage) : CommandTask :=
  { taskOf (b.parseLast outcomes stage) with redirectIn := b.nextIn }

end Building

/-- The loop over the pipe symbols if `all_com_tasks` had room for every task: what is
left for the last call of `tokens_to_task`, and whether the stages before it were
accepted. -/
def pipeStages (outcomes : ParseOutcomes) : List Stage → Building → Building × List Stage × Bool
  | stage :: next :: rest, b =>
      if stageValid (outcomes.openPiped b.tasks.length) stage then
        pipeStages outcomes (next :: rest) (b.addStage outcomes stage)
      else
        ({ b with descriptors := (b.parse outcomes stage).descriptors },
          stage :: next :: rest, false)
  | stages, b => (b, stages, true)

section Splitting

variable {tokens : List (List UInt8)} {start stop : Nat}

theorem rangeOf_length (tokens : List (List UInt8)) (start : Nat) :
    rangeOf tokens start tokens.length = tokens.drop start := by
  rw [rangeOf, List.take_length]

/-- Without a pipe symbol the rest of the tokens is one stage. -/
theorem stagesOf_of_none (none : findSymbolFromTokens tokens start pipeSymbol = none) :
    stagesOf (tokens.drop start) = [tokens.drop start] := by
  rw [findSymbolFromTokens, Option.map_eq_none_iff, List.findIdx?_eq_none_iff] at none
  apply List.splitOn_eq_singleton
  intro member
  exact absurd rfl (of_decide_eq_false (none pipeSymbol member))

/-- The first pipe symbol ends the first stage. -/
theorem stagesOf_of_some (found : findSymbolFromTokens tokens start pipeSymbol = some stop) :
    start ≤ stop ∧ stop < tokens.length ∧
      stagesOf (tokens.drop start) =
        rangeOf tokens start stop :: stagesOf (tokens.drop (stop + 1)) := by
  rw [findSymbolFromTokens, Option.map_eq_some_iff] at found
  rcases found with ⟨offset, found, rfl⟩
  rcases List.findIdx?_eq_some_iff_getElem.mp found with ⟨inside, symbol, before⟩
  have split : tokens.drop start = (tokens.drop start).take offset ++
      pipeSymbol :: tokens.drop (start + offset + 1) := by
    have cut := (List.take_append_drop offset (tokens.drop start)).symm
    rw [List.drop_eq_getElem_cons inside, of_decide_eq_true symbol, List.drop_drop] at cut
    exact cut
  have range : rangeOf tokens start (start + offset) = (tokens.drop start).take offset := by
    rw [rangeOf, List.drop_take, Nat.add_sub_cancel_left]
  have absent : pipeSymbol ∉ (tokens.drop start).take offset := by
    intro member
    rcases List.mem_take_iff_getElem.mp member with ⟨i, small, here⟩
    have below : i < offset := Nat.lt_of_lt_of_le small (Nat.min_le_left _ _)
    exact absurd (decide_eq_true here) (before i below)
  rw [List.length_drop] at inside
  refine ⟨Nat.le_add_right _ _, by omega, ?_⟩
  rw [range]
  calc stagesOf (tokens.drop start) = ((tokens.drop start).take offset ++
        pipeSymbol :: tokens.drop (start + offset + 1)).splitOn pipeSymbol :=
        congrArg stagesOf split
    _ = _ := List.splitOn_append_cons_self_of_not_mem absent _

/-- There is at least one stage. -/
theorem stagesOf_cons (tokens : List (List UInt8)) :
    ∃ stage rest, stagesOf tokens = stage :: rest :=
  List.exists_cons_of_ne_nil (List.splitOn_ne_nil pipeSymbol tokens)

theorem joined_singleton (stage : Stage) : joined [stage] = stage := List.intercalate_singleton

end Splitting

section Building

variable {outcomes : ParseOutcomes} {b : Building} {task : CommandTask}

theorem tasks_addPiped : ∃ added, (b.addPiped outcomes task).tasks = b.tasks ++ [added] := by
  unfold Building.addPiped Building.makePipe
  cases outcomes.pipe b.tasks.length with
  | none => exact ⟨_, rfl⟩
  | some pipefd => exact ⟨_, rfl⟩

/-- Every stage that is accepted adds a task. -/
theorem length_addStage (stage : Stage) :
    (b.addStage outcomes stage).tasks.length = b.tasks.length + 1 := by
  rcases @tasks_addPiped outcomes
    { b with descriptors := (b.parse outcomes stage).descriptors }
    (taskOf (b.parse outcomes stage)) with ⟨added, tasks⟩
  rw [Building.addStage, tasks, List.length_append]
  rfl

theorem length_pipeStages (outcomes : ParseOutcomes) (stages : List Stage) (b : Building) :
    b.tasks.length ≤ (pipeStages outcomes stages b).1.tasks.length := by
  fun_induction pipeStages outcomes stages b with
  | case1 stage next rest b valid inductionHypothesis =>
      rw [length_addStage] at inductionHypothesis
      omega
  | case2 stage next rest b invalid => exact Nat.le_refl _
  | case3 stages b short => exact Nat.le_refl _

end Building

section Loop

variable {outcomes : ParseOutcomes} {tokens : List (List UInt8)}

/-- The loop over the pipe symbols goes through the stages, and stores behind the array
if there are too many of them. -/
theorem pipeLoop_eq {rounds start : Nat} {b : Building}
    (enough : tokens.length - start ≤ rounds) (room : b.tasks.length ≤ tasksMax) :
    ((pipeStages outcomes (stagesOf (tokens.drop start)) b).1.tasks.length ≤ tasksMax ∧
      ∃ stop, pipeLoop outcomes tokens rounds start b =
          .ok ((pipeStages outcomes (stagesOf (tokens.drop start)) b).1, stop,
            (pipeStages outcomes (stagesOf (tokens.drop start)) b).2.2) ∧
        tokens.drop stop = joined (pipeStages outcomes (stagesOf (tokens.drop start)) b).2.1) ∨
    tasksMax < (pipeStages outcomes (stagesOf (tokens.drop start)) b).1.tasks.length ∧
      pipeLoop outcomes tokens rounds start b = .error .tasksBounds := by
  induction rounds generalizing start b with
  | zero =>
      have none : tokens.drop start = [] := List.drop_eq_nil_of_le (by omega)
      rw [none]
      exact Or.inl ⟨room, start, rfl, none⟩
  | succ rounds inductionHypothesis =>
      cases find : findSymbolFromTokens tokens start pipeSymbol with
      | none =>
          rw [stagesOf_of_none find]
          refine Or.inl ⟨room, start, ?_, (joined_singleton _).symm⟩
          rw [pipeLoop, find]
          rfl
      | some stop =>
          rcases stagesOf_of_some find with ⟨after, inside, split⟩
          rcases stagesOf_cons (tokens.drop (stop + 1)) with ⟨next, rest, more⟩
          have task := @tokensToTask_eq (outcomes.openPiped b.tasks.length) b.descriptors
            tokens start stop (Nat.le_of_lt inside)
          rw [split, more, pipeStages, ← more, pipeLoop, find]
          dsimp only
          rw [bind_of_ok task]
          by_cases valid : stageValid (outcomes.openPiped b.tasks.length)
              (rangeOf tokens start stop) = true
          · rw [if_pos valid, if_pos valid]
            dsimp only
            by_cases below : b.tasks.length < tasksMax
            · have length := @length_addStage outcomes b (rangeOf tokens start stop)
              have later := @inductionHypothesis (stop + 1)
                (b.addStage outcomes (rangeOf tokens start stop)) (by omega) (by omega)
              rw [if_pos below]
              exact later
            · have length := @length_addStage outcomes b (rangeOf tokens start stop)
              have grows := length_pipeStages outcomes (stagesOf (tokens.drop (stop + 1)))
                (b.addStage outcomes (rangeOf tokens start stop))
              rw [if_neg below]
              exact Or.inr ⟨by omega, rfl⟩
          · rw [if_neg valid, if_neg valid]
            refine Or.inl ⟨room, start, rfl, ?_⟩
            dsimp only
            rw [← split]
            exact (List.intercalate_splitOn pipeSymbol).symm

end Loop

/-! ## The last stage -/

section LastStage

variable {outcomes : ParseOutcomes} {tokens : List (List UInt8)} {stop : Nat} {b : Building}

theorem lastStage_of_invalid
    (invalid : stageValid outcomes.openLast (tokens.drop stop) = false) :
    lastStage outcomes tokens stop b =
      .ok ({ b with descriptors := (b.parseLast outcomes (tokens.drop stop)).descriptors },
        none) := by
  have task := @tokensToTask_eq outcomes.openLast b.descriptors tokens stop tokens.length
    (Nat.le_refl _)
  rw [rangeOf_length, invalid] at task
  rw [lastStage, bind_of_ok task]
  rfl

theorem lastStage_of_full (valid : stageValid outcomes.openLast (tokens.drop stop) = true)
    (full : tasksMax ≤ b.tasks.length) :
    lastStage outcomes tokens stop b = .error .tasksBounds := by
  have task := @tokensToTask_eq outcomes.openLast b.descriptors tokens stop tokens.length
    (Nat.le_refl _)
  rw [rangeOf_length, if_pos valid] at task
  rw [lastStage, bind_of_ok task]
  exact if_neg (Nat.not_lt.mpr full)

theorem lastStage_of_room (valid : stageValid outcomes.openLast (tokens.drop stop) = true)
    (room : b.tasks.length < tasksMax) :
    lastStage outcomes tokens stop b =
      .ok ({ b with
          descriptors := (b.parseLast outcomes (tokens.drop stop)).descriptors
          tasks := b.tasks ++ [b.lastTask outcomes (tokens.drop stop)] },
        some (b.lastTask outcomes (tokens.drop stop))) := by
  have task := @tokensToTask_eq outcomes.openLast b.descriptors tokens stop tokens.length
    (Nat.le_refl _)
  rw [rangeOf_length, if_pos valid] at task
  rw [lastStage, bind_of_ok task]
  exact if_pos room

/-- The last argument is taken away if it starts with `&`. -/
theorem backgroundMark_eq {task : CommandTask} {front : List (List UInt8)}
    {word : List UInt8} (args : task.args = (front ++ [word]).map some ++ [none])
    (argsLen : task.argsLen = front.length + 1) :
    backgroundMark (some task) =
      .ok (if word.head? = some 38 then
          ({ task with args := front.map some ++ [none, none] }, true)
        else (task, false)) := by
  have nonempty : task.argsLen ≠ 0 := by omega
  have index : task.argsLen - 1 = (front.map some).length := by
    rw [argsLen, List.length_map, Nat.add_sub_cancel]
  have split : task.args = front.map some ++ some word :: [none] := by
    rw [args, List.map_append, List.append_assoc]
    rfl
  have here : task.args[task.argsLen - 1]? = some (some word) := by
    rw [index, split, List.getElem?_append_right (Nat.le_refl _), Nat.sub_self]
    rfl
  have erased : task.args.set (task.argsLen - 1) none = front.map some ++ [none, none] := by
    rw [index, split, List.set_append_right _ _ (Nat.le_refl _), Nat.sub_self]
    rfl
  unfold backgroundMark
  dsimp only
  rw [if_neg nonempty, here, erased]
  dsimp only
  split <;> rfl

end LastStage

/-! ## The programs -/

/-- The name of the program of a stage. -/
def programOf (stage : Stage) : Option (List UInt8) := (plainWords (items stage).1).head?

namespace ParseOutcomes

/-- The file in the first directory of `PATH` that has one. -/
def programIn (outcomes : ParseOutcomes) (number : Nat) (program : List UInt8) :
    Option (List UInt8) :=
  outcomes.path.bind fun pathenv =>
    HwShell.programIn pathenv (outcomes.access number) program

/-- A program is there under its name, or looking for it in `PATH` does no harm. -/
def searchFine (outcomes : ParseOutcomes) (number : Nat) (program : List UInt8) : Bool :=
  outcomes.access number program || outcomes.path.isSome && outcomes.heap number

end ParseOutcomes

/-- The names of the programs of some stages pass a test. -/
def everyProgram (test : Nat → List UInt8 → Bool) : Nat → List Stage → Bool
  | _, [] => true
  | number, stage :: rest =>
      (programOf stage).all (test number) && everyProgram test (number + 1) rest

/-- The program of a stage is there. -/
def programFound (outcomes : ParseOutcomes) (number : Nat) (stage : Stage) : Bool :=
  (programOf stage).any fun program =>
    outcomes.access number program || (outcomes.programIn number program).isSome

/-- The programs of some stages are there. -/
def programsFound (outcomes : ParseOutcomes) : Nat → List Stage → Bool
  | _, [] => true
  | number, stage :: rest =>
      programFound outcomes number stage && programsFound outcomes (number + 1) rest

namespace CommandTask

/-- The name of the program of a task. -/
def program (task : CommandTask) : Option (List UInt8) := task.args.head?.join

/-- The descriptors of a task. -/
def redirects (task : CommandTask) : Int × Int := (task.redirectIn, task.redirectOut)

end CommandTask

section Programs

variable {outcomes : ParseOutcomes} {number : Nat}

/-- What is found for a name. -/
theorem programPath_some {program : List UInt8} (fine : outcomes.searchFine number program = true) :
    programPath outcomes number (some program) =
      .ok (if outcomes.access number program then some program
        else outcomes.programIn number program) := by
  unfold programPath
  rw [Option.elim_some]
  by_cases there : outcomes.access number program = true
  · rw [if_pos there, if_pos there]
  · rw [ParseOutcomes.searchFine, Bool.or_eq_true, Bool.and_eq_true] at fine
    obtain ⟨isSet, harmless⟩ := fine.resolve_left there
    obtain ⟨pathenv, path⟩ := Option.isSome_iff_exists.mp isSet
    rcases findFilePath_result pathenv (outcomes.access number) program with
      ⟨search, returned, result, _⟩
    rw [if_neg there, if_neg there, ParseOutcomes.programIn, path, Option.bind_some, ← result]
    dsimp only
    rw [bind_of_ok returned, harmless, Bool.not_true, Bool.and_false, if_neg Bool.false_ne_true]
    rfl

/-- Every search writes behind a buffer. -/
theorem programPath_harmed {program : List UInt8}
    (harm : outcomes.searchFine number program = false) :
    ∃ crash, programPath outcomes number (some program) = .error crash := by
  rw [ParseOutcomes.searchFine, Bool.or_eq_false_iff, Bool.and_eq_false_iff] at harm
  unfold programPath
  rw [Option.elim_some, harm.1, if_neg Bool.false_ne_true]
  cases path : outcomes.path with
  | none => exact ⟨_, rfl⟩
  | some pathenv =>
      rw [path] at harm
      rcases findFilePath_result pathenv (outcomes.access number) program with
        ⟨search, returned, _, first, overruns⟩
      have written : search.overruns = true :=
        List.any_eq_true.mpr ⟨_, first, decide_eq_true (Nat.lt_succ_self _)⟩
      dsimp only
      rw [bind_of_ok returned, written, harm.2.resolve_left (by simp)]
      exact ⟨_, rfl⟩

/-- No program is found for a null name. -/
theorem programPath_none :
    (∃ crash, programPath outcomes number none = .error crash) ∨
      programPath outcomes number none = .ok none := by
  unfold programPath
  rw [Option.elim_none, if_neg Bool.false_ne_true]
  cases outcomes.path with
  | none => exact Or.inl ⟨_, rfl⟩
  | some pathenv =>
      by_cases empty : (pathDirectories [] pathenv).isEmpty = true
      · have search : findFilePath pathenv (outcomes.access number) none =
            .ok ⟨none, [⟨pathenv.length, pathenv.length + 1⟩]⟩ := if_pos empty
        dsimp only
        rw [bind_of_ok search]
        split
        · exact Or.inl ⟨_, rfl⟩
        · exact Or.inr rfl
      · have search : findFilePath pathenv (outcomes.access number) none =
            .error .nullArgument := if_neg empty
        dsimp only
        rw [search]
        exact Or.inl ⟨_, rfl⟩

/-- If all tasks have the names of programs and the searches do no harm, it is found out
whether the programs are there. -/
theorem resolveTasks_of_named {tasks : List CommandTask} {stages : List Stage}
    (names : tasks.map CommandTask.program = stages.map programOf)
    (named : ∀ stage ∈ stages, (programOf stage).isSome = true)
    (searches : everyProgram outcomes.searchFine number stages = true) :
    ∃ resolved, resolveTasks outcomes number tasks =
        .ok (resolved, programsFound outcomes number stages) ∧
      resolved.map CommandTask.redirects = tasks.map CommandTask.redirects := by
  induction tasks generalizing number stages with
  | nil =>
      have empty : stages = [] := List.map_eq_nil_iff.mp names.symm
      rw [empty]
      exact ⟨[], rfl, rfl⟩
  | cons task tasks inductionHypothesis =>
      cases stages with
      | nil => cases names
      | cons stage stages =>
          rw [List.map_cons, List.map_cons, List.cons.injEq] at names
          rw [everyProgram, Bool.and_eq_true] at searches
          rcases Option.isSome_iff_exists.mp (named stage List.mem_cons_self) with ⟨program, name⟩
          rw [name, Option.all_some] at searches
          rcases @inductionHypothesis (number + 1) stages names.2 (fun stage member =>
            named stage (List.mem_cons_of_mem _ member)) searches.2 with ⟨resolved, run, same⟩
          have found : programFound outcomes number stage =
              (if outcomes.access number program then some program
                else outcomes.programIn number program).isSome := by
            rw [programFound, name, Option.any_some]
            cases outcomes.access number program <;> rfl
          have here : task.args.head?.join = some program := names.1.trans name
          rw [resolveTasks, here, programsFound, found, bind_of_ok (programPath_some searches.1)]
          cases (if outcomes.access number program = true then some program
              else outcomes.programIn number program) with
          | none =>
              refine ⟨task :: resolved, ?_, by rw [List.map_cons, List.map_cons, same]⟩
              dsimp only
              rw [Option.isNone_some, if_neg Bool.false_ne_true, bind_of_ok run]
              rfl
          | some path =>
              refine ⟨{ task with args := task.args.set 0 (some path) } :: resolved, ?_, by
                rw [List.map_cons, List.map_cons, same]
                rfl⟩
              dsimp only
              rw [bind_of_ok run]
              rfl

/-- A task without a program, or one whose search does harm, crashes the shell. -/
theorem resolveTasks_of_bad {tasks : List CommandTask}
    (bad : ∃ (i : Nat) (task : CommandTask), tasks[i]? = some task ∧
      task.program.any (outcomes.searchFine (number + i)) = false) :
    ∃ crash, resolveTasks outcomes number tasks = .error crash := by
  induction tasks generalizing number with
  | nil =>
      rcases bad with ⟨i, task, member, _⟩
      cases member
  | cons task tasks inductionHypothesis =>
      cases name : task.program with
      | none =>
          have here : task.args.head?.join = none := name
          rw [resolveTasks, here]
          rcases @programPath_none outcomes number with ⟨crash, error⟩ | none
          · rw [error]
            exact ⟨crash, rfl⟩
          · rw [bind_of_ok none]
            exact ⟨_, rfl⟩
      | some program =>
          have here : task.args.head?.join = some program := name
          rw [resolveTasks, here]
          cases fine : outcomes.searchFine number program with
          | false =>
              rcases programPath_harmed fine with ⟨crash, error⟩
              rw [error]
              exact ⟨crash, rfl⟩
          | true =>
              have later : ∃ (i : Nat) (task : CommandTask), tasks[i]? = some task ∧
                  task.program.any (outcomes.searchFine (number + 1 + i)) = false := by
                rcases bad with ⟨i, other, member, harm⟩
                cases i with
                | zero =>
                    cases member
                    rw [name, Option.any_some, Nat.add_zero, fine] at harm
                    cases harm
                | succ i =>
                    rw [← Nat.add_assoc, Nat.add_right_comm] at harm
                    exact ⟨i, other, member, harm⟩
              rcases inductionHypothesis later with ⟨crash, run⟩
              rw [bind_of_ok (programPath_some fine), run]
              cases (if outcomes.access number program = true then some program
                  else outcomes.programIn number program) with
              | none => exact ⟨crash, rfl⟩
              | some path => exact ⟨crash, rfl⟩

/-- One of the programs fails a test. -/
theorem everyProgram_false {test : Nat → List UInt8 → Bool} {stages : List Stage}
    (fails : everyProgram test number stages = false) :
    ∃ i stage, stages[i]? = some stage ∧ (programOf stage).all (test (number + i)) = false := by
  induction stages generalizing number with
  | nil => cases fails
  | cons stage stages inductionHypothesis =>
      rw [everyProgram, Bool.and_eq_false_iff] at fails
      rcases fails with here | later
      · exact ⟨0, stage, rfl, here⟩
      · rcases inductionHypothesis later with ⟨i, other, member, fails⟩
        rw [Nat.add_right_comm, Nat.add_assoc] at fails
        exact ⟨i + 1, other, member, fails⟩

/-- The name of the program is the first argument. -/
theorem program_of_args {task : CommandTask} {words : List (List UInt8)}
    {behind : List (Option (List UInt8))} (args : task.args = words.map some ++ none :: behind) :
    task.program = words.head? := by
  rw [CommandTask.program, args]
  cases words <;> rfl

end Programs

/-! ## A whole line -/

/-- The stages before a pipe symbol that are accepted one after another, and the stages
that are left. -/
def acceptedStages (outcomes : ParseOutcomes) : Nat → List Stage → List Stage × List Stage
  | number, stage :: next :: rest =>
      if stageValid (outcomes.openPiped number) stage then
        (stage :: (acceptedStages outcomes (number + 1) (next :: rest)).1,
          (acceptedStages outcomes (number + 1) (next :: rest)).2)
      else ([], stage :: next :: rest)
  | _, stages => ([], stages)

/-- Every stage is accepted. -/
def stagesValid (outcomes : ParseOutcomes) : Nat → List Stage → Bool
  | _, [] => true
  | _, [last] => stageValid outcomes.openLast last
  | number, stage :: next :: rest =>
      stageValid (outcomes.openPiped number) stage &&
        stagesValid outcomes (number + 1) (next :: rest)

/-- Every stage is accepted and its program is there. -/
def lineAccepted (outcomes : ParseOutcomes) (tokens : List (List UInt8)) : Bool :=
  stagesValid outcomes 0 (stagesOf tokens) && programsFound outcomes 0 (stagesOf tokens)

/-- The tokens that are parsed as the last stage: from the first stage on that is not
accepted, or those behind the last pipe symbol. -/
def restOf (outcomes : ParseOutcomes) (tokens : List (List UInt8)) : Stage :=
  joined (acceptedStages outcomes 0 (stagesOf tokens)).2

/-- The only word of a stage starts with `&`. -/
def LoneMark (stage : Stage) : Prop :=
  ∃ word, plainWords (items stage).1 = [word] ∧ word.head? = some 38

/-- The last word of a stage starts with `&`. -/
def marked (stage : Stage) : Bool :=
  (plainWords (items stage).1).getLast?.any fun word => word.head? = some 38

/-- The stages whose tasks are stored. -/
def storedStages (outcomes : ParseOutcomes) (tokens : List (List UInt8)) : List Stage :=
  (acceptedStages outcomes 0 (stagesOf tokens)).1 ++ [restOf outcomes tokens]

/-- What the loop over the pipe symbols leaves. -/
def built (outcomes : ParseOutcomes) (shell : Shell) (tokens : List (List UInt8)) :
    Building :=
  (pipeStages outcomes (stagesOf tokens)
    { descriptors := shell.descriptors, pipes := shell.pipes }).1

/-- The words of a stage that is accepted. -/
theorem parsed_of_valid {opens : Nat → Bool} {descriptors : DescriptorTable Descriptor}
    {stage : Stage} (valid : stageValid opens stage = true) :
    (parsed opens descriptors stage).args = plainWords (items stage).1 ∧
      plainWords (items stage).1 ≠ [] := by
  rw [stageValid, Bool.and_eq_true, Bool.and_eq_true] at valid
  rcases valid with ⟨⟨_, files⟩, words⟩
  refine ⟨parsed_args files, ?_⟩
  intro empty
  rw [empty] at words
  cases words

theorem programOf_isSome {opens : Nat → Bool} {stage : Stage}
    (valid : stageValid opens stage = true) : (programOf stage).isSome = true := by
  have words := (@parsed_of_valid opens ⟨[]⟩ stage valid).2
  rw [programOf, List.isSome_head?]
  cases empty : plainWords (items stage).1 with
  | nil => exact absurd empty words
  | cons word words => exact List.cons_ne_nil _ _

theorem not_loneMark {stage : Stage} (unmarked : marked stage = false) : ¬LoneMark stage := by
  intro ⟨word, one, mark⟩
  rw [marked, one, List.getLast?_singleton, Option.any_some, decide_eq_true mark] at unmarked
  cases unmarked

section Accepted

variable {outcomes : ParseOutcomes}

theorem program_addStage {b : Building} {stage : Stage}
    (valid : stageValid (outcomes.openPiped b.tasks.length) stage = true) :
    (b.addStage outcomes stage).tasks.map CommandTask.program =
      b.tasks.map CommandTask.program ++ [programOf stage] := by
  have args := (@parsed_of_valid _ b.descriptors stage valid).1
  have name : ∀ added : CommandTask,
      added.args = (taskOf (b.parse outcomes stage)).args → added.program = programOf stage := by
    intro added same
    rw [@program_of_args added (b.parse outcomes stage).args [] same, Building.parse, args]
    rfl
  unfold Building.addStage Building.addPiped Building.makePipe
  dsimp only
  cases outcomes.pipe b.tasks.length with
  | none =>
      rw [List.map_append]
      exact congrArg (_ ++ [·]) (name _ rfl)
  | some pipefd =>
      rw [List.map_append]
      exact congrArg (_ ++ [·]) (name _ rfl)

/-- What is left of the stages, whether all were accepted, and the programs of the tasks. -/
theorem pipeStages_accepted (outcomes : ParseOutcomes) (stages : List Stage) (b : Building) :
    (pipeStages outcomes stages b).2.1 = (acceptedStages outcomes b.tasks.length stages).2 ∧
      (pipeStages outcomes stages b).1.tasks.map CommandTask.program =
        b.tasks.map CommandTask.program ++
          (acceptedStages outcomes b.tasks.length stages).1.map programOf ∧
      ((pipeStages outcomes stages b).2.2 = true ↔
        (acceptedStages outcomes b.tasks.length stages).2.length ≤ 1) := by
  fun_induction pipeStages outcomes stages b with
  | case1 stage next rest b valid inductionHypothesis =>
      rw [length_addStage, program_addStage valid] at inductionHypothesis
      rw [acceptedStages, if_pos valid]
      refine ⟨inductionHypothesis.1, ?_, inductionHypothesis.2.2⟩
      rw [inductionHypothesis.2.1, List.append_assoc]
      rfl
  | case2 stage next rest b invalid =>
      rw [acceptedStages, if_neg invalid]
      refine ⟨rfl, (List.append_nil _).symm, iff_of_false Bool.false_ne_true ?_⟩
      exact Nat.not_le.mpr (Nat.succ_le_succ (Nat.succ_le_succ (Nat.zero_le _)))
  | case3 stages b short =>
      have plain : acceptedStages outcomes b.tasks.length stages = ([], stages) := by
        rw [acceptedStages]
        exact short
      rw [plain]
      refine ⟨rfl, (List.append_nil _).symm, iff_of_true rfl ?_⟩
      cases stages with
      | nil => exact Nat.zero_le 1
      | cons stage rest =>
          cases rest with
          | nil => exact Nat.le_refl 1
          | cons next rest => exact absurd rfl (short stage next rest)

/-- No stage gets lost. -/
theorem acceptedStages_append (outcomes : ParseOutcomes) (number : Nat) (stages : List Stage) :
    (acceptedStages outcomes number stages).1 ++ (acceptedStages outcomes number stages).2 =
      stages := by
  fun_induction acceptedStages outcomes number stages with
  | case1 number stage next rest valid inductionHypothesis =>
      exact congrArg (stage :: ·) inductionHypothesis
  | case2 number stage next rest invalid => rfl
  | case3 number stages short => rfl

theorem acceptedStages_valid {number : Nat} {stages : List Stage} :
    ∀ stage ∈ (acceptedStages outcomes number stages).1, (programOf stage).isSome = true := by
  fun_induction acceptedStages outcomes number stages with
  | case1 number stage next rest valid inductionHypothesis =>
      intro known member
      rcases List.mem_cons.mp member with rfl | later
      · exact programOf_isSome valid
      · exact inductionHypothesis known later
  | case2 number stage next rest invalid => exact fun known none => absurd none List.not_mem_nil
  | case3 number stages short => exact fun known none => absurd none List.not_mem_nil

/-- All stages are accepted if only the last one is left and it is accepted too. -/
theorem stagesValid_iff {number : Nat} {stages : List Stage} (nonempty : stages ≠ [])
    (last : stageValid outcomes.openLast
      (joined (acceptedStages outcomes number stages).2) = true) :
    stagesValid outcomes number stages = true ↔
      (acceptedStages outcomes number stages).2.length ≤ 1 := by
  fun_induction acceptedStages outcomes number stages with
  | case1 number stage next rest valid inductionHypothesis =>
      rw [stagesValid, valid, Bool.true_and]
      exact inductionHypothesis (List.cons_ne_nil _ _) last
  | case2 number stage next rest invalid =>
      rw [stagesValid, Bool.eq_false_iff.mpr invalid]
      apply iff_of_false Bool.false_ne_true
      exact Nat.not_le.mpr (Nat.succ_le_succ (Nat.succ_le_succ (Nat.zero_le _)))
  | case3 number stages short =>
      cases stages with
      | nil => exact absurd rfl nonempty
      | cons stage rest =>
          cases rest with
          | nil =>
              rw [joined_singleton] at last
              exact iff_of_true last (Nat.le_refl 1)
          | cons next rest => exact absurd rfl (short stage next rest)

/-- Something is left of the stages. -/
theorem acceptedStages_left {number : Nat} {stages : List Stage} (nonempty : stages ≠ []) :
    (acceptedStages outcomes number stages).2 ≠ [] := by
  fun_induction acceptedStages outcomes number stages with
  | case1 number stage next rest valid inductionHypothesis =>
      exact inductionHypothesis (List.cons_ne_nil _ _)
  | case2 number stage next rest invalid => exact List.cons_ne_nil _ _
  | case3 number stages short => exact nonempty

/-- If only the last stage is left, the line is made of it and the accepted ones. -/
theorem acceptedStages_restOf {tokens : List (List UInt8)}
    (short : (acceptedStages outcomes 0 (stagesOf tokens)).2.length ≤ 1) :
    (acceptedStages outcomes 0 (stagesOf tokens)).1 ++ [restOf outcomes tokens] =
      stagesOf tokens := by
  have nonempty : (acceptedStages outcomes 0 (stagesOf tokens)).2 ≠ [] :=
    acceptedStages_left (List.splitOn_ne_nil pipeSymbol tokens)
  have one : (acceptedStages outcomes 0 (stagesOf tokens)).2.length = 1 :=
    Nat.le_antisymm short (List.length_pos_of_ne_nil nonempty)
  rcases List.length_eq_one_iff.mp one with ⟨last, left⟩
  have whole := acceptedStages_append outcomes 0 (stagesOf tokens)
  rw [left] at whole
  rw [restOf, left, joined_singleton]
  exact whole

end Accepted

section Line

variable {outcomes : ParseOutcomes} {shell : Shell} {tokens : List (List UInt8)}

/-- The test for `&` in the task of the last stage. -/
theorem backgroundMark_lastTask {b : Building} {rest : Stage}
    (valid : stageValid outcomes.openLast rest = true) :
    ∃ task, backgroundMark (some (b.lastTask outcomes rest)) = .ok (task, marked rest) ∧
        task.redirects = (b.lastTask outcomes rest).redirects ∧
          (LoneMark rest → task.program = none) ∧
            (¬LoneMark rest → task.program = programOf rest) := by
  rcases @parsed_of_valid _ b.descriptors rest valid with ⟨args, words⟩
  rcases List.eq_nil_or_concat (plainWords (items rest).1) with empty | ⟨front, word, split⟩
  · exact absurd empty words
  · have argsSplit : (b.lastTask outcomes rest).args = (front ++ [word]).map some ++ [none] := by
      have same : plainWords (items rest).1 = front ++ [word] := split.trans List.concat_eq_append
      rw [← same, ← args]
      rfl
    have argsLen : (b.lastTask outcomes rest).argsLen = front.length + 1 := by
      have length := congrArg List.length args
      rw [split, List.length_concat] at length
      exact length
    have test := backgroundMark_eq argsSplit argsLen
    have isMarked : marked rest = decide (word.head? = some 38) := by
      rw [marked, split, List.concat_eq_append, List.getLast?_concat]
      rfl
    rw [List.concat_eq_append] at split
    rw [isMarked]
    by_cases mark : word.head? = some 38
    · rw [if_pos mark] at test
      rw [decide_eq_true mark]
      refine ⟨_, test, rfl, ?_, ?_⟩
      · intro ⟨only, one, _⟩
        rw [split] at one
        have none : front = [] := (List.append_eq_singleton_iff.mp one).elim (fun c => c.1)
          fun c => absurd c.2 (List.cons_ne_nil _ _)
        rw [none]
        rfl
      · intro more
        have name := @program_of_args
          { b.lastTask outcomes rest with args := front.map some ++ [none, none] } front [none]
          rfl
        rw [name, programOf, split]
        cases front with
        | nil => exact absurd ⟨word, split, mark⟩ more
        | cons first front => rfl
    · rw [if_neg mark] at test
      rw [decide_eq_false mark]
      refine ⟨_, test, rfl, ?_, ?_⟩
      · intro ⟨only, one, isMark⟩
        have same : [word] = [only] :=
          List.append_inj_right' (split.symm.trans (one.trans (List.nil_append _).symm)) rfl
        rw [List.singleton_inj.mp same] at mark
        exact absurd isMark mark
      · intro _
        rw [program_of_args argsSplit, programOf, split]

/-- How many tasks there are after the loop over the pipe symbols. -/
theorem length_built :
    (built outcomes shell tokens).tasks.length =
      (acceptedStages outcomes 0 (stagesOf tokens)).1.length := by
  have programs := (pipeStages_accepted outcomes (stagesOf tokens)
    { descriptors := shell.descriptors, pipes := shell.pipes }).2.1
  have length := congrArg List.length programs
  rw [List.length_map] at length
  rw [built, length]
  exact List.length_map _

/-- The loop over the pipe symbols of a whole line. -/
theorem pipeLoop_line (outcomes : ParseOutcomes) (shell : Shell) (tokens : List (List UInt8)) :
    ((acceptedStages outcomes 0 (stagesOf tokens)).1.length ≤ tasksMax ∧
      ∃ stop, pipeLoop outcomes tokens tokens.length 0
          { descriptors := shell.descriptors, pipes := shell.pipes } =
        .ok (built outcomes shell tokens, stop,
          decide ((acceptedStages outcomes 0 (stagesOf tokens)).2.length ≤ 1)) ∧
        tokens.drop stop = restOf outcomes tokens) ∨
    tasksMax < (acceptedStages outcomes 0 (stagesOf tokens)).1.length ∧
      pipeLoop outcomes tokens tokens.length 0
          { descriptors := shell.descriptors, pipes := shell.pipes } =
        .error .tasksBounds := by
  have loop := @pipeLoop_eq outcomes tokens tokens.length 0
    { descriptors := shell.descriptors, pipes := shell.pipes } (Nat.le_refl _) (Nat.zero_le _)
  have steps := pipeStages_accepted outcomes (stagesOf tokens)
    { descriptors := shell.descriptors, pipes := shell.pipes }
  have count := @length_built outcomes shell tokens
  rw [List.drop_zero] at loop
  rw [← count]
  rcases loop with ⟨room, stop, returns, left⟩ | full
  · refine Or.inl ⟨room, stop, ?_, ?_⟩
    · rw [returns, ← Bool.decide_coe (pipeStages _ _ _).2.2, decide_eq_decide.mpr steps.2.2]
      rfl
    · rw [left, steps.1]
      rfl
  · exact Or.inr full

/-- The programs of the tasks are those of the stages, if the last one is not only a
mark. -/
theorem program_stored {task : CommandTask}
    (name : task.program = programOf (restOf outcomes tokens)) :
    ((built outcomes shell tokens).tasks ++ [task]).map CommandTask.program =
      (storedStages outcomes tokens).map programOf := by
  have programs := (pipeStages_accepted outcomes (stagesOf tokens)
    { descriptors := shell.descriptors, pipes := shell.pipes }).2.1
  rw [storedStages, List.map_append, List.map_append, built, programs, List.map_singleton, name]
  rfl

/-- A line is parsed if there is room for its tasks, its last stage has a program, and the
searches for programs do no harm. -/
theorem parseLine_of_fine
    (room : (acceptedStages outcomes 0 (stagesOf tokens)).1.length < tasksMax)
    (last : stageValid outcomes.openLast (restOf outcomes tokens) = true)
    (named : ¬LoneMark (restOf outcomes tokens))
    (searches : everyProgram outcomes.searchFine 0 (storedStages outcomes tokens) = true) :
    ∃ line, parseLine outcomes shell tokens = .ok line ∧
      line.tasks.map CommandTask.redirects = (built outcomes shell tokens).tasks.map
        CommandTask.redirects ++ [((built outcomes shell tokens).lastTask outcomes
          (restOf outcomes tokens)).redirects] ∧
      line.descriptors = ((built outcomes shell tokens).parseLast outcomes
        (restOf outcomes tokens)).descriptors ∧
      line.pipes = (built outcomes shell tokens).pipes ∧
      line.background = marked (restOf outcomes tokens) ∧
      line.valid = lineAccepted outcomes tokens := by
  rcases pipeLoop_line outcomes shell tokens with ⟨_, stop, returns, rest⟩ | ⟨full, _⟩
  · have stored := @lastStage_of_room outcomes tokens stop (built outcomes shell tokens)
      (by rw [rest]; exact last) (by rw [length_built]; exact room)
    rw [rest] at stored
    rcases @backgroundMark_lastTask outcomes (built outcomes shell tokens) _ last with
      ⟨task, mark, redirects, _, name⟩
    have names := @program_stored outcomes shell tokens task (name named)
    have programs : ∀ stage ∈ (acceptedStages outcomes 0 (stagesOf tokens)).1 ++
        [restOf outcomes tokens], (programOf stage).isSome = true := by
      intro stage member
      rcases List.mem_append.mp member with old | new
      · exact acceptedStages_valid stage old
      · rw [List.mem_singleton.mp new]
        exact programOf_isSome last
    rcases resolveTasks_of_named names programs searches with ⟨resolved, resolves, same⟩
    have parse : parseLine outcomes shell tokens = .ok ⟨resolved,
          ((built outcomes shell tokens).parseLast outcomes (restOf outcomes tokens)).descriptors,
          (built outcomes shell tokens).pipes,
          decide ((acceptedStages outcomes 0 (stagesOf tokens)).2.length ≤ 1) &&
            programsFound outcomes 0 ((acceptedStages outcomes 0 (stagesOf tokens)).1 ++
              [restOf outcomes tokens]),
          marked (restOf outcomes tokens)⟩ := by
      rw [parseLine, bind_of_ok returns]
      dsimp only
      rw [bind_of_ok stored, bind_of_ok mark]
      dsimp only
      rw [List.dropLast_concat, bind_of_ok resolves]
      rfl
    refine ⟨_, parse, ?_, rfl, rfl, rfl, ?_⟩
    · rw [← redirects]
      exact same.trans List.map_append
    · have all := @stagesValid_iff outcomes 0 (stagesOf tokens)
        (List.splitOn_ne_nil pipeSymbol tokens) last
      dsimp only
      rw [lineAccepted]
      by_cases short : (acceptedStages outcomes 0 (stagesOf tokens)).2.length ≤ 1
      · rw [acceptedStages_restOf short, all.mpr short, decide_eq_true short]
      · rw [Bool.eq_false_iff.mpr fun valid => short (all.mp valid), decide_eq_false short,
          Bool.false_and, Bool.false_and]
  · exact absurd (Nat.lt_trans room full) (Nat.lt_irrefl _)

/-- Otherwise the shell crashes. -/
theorem parseLine_of_bad
    (bad : tasksMax ≤ (acceptedStages outcomes 0 (stagesOf tokens)).1.length ∨
      stageValid outcomes.openLast (restOf outcomes tokens) = false ∨
        LoneMark (restOf outcomes tokens) ∨
          everyProgram outcomes.searchFine 0 (storedStages outcomes tokens) = false) :
    ∃ crash, parseLine outcomes shell tokens = .error crash := by
  rcases pipeLoop_line outcomes shell tokens with ⟨_, stop, returns, rest⟩ | ⟨_, crashes⟩
  · rw [parseLine, bind_of_ok returns]
    dsimp only
    cases last : stageValid outcomes.openLast (restOf outcomes tokens) with
    | false =>
        have stored := @lastStage_of_invalid outcomes tokens stop (built outcomes shell tokens)
          (by rw [rest]; exact last)
        rw [bind_of_ok stored]
        exact ⟨_, rfl⟩
    | true =>
        have valid : stageValid outcomes.openLast (tokens.drop stop) = true := by
          rw [rest]
          exact last
        by_cases room : (built outcomes shell tokens).tasks.length < tasksMax
        · have stored := lastStage_of_room valid room
          rw [rest] at stored
          rcases @backgroundMark_lastTask outcomes (built outcomes shell tokens) _ last with
            ⟨task, mark, _, unnamed, names⟩
          have found : ∃ (i : Nat) (bad : CommandTask),
              ((built outcomes shell tokens).tasks ++ [task])[i]? = some bad ∧
                bad.program.any (outcomes.searchFine (0 + i)) = false := by
            by_cases lone : LoneMark (restOf outcomes tokens)
            · refine ⟨_, task, List.getElem?_concat_length, ?_⟩
              rw [unnamed lone]
              rfl
            · rcases bad with full | invalid | same | harm
              · rw [length_built] at room
                exact absurd room (Nat.not_lt.mpr full)
              · rw [last] at invalid
                cases invalid
              · exact absurd same lone
              · rcases everyProgram_false harm with ⟨i, stage, here, harm⟩
                have names := congrArg (·[i]?) (@program_stored outcomes shell tokens task
                  (names lone))
                simp only [List.getElem?_map, here, Option.map_some] at names
                rcases Option.map_eq_some_iff.mp names with ⟨other, member, program⟩
                refine ⟨i, other, member, ?_⟩
                rw [program]
                cases name : programOf stage with
                | none => rfl
                | some program =>
                    rw [name, Option.all_some] at harm
                    rw [Option.any_some, harm]
          rw [bind_of_ok stored, bind_of_ok mark]
          dsimp only
          rw [List.dropLast_concat]
          rcases resolveTasks_of_bad found with ⟨crash, resolves⟩
          rw [resolves]
          exact ⟨crash, rfl⟩
        · rw [lastStage_of_full valid (Nat.not_lt.mp room)]
          exact ⟨_, rfl⟩
  · rw [parseLine, crashes]
    exact ⟨_, rfl⟩

end Line

end CS162.HwShell
