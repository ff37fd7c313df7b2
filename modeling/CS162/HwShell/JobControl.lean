import CS162.HwShell.Launching

/-!
# The jobs of the shell

The process groups that the shell knows at its prompt, and the lines that make it forget
one.
-/

namespace CS162.HwShell

open CS162.Foundation

/-- The shell has no job in the foreground, and all processes that run or are stopped are in
the background job. -/
structure JobsKept (jobs : Jobs) : Prop where
  foreground : jobs.fgPgid = -1 ∧ jobs.fgPidNum = 0
  background : jobs.bgPgid = -1 ↔ jobs.bgPidNum = 0
  recorded : ∀ process ∈ jobs.processes, process.pgid = jobs.bgPgid ∧ jobs.bgPids = process.stages

/-- A process is one of the stages of its pipeline. -/
def Staged (jobs : Jobs) : Prop := ∀ process ∈ jobs.processes, process.pid ∈ process.stages

/-- What the last call of `waitpid` that succeeds says, if there is one. -/
def lastStatus (outcomes : Outcomes) (first : Option ChildStatus) (count : Nat) :
    Option ChildStatus :=
  ((List.range count).filterMap outcomes.wait).getLast?.or first

/-- Every process that is reported as stopped has come to its end since. -/
def stoppedEnd (outcomes : Outcomes) (pids : List Int) : Bool :=
  pids.zipIdx.all fun entry =>
    decide (outcomes.wait entry.2 ≠ some .stopped) || outcomes.ends entry.1

/-- Every process has come to its end. -/
def allEnd (outcomes : Outcomes) (jobs : Jobs) : Bool :=
  jobs.processes.all fun process => outcomes.ends process.pid

/-- `waitpid` finds no process of the background job. -/
def groupGone (outcomes : Outcomes) (jobs : Jobs) : Bool :=
  decide (jobs.bgPgid ≠ -1) && !outcomes.groupWait

/-- Every process of a new job that is left at the prompt has come to the group of the
first one. -/
def grouped (outcomes : Outcomes) (background : Bool) (count : Nat) : Bool :=
  (List.range count).all fun stage =>
    outcomes.setpgid stage || outcomes.ends (outcomes.pid stage) ||
      !background && decide (outcomes.wait stage ≠ some .stopped)

/-- What has to be true after the calls of `waitpid`, by the last status. -/
def statusClean (status : Option ChildStatus) (ended stopped : Bool) : Bool :=
  match status with
  | none => false
  | some .stopped => stopped
  | some _ => ended

/-- The process ids of the stages of a pipeline. -/
def stagePids (outcomes : Outcomes) (count : Nat) : List Int := (List.range count).map outcomes.pid

/-- A line does not make the shell forget a job. -/
def jobsClean (shell : Shell) (entered : Outcomes × List UInt8) : Bool :=
  let outcomes := entered.1
  let tokens := words (textOf entered.2)
  let jobs := shell.jobs
  let count := (stagesOf tokens).length
  match lookup tokens.head? with
  | some .fg =>
      groupGone outcomes jobs || decide (jobs.bgPgid ≤ 0) ||
        (outcomes.killpg &&
          statusClean (lastStatus outcomes outcomes.unset jobs.bgPidNum)
            (stoppedEnd outcomes jobs.bgPids) true)
  | some _ => true
  | none =>
      if lineAccepted outcomes.toParseOutcomes tokens then
        statusClean
          (if marked (restOf outcomes.toParseOutcomes tokens) then some .stopped
            else lastStatus outcomes (some .exited) count)
          (stoppedEnd outcomes (stagePids outcomes count))
          ((outcomes.fork 0).isSome &&
            grouped outcomes (marked (restOf outcomes.toParseOutcomes tokens)) count &&
              (groupGone outcomes jobs || allEnd outcomes jobs))
      else true

/-- A child process is one of the first stages, and it comes to the group of the first one
if that has been started and `setpgid` succeeds. -/
def LaunchedIn (outcomes : Outcomes) (stages : List Nat) (child : Child) : Prop :=
  ∃ stage ∈ stages, child.pid = outcomes.pid stage ∧
    (0 < outcomes.pid 0 → outcomes.setpgid stage = true → child.pgid = outcomes.pid 0)

section Waiting

variable {outcomes : Outcomes} {jobs : Jobs}

theorem waitLoop_eq (first : Option ChildStatus) (count : Nat) :
    Jobs.waitLoop outcomes first count = lastStatus outcomes first count := by
  induction count with
  | zero => exact (Option.none_or).symm
  | succ count inductionHypothesis =>
      have step : Jobs.waitLoop outcomes first (count + 1) =
          (outcomes.wait count).or (Jobs.waitLoop outcomes first count) := by
        rw [Jobs.waitLoop, List.range_succ, List.foldl_append]
        rfl
      rw [step, inductionHypothesis, lastStatus, lastStatus, List.range_succ, List.filterMap_append]
      cases status : outcomes.wait count with
      | none =>
          rw [List.filterMap_cons_none status, List.filterMap_nil, List.append_nil, Option.none_or]
      | some status =>
          rw [List.filterMap_cons_some status, List.filterMap_nil, List.getLast?_concat]
          rfl

theorem mem_survive {ends : Int → Bool} {process : Process} :
    process ∈ (jobs.survive ends).processes ↔
      process ∈ jobs.processes ∧ ends process.pid = false := by
  rw [Jobs.survive, List.mem_filter, Bool.not_eq_true']

/-- A process that survives the calls of `waitpid` is reported as stopped. -/
theorem stopped_of_waitEnds {pids : List Int} {pid : Int}
    (survives : Jobs.waitEnds outcomes pids pid = false) (member : pid ∈ pids) :
    ∃ entry ∈ pids.zipIdx, entry.1 = pid ∧ outcomes.wait entry.2 = some .stopped := by
  rcases List.getElem?_of_mem member with ⟨i, here⟩
  have entry : (pid, i) ∈ pids.zipIdx := List.mk_mem_zipIdx_iff_getElem?.mpr here
  refine ⟨(pid, i), entry, rfl, ?_⟩
  have none := List.any_eq_false.mp survives (pid, i) entry
  simpa using none

/-- Then it has come to its end. -/
theorem no_survivor {pids : List Int} {pid : Int} (ended : stoppedEnd outcomes pids = true)
    (member : pid ∈ pids) (survives : Jobs.waitEnds outcomes pids pid = false) :
    outcomes.ends pid = true := by
  rcases stopped_of_waitEnds survives member with ⟨entry, inList, rfl, stopped⟩
  have either := List.all_eq_true.mp ended entry inList
  rw [Bool.or_eq_true, decide_eq_true_eq] at either
  exact either.resolve_left fun other => other stopped

theorem JobsKept.survive (kept : JobsKept jobs) (ends : Int → Bool) :
    JobsKept (jobs.survive ends) :=
  ⟨kept.foreground, kept.background,
    fun process member => kept.recorded process (mem_survive.mp member).1⟩

theorem Staged.survive (staged : Staged jobs) (ends : Int → Bool) : Staged (jobs.survive ends) :=
  fun process member => staged process (mem_survive.mp member).1

end Waiting

section Launched

variable {outcomes : Outcomes}

theorem launchLoop_pids (leader : Int) (stage : Nat) (tasks : List CommandTask)
    (table : DescriptorTable Descriptor) :
    (launchLoop outcomes leader stage tasks table).1.map CommandTask.pid =
      (List.range' stage tasks.length).map outcomes.pid := by
  induction tasks generalizing leader stage table with
  | nil => rfl
  | cons task tasks inductionHypothesis =>
      rw [List.length_cons, List.range'_succ, List.map_cons]
      exact congrArg (outcomes.pid stage :: ·) (inductionHypothesis _ _ _)

/-- The child processes are started one after another. -/
theorem launchLoop_launched {leader : Int} {stage : Nat} {tasks : List CommandTask}
    {table : DescriptorTable Descriptor} {child : Child}
    (known : 0 < outcomes.pid 0 → if stage = 0 then leader = -1 else leader = outcomes.pid 0)
    (member : child ∈ (launchLoop outcomes leader stage tasks table).2.1) :
    LaunchedIn outcomes (List.range' stage tasks.length) child := by
  induction tasks generalizing leader stage table with
  | nil => cases member
  | cons task tasks inductionHypothesis =>
      rw [List.length_cons, List.range'_succ]
      rcases List.mem_append.mp member with here | later
      · rcases Option.map_eq_some_iff.mp (Option.mem_toList.mp here) with ⟨pid, _, made⟩
        rw [← made]
        refine ⟨stage, List.mem_cons_self, rfl, fun started joins => ?_⟩
        have leads := known started
        dsimp only
        rw [Outcomes.pgid, if_pos joins]
        split_ifs at leads with first
        · simp [leads, first]
        · simp [leads, started]
      · have next : 0 < outcomes.pid 0 →
            if stage + 1 = 0 then (if stage = 0 then outcomes.pid stage else leader) = -1
            else (if stage = 0 then outcomes.pid stage else leader) = outcomes.pid 0 := by
          intro started
          have leads := known started
          rw [if_neg (Nat.succ_ne_zero stage)]
          split_ifs at leads ⊢ with first
          · rw [first]
          · exact leads
        rcases inductionHypothesis next later with ⟨number, among, launched⟩
        exact ⟨number, List.mem_cons_of_mem _ among, launched⟩

theorem pid_pos {stage : Nat} (forks : (outcomes.fork stage).isSome = true) :
    0 < outcomes.pid stage := by
  rcases Option.isSome_iff_exists.mp forks with ⟨pid, forked⟩
  rw [Outcomes.pid, forked]
  exact Int.natCast_pos.mpr pid.2

variable {count : Nat} {child : Child}

theorem LaunchedIn.pid_mem (launched : LaunchedIn outcomes (List.range count) child) :
    child.pid ∈ stagePids outcomes count := by
  rcases launched with ⟨stage, among, pid, _⟩
  rw [pid]
  exact List.mem_map_of_mem among

/-- A process of a new job that is left at the prompt is in the group of the first one. -/
theorem LaunchedIn.pgid_eq {background : Bool}
    (launched : LaunchedIn outcomes (List.range count) child)
    (together : grouped outcomes background count = true)
    (started : 0 < outcomes.pid 0) (alive : outcomes.ends child.pid = false)
    (waited : background = false →
      Jobs.waitEnds outcomes (stagePids outcomes count) child.pid = false) :
    child.pgid = outcomes.pid 0 := by
  rcases launched with ⟨stage, among, pid, group⟩
  have either := List.all_eq_true.mp together stage among
  rw [pid] at alive waited
  rw [alive, Bool.or_false, Bool.or_eq_true, Bool.and_eq_true, Bool.not_eq_true',
    decide_eq_true_eq] at either
  rcases either with joins | ⟨front, ended⟩
  · exact group started joins
  · have entry : (outcomes.pid stage, stage) ∈ (stagePids outcomes count).zipIdx := by
      rw [List.mk_mem_zipIdx_iff_getElem?, stagePids, List.getElem?_map,
        List.getElem?_range (List.mem_range.mp among)]
      rfl
    have none := List.any_eq_false.mp (waited front) _ entry
    simp [ended] at none

end Launched

section Bookkeeping

variable {outcomes : Outcomes} {jobs : Jobs}

/-- Without any process and any job nothing is forgotten. -/
theorem kept_of_ended (foreground : jobs.fgPgid = -1 ∧ jobs.fgPidNum = 0)
    (background : jobs.bgPgid = -1 ∧ jobs.bgPidNum = 0)
    (ended : ∀ process, process ∉ jobs.processes) : JobsKept jobs ∧ Staged jobs :=
  ⟨⟨foreground, iff_of_true background.1 background.2,
    fun process member => absurd member (ended process)⟩,
    fun process member => absurd member (ended process)⟩

/-- If no process of the background job is left, there is none at all. -/
theorem JobsKept.checkBackground (kept : JobsKept jobs) :
    (groupGone outcomes jobs = true ∧ (jobs.checkBackground outcomes).bgPgid = -1 ∧
        (jobs.checkBackground outcomes).processes = [] ∧
        JobsKept (jobs.checkBackground outcomes)) ∨
      groupGone outcomes jobs = false ∧ jobs.checkBackground outcomes = jobs := by
  unfold Jobs.checkBackground groupGone
  by_cases gone : jobs.bgPgid ≠ -1 ∧ outcomes.groupWait = false
  · have none : (jobs.processes.filter fun p => p.pgid ≠ jobs.bgPgid) = [] := by
      rw [List.filter_eq_nil_iff]
      intro process known other
      exact of_decide_eq_true other (kept.recorded process known).1
    rw [if_pos gone, gone.2, none]
    refine Or.inl ⟨?_, rfl, rfl, kept.foreground, iff_of_true rfl rfl, ?_⟩
    · rw [decide_eq_true gone.1]
      rfl
    · exact fun process member => absurd member List.not_mem_nil
  · rw [if_neg gone]
    refine Or.inr ⟨?_, rfl⟩
    rw [Bool.and_eq_false_iff, decide_eq_false_iff_not, Bool.not_eq_false', ← Bool.not_eq_false]
    exact not_and_or.mp gone

/-- `cmd_fg` keeps the bookkeeping if the job is continued, and either stops again or has
come to its end. -/
theorem JobsKept.cmdFg (kept : JobsKept jobs) (staged : Staged jobs)
    (clean : (decide (jobs.bgPgid ≤ 0) ||
      (outcomes.killpg &&
        statusClean (lastStatus outcomes outcomes.unset jobs.bgPidNum)
          (stoppedEnd outcomes jobs.bgPids) true)) = true) :
    JobsKept ((jobs.cmdFg outcomes).survive outcomes.ends) ∧
      Staged ((jobs.cmdFg outcomes).survive outcomes.ends) := by
  rw [Bool.or_eq_true, decide_eq_true_eq, Bool.and_eq_true] at clean
  unfold Jobs.cmdFg
  by_cases positive : jobs.bgPgid > 0
  · rcases clean with negative | ⟨killed, clean⟩
    · omega
    · rw [if_pos positive]
      dsimp only
      rw [if_pos killed, waitLoop_eq]
      have own : ∀ process ∈ jobs.processes,
          Jobs.waitEnds outcomes jobs.bgPids process.pid = false →
            stoppedEnd outcomes jobs.bgPids = true → outcomes.ends process.pid = true := by
        intro process known survives ended
        apply no_survivor ended _ survives
        rw [(kept.recorded process known).2]
        exact staged process known
      cases status : lastStatus outcomes outcomes.unset jobs.bgPidNum with
      | none =>
          rw [status] at clean
          cases clean
      | some status' =>
          rw [status] at clean
          cases status' with
          | stopped =>
              have processes : ∀ process ∈ ((jobs.survive
                  (Jobs.waitEnds outcomes jobs.bgPids)).survive outcomes.ends).processes,
                  process ∈ jobs.processes :=
                fun process member => (mem_survive.mp (mem_survive.mp member).1).1
              exact ⟨⟨⟨rfl, rfl⟩, kept.background,
                fun process member => kept.recorded process (processes process member)⟩,
                fun process member => staged process (processes process member)⟩
          | exited | signaled =>
              refine kept_of_ended ⟨rfl, rfl⟩ ⟨rfl, rfl⟩ ?_
              intro process member
              rcases mem_survive.mp member with ⟨member, alive⟩
              rcases mem_survive.mp member with ⟨known, survives⟩
              rw [own process known survives clean] at alive
              cases alive
  · rw [if_neg positive]
    exact ⟨kept.survive _, staged.survive _⟩

/-- A new job is the background job, if its first process has been started, the others
have come to its group and all earlier processes have come to their end. -/
theorem kept_of_background {after : Jobs} {count : Nat} {children : List Child}
    (nonempty : count ≠ 0) (forks : (outcomes.fork 0).isSome = true)
    (ended : allEnd outcomes jobs = true)
    (launched : ∀ child ∈ children, LaunchedIn outcomes (List.range count) child)
    (foreground : after.fgPgid = -1 ∧ after.fgPidNum = 0)
    (background : after.bgPgid = outcomes.pid 0 ∧ after.bgPids = stagePids outcomes count ∧
      after.bgPidNum = count)
    (known : ∀ process ∈ after.processes, outcomes.ends process.pid = false ∧
      (process ∈ jobs.processes ∨ ∃ child ∈ children,
        process = ⟨child.pid, child.pgid, stagePids outcomes count⟩))
    (group : ∀ process ∈ after.processes, ∀ child ∈ children, process.pid = child.pid →
      child.pgid = outcomes.pid 0) :
    JobsKept after ∧ Staged after := by
  have started := pid_pos forks
  have new : ∀ process ∈ after.processes, ∃ child ∈ children,
      process = ⟨child.pid, child.pgid, stagePids outcomes count⟩ := by
    intro process member
    rcases known process member with ⟨alive, old | new⟩
    · have gone := List.all_eq_true.mp ended process old
      rw [alive] at gone
      cases gone
    · exact new
  refine ⟨⟨foreground, ?_, ?_⟩, ?_⟩
  · rw [background.1, background.2.2]
    exact iff_of_false (by omega) nonempty
  · intro process member
    rcases new process member with ⟨child, isChild, rfl⟩
    rw [background.1, background.2.1]
    exact ⟨group _ member child isChild rfl, rfl⟩
  · intro process member
    rcases new process member with ⟨child, isChild, rfl⟩
    exact (launched child isChild).pid_mem

theorem mem_start {tasks : List CommandTask} {children : List Child} {process : Process} :
    process ∈ (jobs.start tasks children).processes ↔ process ∈ jobs.processes ∨ ∃ child ∈ children,
        process = ⟨child.pid, child.pgid, tasks.map CommandTask.pid⟩ := by
  rw [Jobs.start, List.mem_append, List.mem_map]
  simp only [eq_comm]

/-- `main` keeps the bookkeeping if the processes of a job in the foreground have come to
their end, or there is no other process and the job is put into the background. -/
theorem JobsKept.record (kept : JobsKept jobs) (staged : Staged jobs)
    {tasks : List CommandTask} {children : List Child} {background : Bool}
    (nonempty : tasks.length ≠ 0)
    (pids : tasks.map CommandTask.pid = stagePids outcomes tasks.length)
    (launched : ∀ child ∈ children, LaunchedIn outcomes (List.range tasks.length) child)
    (clean : statusClean
      (if background then some .stopped
        else lastStatus outcomes (some .exited) tasks.length)
      (stoppedEnd outcomes (stagePids outcomes tasks.length))
      ((outcomes.fork 0).isSome && grouped outcomes background tasks.length &&
        allEnd outcomes jobs) = true) :
    JobsKept (((jobs.start tasks children).record outcomes background tasks).survive
        outcomes.ends) ∧
      Staged (((jobs.start tasks children).record outcomes background tasks).survive
        outcomes.ends) := by
  have leader : (stagePids outcomes tasks.length).headD (-1) = outcomes.pid 0 := by
    rcases Nat.exists_eq_succ_of_ne_zero nonempty with ⟨rest, same⟩
    rw [same, stagePids, List.range_succ_eq_map]
    rfl
  have known : ∀ process ∈ (jobs.start tasks children).processes,
      process ∈ jobs.processes ∨ ∃ child ∈ children,
        process = ⟨child.pid, child.pgid, stagePids outcomes tasks.length⟩ := by
    intro process member
    rw [← pids]
    exact mem_start.mp member
  unfold Jobs.record
  rw [pids]
  dsimp only
  rw [leader]
  cases background with
  | true =>
      simp only [statusClean, if_true, Bool.and_eq_true] at clean
      rcases clean with ⟨⟨forks, together⟩, ended⟩
      refine kept_of_background nonempty forks ended launched kept.foreground ⟨rfl, rfl, rfl⟩ ?_ ?_
      · intro process member
        rcases mem_survive.mp member with ⟨member, alive⟩
        exact ⟨alive, known process member⟩
      · intro process member child isChild same
        have alive := (mem_survive.mp member).2
        rw [same] at alive
        exact (launched child isChild).pgid_eq together (pid_pos forks) alive
          fun front => absurd front (by decide)
  | false =>
      rw [if_neg Bool.false_ne_true] at clean ⊢
      rw [waitLoop_eq]
      cases status : lastStatus outcomes (some .exited) tasks.length with
      | none =>
          rw [status] at clean
          cases clean
      | some status' =>
          rw [status] at clean
          cases status' with
          | stopped =>
              simp only [statusClean, Bool.and_eq_true] at clean
              rcases clean with ⟨⟨forks, together⟩, ended⟩
              refine kept_of_background nonempty forks ended launched ⟨rfl, rfl⟩
                ⟨rfl, rfl, rfl⟩ ?_ ?_
              · intro process member
                rcases mem_survive.mp member with ⟨member, alive⟩
                exact ⟨alive, known process (mem_survive.mp member).1⟩
              · intro process member child isChild same
                rcases mem_survive.mp member with ⟨member, alive⟩
                have waited := (mem_survive.mp member).2
                rw [same] at alive waited
                exact (launched child isChild).pgid_eq together (pid_pos forks) alive
                  fun _ => waited
          | exited | signaled =>
              -- A new process that is left would be one that is reported as stopped.
              have old : ∀ process ∈ (((jobs.start tasks children).survive
                  (Jobs.waitEnds outcomes (stagePids outcomes tasks.length))).survive
                    outcomes.ends).processes, process ∈ jobs.processes := by
                intro process member
                rcases mem_survive.mp member with ⟨member, alive⟩
                rcases mem_survive.mp member with ⟨member, survives⟩
                rcases known process member with before | ⟨child, isChild, rfl⟩
                · exact before
                · have gone := no_survivor clean (launched child isChild).pid_mem survives
                  rw [alive] at gone
                  cases gone
              exact ⟨⟨⟨rfl, rfl⟩, kept.background,
                fun process member => kept.recorded process (old process member)⟩,
                fun process member => staged process (old process member)⟩

end Bookkeeping

section Rounds

variable {start shell after : Shell} {entered : Outcomes × List UInt8}

/-- The child processes of a line are its stages. -/
theorem launched_stages {outcomes : Outcomes} {line : List UInt8} (tasks : List CommandTask) :
    (launched outcomes shell line tasks).1.length = tasks.length ∧
      (launched outcomes shell line tasks).1.map CommandTask.pid = stagePids outcomes tasks.length ∧
      ∀ child ∈ (launched outcomes shell line tasks).2.1,
        LaunchedIn outcomes (List.range tasks.length) child := by
  have pids := @launchLoop_pids outcomes (-1) 0 tasks
    (lineTable outcomes.toParseOutcomes shell line)
  rw [← List.range_eq_range'] at pids
  refine ⟨?_, pids, ?_⟩
  · have lengths := congrArg List.length pids
    rw [List.length_map, List.length_map, List.length_range] at lengths
    exact lengths
  · intro child member
    rw [List.range_eq_range']
    exact launchLoop_launched (fun _ => rfl) member

/-- The bookkeeping is kept by the test before a command, and what has been said about the
job and the processes stays true. -/
theorem JobsKept.checked (kept : JobsKept shell.jobs) (staged : Staged shell.jobs)
    (outcomes : Outcomes) :
    JobsKept (shell.jobs.checkBackground outcomes) ∧
      Staged (shell.jobs.checkBackground outcomes) ∧
      (groupGone outcomes shell.jobs || allEnd outcomes shell.jobs) =
        allEnd outcomes (shell.jobs.checkBackground outcomes) ∧
      (groupGone outcomes shell.jobs = true ∧
          (shell.jobs.checkBackground outcomes).bgPgid = -1 ∨
        groupGone outcomes shell.jobs = false ∧
          shell.jobs.checkBackground outcomes = shell.jobs) := by
  rcases @JobsKept.checkBackground outcomes _ kept with ⟨gone, minus, none, checked⟩ | ⟨there, same⟩
  · refine ⟨checked, ?_, ?_, Or.inl ⟨gone, minus⟩⟩
    · intro process member
      rw [none] at member
      cases member
    · rw [gone, allEnd, allEnd, none]
      rfl
  · rw [same]
    refine ⟨kept, staged, ?_, Or.inr ⟨there, rfl⟩⟩
    rw [there, Bool.false_or]

/-- A clean line keeps the bookkeeping. -/
theorem JobsKept.step (kept : JobsKept shell.jobs) (staged : Staged shell.jobs)
    (clean : jobsClean shell entered = true)
    (moved : (shellSystem start).step shell entered = some after) :
    JobsKept after.jobs ∧ Staged after.jobs := by
  rcases entered with ⟨outcomes, line⟩
  rcases kept.checked staged outcomes with ⟨checked, checkedStaged, ended, job⟩
  rw [jobsClean] at clean
  dsimp only at clean
  rcases step_cases moved with ⟨builtin, command, ends⟩ | ⟨accepts, tasks, redirects, rfl⟩ |
    ⟨_, _, rfl⟩
  · rw [command] at clean
    cases builtin with
    | exit => cases ends
    | fg =>
        rw [← Option.some.inj ends]
        apply checked.cmdFg checkedStaged
        rcases job with ⟨_, minus⟩ | ⟨there, same⟩
        · rw [minus]
          rfl
        · dsimp only at clean
          rw [there, Bool.false_or] at clean
          rw [same]
          exact clean
    | _ =>
        rw [← Option.some.inj ends]
        exact ⟨checked.survive _, checkedStaged.survive _⟩
  · rw [accepts.plain, accepts.accepted, ended] at clean
    dsimp only at clean
    rcases @launched_stages shell outcomes line tasks with ⟨length, pids, launched⟩
    have count : tasks.length = (stagesOf (words (textOf line))).length := by
      rw [← length_lineRedirects accepts shell, ← redirects, List.length_map]
    have nonempty : (stagesOf (words (textOf line))).length ≠ 0 :=
      Nat.ne_of_gt (List.length_pos_of_ne_nil (List.splitOn_ne_nil _ _))
    rw [← count] at clean nonempty
    rw [← length] at clean nonempty pids launched
    exact checked.record checkedStaged nonempty pids launched clean
  · exact ⟨checked.survive _, checkedStaged.survive _⟩

end Rounds

/-- However many clean lines are entered, the shell forgets no job. -/
theorem jobs_kept (start shell : Shell) (fresh : start.jobs = {})
    (reached : ((shellSystem start).restrict jobsClean).Reachable shell) :
    JobsKept shell.jobs := by
  suffices both : JobsKept shell.jobs ∧ Staged shell.jobs from both.1
  apply reached.invariant fun shell => JobsKept shell.jobs ∧ Staged shell.jobs
  · intro shell initial
    rw [initial, fresh]
    exact kept_of_ended ⟨rfl, rfl⟩ ⟨rfl, rfl⟩ fun _ => List.not_mem_nil
  · intro shell entered after _ both moved
    rcases TransitionSystem.restrict_step_iff.mp moved with ⟨clean, moved⟩
    exact both.1.step both.2 clean moved

theorem jobs_kept_piped :
    ∃ shell, (shellSystem firstShell).step firstShell (fineOutcomes, pipedLine) = some shell ∧
      JobsKept shell.jobs := by
  rcases handleLine_of_accepts pipedLine_accepts firstShell with ⟨tasks, _, run⟩
  have moved : (shellSystem firstShell).step firstShell (fineOutcomes, pipedLine) = some _ :=
    congrArg LineEnd.shell run
  have clean : jobsClean firstShell (fineOutcomes, pipedLine) = true := by
    rw [jobsClean, words_pipedLine]
    decide +kernel
  exact ⟨_, moved, jobs_kept firstShell _ rfl (TransitionSystem.Reachable.step
    (TransitionSystem.Reachable.initial rfl)
    (TransitionSystem.restrict_step_iff.mpr ⟨clean, moved⟩))⟩

/-- The first process stops, and the second one comes to its end. -/
def firstStops : Outcomes :=
  { fineOutcomes with wait := fun i => if i = 0 then some .stopped else some .exited }

/-- The process that is stopped is forgotten. -/
theorem jobs_kept_stopped :
    ∃ shell, (shellSystem firstShell).Reachable shell ∧ ¬JobsKept shell.jobs := by
  have run := @handleLine_of_short firstStops firstShell pipedLine pipedLine_accepts.short
  rw [words_pipedLine] at run
  have jobs : (handleLine firstStops firstShell pipedLine).shell.map (fun s => s.jobs.processes) =
      some [⟨100, 100, [100, 101]⟩] ∧
      (handleLine firstStops firstShell pipedLine).shell.map (fun s => s.jobs.bgPgid) =
        some (-1) := by
    rw [run]
    decide +kernel
  rcases Option.map_eq_some_iff.mp jobs.1 with ⟨after, moved, processes⟩
  refine ⟨after, TransitionSystem.Reachable.step (TransitionSystem.Reachable.initial rfl)
    (show (shellSystem firstShell).step firstShell (firstStops, pipedLine) = some after
      from moved), ?_⟩
  intro kept
  have group := jobs.2
  rw [moved, Option.map_some, Option.some.injEq] at group
  have recorded := (kept.recorded ⟨100, 100, [100, 101]⟩ (by
    rw [processes]
    exact List.mem_singleton_self _)).1
  rw [group] at recorded
  exact absurd recorded (by decide)

end CS162.HwShell
