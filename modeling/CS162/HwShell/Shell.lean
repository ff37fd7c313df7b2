import CS162.HwShell.Programs
import CS162.HwShell.Tokenizer
import CS162.Foundation.TransitionSystem

/-!
# The command loop of the shell

One round of the loop in `main` of `shell.c`: the stages of a pipeline, the programs,
the child processes and the two jobs that the shell keeps.
-/

namespace CS162.HwShell

open CS162.Foundation

/-- A state of a child process that `waitpid` reports. -/
inductive ChildStatus where
  | exited
  | signaled
  | stopped
  deriving DecidableEq, Repr

/-- A process id that `fork` returns. -/
abbrev Pid := { pid : Nat // 0 < pid }

/-- How the calls turn out while a line is parsed.  The calls of `open` are numbered in
each call of `tokens_to_task`, and the other calls by the stage; a name in the file
system may exist for one stage and not for another. -/
structure ParseOutcomes where
  /-- `open` in the loop over the pipe symbols. -/
  openPiped : Nat → Nat → Bool
  /-- `open` for the last stage. -/
  openLast : Nat → Bool
  /-- What the array holds if `pipe` fails. -/
  pipe : Nat → Option (Int × Int)
  access : Nat → List UInt8 → Bool
  /-- The value of `PATH`, if it is set. -/
  path : Option (List UInt8)
  /-- What `find_file_path` writes behind its buffers for a stage does no harm. -/
  heap : Nat → Bool

/-- How the calls of a round turn out. -/
structure Outcomes extends ParseOutcomes where
  /-- The child process, if `fork` succeeds. -/
  fork : Nat → Option Pid
  /-- `setpgid` has put the child process into the group of the first one before the shell
  is back at its prompt.  It fails if that group is gone. -/
  setpgid : Nat → Bool
  /-- The status, if `waitpid` succeeds. -/
  wait : Nat → Option ChildStatus
  /-- `waitpid` in `isProcessAlive` finds a child process. -/
  groupWait : Bool
  killpg : Bool
  /-- What `status` says in `cmd_fg` before it is set. -/
  unset : Option ChildStatus
  /-- Processes that come to their end although no call reports it. -/
  ends : Int → Bool

/-- A child process that runs or is stopped, with the process ids of the stages of its
pipeline. -/
structure Process where
  pid : Int
  pgid : Int
  stages : List Int
  deriving DecidableEq

/-- The global variables of the job control, and the processes. -/
structure Jobs where
  fgPgid : Int := -1
  fgPids : List Int := []
  fgPidNum : Nat := 0
  bgPgid : Int := -1
  bgPids : List Int := []
  bgPidNum : Nat := 0
  processes : List Process := []
  deriving DecidableEq

/-- The shell between two lines. -/
structure Shell where
  descriptors : DescriptorTable Descriptor
  /-- How many pipes have been made. -/
  pipes : Nat
  jobs : Jobs
  deriving DecidableEq

/-- A child process when its program starts. -/
structure Child where
  stage : Nat
  pid : Int
  pgid : Int
  args : List (Option (List UInt8))
  descriptors : DescriptorTable Descriptor
  deriving DecidableEq

/-- The size of `all_com_tasks`. -/
def tasksMax : Nat := 512

/-- What the loop over the pipe symbols works on. -/
structure Building where
  descriptors : DescriptorTable Descriptor
  pipes : Nat
  tasks : List CommandTask := []
  /-- `next_proc_redirect_stdin_fd`. -/
  nextIn : Int := -1

/-- `fcntl` with `F_SETFD` and `FD_CLOEXEC`. -/
def setCloexec (descriptors : DescriptorTable Descriptor) (descriptor : Int) :
    DescriptorTable Descriptor :=
  match descriptors.entry descriptor with
  | none => descriptors
  | some known => descriptors.put descriptor.toNat (some { known with cloexec := true })

namespace Building

/-- `pipe`, and what is in `pipefd` afterwards. -/
def makePipe (b : Building) : Option (Int × Int) → Building × Int × Int
  | none =>
      let (readEnd, descriptors) := b.descriptors.allocate ⟨.pipeRead b.pipes, false⟩
      let (writeEnd, descriptors) := descriptors.allocate ⟨.pipeWrite b.pipes, false⟩
      ({ b with descriptors := descriptors, pipes := b.pipes + 1 }, readEnd, writeEnd)
  | some pipefd => (b, pipefd)

/-- A task is stored, reads from the pipe before it and writes to the next one. -/
def addPiped (b : Building) (outcomes : ParseOutcomes) (task : CommandTask) : Building :=
  let (made, readEnd, writeEnd) := b.makePipe (outcomes.pipe b.tasks.length)
  { made with
    descriptors := setCloexec (setCloexec made.descriptors readEnd) writeEnd
    tasks := b.tasks ++ [{ task with redirectIn := b.nextIn, redirectOut := writeEnd }]
    nextIn := readEnd }

end Building

/-- The loop over the pipe symbols, from `cur_index` on: the index where it stops, and
whether all stages before it were accepted. -/
def pipeLoop (outcomes : ParseOutcomes) (tokens : List (List UInt8)) :
    Nat → Nat → Building → Except Crash (Building × Nat × Bool)
  | 0, curIndex, b => .ok (b, curIndex, true)
  | rounds + 1, curIndex, b =>
      match findSymbolFromTokens tokens curIndex pipeSymbol with
      | none => .ok (b, curIndex, true)
      | some pipeIndex => do
          let (task, descriptors) ← tokensToTask (outcomes.openPiped b.tasks.length)
            b.descriptors tokens curIndex pipeIndex
          let b : Building := { b with descriptors := descriptors }
          match task with
          | none => return (b, curIndex, false)
          | some task =>
              if b.tasks.length < tasksMax then
                pipeLoop outcomes tokens rounds (pipeIndex + 1) (b.addPiped outcomes task)
              else .error .tasksBounds

/-- The last stage is parsed and stored. -/
def lastStage (outcomes : ParseOutcomes) (tokens : List (List UInt8)) (curIndex : Nat)
    (b : Building) : Except Crash (Building × Option CommandTask) := do
  let (task, descriptors) ← tokensToTask outcomes.openLast b.descriptors tokens curIndex
    tokens.length
  let b : Building := { b with descriptors := descriptors }
  match task with
  | none => return (b, none)
  | some task =>
      if b.tasks.length < tasksMax then
        let task : CommandTask := { task with redirectIn := b.nextIn }
        return ({ b with tasks := b.tasks ++ [task] }, some task)
      else .error .tasksBounds

/-- The test for `&` in `com_task->args[com_task->args_len-1][0]`; the argument is
taken away. -/
def backgroundMark (task : Option CommandTask) : Except Crash (CommandTask × Bool) :=
  match task with
  | none => .error .nullTask
  | some task =>
      if task.argsLen = 0 then .error .negativeIndex
      else
        match task.args[task.argsLen - 1]? with
        | some (some arg) =>
            if arg.head? = some 38 then
              .ok ({ task with args := task.args.set (task.argsLen - 1) none }, true)
            else .ok (task, false)
        | _ => .error .nullArgument

/-- The path of a program, if there is one. -/
def programPath (outcomes : ParseOutcomes) (stage : Nat) (program : Option (List UInt8)) :
    Except Crash (Option (List UInt8)) :=
  if program.elim false (outcomes.access stage) then .ok program
  else
    match outcomes.path with
    | none => .error .nullPath
    | some pathenv => do
        let search ← findFilePath pathenv (outcomes.access stage) program
        if search.overruns && !outcomes.heap stage then .error .pathBounds
        else return search.result

/-- The loop that looks up the programs, and whether all have been found. -/
def resolveTasks (outcomes : ParseOutcomes) :
    Nat → List CommandTask → Except Crash (List CommandTask × Bool)
  | _, [] => .ok ([], true)
  | stage, task :: rest => do
      let program := (task.args.head?).join
      match ← programPath outcomes stage program with
      | some path =>
          let (tasks, valid) ← resolveTasks outcomes (stage + 1) rest
          return ({ task with args := task.args.set 0 (some path) } :: tasks, valid)
      | none =>
          -- the name of the program is printed
          if program.isNone then .error .nullArgument
          else do
            let (tasks, _) ← resolveTasks outcomes (stage + 1) rest
            return (task :: tasks, false)

/-- `dup2`. -/
def dup2 (descriptors : DescriptorTable Descriptor) (old new : Nat) : DescriptorTable Descriptor :=
  match descriptors.entry old with
  | none => descriptors
  | some known =>
      if old = new then descriptors
      else descriptors.put new (some { known with cloexec := false })

/-- `execv` closes the descriptors with the flag `FD_CLOEXEC`. -/
def closeOnExec (descriptors : DescriptorTable Descriptor) : DescriptorTable Descriptor :=
  descriptors.map fun known => if known.cloexec then none else some known

/-- The descriptors of a child process when its program starts. -/
def childDescriptors (descriptors : DescriptorTable Descriptor) (task : CommandTask) :
    DescriptorTable Descriptor :=
  let descriptors :=
    if task.redirectIn ≥ 0 then dup2 descriptors task.redirectIn.toNat 0
    else descriptors
  let descriptors :=
    if task.redirectOut ≥ 0 then dup2 descriptors task.redirectOut.toNat 1
    else descriptors
  closeOnExec descriptors

/-- `if(descriptor) close(descriptor)`. -/
def closeUnlessZero (descriptors : DescriptorTable Descriptor) (descriptor : Int) :
    DescriptorTable Descriptor :=
  if descriptor ≠ 0 then descriptors.close descriptor else descriptors

/-- What `fork` returns for a stage. -/
def Outcomes.pid (outcomes : Outcomes) (stage : Nat) : Int :=
  (outcomes.fork stage).elim (-1) fun pid => pid.1

/-- The process group of the shell: no job has this number. -/
def shellPgid : Int := 0

/-- The process group of a child process once it has called `setpgid`, whose result it
does not look at. -/
def Outcomes.pgid (outcomes : Outcomes) (stage : Nat) (task : CommandTask) : Int :=
  if outcomes.setpgid stage then
    if task.pgid > 0 then task.pgid else outcomes.pid stage
  else shellPgid

/-- The loop that starts the child processes: `create_process_and_exec` for each task,
and the ends of the pipes are closed. -/
def launchLoop (outcomes : Outcomes) (leader : Int) :
    Nat → List CommandTask → DescriptorTable Descriptor →
      List CommandTask × List Child × DescriptorTable Descriptor
  | _, [], descriptors => ([], [], descriptors)
  | stage, task :: rest, descriptors =>
      let pid := outcomes.pid stage
      let task : CommandTask := { task with pgid := leader, pid := pid }
      let child := (outcomes.fork stage).map fun _ =>
        { stage := stage
          pid := pid
          pgid := outcomes.pgid stage task
          args := task.args
          descriptors := childDescriptors descriptors task : Child }
      let closed := closeUnlessZero (closeUnlessZero descriptors task.redirectIn) task.redirectOut
      -- the process id of the first task is there for the next ones
      let leader := if stage = 0 then pid else leader
      let (tasks, children, descriptors) := launchLoop outcomes leader (stage + 1) rest closed
      (task :: tasks, child.toList ++ children, descriptors)

/-- A line that has been parsed. -/
structure ParsedLine where
  tasks : List CommandTask
  descriptors : DescriptorTable Descriptor
  pipes : Nat
  valid : Bool
  background : Bool

/-- A line that is not a built-in command, up to the test of `is_commands_valid`. -/
def parseLine (outcomes : ParseOutcomes) (shell : Shell) (tokens : List (List UInt8)) :
    Except Crash ParsedLine := do
  let (b, curIndex, accepted) ← pipeLoop outcomes tokens tokens.length 0
    { descriptors := shell.descriptors, pipes := shell.pipes }
  let (b, last) ← lastStage outcomes tokens curIndex b
  let (last, background) ← backgroundMark last
  let (tasks, found) ← resolveTasks outcomes 0 (b.tasks.dropLast ++ [last])
  return {
    tasks := tasks
    descriptors := b.descriptors
    pipes := b.pipes
    valid := accepted && found
    background := background }

namespace Jobs

/-- `isProcessAlive`, before a command is executed.  If it finds no child process, the
processes of the group have come to their end. -/
def checkBackground (jobs : Jobs) (outcomes : Outcomes) : Jobs :=
  if jobs.bgPgid ≠ -1 ∧ outcomes.groupWait = false then
    { jobs with
      bgPgid := -1
      bgPids := []
      bgPidNum := 0
      processes := jobs.processes.filter fun p => p.pgid ≠ jobs.bgPgid }
  else jobs

/-- What `status` says after the calls of `waitpid`. -/
def waitLoop (outcomes : Outcomes) (status : Option ChildStatus) (count : Nat) :
    Option ChildStatus :=
  (List.range count).foldl (fun status i => (outcomes.wait i).or status) status

/-- A call of `waitpid` says that a process has come to its end, or finds none. -/
def waitEnds (outcomes : Outcomes) (pids : List Int) (pid : Int) : Bool :=
  pids.zipIdx.any fun (waited, i) => waited = pid && outcomes.wait i ≠ some .stopped

/-- What is done with the foreground job after the calls of `waitpid`. -/
def afterWait (jobs : Jobs) (status : Option ChildStatus) : Jobs :=
  match status with
  | some .exited | some .signaled =>
      { jobs with fgPgid := -1, fgPids := [], fgPidNum := 0 }
  | some .stopped =>
      { jobs with
        bgPgid := jobs.fgPgid
        bgPids := jobs.fgPids
        bgPidNum := jobs.fgPidNum
        fgPgid := -1
        fgPids := []
        fgPidNum := 0 }
  | none => jobs

/-- Processes come to their end. -/
def survive (jobs : Jobs) (ends : Int → Bool) : Jobs :=
  { jobs with processes := jobs.processes.filter fun p => !ends p.pid }

/-- `cmd_fg`. -/
def cmdFg (jobs : Jobs) (outcomes : Outcomes) : Jobs :=
  if jobs.bgPgid > 0 then
    let jobs : Jobs :=
      { jobs with
        fgPgid := jobs.bgPgid
        fgPids := jobs.bgPids
        fgPidNum := jobs.bgPidNum
        bgPgid := -1
        bgPids := []
        bgPidNum := 0 }
    if outcomes.killpg then
      (jobs.afterWait (waitLoop outcomes outcomes.unset jobs.fgPidNum)).survive
        (waitEnds outcomes jobs.fgPids)
    else jobs
  else jobs

/-- The bookkeeping in `main` after the child processes have been started. -/
def record (jobs : Jobs) (outcomes : Outcomes) (background : Bool)
    (tasks : List CommandTask) : Jobs :=
  let pids := tasks.map CommandTask.pid
  let leader := pids.headD (-1)
  if background then
    { jobs with bgPgid := leader, bgPids := pids, bgPidNum := tasks.length }
  else
    let jobs : Jobs := { jobs with fgPgid := leader, fgPids := pids, fgPidNum := tasks.length }
    (jobs.afterWait (waitLoop outcomes (some .exited) tasks.length)).survive
      (waitEnds outcomes pids)

/-- Child processes have been started. -/
def start (jobs : Jobs) (tasks : List CommandTask) (children : List Child) : Jobs :=
  { jobs with
    processes := jobs.processes ++ children.map fun child =>
      ⟨child.pid, child.pgid, tasks.map CommandTask.pid⟩ }

end Jobs

/-- The end of a round. -/
inductive LineEnd where
  /-- The shell is back at its prompt and has started child processes. -/
  | prompt (shell : Shell) (children : List Child)
  | exits
  | aborts
  | crashes (crash : Crash)

/-- A built-in command. -/
def runBuiltin (outcomes : Outcomes) (shell : Shell) : Builtin → LineEnd
  | .exit => .exits
  | .fg =>
      .prompt { shell with jobs := (shell.jobs.cmdFg outcomes).survive outcomes.ends } []
  | _ => .prompt { shell with jobs := shell.jobs.survive outcomes.ends } []

/-- A line that is not a built-in command. -/
def runCommands (outcomes : Outcomes) (shell : Shell) (tokens : List (List UInt8)) :
    LineEnd :=
  match parseLine outcomes.toParseOutcomes shell tokens with
  | .error crash => .crashes crash
  | .ok line =>
      if line.valid then
        let (tasks, children, descriptors) := launchLoop outcomes (-1) 0 line.tasks line.descriptors
        let jobs := (shell.jobs.start tasks children).record outcomes line.background tasks
        .prompt ⟨descriptors, line.pipes, jobs.survive outcomes.ends⟩ children
      else
        .prompt ⟨line.descriptors, line.pipes, shell.jobs.survive outcomes.ends⟩ []

/-- A round of the loop in `main`. -/
def handleLine (outcomes : Outcomes) (shell : Shell) (line : List UInt8) : LineEnd :=
  match lineTokens line with
  | .error _ => .aborts
  | .ok tokens =>
      let checked : Shell := { shell with jobs := shell.jobs.checkBackground outcomes }
      match lookup tokens.head? with
      | some builtin => runBuiltin outcomes checked builtin
      | none => runCommands outcomes checked tokens

/-- The shell, if it is back at its prompt. -/
def LineEnd.shell : LineEnd → Option Shell
  | .prompt shell _ => some shell
  | _ => none

/-- Lines are entered one after another, and the calls turn out in some way each time. -/
def shellSystem (start : Shell) : TransitionSystem Shell (Outcomes × List UInt8) where
  initial shell := shell = start
  step shell entered := (handleLine entered.1 shell entered.2).shell

end CS162.HwShell
