import CS162.HwShell.Stages

/-!
# Lines that crash the shell

Which lines bring the shell back to its prompt, whatever its state and however the calls
turn out.
-/

namespace CS162.HwShell

section Survival

variable (outcomes : Outcomes) (shell : Shell) (line : List UInt8)

/-- The shell is back at its prompt, or it has been told to exit; child processes are
started only for a line that is accepted. -/
def Returns : Prop :=
  (handleLine outcomes shell line = .exits ∧
      lookup (words (textOf line)).head? = some .exit) ∨
    ∃ after children, handleLine outcomes shell line = .prompt after children ∧
      (children ≠ [] → lineAccepted outcomes.toParseOutcomes (words (textOf line)) = true)

/-- The same calls, with some other effect of what is written behind a buffer. -/
def Outcomes.withHeap (outcomes : Outcomes) (heap : Nat → Bool) : Outcomes :=
  { outcomes with heap := heap }

/-- The round ends well, whatever a store behind a buffer does. -/
def Survives : Prop := ∀ heap, Returns (outcomes.withHeap heap) shell line

/-- There is room for the tasks of a line, what is parsed as its last stage is accepted
and has more words than one that starts with `&`, and the searches for programs do no
harm. -/
structure Launchable (outcomes : ParseOutcomes) (tokens : List (List UInt8)) : Prop where
  room : (acceptedStages outcomes 0 (stagesOf tokens)).1.length < tasksMax
  last : stageValid outcomes.openLast (restOf outcomes tokens) = true
  named : ¬LoneMark (restOf outcomes tokens)
  searches : everyProgram outcomes.searchFine 0 (storedStages outcomes tokens) = true

/-- Every program of a line is there under its name, so that none is searched for. -/
def programsNamed (outcomes : ParseOutcomes) (tokens : List (List UInt8)) : Bool :=
  everyProgram outcomes.access 0 (storedStages outcomes tokens)

/-- The shell executes the stages of a line. -/
structure Accepts (outcomes : ParseOutcomes) (line : List UInt8) : Prop where
  short : ∀ word ∈ words (textOf line), word.length < 4095
  plain : lookup (words (textOf line)).head? = none
  launchable : Launchable outcomes (words (textOf line))
  accepted : lineAccepted outcomes (words (textOf line)) = true

variable {outcomes shell line}

theorem handleLine_of_long (long : ∃ word ∈ words (textOf line), 4095 ≤ word.length) :
    handleLine outcomes shell line = .aborts := by
  rw [handleLine, lineTokens_of_long long]

/-- A line without words that are too long is a built-in command, or its stages are
executed. -/
theorem handleLine_of_short (short : ∀ word ∈ words (textOf line), word.length < 4095) :
    handleLine outcomes shell line =
      (lookup (words (textOf line)).head?).elim
        (runCommands outcomes { shell with jobs := shell.jobs.checkBackground outcomes }
          (words (textOf line)))
        (runBuiltin outcomes { shell with jobs := shell.jobs.checkBackground outcomes }) := by
  rw [handleLine, lineTokens_of_short short]
  dsimp only
  cases lookup (words (textOf line)).head? <;> rfl

/-- A built-in command does not crash the shell. -/
theorem runBuiltin_survives (builtin : Builtin) :
    (runBuiltin outcomes shell builtin = .exits ∧ builtin = .exit) ∨
      ∃ after, runBuiltin outcomes shell builtin = .prompt after [] := by
  cases builtin with
  | exit => exact Or.inl ⟨rfl, rfl⟩
  | _ => exact Or.inr ⟨_, rfl⟩

/-- A line is launchable or crashes the shell. -/
theorem not_launchable {outcomes : ParseOutcomes} {tokens : List (List UInt8)}
    (bad : ¬Launchable outcomes tokens) :
    tasksMax ≤ (acceptedStages outcomes 0 (stagesOf tokens)).1.length ∨
      stageValid outcomes.openLast (restOf outcomes tokens) = false ∨
        LoneMark (restOf outcomes tokens) ∨
          everyProgram outcomes.searchFine 0 (storedStages outcomes tokens) = false := by
  by_cases room : (acceptedStages outcomes 0 (stagesOf tokens)).1.length < tasksMax
  · cases last : stageValid outcomes.openLast (restOf outcomes tokens) with
    | false => exact Or.inr (Or.inl rfl)
    | true =>
        by_cases lone : LoneMark (restOf outcomes tokens)
        · exact Or.inr (Or.inr (Or.inl lone))
        · exact Or.inr (Or.inr (Or.inr
            (Bool.eq_false_iff.mpr fun searches => bad ⟨room, last, lone, searches⟩)))
  · exact Or.inl (Nat.not_lt.mp room)

/-- Stages that are launchable bring the shell back to its prompt. -/
theorem runCommands_of_launchable {tokens : List (List UInt8)}
    (launchable : Launchable outcomes.toParseOutcomes tokens) :
    ∃ after children, runCommands outcomes shell tokens = .prompt after children ∧
      (children ≠ [] → lineAccepted outcomes.toParseOutcomes tokens = true) := by
  rcases @parseLine_of_fine _ shell _ launchable.room launchable.last launchable.named
    launchable.searches with
    ⟨parse, parses, _, _, _, _, valid⟩
  rw [runCommands, parses, ← valid]
  dsimp only
  cases parse.valid with
  | false => exact ⟨_, [], rfl, fun some => absurd rfl some⟩
  | true => exact ⟨_, _, rfl, fun _ => rfl⟩

theorem runCommands_of_bad {tokens : List (List UInt8)}
    (bad : ¬Launchable outcomes.toParseOutcomes tokens) :
    ∃ crash, runCommands outcomes shell tokens = .crashes crash := by
  rcases @parseLine_of_bad _ shell _ (not_launchable bad) with ⟨crash, fails⟩
  rw [runCommands, fails]
  exact ⟨crash, rfl⟩

/-- A line that does not crash the shell has no word that is too long, and it is a built-in
command or launchable. -/
theorem Returns.fine (returns : Returns outcomes shell line) :
    (∀ word ∈ words (textOf line), word.length < 4095) ∧
      ((lookup (words (textOf line)).head?).isSome = true ∨
        Launchable outcomes.toParseOutcomes (words (textOf line))) := by
  have short : ∀ word ∈ words (textOf line), word.length < 4095 := by
    intro word member
    by_contra long
    have aborts := @handleLine_of_long outcomes shell line ⟨word, member, Nat.not_lt.mp long⟩
    rw [Returns, aborts] at returns
    rcases returns with ⟨exits, _⟩ | ⟨_, _, prompt, _⟩
    · cases exits
    · cases prompt
  refine ⟨short, ?_⟩
  have run := @handleLine_of_short outcomes shell line short
  cases command : lookup (words (textOf line)).head? with
  | some builtin => exact Or.inl rfl
  | none =>
      by_contra neither
      rw [command, Option.elim_none] at run
      rcases @runCommands_of_bad outcomes
        { shell with jobs := shell.jobs.checkBackground outcomes } _
        fun launchable => neither (Or.inr launchable) with ⟨crash, crashes⟩
      rw [Returns, run, crashes] at returns
      rcases returns with ⟨exits, _⟩ | ⟨_, _, prompt, _⟩
      · cases exits
      · cases prompt

/-- Other lines do not crash the shell. -/
theorem returns_of_fine (short : ∀ word ∈ words (textOf line), word.length < 4095)
    (fine : (lookup (words (textOf line)).head?).isSome = true ∨
      Launchable outcomes.toParseOutcomes (words (textOf line))) :
    Returns outcomes shell line := by
  have run := @handleLine_of_short outcomes shell line short
  rw [Returns, run]
  cases command : lookup (words (textOf line)).head? with
  | some builtin =>
      rcases @runBuiltin_survives outcomes
        { shell with jobs := shell.jobs.checkBackground outcomes } builtin with
        ⟨exits, isExit⟩ | ⟨after, prompt⟩
      · exact Or.inl ⟨exits, congrArg some isExit⟩
      · exact Or.inr ⟨after, [], prompt, fun some => absurd rfl some⟩
  | none =>
      rw [command] at fine
      rcases fine with builtin | launchable
      · cases builtin
      · exact Or.inr (runCommands_of_launchable launchable)

end Survival

section Search

/-- Which stages are accepted before the last one depends on the files of their
redirections only. -/
theorem acceptedStages_congr {outcomes others : ParseOutcomes}
    (same : outcomes.openPiped = others.openPiped) (number : Nat) (stages : List Stage) :
    acceptedStages outcomes number stages = acceptedStages others number stages := by
  fun_induction acceptedStages outcomes number stages with
  | case1 number stage next rest valid inductionHypothesis =>
      rw [acceptedStages, if_pos (same ▸ valid), inductionHypothesis]
  | case2 number stage next rest invalid =>
      rw [acceptedStages, if_neg (same ▸ invalid)]
  | case3 number stages short =>
      rw [acceptedStages]
      exact short

theorem everyProgram_mono {test weaker : Nat → List UInt8 → Bool}
    (implied : ∀ number program, test number program = true → weaker number program = true)
    {number : Nat} {stages : List Stage} (every : everyProgram test number stages = true) :
    everyProgram weaker number stages = true := by
  induction stages generalizing number with
  | nil => rfl
  | cons stage rest inductionHypothesis =>
      rw [everyProgram, Bool.and_eq_true] at every ⊢
      refine ⟨?_, inductionHypothesis every.2⟩
      cases name : programOf stage with
      | none => simp
      | some program =>
          rw [name, Option.all_some] at every
          simp [implied number program every.1]

variable (outcomes : Outcomes) (heap : Nat → Bool)

@[simp]
theorem withHeap_acceptedStages (number : Nat) (stages : List Stage) :
    acceptedStages (outcomes.withHeap heap).toParseOutcomes number stages =
      acceptedStages outcomes.toParseOutcomes number stages := by
  apply acceptedStages_congr
  simp [Outcomes.withHeap]

@[simp]
theorem withHeap_restOf (tokens : List (List UInt8)) :
    restOf (outcomes.withHeap heap).toParseOutcomes tokens =
      restOf outcomes.toParseOutcomes tokens := by
  simp [restOf]

@[simp]
theorem withHeap_storedStages (tokens : List (List UInt8)) :
    storedStages (outcomes.withHeap heap).toParseOutcomes tokens =
      storedStages outcomes.toParseOutcomes tokens := by
  simp [storedStages]

/-- If what is written behind the buffers is harmful, no search may take place. -/
theorem searchFine_harmful : (outcomes.withHeap fun _ => false).searchFine = outcomes.access := by
  funext number program
  simp [ParseOutcomes.searchFine, Outcomes.withHeap]

theorem searchFine_of_access (number : Nat) (program : List UInt8)
    (there : outcomes.access number program = true) :
    (outcomes.withHeap heap).searchFine number program = true := by
  simp [ParseOutcomes.searchFine, Outcomes.withHeap, there]

end Search

/-- A round of the command loop ends at the prompt if no word is too long, and the line is
a built-in command, or it is launchable and needs no search in `PATH`. -/
theorem survives_iff (outcomes : Outcomes) (shell : Shell) (line : List UInt8) :
    Survives outcomes shell line ↔
      (∀ word ∈ words (textOf line), word.length < 4095) ∧
        ((lookup (words (textOf line)).head?).isSome = true ∨
          Launchable outcomes.toParseOutcomes (words (textOf line)) ∧
            programsNamed outcomes.toParseOutcomes (words (textOf line)) = true) := by
  constructor
  · intro survives
    rcases (survives outcomes.heap).fine with ⟨short, builtin | launchable⟩
    · exact ⟨short, Or.inl builtin⟩
    · rcases (survives fun _ => false).fine with ⟨_, builtin | harmed⟩
      · exact ⟨short, Or.inl builtin⟩
      · have searches := harmed.searches
        rw [searchFine_harmful, withHeap_storedStages] at searches
        exact ⟨short, Or.inr ⟨launchable, searches⟩⟩
  · rintro ⟨short, fine⟩ heap
    refine returns_of_fine short (fine.imp_right ?_)
    rintro ⟨⟨room, last, named, _⟩, there⟩
    refine ⟨?_, ?_, ?_, ?_⟩
    · rwa [withHeap_acceptedStages]
    · rwa [withHeap_restOf]
    · rwa [withHeap_restOf]
    · rw [withHeap_storedStages]
      exact everyProgram_mono (searchFine_of_access outcomes heap) there

/-- Each stage has a process id of its own. -/
def pidOf (stage : Nat) : Pid := ⟨stage + 100, Nat.succ_pos _⟩

/-- Every call succeeds, and every process that is waited for has come to its end. -/
def fineOutcomes : Outcomes where
  openPiped _ _ := true
  openLast _ := true
  pipe _ := none
  access _ _ := true
  path := some []
  heap _ := true
  fork stage := some (pidOf stage)
  setpgid _ := true
  wait _ := some .exited
  groupWait := true
  killpg := true
  unset := none
  ends _ := false

/-- The shell before the first line. -/
def firstShell : Shell where
  descriptors := ⟨[some ⟨.inherited 0, false⟩, some ⟨.inherited 1, false⟩,
    some ⟨.inherited 2, false⟩]⟩
  pipes := 0
  jobs := {}

/-- A line without any word crashes the shell. -/
theorem survives_iff_empty : ¬Survives fineOutcomes firstShell [10] := by
  intro survives
  rcases (survives fun _ => true).fine with ⟨_, builtin | fine⟩
  · exact absurd builtin (by decide +kernel)
  · have last := fine.last
    exact absurd last (by decide +kernel)

/-- `a | b`. -/
def pipedLine : List UInt8 := [97, 32, 124, 32, 98, 10]

theorem words_pipedLine : words (textOf pipedLine) = [[97], [124], [98]] := by
  decide +kernel

theorem pipedLine_accepts : Accepts fineOutcomes.toParseOutcomes pipedLine where
  short := by
    rw [words_pipedLine]
    decide
  plain := by
    rw [words_pipedLine]
    decide
  launchable := by
    rw [words_pipedLine]
    exact ⟨by decide +kernel, by decide +kernel, not_loneMark (by decide +kernel),
      by decide +kernel⟩
  accepted := by
    rw [words_pipedLine]
    decide +kernel

/-- `a < b`. -/
def inputLine : List UInt8 := [97, 32, 60, 32, 98, 10]

theorem words_inputLine : words (textOf inputLine) = [[97], [60], [98]] := by
  decide +kernel

theorem inputLine_accepts : Accepts fineOutcomes.toParseOutcomes inputLine where
  short := by
    rw [words_inputLine]
    decide
  plain := by
    rw [words_inputLine]
    decide
  launchable := by
    rw [words_inputLine]
    exact ⟨by decide +kernel, by decide +kernel, not_loneMark (by decide +kernel),
      by decide +kernel⟩
  accepted := by
    rw [words_inputLine]
    decide +kernel

end CS162.HwShell
