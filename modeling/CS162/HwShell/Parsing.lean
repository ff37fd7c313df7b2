import CS162.HwShell.Tasks

/-!
# What is read in a stage

`tokens_to_task` compared with the words, the redirections and the files of the tokens
in its range.
-/

namespace CS162.HwShell

open CS162.Foundation

section Ranges

variable {tokens : List (List UInt8)} {i stop : Nat}

theorem rangeOf_empty (past : stop ≤ i) : rangeOf tokens i stop = [] := by
  apply List.drop_eq_nil_of_le
  rw [List.length_take]
  omega

/-- The first token of a range. -/
theorem rangeOf_cons (below : i < stop) (inside : stop ≤ tokens.length) :
    ∃ token, tokens[i]? = some token ∧
      rangeOf tokens i stop = token :: rangeOf tokens (i + 1) stop := by
  have here : i < tokens.length := by omega
  have length : i < (tokens.take stop).length := by
    rw [List.length_take]
    omega
  refine ⟨tokens[i], List.getElem?_eq_getElem here, ?_⟩
  rw [rangeOf, List.drop_eq_getElem_cons length, List.getElem_take]
  rfl

theorem items_word {token : List UInt8} (plain : token ≠ outSymbol ∧ token ≠ inSymbol)
    (rest : List (List UInt8)) :
    items (token :: rest) = (.word token :: (items rest).1, (items rest).2) := by
  cases rest with
  | nil => simp only [items, if_pos plain]
  | cons next rest => rw [items, if_pos plain]

/-- What `operandAt` finds is the next token of the range. -/
theorem operandAt_eq (inside : stop ≤ tokens.length) :
    operandAt tokens stop i =
      .ok ((rangeOf tokens (i + 1) stop).head?.filter fun next => IsOperand next) := by
  by_cases below : i + 1 < stop
  · rcases rangeOf_cons below inside with ⟨next, found, cut⟩
    rw [operandAt, if_pos below, found, cut]
    by_cases operand : IsOperand next <;> simp [operand, Option.filter]
  · rw [operandAt, if_neg below, rangeOf_empty (by omega)]
    rfl

end Ranges

section Loop

variable {opens : Nat → Bool} {tokens : List (List UInt8)} {i stop capacity : Nat}
variable {p : Parsing}

/-- The loop does with the parts of the range what is to be done with each of them, and
never stores behind the array. -/
theorem parseLoop_eq {rounds : Nat} (inside : stop ≤ tokens.length)
    (enough : stop - i ≤ rounds) (room : p.args.length + (stop - i) ≤ capacity) :
    parseLoop opens tokens stop capacity rounds i p =
      .ok ((Parsing.run opens (items (rangeOf tokens i stop)).1 p).1,
        (Parsing.run opens (items (rangeOf tokens i stop)).1 p).2 &&
          (items (rangeOf tokens i stop)).2) := by
  induction rounds generalizing i p with
  | zero =>
      rw [rangeOf_empty (by omega)]
      rfl
  | succ rounds inductionHypothesis =>
      by_cases below : i < stop
      · rcases rangeOf_cons below inside with ⟨token, found, cut⟩
        rw [parseLoop, if_pos below, found, cut]
        dsimp only
        by_cases plain : token ≠ outSymbol ∧ token ≠ inSymbol
        · have more : (p.word token).args.length = p.args.length + 1 :=
            List.length_append
          rw [if_pos plain, if_pos (by omega), items_word plain,
            inductionHypothesis (by omega) (by omega)]
          rfl
        · rw [if_neg plain, operandAt_eq inside]
          by_cases next : i + 1 < stop
          · rcases rangeOf_cons next inside with ⟨name, _, cut'⟩
            rw [cut', items, if_neg plain, List.head?_cons]
            by_cases operand : IsOperand name
            · have filtered : Option.filter (fun next => decide (IsOperand next))
                  (some name) = some name := by
                simp [Option.filter, operand]
              rw [filtered, bind_of_ok rfl, if_pos operand]
              dsimp only
              by_cases out : token = outSymbol
              · have same : (p.output (opens p.opens) name).args = p.args := by
                  unfold Parsing.output
                  split <;> rfl
                rw [if_pos out, if_pos out, inductionHypothesis (by omega) (by
                  rw [same]
                  omega)]
                rfl
              · rw [if_neg out, if_neg out, Parsing.run]
                by_cases success : opens p.opens = true
                · rw [if_pos success, if_pos success, inductionHypothesis (by omega) (by
                    change p.args.length + _ ≤ _
                    omega)]
                · rw [if_neg success, if_neg success]
                  rfl
            · have filtered : Option.filter (fun next => decide (IsOperand next))
                  (some name) = none := by
                simp [Option.filter, operand]
              rw [filtered, bind_of_ok rfl, if_neg operand]
              rfl
          · rw [rangeOf_empty (Nat.not_lt.mp next), items, if_neg plain]
            rfl
      · rw [rangeOf_empty (Nat.not_lt.mp below), parseLoop, if_neg below]
        rfl

end Loop

section Run

variable {opens : Nat → Bool} {parts : List Item} {p : Parsing}

/-- The loop comes to the end if the files of `<` are there. -/
theorem run_complete (opens : Nat → Bool) (parts : List Item) (p : Parsing) :
    (Parsing.run opens parts p).2 = inputsOpen opens p.opens parts := by
  induction parts generalizing p with
  | nil => rfl
  | cons part parts inductionHypothesis =>
      cases part with
      | word token =>
          rw [Parsing.run, inputsOpen, inductionHypothesis]
          rfl
      | output name =>
          have next : (p.output (opens p.opens) name).opens = p.opens + 1 := by
            unfold Parsing.output
            split <;> rfl
          rw [Parsing.run, inputsOpen, inductionHypothesis, next]
      | input name =>
          rw [Parsing.run, inputsOpen]
          by_cases success : opens p.opens = true
          · rw [if_pos success, inductionHypothesis, success, Bool.true_and]
            rfl
          · rw [if_neg success]
            rw [Bool.not_eq_true] at success
            rw [success, Bool.false_and]

/-- The words are stored in their order. -/
theorem run_args (complete : (Parsing.run opens parts p).2 = true) :
    (Parsing.run opens parts p).1.args = p.args ++ plainWords parts := by
  induction parts generalizing p with
  | nil => exact (List.append_nil p.args).symm
  | cons part parts inductionHypothesis =>
      cases part with
      | word token =>
          have later := inductionHypothesis complete
          rw [Parsing.run, later]
          exact List.append_assoc p.args [token] (plainWords parts)
      | output name =>
          have same : (p.output (opens p.opens) name).args = p.args := by
            unfold Parsing.output
            split <;> rfl
          have later := inductionHypothesis complete
          rw [Parsing.run, later, same]
          rfl
      | input name =>
          rw [Parsing.run] at complete ⊢
          by_cases success : opens p.opens = true
          · rw [if_pos success] at complete ⊢
            exact inductionHypothesis complete
          · rw [if_neg success] at complete
            cases complete

/-- Descriptors that are in use stay what they are. -/
def Grows (before after : DescriptorTable Descriptor) : Prop :=
  ∀ descriptor known, before.entry descriptor = some known → after.entry descriptor = some known

theorem Grows.refl (table : DescriptorTable Descriptor) : Grows table table :=
  fun _ _ known => known

theorem Grows.trans {first second third : DescriptorTable Descriptor}
    (one : Grows first second) (two : Grows second third) : Grows first third :=
  fun descriptor known found => two descriptor known (one descriptor known found)

theorem grows_allocate (table : DescriptorTable Descriptor) (new : Descriptor) :
    Grows table (table.allocate new).2 := by
  intro descriptor known found
  rw [DescriptorTable.entry_allocate, if_neg]
  · exact found
  · intro same
    rw [same, DescriptorTable.entry_allocate_free] at found
    cases found

theorem grows_output (success : Bool) (name : List UInt8) :
    Grows p.descriptors (p.output success name).descriptors := by
  cases success with
  | true => exact grows_allocate _ _
  | false => exact Grows.refl _

theorem grows_input (success : Bool) (name : List UInt8) :
    Grows p.descriptors (p.input success name).descriptors := by
  cases success with
  | true => exact grows_allocate _ _
  | false => exact Grows.refl _

theorem run_grows (opens : Nat → Bool) (parts : List Item) (p : Parsing) :
    Grows p.descriptors (Parsing.run opens parts p).1.descriptors := by
  induction parts generalizing p with
  | nil => exact Grows.refl _
  | cons part parts inductionHypothesis =>
      cases part with
      | word token => exact inductionHypothesis (p.word token)
      | output name =>
          exact (grows_output _ name).trans (inductionHypothesis (p.output _ name))
      | input name =>
          rw [Parsing.run]
          by_cases success : opens p.opens = true
          · rw [if_pos success]
            exact (grows_input true name).trans (inductionHypothesis (p.input true name))
          · rw [if_neg success]
            exact grows_input false name

/-- A descriptor is that of a file, or −1 if there is none. -/
def RefersTo (table : DescriptorTable Descriptor) (descriptor : Int) (write : Bool) :
    Option (List UInt8) → Prop
  | none => descriptor = -1
  | some name => table.entry descriptor = some ⟨.opened name write, true⟩

theorem RefersTo.grow {before after : DescriptorTable Descriptor} {descriptor : Int}
    {write : Bool} {name : Option (List UInt8)} (grows : Grows before after)
    (refers : RefersTo before descriptor write name) :
    RefersTo after descriptor write name := by
  cases name with
  | none => exact refers
  | some name => exact grows descriptor _ refers

/-- The last `>` of a stage after another one, and whether its file is opened; the calls
of `open` are numbered. -/
def lastOutput (opens : Nat → Bool) :
    Nat → List Item → Option (List UInt8 × Bool) → Option (List UInt8 × Bool)
  | _, [], last => last
  | n, .word _ :: rest, last => lastOutput opens n rest last
  | n, .input _ :: rest, last => lastOutput opens (n + 1) rest last
  | n, .output name :: rest, _ => lastOutput opens (n + 1) rest (some (name, opens n))

/-- Whether each `>` of a stage finds its file. -/
def outputsOpen (opens : Nat → Bool) : Nat → List Item → Bool
  | _, [] => true
  | n, .word _ :: rest => outputsOpen opens n rest
  | n, .output _ :: rest => opens n && outputsOpen opens (n + 1) rest
  | n, .input _ :: rest => outputsOpen opens (n + 1) rest

/-- The name of a file that is open. -/
def openedName : Option (List UInt8 × Bool) → Option (List UInt8)
  | some (name, true) => some name
  | _ => none

/-- The loop leaves the descriptors of the last `<` and of the last `>`, if the latter
is opened. -/
theorem run_redirects {source : Option (List UInt8)} {target : Option (List UInt8 × Bool)}
    (complete : (Parsing.run opens parts p).2 = true)
    (reads : RefersTo p.descriptors p.redirectIn false source)
    (writes : RefersTo p.descriptors p.redirectOut true (openedName target)) :
    RefersTo (Parsing.run opens parts p).1.descriptors
        (Parsing.run opens parts p).1.redirectIn false
        ((inputs parts).getLast?.or source) ∧
      RefersTo (Parsing.run opens parts p).1.descriptors
        (Parsing.run opens parts p).1.redirectOut true
        (openedName (lastOutput opens p.opens parts target)) := by
  induction parts generalizing p source target with
  | nil => exact ⟨reads, writes⟩
  | cons part parts inductionHypothesis =>
      cases part with
      | word token => exact inductionHypothesis complete reads writes
      | output name =>
          have grows := @grows_output p (opens p.opens) name
          have next : (p.output (opens p.opens) name).opens = p.opens + 1 := by
            unfold Parsing.output
            split <;> rfl
          have same : (p.output (opens p.opens) name).redirectIn = p.redirectIn := by
            unfold Parsing.output
            split <;> rfl
          have written : RefersTo (p.output (opens p.opens) name).descriptors
              (p.output (opens p.opens) name).redirectOut true
              (openedName (some (name, opens p.opens))) := by
            cases success : opens p.opens with
            | false => rfl
            | true =>
                change DescriptorTable.entry _ _ = _
                exact (DescriptorTable.entry_allocate _ _).trans (if_pos rfl)
          have kept : RefersTo (p.output (opens p.opens) name).descriptors
              (p.output (opens p.opens) name).redirectIn false source := by
            rw [same]
            exact reads.grow grows
          have later := inductionHypothesis complete kept written
          rw [next] at later
          exact later
      | input name =>
          rw [Parsing.run] at complete ⊢
          by_cases success : opens p.opens = true
          · rw [if_pos success] at complete ⊢
            have opened : RefersTo (p.input true name).descriptors
                (p.input true name).redirectIn false (some name) :=
              (DescriptorTable.entry_allocate _ _).trans (if_pos rfl)
            have kept : RefersTo (p.input true name).descriptors
                (p.input true name).redirectOut true (openedName target) :=
              writes.grow (grows_input true name)
            have later := inductionHypothesis complete opened kept
            have last : ((name :: inputs parts).getLast?).or source =
                ((inputs parts).getLast?).or (some name) := by
              rw [List.getLast?_cons]
              cases (inputs parts).getLast? <;> rfl
            refine ⟨?_, later.2⟩
            change RefersTo _ _ _ (((name :: inputs parts).getLast?).or source)
            rw [last]
            exact later.1
          · rw [if_neg success] at complete
            cases complete

/-- If all files are opened, so is the last one. -/
theorem lastOutput_of_open {n : Nat} {target : Option (List UInt8 × Bool)}
    (success : outputsOpen opens n parts = true) :
    lastOutput opens n parts target =
      ((outputs parts).getLast?.map fun name => (name, true)).or target := by
  induction parts generalizing n target with
  | nil => rfl
  | cons part parts inductionHypothesis =>
      cases part with
      | word token => exact inductionHypothesis success
      | input name => exact inductionHypothesis success
      | output name =>
          rcases Bool.and_eq_true_iff.mp success with ⟨first, rest⟩
          have later := @inductionHypothesis (n + 1) (some (name, opens n)) rest
          rw [lastOutput, later, first]
          change _ = (((name :: outputs parts).getLast?).map fun name => (name, true)).or target
          rw [List.getLast?_cons]
          cases (outputs parts).getLast? <;> rfl

end Run

section Stages

variable {opens : Nat → Bool} {descriptors : DescriptorTable Descriptor}
variable {tokens : List (List UInt8)} {start stop : Nat}

/-- The task that is made of the parts of a stage. -/
def taskOf (p : Parsing) : CommandTask where
  redirectIn := p.redirectIn
  redirectOut := p.redirectOut
  args := p.args.map some ++ [none]
  argsLen := p.args.length

/-- What the loop makes of a stage. -/
def parsed (opens : Nat → Bool) (descriptors : DescriptorTable Descriptor)
    (stage : List (List UInt8)) : Parsing :=
  (Parsing.run opens (items stage).1 { descriptors := descriptors }).1

/-- The arguments of a task that is not rejected. -/
theorem parsed_args {stage : List (List UInt8)}
    (success : inputsOpen opens 0 (items stage).1 = true) :
    (parsed opens descriptors stage).args = plainWords (items stage).1 := by
  have complete := run_complete opens (items stage).1 { descriptors := descriptors }
  exact run_args (complete.trans success)

/-- `tokens_to_task` returns a task for a stage that is valid, and nothing for
others. -/
theorem tokensToTask_eq (inside : stop ≤ tokens.length) :
    tokensToTask opens descriptors tokens start stop =
      .ok (if stageValid opens (rangeOf tokens start stop) then
          some (taskOf (parsed opens descriptors (rangeOf tokens start stop)))
        else none,
        (parsed opens descriptors (rangeOf tokens start stop)).descriptors) := by
  have loop := @parseLoop_eq opens tokens start stop (stop - start)
    { descriptors := descriptors } (stop - start) inside (Nat.le_refl _)
    (Nat.le_of_eq (Nat.zero_add _))
  rw [run_complete] at loop
  rw [tokensToTask, bind_of_ok loop]
  dsimp only
  generalize rangeOf tokens start stop = stage
  cases success : inputsOpen opens 0 (items stage).1 with
  | false =>
      have invalid : stageValid opens stage = false := by
        rw [stageValid, success, Bool.and_false, Bool.false_and]
      rw [invalid, Bool.false_and, Bool.false_and]
      rfl
  | true =>
      have args := @parsed_args opens descriptors stage success
      have valid : stageValid opens stage =
          ((items stage).2 && !(plainWords (items stage).1).isEmpty) := by
        rw [stageValid, success, Bool.and_true]
      unfold parsed at args
      rw [args, valid, Bool.true_and]
      unfold parsed taskOf
      rw [args]
      split <;> rfl

end Stages

section Guarantee

variable {opens : Nat → Bool} {descriptors : DescriptorTable Descriptor}
variable {tokens stage : List (List UInt8)} {start stop : Nat}

/-- A redirection symbol is not followed by an operand. -/
def Malformed (stage : List (List UInt8)) : Prop :=
  ∃ front symbol rest, stage = front ++ symbol :: rest ∧
    (symbol = outSymbol ∨ symbol = inSymbol) ∧ ¬∃ next ∈ rest.head?, IsOperand next

theorem malformed_cons {symbol : List UInt8} {rest : List (List UInt8)} :
    Malformed (symbol :: rest) ↔
      ((symbol = outSymbol ∨ symbol = inSymbol) ∧ ¬∃ next ∈ rest.head?, IsOperand next) ∨
        Malformed rest := by
  constructor
  · intro ⟨front, found, behind, split, isSymbol, missing⟩
    cases front with
    | nil =>
        cases split
        exact Or.inl ⟨isSymbol, missing⟩
    | cons first front =>
        cases split
        exact Or.inr ⟨front, found, behind, rfl, isSymbol, missing⟩
  · intro either
    rcases either with ⟨isSymbol, missing⟩ | ⟨front, found, behind, rfl, isSymbol, missing⟩
    · exact ⟨[], symbol, rest, rfl, isSymbol, missing⟩
    · exact ⟨symbol :: front, found, behind, rfl, isSymbol, missing⟩

theorem not_malformed_nil : ¬Malformed [] := by
  intro ⟨front, symbol, rest, split, _⟩
  cases (List.append_eq_nil_iff.mp split.symm).2

/-- The parts of a stage are those of its grammar. -/
theorem items_complete (stage : List (List UInt8)) : (items stage).2 = true ↔ ¬Malformed stage := by
  fun_induction items stage with
  | case1 => exact iff_of_true rfl not_malformed_nil
  | case2 token plain =>
      apply iff_of_true rfl
      rw [malformed_cons]
      intro either
      rcases either with ⟨out | input, _⟩ | rest
      · exact plain.1 out
      · exact plain.2 input
      · exact not_malformed_nil rest
  | case3 token symbol =>
      apply iff_of_false Bool.false_ne_true
      rw [malformed_cons, not_not]
      apply Or.inl
      refine ⟨?_, by simp⟩
      by_cases out : token = outSymbol
      · exact Or.inl out
      · exact Or.inr (not_not.mp fun other => symbol ⟨out, other⟩)
  | case4 token next rest plain inductionHypothesis =>
      rw [malformed_cons, inductionHypothesis]
      constructor
      · intro fine either
        rcases either with ⟨out | input, _⟩ | rest
        · exact plain.1 out
        · exact plain.2 input
        · exact fine rest
      · intro fine rest
        exact fine (Or.inr rest)
  | case5 token next rest symbol operand inductionHypothesis =>
      rw [malformed_cons, malformed_cons, inductionHypothesis]
      constructor
      · intro fine either
        rcases either with ⟨_, missing⟩ | ⟨out | input, _⟩ | rest
        · exact missing ⟨next, rfl, operand⟩
        · exact operand.2.1 out
        · exact operand.2.2 input
        · exact fine rest
      · intro fine rest
        exact fine (Or.inr (Or.inr rest))
  | case6 token next rest symbol operand =>
      apply iff_of_false Bool.false_ne_true
      rw [malformed_cons, not_not]
      apply Or.inl
      constructor
      · by_cases out : token = outSymbol
        · exact Or.inl out
        · exact Or.inr (not_not.mp fun other => symbol ⟨out, other⟩)
      · intro ⟨found, isNext, isOperand⟩
        cases isNext
        exact operand isOperand

/-- What `tokens_to_task` is to do: it rejects a stage in which an operand is missing, a
file cannot be opened or no word remains; otherwise the task has the words as its
arguments, and the descriptors of the last redirections. -/
def ParsesStage (opens : Nat → Bool) (descriptors : DescriptorTable Descriptor)
    (tokens : List (List UInt8)) (start stop : Nat) : Prop :=
  let stage := rangeOf tokens start stop
  let parts := (items stage).1
  ∃ result after, tokensToTask opens descriptors tokens start stop = .ok (result, after) ∧
    (result = none ↔
      Malformed stage ∨ inputsOpen opens 0 parts = false ∨
        outputsOpen opens 0 parts = false ∨ plainWords parts = []) ∧
      ∀ task ∈ result,
        task.args = (plainWords parts).map some ++ [none] ∧
          task.argsLen = (plainWords parts).length ∧
            RefersTo after task.redirectIn false (inputs parts).getLast? ∧
              RefersTo after task.redirectOut true (outputs parts).getLast?

/-- `tokens_to_task` does so if it opens every file that is named by a `>`, or has
another reason to reject the stage. -/
theorem tokens_to_task_parses_iff (opens : Nat → Bool)
    (descriptors : DescriptorTable Descriptor) (tokens : List (List UInt8))
    (start stop : Nat) (inside : stop ≤ tokens.length) :
    ParsesStage opens descriptors tokens start stop ↔
      outputsOpen opens 0 (items (rangeOf tokens start stop)).1 = true ∨
        Malformed (rangeOf tokens start stop) ∨
          inputsOpen opens 0 (items (rangeOf tokens start stop)).1 = false ∨
            plainWords (items (rangeOf tokens start stop)).1 = [] := by
  have run := @tokensToTask_eq opens descriptors tokens start stop inside
  unfold ParsesStage
  dsimp only
  rw [run]
  generalize rangeOf tokens start stop = stage
  have rejected : stageValid opens stage = false ↔
      Malformed stage ∨ inputsOpen opens 0 (items stage).1 = false ∨
        plainWords (items stage).1 = [] := by
    have complete := items_complete stage
    rw [stageValid, Bool.and_eq_false_iff, Bool.and_eq_false_iff, Bool.not_eq_false',
      List.isEmpty_iff, or_assoc, ← Bool.not_eq_true (items stage).2, complete, not_not]
  constructor
  · intro ⟨result, after, returned, decides, _⟩
    rw [Except.ok.injEq, Prod.mk.injEq] at returned
    by_cases valid : stageValid opens stage = true
    · apply Or.inl
      rw [if_pos valid] at returned
      by_contra closed
      have none := decides.mpr (Or.inr (Or.inr (Or.inl (Bool.eq_false_iff.mpr closed))))
      rw [none] at returned
      cases returned.1
    · exact Or.inr (rejected.mp (Bool.eq_false_iff.mpr valid))
  · intro condition
    by_cases valid : stageValid opens stage = true
    · have accepted := mt rejected.mpr (by rw [valid]; exact Bool.true_eq_false.mp)
      have opened : outputsOpen opens 0 (items stage).1 = true := condition.resolve_right accepted
      rcases not_or.mp accepted with ⟨_, others⟩
      rcases not_or.mp others with ⟨inputsFound, words⟩
      have success : inputsOpen opens 0 (items stage).1 = true := Bool.not_eq_false _ ▸ inputsFound
      have args := @parsed_args opens descriptors stage success
      have complete := run_complete opens (items stage).1 { descriptors := descriptors }
      have redirects := @run_redirects opens (items stage).1
        { descriptors := descriptors } none none (complete.trans success) rfl rfl
      rw [lastOutput_of_open opened] at redirects
      refine ⟨_, _, rfl, ?_, ?_⟩
      · rw [if_pos valid]
        apply iff_of_false (Option.some_ne_none _)
        intro either
        rcases either with bad | closed | closed | none
        · exact accepted (Or.inl bad)
        · exact accepted (Or.inr (Or.inl closed))
        · rw [opened] at closed
          cases closed
        · exact words none
      · intro task isTask
        rw [if_pos valid] at isTask
        cases isTask
        refine ⟨?_, ?_, ?_, ?_⟩
        · exact congrArg (fun args => args.map some ++ [none]) args
        · exact congrArg List.length args
        · have reads := redirects.1
          rw [Option.or_none] at reads
          exact reads
        · have writes := redirects.2
          rw [Option.or_none] at writes
          cases last : (outputs (items stage).1).getLast? with
          | none =>
              rw [last] at writes
              exact writes
          | some name =>
              rw [last] at writes
              exact writes
    · refine ⟨_, _, rfl, ?_, ?_⟩
      · rw [if_neg valid]
        apply iff_of_true rfl
        rcases rejected.mp (Bool.eq_false_iff.mpr valid) with bad | closed | none
        · exact Or.inl bad
        · exact Or.inr (Or.inl closed)
        · exact Or.inr (Or.inr (Or.inr none))
      · intro task isTask
        rw [if_neg valid] at isTask
        cases isTask

/-- `a < b > c`, with files that open. -/
theorem tokens_to_task_parses_iff_files :
    ParsesStage (fun _ => true) ⟨[]⟩ [[97], [60], [98], [62], [99]] 0 5 :=
  (tokens_to_task_parses_iff (fun _ => true) ⟨[]⟩ [[97], [60], [98], [62], [99]] 0 5
    (by decide)).mpr (Or.inl (by decide))

/-- `a > b` is accepted although the file cannot be opened. -/
theorem tokens_to_task_accepts : ¬ParsesStage (fun _ => false) ⟨[]⟩ [[97], [62], [98]] 0 3 := by
  intro ⟨result, after, returned, decides, _⟩
  have run : (tokensToTask (fun _ => false) ⟨[]⟩ [[97], [62], [98]] 0 3).map
      (fun r => r.1.isSome) = .ok true := by decide
  rw [returned] at run
  have none : result = .none := decides.mpr (Or.inr (Or.inr (Or.inl (by decide))))
  rw [none] at run
  cases run

end Guarantee

end CS162.HwShell
