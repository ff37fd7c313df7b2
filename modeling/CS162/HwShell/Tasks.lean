import CS162.Foundation.DescriptorTable
import CS162.Foundation.Calculations

/-!
# The stages of a pipeline

`tokens_to_task` of `shell.c`, and what it reads in the tokens of a stage.  Memory is
not short.
-/

namespace CS162.HwShell

open CS162.Foundation

/-- What a descriptor of the shell refers to. -/
inductive OpenFile where
  /-- What the shell was started with. -/
  | inherited (number : Nat)
  | opened (name : List UInt8) (write : Bool)
  | pipeRead (pipe : Nat)
  | pipeWrite (pipe : Nat)
  deriving DecidableEq

/-- A descriptor with its flag `FD_CLOEXEC`. -/
structure Descriptor where
  file : OpenFile
  cloexec : Bool
  deriving DecidableEq

/-- What the shell crashes of. -/
inductive Crash where
  /-- A store behind the array `args`. -/
  | argsBounds
  /-- A store behind the array `all_com_tasks`. -/
  | tasksBounds
  /-- A token is null where it is compared. -/
  | nullToken
  /-- `com_task` is null where it is used. -/
  | nullTask
  /-- `args` is used at the index −1. -/
  | negativeIndex
  /-- An entry of `args` or the name of a program is null where it is used. -/
  | nullArgument
  /-- `PATH` is not set where its length is taken. -/
  | nullPath
  /-- A store behind a buffer of `find_file_path` has done harm. -/
  | pathBounds
  deriving DecidableEq, Repr

/-- `|`. -/
def pipeSymbol : List UInt8 := [124]

/-- `>`. -/
def outSymbol : List UInt8 := [62]

/-- `<`. -/
def inSymbol : List UInt8 := [60]

/-- What may follow a redirection symbol. -/
def IsOperand (token : List UInt8) : Prop :=
  token ≠ pipeSymbol ∧ token ≠ outSymbol ∧ token ≠ inSymbol

instance (token : List UInt8) : Decidable (IsOperand token) := inferInstanceAs (Decidable (_ ∧ _))

/-- `struct command_task`. -/
structure CommandTask where
  pid : Int := -1
  pgid : Int := -1
  redirectIn : Int := -1
  redirectOut : Int := -1
  args : List (Option (List UInt8)) := []
  argsLen : Nat := 0
  deriving DecidableEq

/-- The loop of `tokens_to_task`: the descriptors of the shell, what is in the task
so far, and how many files it has tried to open. -/
structure Parsing where
  descriptors : DescriptorTable Descriptor
  args : List (List UInt8) := []
  redirectIn : Int := -1
  redirectOut : Int := -1
  opens : Nat := 0

namespace Parsing

/-- `com_task->args[com_task->args_len]` is set. -/
def word (p : Parsing) (token : List UInt8) : Parsing := { p with args := p.args ++ [token] }

/-- `open` with `O_WRONLY|O_CREAT|O_CLOEXEC`. -/
def output (p : Parsing) (success : Bool) (name : List UInt8) : Parsing :=
  if success then
    let (number, descriptors) := p.descriptors.allocate ⟨.opened name true, true⟩
    { p with
      descriptors := descriptors
      redirectOut := number
      opens := p.opens + 1 }
  else { p with redirectOut := -1, opens := p.opens + 1 }

/-- `open` with `O_RDONLY|O_CLOEXEC`. -/
def input (p : Parsing) (success : Bool) (name : List UInt8) : Parsing :=
  if success then
    let (number, descriptors) := p.descriptors.allocate ⟨.opened name false, true⟩
    { p with
      descriptors := descriptors
      redirectIn := number
      opens := p.opens + 1 }
  else { p with redirectIn := -1, opens := p.opens + 1 }

end Parsing

/-- The token behind a redirection symbol, if it is in the range and may be there. -/
def operandAt (tokens : List (List UInt8)) (stop i : Nat) : Except Crash (Option (List UInt8)) :=
  if i + 1 < stop then
    match tokens[i + 1]? with
    | none => .error .nullToken
    | some next => .ok (if IsOperand next then some next else none)
  else .ok none

/-- The loop of `tokens_to_task` and whether it gets to the end of the range; the
array `args` has room for a number of entries. -/
def parseLoop (opens : Nat → Bool) (tokens : List (List UInt8)) (stop capacity : Nat) :
    Nat → Nat → Parsing → Except Crash (Parsing × Bool)
  | 0, _, p => .ok (p, true)
  | rounds + 1, i, p =>
      if i < stop then
        match tokens[i]? with
        | none => .error .nullToken
        | some token =>
            if token ≠ outSymbol ∧ token ≠ inSymbol then
              if p.args.length < capacity then
                parseLoop opens tokens stop capacity rounds (i + 1) (p.word token)
              else .error .argsBounds
            else do
              match ← operandAt tokens stop i with
              | none => return (p, false)
              | some name =>
                  if token = outSymbol then
                    parseLoop opens tokens stop capacity rounds (i + 2)
                      (p.output (opens p.opens) name)
                  else if opens p.opens then
                    parseLoop opens tokens stop capacity rounds (i + 2) (p.input true name)
                  else return (p.input false name, false)
      else .ok (p, true)

/-- `tokens_to_task`: the task, or nothing, and the descriptors that are open
afterwards. -/
def tokensToTask (opens : Nat → Bool) (descriptors : DescriptorTable Descriptor)
    (tokens : List (List UInt8)) (start stop : Nat) :
    Except Crash (Option CommandTask × DescriptorTable Descriptor) := do
  let (p, complete) ← parseLoop opens tokens stop (stop - start) (stop - start) start
    { descriptors := descriptors }
  if complete && !p.args.isEmpty then
    return (some
      { redirectIn := p.redirectIn
        redirectOut := p.redirectOut
        args := p.args.map some ++ [none]
        argsLen := p.args.length }, p.descriptors)
  else return (none, p.descriptors)

/-- `find_symbol_from_tokens`. -/
def findSymbolFromTokens (tokens : List (List UInt8)) (start : Nat)
    (symbol : List UInt8) : Option Nat :=
  ((tokens.drop start).findIdx? (· = symbol)).map (start + ·)

/-- The tokens of a range. -/
def rangeOf (tokens : List (List UInt8)) (start stop : Nat) : List (List UInt8) :=
  (tokens.take stop).drop start

/-- A part of a stage. -/
inductive Item where
  | word (token : List UInt8)
  | input (name : List UInt8)
  | output (name : List UInt8)
  deriving DecidableEq

/-- The parts of a stage up to the first redirection symbol without an operand, and
whether there is no such symbol. -/
def items : List (List UInt8) → List Item × Bool
  | [] => ([], true)
  | [token] =>
      if token ≠ outSymbol ∧ token ≠ inSymbol then ([.word token], true)
      else ([], false)
  | token :: next :: rest =>
      if token ≠ outSymbol ∧ token ≠ inSymbol then
        (.word token :: (items (next :: rest)).1, (items (next :: rest)).2)
      else if IsOperand next then
        ((if token = outSymbol then .output next else .input next) ::
          (items rest).1, (items rest).2)
      else ([], false)

/-- The words of a stage without the redirections. -/
def plainWords (parts : List Item) : List (List UInt8) :=
  parts.filterMap fun
    | .word token => some token
    | _ => none

/-- The operands of `<` in a stage. -/
def inputs (parts : List Item) : List (List UInt8) :=
  parts.filterMap fun
    | .input name => some name
    | _ => none

/-- The operands of `>` in a stage. -/
def outputs (parts : List Item) : List (List UInt8) :=
  parts.filterMap fun
    | .output name => some name
    | _ => none

/-- Whether each `<` of a stage finds its file; the calls of `open` are numbered. -/
def inputsOpen (opens : Nat → Bool) : Nat → List Item → Bool
  | _, [] => true
  | n, .word _ :: rest => inputsOpen opens n rest
  | n, .output _ :: rest => inputsOpen opens (n + 1) rest
  | n, .input _ :: rest => opens n && inputsOpen opens (n + 1) rest

/-- A stage that is accepted: every redirection has its operand, every `<` finds its
file, and a word remains. -/
def stageValid (opens : Nat → Bool) (stage : List (List UInt8)) : Bool :=
  (items stage).2 && inputsOpen opens 0 (items stage).1 && !(plainWords (items stage).1).isEmpty

/-- What the loop makes of the parts of a stage. -/
def Parsing.run (opens : Nat → Bool) : List Item → Parsing → Parsing × Bool
  | [], p => (p, true)
  | .word token :: rest, p => run opens rest (p.word token)
  | .output name :: rest, p => run opens rest (p.output (opens p.opens) name)
  | .input name :: rest, p =>
      if opens p.opens then run opens rest (p.input true name)
      else (p.input false name, false)

end CS162.HwShell
