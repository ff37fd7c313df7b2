import CS162.Lib.Atoi
import CS162.Lib.Random
import CS162.Lib.Strtok

/-!
# The options of the kernel

`parse_options` of `threads/init.c`.
-/

namespace CS162.Threads

open CS162.Foundation
open CS162.Lib

/-- Which parts the kernel is built with. -/
structure Build where
  filesys : Bool
  vm : Bool
  userprog : Bool

/-- `enum sched_policy` -/
inductive SchedPolicy where
  | fifo
  | prio
  | fair
  | mlfqs
  deriving DecidableEq, Repr

/-- `enum shutdown_type` -/
inductive ShutdownType where
  | none
  | powerOff
  | reboot
  deriving DecidableEq, Repr

/-- The variables that the options set. -/
structure Settings where
  shutdown : ShutdownType := .none
  formatFilesys : Bool := false
  filesysBdevName : Option (List UInt8) := .none
  scratchBdevName : Option (List UInt8) := .none
  swapBdevName : Option (List UInt8) := .none
  userPageLimit : Nat := sizeMax
  schedulerFlags : SchedPolicy → Bool := fun _ => false
  activeSchedPolicy : SchedPolicy := .fifo
  random : Random

/-- Why `parse_options` does not return. -/
inductive OptionsFault where
  /-- `usage` powers the machine off. -/
  | usage
  | unknownOption (name : List UInt8)
  | unknownScheduler (value : List UInt8)
  | tooManySchedulers
  | unreachable
  /-- A null pointer as a string. -/
  | nullString
  /-- A number that is no `int`. -/
  | overflow
  /-- A string without an end. -/
  | outside

/-- The name and the value that the two calls of `strtok_r` give. -/
def splitOption (option : List UInt8) : Except OptionsFault (List UInt8 × Option (List UInt8)) :=
  match strtokR ⟨option ++ [0], 0⟩ (some 0) (textBytes "=") with
  | .none => .error .outside
  | some (st, name) =>
      match strtokR st .none [] with
      | .none => .error .outside
      | some (st, value) =>
          match name with
          | .none => .error .nullString
          | some name =>
              .ok (stringFrom st.buffer name, value.map (stringFrom st.buffer))

/-- `atoi (value)` -/
def atoiValue : Option (List UInt8) → Except OptionsFault Int
  | .none => .error .nullString
  | some value => (atoi value).elim (.error .overflow) .ok

/-- The comparisons of the value of `-sched`. -/
def schedulerOf : Option (List UInt8) → Except OptionsFault SchedPolicy
  | .none => .error .nullString
  | some value =>
      if value = textBytes "fifo" then .ok .fifo
      else if value = textBytes "prio" then .ok .prio
      else if value = textBytes "fair" then .ok .fair
      else if value = textBytes "mlfqs" then .ok .mlfqs
      else .error (.unknownScheduler value)

/-- What an option does. -/
def parseOption (build : Build) (settings : Settings) (option : List UInt8) :
    Except OptionsFault Settings := do
  let (name, value) ← splitOption option
  if name = textBytes "-h" then .error .usage
  else if name = textBytes "-q" then .ok { settings with shutdown := .powerOff }
  else if name = textBytes "-r" then .ok { settings with shutdown := .reboot }
  else if build.filesys ∧ name = textBytes "-f" then
    .ok { settings with formatFilesys := true }
  else if build.filesys ∧ name = textBytes "-filesys" then
    .ok { settings with filesysBdevName := value }
  else if build.filesys ∧ name = textBytes "-scratch" then
    .ok { settings with scratchBdevName := value }
  else if (build.filesys ∧ build.vm) ∧ name = textBytes "-swap" then
    .ok { settings with swapBdevName := value }
  else if name = textBytes "-rs" then do
    let seed ← atoiValue value
    .ok { settings with random := randomInit (toUnsigned seed) }
  else if name = textBytes "-sched" then do
    let policy ← schedulerOf value
    .ok { settings with
      schedulerFlags := fun other =>
        if other = policy then true else settings.schedulerFlags other }
  else if build.userprog ∧ name = textBytes "-ul" then do
    let limit ← atoiValue value
    .ok { settings with userPageLimit := toUnsigned limit }
  else .error (.unknownOption name)

/-- The first character is `-`. -/
def isOption (arg : List UInt8) : Bool := arg.head? == some 45

/-- The loop over the options, and the arguments behind them. -/
def parseLoop (build : Build) (settings : Settings) :
    List (List UInt8) → Except OptionsFault (Settings × List (List UInt8))
  | [] => .ok (settings, [])
  | arg :: argv =>
      if isOption arg then do
        let settings ← parseOption build settings arg
        parseLoop build settings argv
      else .ok (settings, arg :: argv)

/-- The scheduler that the flags ask for. -/
def choosePolicy (flags : SchedPolicy → Bool) : Except OptionsFault SchedPolicy :=
  let schedFlagsSet := [SchedPolicy.fifo, .prio, .fair, .mlfqs].countP flags
  if schedFlagsSet = 0 then .ok .fifo
  else if schedFlagsSet > 1 then .error .tooManySchedulers
  else if flags .fifo then .ok .fifo
  else if flags .prio then .ok .prio
  else if flags .fair then .ok .fair
  else if flags .mlfqs then .ok .mlfqs
  else .error .unreachable

/-- `parse_options`, with the time that `rtc_get_time` gives. -/
def parseOptions (build : Build) (settings : Settings) (argv : List (List UInt8))
    (time : Nat) : Except OptionsFault (Settings × List (List UInt8)) := do
  let (settings, rest) ← parseLoop build settings argv
  let policy ← choosePolicy settings.schedulerFlags
  return ({ settings with activeSchedPolicy := policy, random := randomInit time }, rest)

/-! ## Boots with a seed -/

/-- The options give a seed. -/
def GivesSeed (argv : List (List UInt8)) (seed : Int) : Prop :=
  ∃ text, textBytes "-rs=" ++ text ∈ argv.takeWhile isOption ∧ atoi text = some seed

/-- Two boots with these options and any two times have the generator that the seed
gives, and read the same bytes from it. -/
def Reproducible (build : Build) (settings : Settings) (argv : List (List UInt8)) : Prop :=
  ∀ seed, GivesSeed argv seed → ∀ time time' first second,
    parseOptions build settings argv time = .ok first →
    parseOptions build settings argv time' = .ok second →
      first.1.random = second.1.random ∧
      first.1.random = randomInit (toUnsigned seed) ∧
      ∀ sizes, randomOutputs first.1.random sizes = randomOutputs second.1.random sizes

section Boots

variable {build : Build} {settings : Settings} {argv : List (List UInt8)} {time : Nat}

/-- The clock decides only about the generator. -/
theorem parseOptions_time {result : Settings × List (List UInt8)}
    (returns : parseOptions build settings argv time = .ok result) (time' : Nat) :
    ∃ other, parseOptions build settings argv time' = .ok other ∧
      other.1.random = randomInit time' := by
  rcases bind_eq_ok.mp returns with ⟨⟨parsed, rest⟩, loop, returns⟩
  rcases bind_eq_ok.mp returns with ⟨policy, chosen, _⟩
  refine ⟨({ parsed with activeSchedPolicy := policy, random := randomInit time' }, rest), ?_, rfl⟩
  exact bind_eq_ok.mpr ⟨_, loop, bind_eq_ok.mpr ⟨policy, chosen, rfl⟩⟩

/-- Whatever the options are, the generator is that of the clock, so that no seed makes
boots reproducible. -/
theorem parse_options_not_reproducible (build : Build) (settings : Settings)
    (argv : List (List UInt8)) (seed : Int) (given : GivesSeed argv seed) (time : Nat)
    (result : Settings × List (List UInt8))
    (returns : parseOptions build settings argv time = .ok result) :
    (∀ time', ∃ other, parseOptions build settings argv time' = .ok other ∧
      other.1.random = randomInit time') ∧ ¬Reproducible build settings argv := by
  have always := parseOptions_time returns
  refine ⟨always, fun reproducible => ?_⟩
  rcases always 2678400 with ⟨first, firstReturns, firstRandom⟩
  rcases always 2678401 with ⟨second, secondReturns, secondRandom⟩
  have same := (reproducible seed given 2678400 2678401 first second firstReturns secondReturns).1
  rw [firstRandom, secondRandom] at same
  exact randomInit_clocks_ne same

/-- The variables before the options are parsed. -/
def staticSettings : Settings where
  random := ⟨Vector.replicate 256 0, 0, 0, false⟩

/-- The options `-q -rs=5`, and an action. -/
def seedFive : List (List UInt8) := [textBytes "-q", textBytes "-rs=" ++ [53], textBytes "run"]

theorem seedFive_givesSeed : GivesSeed seedFive 5 := ⟨[53], by decide +kernel, by decide⟩

theorem seedFive_returns : ∃ result,
      parseOptions ⟨true, true, true⟩ staticSettings seedFive 2678400 = .ok result := by
  have succeeds : (parseOptions ⟨true, true, true⟩ staticSettings seedFive
      2678400).isOk = true := by
    decide +kernel
  cases run : parseOptions ⟨true, true, true⟩ staticSettings seedFive 2678400 with
  | error fault =>
      rw [run] at succeeds
      cases succeeds
  | ok result => exact ⟨result, rfl⟩

theorem parse_options_not_reproducible_seedFive :
    (∀ time', ∃ other, parseOptions ⟨true, true, true⟩ staticSettings seedFive time' =
      .ok other ∧ other.1.random = randomInit time') ∧
      ¬Reproducible ⟨true, true, true⟩ staticSettings seedFive := by
  rcases seedFive_returns with ⟨result, run⟩
  exact parse_options_not_reproducible ⟨true, true, true⟩ staticSettings seedFive 5
    seedFive_givesSeed 2678400 result run

/-- With `-rs=5`, the two clocks give two generators. -/
theorem parse_options_seedFive :
    GivesSeed seedFive 5 ∧
      ¬Reproducible ⟨true, true, true⟩ staticSettings seedFive := by
  refine ⟨seedFive_givesSeed, fun reproducible => ?_⟩
  rcases seedFive_returns with ⟨result, run⟩
  rcases parseOptions_time run 2678400 with ⟨first, firstReturns, firstRandom⟩
  rcases parseOptions_time run 2678401 with ⟨second, secondReturns, secondRandom⟩
  have same := (reproducible 5 seedFive_givesSeed 2678400 2678401 first second firstReturns
    secondReturns).1
  rw [firstRandom, secondRandom] at same
  exact randomInit_clocks_ne same

end Boots

end CS162.Threads
