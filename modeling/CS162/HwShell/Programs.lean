import CS162.HwShell.Tasks

/-!
# Programs and built-in commands

`find_file_path`, which looks for a program in the directories of `PATH`, and the table
of the commands that the shell executes itself.
-/

namespace CS162.HwShell

/-- `:`. -/
def pathDelimiter : UInt8 := 58

/-- What the calls of `strtok_r` return: the parts between the delimiters that are not
empty. -/
def pathDirectories : List UInt8 → List UInt8 → List (List UInt8)
  | part, [] => if part.isEmpty then [] else [part]
  | part, c :: rest =>
      if c = pathDelimiter then
        if part.isEmpty then pathDirectories [] rest
        else part :: pathDirectories [] rest
      else pathDirectories (part ++ [c]) rest

/-- A buffer of `find_file_path`: the size that is allocated and how many bytes are
written to it. -/
structure PathBuffer where
  size : Nat
  written : Nat
  deriving DecidableEq

/-- What `find_file_path` returns, and its buffers. -/
structure PathSearch where
  result : Option (List UInt8)
  buffers : List PathBuffer
  deriving DecidableEq

/-- Something is written behind a buffer. -/
def PathSearch.overruns (search : PathSearch) : Bool :=
  search.buffers.any fun buffer => buffer.size < buffer.written

/-- The loop over the directories. -/
def searchDirectories (access : List UInt8 → Bool) (filepath : List UInt8) :
    List (List UInt8) → List PathBuffer → PathSearch
  | [], buffers => ⟨none, buffers⟩
  | directory :: rest, buffers =>
      let path := directory ++ [47] ++ filepath
      let buffer : PathBuffer := ⟨directory.length + filepath.length + 1, path.length + 1⟩
      if access path then ⟨some path, buffers ++ [buffer]⟩
      else searchDirectories access filepath rest (buffers ++ [buffer])

/-- `find_file_path`, for a value of `PATH` that is set.  The length of a file path
that is null cannot be taken. -/
def findFilePath (pathenv : List UInt8) (access : List UInt8 → Bool)
    (filepath : Option (List UInt8)) : Except Crash PathSearch :=
  let directories := pathDirectories [] pathenv
  let buffer : PathBuffer := ⟨pathenv.length, pathenv.length + 1⟩
  match filepath with
  | none => if directories.isEmpty then .ok ⟨none, [buffer]⟩ else .error .nullArgument
  | some filepath => .ok (searchDirectories access filepath directories [buffer])

section Lookup

variable (pathenv : List UInt8) (access : List UInt8 → Bool) (filepath : List UInt8)

/-- The file in the first directory of `PATH` that has one. -/
def programIn : Option (List UInt8) :=
  (((pathenv.splitOn pathDelimiter).filter fun directory => !directory.isEmpty).map
    fun directory => directory ++ [47] ++ filepath).find? access

/-- `find_file_path` finds the file and stays inside its buffers. -/
def FindsProgram : Prop :=
  ∃ search, findFilePath pathenv access (some filepath) = .ok search ∧
    search.result = programIn pathenv access filepath ∧
      ∀ buffer ∈ search.buffers, buffer.written ≤ buffer.size

/-- The calls of `strtok_r` leave out the directories that are empty. -/
theorem pathDirectories_eq (part rest : List UInt8) :
    pathDirectories part rest =
      (List.splitOnPPrepend (· == pathDelimiter) rest part.reverse).filter
        fun directory => !directory.isEmpty := by
  induction rest generalizing part with
  | nil =>
      rw [List.splitOnPPrepend_nil, List.reverse_reverse, pathDirectories]
      cases part <;> rfl
  | cons c rest inductionHypothesis =>
      rw [pathDirectories]
      by_cases delimiter : c = pathDelimiter
      · rw [if_pos delimiter, List.splitOnPPrepend_cons_pos (by simp [delimiter]),
          List.reverse_reverse, inductionHypothesis]
        cases part <;> rfl
      · rw [if_neg delimiter, List.splitOnPPrepend_cons_neg (by simp [delimiter]),
          inductionHypothesis, List.reverse_append]
        rfl

/-- The search returns the first path that exists, and every buffer is one byte too
short. -/
theorem searchDirectories_eq (directories : List (List UInt8)) (buffers : List PathBuffer)
    (short : ∀ buffer ∈ buffers, buffer.written = buffer.size + 1) :
    (searchDirectories access filepath directories buffers).result =
        (directories.map fun directory => directory ++ [47] ++ filepath).find? access ∧
      buffers <+: (searchDirectories access filepath directories buffers).buffers ∧
        ∀ buffer ∈ (searchDirectories access filepath directories buffers).buffers,
          buffer.written = buffer.size + 1 := by
  induction directories generalizing buffers with
  | nil => exact ⟨rfl, List.prefix_refl buffers, short⟩
  | cons directory directories inductionHypothesis =>
      have length : (directory ++ [47] ++ filepath).length =
          directory.length + filepath.length + 1 := by
        simp only [List.length_append, List.length_singleton]
        omega
      have more : ∀ buffer ∈ buffers ++
          [(⟨directory.length + filepath.length + 1,
            (directory ++ [47] ++ filepath).length + 1⟩ : PathBuffer)],
          buffer.written = buffer.size + 1 := by
        intro buffer member
        rcases List.mem_append.mp member with old | new
        · exact short buffer old
        · rw [List.mem_singleton.mp new, length]
      rw [searchDirectories, List.map_cons, List.find?_cons]
      cases found : access (directory ++ [47] ++ filepath) with
      | true => exact ⟨rfl, List.prefix_append buffers _, more⟩
      | false =>
          have later := inductionHypothesis _ more
          exact ⟨later.1, (List.prefix_append buffers _).trans later.2.1, later.2.2⟩

/-- What `find_file_path` returns, and that every buffer is one byte too short. -/
theorem findFilePath_result :
    ∃ search, findFilePath pathenv access (some filepath) = .ok search ∧
      search.result = programIn pathenv access filepath ∧
        (⟨pathenv.length, pathenv.length + 1⟩ : PathBuffer) ∈ search.buffers ∧
          ∀ buffer ∈ search.buffers, buffer.written = buffer.size + 1 := by
  have short : ∀ buffer ∈ [(⟨pathenv.length, pathenv.length + 1⟩ : PathBuffer)],
      buffer.written = buffer.size + 1 := by
    intro buffer member
    rw [List.mem_singleton.mp member]
  have search := searchDirectories_eq access filepath (pathDirectories [] pathenv) _ short
  refine ⟨_, rfl, ?_, search.2.1.subset List.mem_cons_self, search.2.2⟩
  rw [search.1, pathDirectories_eq]
  rfl

/-- `find_file_path` finds the right file, but writes one byte behind each of its
buffers. -/
theorem find_file_path_overruns :
    (∃ search, findFilePath pathenv access (some filepath) = .ok search ∧
        search.result = programIn pathenv access filepath ∧
          ∀ buffer ∈ search.buffers, buffer.written = buffer.size + 1) ∧
      ¬FindsProgram pathenv access filepath := by
  rcases findFilePath_result pathenv access filepath with
    ⟨search, returned, result, first, overruns⟩
  refine ⟨⟨search, returned, result, overruns⟩, ?_⟩
  intro ⟨found, returned', _, inside⟩
  rw [returned, Except.ok.injEq] at returned'
  rw [← returned'] at inside
  have room := inside _ first
  dsimp only at room
  omega

/-- `ls` is found in `/bin`, with one byte too much written. -/
theorem find_file_path_ls : ¬FindsProgram [47, 98, 105, 110] (fun _ => true) [108, 115] := by
  intro ⟨search, returned, _, inside⟩
  have buffers : (findFilePath [47, 98, 105, 110] (fun _ => true)
      (some [108, 115])).map PathSearch.buffers = .ok [⟨4, 5⟩, ⟨7, 8⟩] := by decide
  rw [returned, Except.map, Except.ok.injEq] at buffers
  rw [buffers] at inside
  have room := inside ⟨4, 5⟩ List.mem_cons_self
  exact absurd room (by decide)

end Lookup

/-- The built-in commands. -/
inductive Builtin where
  | help
  | exit
  | print
  | pwd
  | cd
  | parentFgPgid
  | fg
  | bg
  | fgPgid
  | bgPgid
  deriving DecidableEq, Repr

/-- `cmd_table`. -/
def cmdTable : List (List UInt8 × Builtin) :=
  [ -- ?
    ([63], .help),
    -- exit
    ([101, 120, 105, 116], .exit),
    -- cmdprint
    ([99, 109, 100, 112, 114, 105, 110, 116], .print),
    -- pwd
    ([112, 119, 100], .pwd),
    -- cd
    ([99, 100], .cd),
    -- pfgpgid
    ([112, 102, 103, 112, 103, 105, 100], .parentFgPgid),
    -- fg
    ([102, 103], .fg),
    -- bg
    ([98, 103], .bg),
    -- fgpgid
    ([102, 103, 112, 103, 105, 100], .fgPgid),
    -- bgpgid
    ([98, 103, 112, 103, 105, 100], .bgPgid)]

/-- `lookup`.  There may be no first token. -/
def lookup (cmd : Option (List UInt8)) : Option Builtin :=
  cmd.bind fun cmd => (cmdTable.find? (·.1 = cmd)).map Prod.snd

end CS162.HwShell
