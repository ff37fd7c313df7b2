import CS162.Userprog.Load

/-!
# Starting a process

`process_execute` and `start_process` of `userprog/process.c` up to the jump to user
space or the call of `thread_exit`.
-/

namespace CS162.Userprog

open CS162.Foundation CS162.Filesys Machine

/-- A process that has been loaded: its page directory and its entry point. -/
structure Started where
  pagedir : Word
  entry : Word

/-- How `process_execute` ends: it returns `TID_ERROR`, or the new thread, given by
its page, calls `thread_exit` or goes to user space. -/
inductive ExecResult where
  | refused (st : LoadState)
  | failed (thread : Word) (st : LoadState)
  | started (thread : Word) (process : Started) (st : LoadState)

namespace LoadState

/-- The process control block is freed. -/
def freePcb (st : LoadState) : LoadState := { st with blocks := st.blocks.erase .pcb }

/-- The end of `start_process`: the page with the name is freed. -/
def finish (st : LoadState) (thread fileName : Word) (process : Option Started) :
    Option ExecResult :=
  (st.pallocFreePage fileName).map fun st =>
    match process with
    | none => .failed thread st
    | some process => .started thread process st

/-- `start_process`; `fileName` is the page that holds the name. -/
def startProcess (st : LoadState) (env : ExecEnv) (thread fileName : Word)
    (name : List UInt8) : Option ExecResult :=
  if env.mallocPcb then
    (LoadState.load { st with blocks := .pcb :: st.blocks } env name).bind
      fun loaded =>
        match loaded.pagedir, loaded.entry with
        | some pd, some entry =>
            loaded.state.finish thread fileName (some ⟨pd, entry⟩)
        | _, _ => loaded.state.freePcb.finish thread fileName none
  else st.finish thread fileName none

/-- `process_execute`; `strlcpy` cuts the name to fit in a page. -/
def processExecute (st : LoadState) (env : ExecEnv) (name : List UInt8) : Option ExecResult :=
  match st.pallocGetPage env false with
  | (none, st) => some (.refused st)
  | (some fnCopy, st) =>
      match st.pallocGetPage env true with
      | (none, st) => (st.pallocFreePage fnCopy).map .refused
      | (some thread, st) =>
          st.startProcess env thread fnCopy (name.take (pgSize - 1))

end LoadState

end CS162.Userprog
