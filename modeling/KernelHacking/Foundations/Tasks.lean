import KernelHacking.Foundations.FileOps

namespace KernelHacking
namespace FileOps

universe u

/-!
# Programs that take turns

Several user programs use one device, each through a file of its own or through
one that it shares with others.  A program either writes a text, retrying with
what is left until every byte has been reported as written, or reads until a
call returns zero.  A schedule names the task that takes the next turn.  In a
turn a task opens its file when that is not open yet, and makes one call
otherwise; a task that is through lets its turns pass.
-/

/-- What a task does with its file. -/
inductive Program where
  | write (text : List UInt8) (nonempty : text ≠ [])
  | read (room : Nat) (positive : 0 < room)

/-- `failed` is the end of a task whose call reported an error or did not return. -/
inductive Phase where
  | running
  | ended
  | failed
  deriving DecidableEq, Repr

/-- How many calls a task has made, what it has left to write and what it was given. -/
structure Progress where
  calls : Nat
  rest : List UInt8
  data : List UInt8
  phase : Phase

namespace Program

def start : Program → Progress
  | .write text _ => { calls := 0, rest := text, data := [], phase := .running }
  | .read _ _ => { calls := 0, rest := [], data := [], phase := .running }

/-- The next call of a running task. -/
def call {File : Type*} (program : Program) (file : File) (progress : Progress) : Call File :=
  match program with
  | .write _ _ => .write file progress.rest progress.rest.length
  | .read room _ => .read file room room

/-- What a task makes of the answer to its call. -/
def advance (program : Program) (progress : Progress) : Option Answer → Progress
  | none => { progress with calls := progress.calls + 1, phase := .failed }
  | some answer =>
      match program with
      | .write _ _ =>
          let rest := progress.rest.drop answer.ret.toNat
          { progress with
            calls := progress.calls + 1
            rest := rest
            phase := if rest = [] then .ended else .running }
      | .read _ _ =>
          if answer.ret ≤ 0 then
            { progress with
              calls := progress.calls + 1
              phase := if answer.ret = 0 then .ended else .failed }
          else
            { progress with
              calls := progress.calls + 1
              data := progress.data ++ answer.data.take answer.ret.toNat }

end Program

/-- A program and the file that it uses. -/
structure Job (File : Type*) where
  program : Program
  file : File

/-- The device with its files, and all tasks. -/
structure World (Dev : Type u) (File Task : Type*) where
  session : Session Dev File
  progress : Task → Progress

section Turns

variable {Dev : Type u} {File Task : Type*} [DecidableEq File] [DecidableEq Task]

/-- No task has taken a turn yet. -/
def World.start (jobs : Task → Job File) (session : Session Dev File) : World Dev File Task where
  session := session
  progress task := (jobs task).program.start

/-- The tasks taking turns.  The output says whether the turn was a call. -/
def tasks (ops : FileOps Dev) (jobs : Task → Job File) :
    Machine (World Dev File Task) Task Bool where
  step w task :=
    let progress := w.progress task
    let job := jobs task
    if progress.phase = .running then
      match w.session.fpos job.file with
      | none => ({ w with session := (ops.machine File).next w.session (.openFile job.file) }, false)
      | some _ =>
          let (session, answer) :=
            (ops.machine File).step w.session (job.program.call job.file progress)
          ({ session := session
             progress := Function.update w.progress task (job.program.advance progress answer) },
            true)
    else (w, false)

variable {ops : FileOps Dev} {jobs : Task → Job File} {w : World Dev File Task} {task : Task}

/-- A task that is through changes nothing. -/
theorem step_through (through : (w.progress task).phase ≠ .running) :
    (tasks ops jobs).step w task = (w, false) :=
  if_neg through

/-- The first turn of a task whose file nobody has opened. -/
theorem step_open (passive : ops.Passive) (running : (w.progress task).phase = .running)
    (closed : w.session.fpos (jobs task).file = none) :
    (tasks ops jobs).step w task =
      ({ w with
         session :=
          { w.session with fpos := Function.update w.session.fpos (jobs task).file (some 0) } },
        false) := by
  simp only [tasks, if_pos running, closed, Machine.next, machine, passive.openFile, if_true]

/-- A turn of a running task whose file is open. -/
theorem step_call (running : (w.progress task).phase = .running) {fpos : Int}
    (opened : w.session.fpos (jobs task).file = some fpos) :
    (tasks ops jobs).step w task =
      let call := (jobs task).program.call (jobs task).file (w.progress task)
      ({ session := (ops.machine File).next w.session call
         progress := Function.update w.progress task
          ((jobs task).program.advance (w.progress task) ((ops.machine File).out w.session call)) },
        true) := by
  simp only [tasks, if_pos running, opened, Machine.next, Machine.out]

end Turns

end FileOps
end KernelHacking
