import KernelHacking.Foundations.Tasks
import KernelHacking.CharacterDevice.Driver

namespace KernelHacking
namespace CharacterDevice

open FileOps

/-!
# Writing and reading one byte

The setup script writes `abcdef` to the device with `echo -n`.  The driver takes
the last byte of what it is given and reports one byte, so the program comes
back with what is left, and stores the same byte once for each letter.  A
program that reads gets the byte once, because its first call moves the
position of its file away from the start for good.

Any number of such programs take turns here, call by call, from any state of
the device and of its files.
-/

section Turns

variable {File Task : Type*} [DecidableEq File] [DecidableEq Task]

/-- The driver under programs that take turns. -/
abbrev system (ahead : UInt8) (jobs : Task → Job File) :
    Machine (World Device File Task) Task Bool :=
  tasks (memoryFops ahead) jobs

/-- What one turn can come to. -/
inductive Turn (jobs : Task → Job File) (w : World Device File Task) (task : Task) :
    World Device File Task × Bool → Prop where
  | idle (through : (w.progress task).phase ≠ .running) : Turn jobs w task (w, false)
  | opens (running : (w.progress task).phase = .running)
      (closed : w.session.fpos (jobs task).file = none) :
      Turn jobs w task
        ({ w with
           session :=
            { w.session with fpos := Function.update w.session.fpos (jobs task).file (some 0) } },
          false)
  | writes (text : List UInt8) (nonempty : text ≠ [])
      (program : (jobs task).program = .write text nonempty)
      (running : (w.progress task).phase = .running)
      (opened : w.session.fpos (jobs task).file ≠ none) (device : Device)
      (stored : forall left : (w.progress task).rest ≠ [],
        device.value = (w.progress task).rest.getLast left) :
      Turn jobs w task
        ({ session := { w.session with device := device }
           progress := Function.update w.progress task
            { w.progress task with
              calls := (w.progress task).calls + 1
              rest := (w.progress task).rest.drop 1
              phase := if (w.progress task).rest.drop 1 = [] then .ended else .running } },
          true)
  | first (room : Nat) (positive : 0 < room) (program : (jobs task).program = .read room positive)
      (running : (w.progress task).phase = .running)
      (opened : w.session.fpos (jobs task).file = some 0) :
      Turn jobs w task
        ({ session :=
            { w.session with fpos := Function.update w.session.fpos (jobs task).file (some 1) }
           progress := Function.update w.progress task
            { w.progress task with
              calls := (w.progress task).calls + 1
              data := (w.progress task).data ++ [w.session.device.value] } },
          true)
  | last (room : Nat) (positive : 0 < room) (program : (jobs task).program = .read room positive)
      (running : (w.progress task).phase = .running) (fpos : Int)
      (opened : w.session.fpos (jobs task).file = some fpos) (away : fpos ≠ 0) :
      Turn jobs w task
        ({ w with
           progress := Function.update w.progress task
            { w.progress task with
              calls := (w.progress task).calls + 1
              phase := .ended } },
          true)

section Calls

variable {ahead : UInt8} {s : Session Device File} {file : File}

/-- A write leaves every position where it was. -/
theorem step_write {fpos : Int} (opened : s.fpos file = some fpos) (buf : List UInt8) :
    ((memoryFops ahead).machine File).step s (.write file buf buf.length) =
      ({ s with device := (memoryWrite ahead s.device buf buf.length fpos).device },
        some { ret := 1, stored := [0] }) := by
  have same : Function.update s.fpos file (some fpos) = s.fpos :=
    Function.update_eq_self_iff.mpr opened.symm
  rw [FileOps.step_write _ opened]
  simp only [memoryFops, Session.settle, memoryWrite, Reply.answer, copyFromUser_one_stored, same]

/-- The read at the start of a file. -/
theorem step_read_start (opened : s.fpos file = some 0) {room : Nat} (positive : 0 < room) :
    ((memoryFops ahead).machine File).step s (.read file room room) =
      ({ s with fpos := Function.update s.fpos file (some 1) },
        some { ret := 1, data := [s.device.value] }) := by
  rw [FileOps.step_read _ opened]
  have whole : min 1 room = 1 := Nat.min_eq_left positive
  simp only [memoryFops, Session.settle, memoryRead, if_true, Reply.answer, copyToUser, whole]
  rfl

/-- The read of a file that has moved. -/
theorem step_read_away (ahead : UInt8) {fpos : Int} (opened : s.fpos file = some fpos) (away : fpos ≠ 0)
    (room : Nat) :
    ∃ data, ((memoryFops ahead).machine File).step s (.read file room room) =
      (s, some { ret := 0, data := data }) := by
  have same : Function.update s.fpos file (some fpos) = s.fpos :=
    Function.update_eq_self_iff.mpr opened.symm
  refine ⟨bytesAt s.device.mem 0 (min 1 room), ?_⟩
  rw [FileOps.step_read _ opened]
  simp only [memoryFops, Session.settle, memoryRead, if_neg away, Reply.answer, copyToUser, same]

end Calls

/-- Every turn is one of the five. -/
theorem turn_step (ahead : UInt8) (jobs : Task → Job File) (w : World Device File Task)
    (task : Task) : Turn jobs w task ((system ahead jobs).step w task) := by
  by_cases running : (w.progress task).phase = .running
  · rcases opened : w.session.fpos (jobs task).file with _ | fpos
    · rw [step_open (memoryFops_passive ahead) running opened]
      exact .opens running opened
    · rw [step_call running opened]
      cases program : (jobs task).program with
      | write text nonempty =>
          have opens : w.session.fpos (jobs task).file ≠ none := by
            rw [opened]
            exact Option.some_ne_none fpos
          simp only [Program.call, Machine.next, Machine.out, step_write opened, Program.advance]
          exact .writes text nonempty program running opens _ fun left =>
            memoryWrite_value ahead w.session.device left fpos
      | read room positive =>
          by_cases start : fpos = 0
          · subst start
            simp only [Program.call, Machine.next, Machine.out, step_read_start opened positive,
              Program.advance]
            exact .first room positive program running opened
          · rcases step_read_away ahead opened start room with ⟨data, step⟩
            simp only [Program.call, Machine.next, Machine.out, step, Program.advance]
            exact .last room positive program running fpos opened start
  · rw [step_through running]
    exact .idle running

section Kept

variable {jobs : Task → Job File} {w : World Device File Task} {task other : Task}
  {outcome : World Device File Task × Bool}

/-- A turn changes the progress of the task that takes it, and no other. -/
theorem Turn.progress_of_ne (turn : Turn jobs w other outcome) (different : task ≠ other) :
    outcome.1.progress task = w.progress task := by
  cases turn with
  | idle through => rfl
  | opens running closed => rfl
  | writes text nonempty program running opened device stored =>
      exact Function.update_of_ne different _ _
  | first room positive program running opened => exact Function.update_of_ne different _ _
  | last room positive program running fpos opened away =>
      exact Function.update_of_ne different _ _

/-- The output of a turn says whether the task has made one more call. -/
theorem Turn.calls_own (turn : Turn jobs w task outcome) :
    (outcome.1.progress task).calls = (w.progress task).calls + outcome.2.toNat := by
  cases turn with
  | idle through => rfl
  | opens running closed => rfl
  | writes text nonempty program running opened device stored =>
      simp only [Function.update_self, Bool.toNat_true]
  | first room positive program running opened =>
      simp only [Function.update_self, Bool.toNat_true]
  | last room positive program running fpos opened away =>
      simp only [Function.update_self, Bool.toNat_true]

theorem Turn.progress_of_no_call (turn : Turn jobs w other outcome) (quiet : outcome.2 = false) :
    outcome.1.progress = w.progress := by
  cases turn with
  | idle through => rfl
  | opens running closed => rfl
  | writes text nonempty program running opened device stored => cases quiet
  | first room positive program running opened => cases quiet
  | last room positive program running fpos opened away => cases quiet

/-- A task that has made no call after a turn did not make one in it. -/
theorem Turn.of_calls_zero (turn : Turn jobs w other outcome)
    (uncalled : (outcome.1.progress task).calls = 0) :
    outcome.1.progress task = w.progress task ∧ (outcome.2 = true → task ≠ other) := by
  by_cases same : task = other
  · subst same
    have quiet : outcome.2 = false := by
      have calls := turn.calls_own
      rw [uncalled] at calls
      cases made : outcome.2 with
      | false => rfl
      | true =>
          rw [made] at calls
          exact absurd calls.symm (Nat.succ_ne_zero _)
    refine ⟨congrFun (turn.progress_of_no_call quiet) task, ?_⟩
    intro made
    exact Bool.noConfusion (quiet.symm.trans made)
  · exact ⟨turn.progress_of_ne same, fun _ => same⟩

/-- A task that is through stays as it is. -/
theorem Turn.progress_of_through (turn : Turn jobs w other outcome)
    (through : (w.progress task).phase ≠ .running) : outcome.1.progress task = w.progress task := by
  by_cases same : task = other
  · subst same
    cases turn with
    | idle through => rfl
    | opens running closed => rfl
    | writes text nonempty program running opened device stored => exact absurd running through
    | first room positive program running opened => exact absurd running through
    | last room positive program running fpos opened away => exact absurd running through
  · exact turn.progress_of_ne same

/-- A file that has moved away from its start stays where it is. -/
theorem Turn.fpos_of_away (turn : Turn jobs w other outcome) {file : File} {fpos : Int}
    (moved : w.session.fpos file = some fpos) (away : fpos ≠ 0) :
    outcome.1.session.fpos file = some fpos := by
  cases turn with
  | idle through => exact moved
  | opens running closed =>
      have different : file ≠ (jobs other).file := by
        rintro rfl
        exact Option.some_ne_none fpos (moved.symm.trans closed)
      exact (Function.update_of_ne different _ _).trans moved
  | writes text nonempty program running opened device stored => exact moved
  | first room positive program running opened =>
      have different : file ≠ (jobs other).file := by
        rintro rfl
        exact away (Option.some.inj (moved.symm.trans opened))
      exact (Function.update_of_ne different _ _).trans moved
  | last room positive program running fpos opened away => exact moved

/-- No turn closes a file. -/
theorem Turn.opened (turn : Turn jobs w other outcome) {file : File}
    (opened : w.session.fpos file ≠ none) : outcome.1.session.fpos file ≠ none := by
  have either : forall pos : Int,
      Function.update w.session.fpos (jobs other).file (some pos) file ≠ none := by
    intro pos
    by_cases same : file = (jobs other).file
    · rw [same, Function.update_self]
      exact Option.some_ne_none pos
    · rw [Function.update_of_ne same]
      exact opened
  cases turn with
  | idle through => exact opened
  | opens running closed => exact either 0
  | writes text nonempty program running opened' device stored => exact opened
  | first room positive program running opened' => exact either 1
  | last room positive program running fpos opened' away => exact opened

end Kept

/-! ## A program that writes -/

/-- A task has reported one byte of its text with each of its calls, and is
through after as many calls as the text has bytes. -/
structure Writing (text : List UInt8) (progress : Progress) : Prop where
  calls_le : progress.calls ≤ text.length
  rest : progress.rest = text.drop progress.calls
  phase : progress.phase = if progress.calls = text.length then .ended else .running

namespace Writing

variable {text : List UInt8} {progress : Progress}

theorem start {nonempty : text ≠ []} : Writing text (Program.write text nonempty).start where
  calls_le := Nat.zero_le _
  rest := rfl
  phase := by
    have positive := List.length_pos_iff.mpr nonempty
    rw [if_neg]
    · rfl
    · exact positive.ne

theorem calls_lt (writing : Writing text progress) (running : progress.phase = .running) :
    progress.calls < text.length := by
  refine lt_of_le_of_ne writing.calls_le ?_
  intro all
  rw [writing.phase, if_pos all] at running
  cases running

theorem ended (writing : Writing text progress) (through : progress.phase ≠ .running) :
    progress.phase = .ended := by
  rw [writing.phase] at through ⊢
  split_ifs at through ⊢
  · rfl
  · exact absurd rfl through

/-- What a running task still has to write ends like the whole text. -/
theorem getLast_rest (writing : Writing text progress) (running : progress.phase = .running)
    (nonempty : text ≠ []) :
    ∃ left : progress.rest ≠ [], progress.rest.getLast left = text.getLast nonempty := by
  have fewer := writing.calls_lt running
  have left : progress.rest ≠ [] := by
    rw [writing.rest, ne_eq, List.drop_eq_nil_iff]
    exact not_le.mpr fewer
  refine ⟨left, ?_⟩
  simp only [writing.rest, List.getLast_drop]

theorem succ (writing : Writing text progress) (running : progress.phase = .running) :
    Writing text
      { progress with
        calls := progress.calls + 1
        rest := progress.rest.drop 1
        phase := if progress.rest.drop 1 = [] then .ended else .running } where
  calls_le := writing.calls_lt running
  rest := by rw [writing.rest, List.drop_drop]
  phase := by
    have fewer := writing.calls_lt running
    have finished : progress.rest.drop 1 = [] ↔ progress.calls + 1 = text.length := by
      rw [writing.rest, List.drop_drop, List.drop_eq_nil_iff]
      exact ⟨fun reached => le_antisymm fewer reached, fun all => all.ge⟩
    simp only [finished]

end Writing

section WriteLoops

variable {jobs : Task → Job File} {w : World Device File Task} {task other : Task}
  {outcome : World Device File Task × Bool} {text : List UInt8} {nonempty : text ≠ []}

theorem Turn.writing (turn : Turn jobs w other outcome)
    (program : (jobs task).program = .write text nonempty)
    (writing : Writing text (w.progress task)) : Writing text (outcome.1.progress task) := by
  by_cases same : task = other
  · subst same
    cases turn with
    | idle through => exact writing
    | opens running closed => exact writing
    | writes text' nonempty' program' running opened device stored =>
        dsimp only
        rw [Function.update_self]
        exact writing.succ running
    | first room positive program' running opened => cases program.symm.trans program'
    | last room positive program' running fpos opened away => cases program.symm.trans program'
  · rw [turn.progress_of_ne same]
    exact writing

/-- A call of the task leaves the last byte of its text in the device. -/
theorem Turn.held (turn : Turn jobs w task outcome)
    (program : (jobs task).program = .write text nonempty)
    (writing : Writing text (w.progress task)) (call : outcome.2 = true) :
    outcome.1.session.device.value = text.getLast nonempty := by
  cases turn with
  | idle through => cases call
  | opens running closed => cases call
  | writes text' nonempty' program' running opened device stored =>
      rcases writing.getLast_rest running nonempty with ⟨left, last⟩
      exact (stored left).trans last
  | first room positive program' running opened => cases program.symm.trans program'
  | last room positive program' running fpos opened away => cases program.symm.trans program'

/-- The turns that a writing task still needs, at most: one for each byte, and
one to open its file. -/
def remaining (jobs : Task → Job File) (task : Task) (w : World Device File Task) : Nat :=
  if (w.progress task).phase = .running then
    (w.progress task).rest.length + if w.session.fpos (jobs task).file = none then 1 else 0
  else 0

omit [DecidableEq File] [DecidableEq Task] in
theorem remaining_le_length (jobs : Task → Job File) (task : Task) (w : World Device File Task) :
    remaining jobs task w ≤ (w.progress task).rest.length + 1 := by
  unfold remaining
  split_ifs <;> omega

theorem Turn.remaining_lt (turn : Turn jobs w task outcome)
    (program : (jobs task).program = .write text nonempty) :
    remaining jobs task outcome.1 ≤ remaining jobs task w - 1 := by
  cases turn with
  | idle through =>
      rw [remaining, if_neg through]
  | opens running closed =>
      simp only [remaining, running, closed, Function.update_self, if_true, Nat.add_sub_cancel,
        reduceCtorEq, if_false, Nat.add_zero, Nat.le_refl]
  | writes text' nonempty' program' running opened device stored =>
      have length := List.length_drop (i := 1) (l := (w.progress task).rest)
      simp only [remaining, running, opened, Function.update_self, if_true, if_false]
      split_ifs <;> omega
  | first room positive program' running opened => cases program.symm.trans program'
  | last room positive program' running fpos opened away => cases program.symm.trans program'

theorem Turn.remaining_le (turn : Turn jobs w other outcome) (different : other ≠ task) :
    remaining jobs task outcome.1 ≤ remaining jobs task w := by
  rw [remaining, remaining, turn.progress_of_ne different.symm]
  by_cases running : (w.progress task).phase = .running
  · rw [if_pos running, if_pos running]
    by_cases closed : w.session.fpos (jobs task).file = none
    · rw [if_pos closed]
      split_ifs <;> omega
    · rw [if_neg closed, if_neg (turn.opened closed)]
  · rw [if_neg running, if_neg running]

end WriteLoops

/-! ## A program that reads -/

/-- No other task reads from the file of this one. -/
def OwnFile (jobs : Task → Job File) (task : Task) : Prop :=
  forall other, other ≠ task → (jobs other).file = (jobs task).file →
    ∃ text nonempty, (jobs other).program = .write text nonempty

/-- The task is about to make its first call, and its file is at the start. -/
structure Fresh (jobs : Task → Job File) (task : Task) (w : World Device File Task) : Prop where
  calls : (w.progress task).calls = 0
  fpos : w.session.fpos (jobs task).file = some 0

/-- The task was given one byte.  It has still to see the end of the file, which
has moved away from its start, or has seen it with its second call. -/
structure Delivered (jobs : Task → Job File) (value : UInt8) (task : Task)
    (w : World Device File Task) : Prop where
  data : (w.progress task).data = [value]
  phase :
    ((w.progress task).phase = .running ∧ (w.progress task).calls = 1 ∧
      w.session.fpos (jobs task).file = some 1) ∨
    ((w.progress task).phase = .ended ∧ (w.progress task).calls = 2)

/-- A task that has made no call is as it was at the start. -/
def Untouched (jobs : Task → Job File) (task : Task) (w : World Device File Task) : Prop :=
  (w.progress task).calls = 0 → w.progress task = (jobs task).program.start

/-- Until the task makes its first call its file is closed or at the start. -/
def Unmoved (jobs : Task → Job File) (task : Task) (w : World Device File Task) : Prop :=
  (w.progress task).calls = 0 →
    w.session.fpos (jobs task).file = none ∨ w.session.fpos (jobs task).file = some 0

section ReadSessions

variable {jobs : Task → Job File} {w : World Device File Task} {task other : Task}
  {outcome : World Device File Task × Bool} {room : Nat} {positive : 0 < room} {value : UInt8}

theorem Turn.untouched (turn : Turn jobs w other outcome) (before : Untouched jobs task w) :
    Untouched jobs task outcome.1 := by
  intro uncalled
  have same := (turn.of_calls_zero uncalled).1
  rw [same] at uncalled ⊢
  exact before uncalled

/-- A turn of a reading task leaves the device as it is. -/
theorem Turn.device_of_read (turn : Turn jobs w task outcome)
    (program : (jobs task).program = .read room positive) :
    outcome.1.session.device = w.session.device := by
  cases turn with
  | idle through => rfl
  | opens running closed => rfl
  | writes text nonempty program' running opened device stored => cases program.symm.trans program'
  | first room' positive' program' running opened => rfl
  | last room' positive' program' running fpos opened away => rfl

/-- The first call on a fresh file delivers the byte that the device holds. -/
theorem Turn.delivers (turn : Turn jobs w task outcome)
    (program : (jobs task).program = .read room positive) (fresh : Fresh jobs task w)
    (before : Untouched jobs task w) : Delivered jobs w.session.device.value task outcome.1 := by
  have start := before fresh.calls
  rw [program] at start
  cases turn with
  | idle through => exact absurd (congrArg Progress.phase start) through
  | opens running closed => exact absurd (closed.symm.trans fresh.fpos) (Option.some_ne_none 0).symm
  | writes text nonempty program' running opened device stored => cases program.symm.trans program'
  | first room' positive' program' running opened =>
      refine ⟨?_, Or.inl ⟨?_, ?_, Function.update_self ..⟩⟩
      · simp only [Function.update_self, start, Program.start, List.nil_append]
      · simp only [Function.update_self, running]
      · simp only [Function.update_self, start, Program.start]
  | last room' positive' program' running fpos opened away =>
      exact absurd (Option.some.inj (opened.symm.trans fresh.fpos)) away

/-- Nobody else moves a file of the task's own away from its start. -/
theorem Turn.unmoved (turn : Turn jobs w other outcome) (own : OwnFile jobs task)
    (before : Unmoved jobs task w) : Unmoved jobs task outcome.1 := by
  intro uncalled
  rcases turn.of_calls_zero uncalled with ⟨same, waited⟩
  rw [same] at uncalled
  have unmoved := before uncalled
  cases turn with
  | idle through => exact unmoved
  | opens running closed =>
      by_cases shared : (jobs task).file = (jobs other).file
      · rw [shared]
        exact Or.inr (Function.update_self ..)
      · dsimp only
        rw [Function.update_of_ne shared]
        exact unmoved
  | writes text nonempty program running opened device stored => exact unmoved
  | first room positive program running opened =>
      have different := waited rfl
      have apart : (jobs task).file ≠ (jobs other).file := by
        intro shared
        rcases own other different.symm shared.symm with ⟨text, nonempty, writes⟩
        cases program.symm.trans writes
      dsimp only
      rw [Function.update_of_ne apart]
      exact unmoved
  | last room positive program running fpos opened away => exact unmoved

theorem Turn.opened_of_call (turn : Turn jobs w task outcome) (call : outcome.2 = true) :
    w.session.fpos (jobs task).file ≠ none := by
  cases turn with
  | idle through => cases call
  | opens running closed => cases call
  | writes text nonempty program running opened device stored => exact opened
  | first room positive program running opened =>
      rw [opened]
      exact Option.some_ne_none 0
  | last room positive program running fpos opened away =>
      rw [opened]
      exact Option.some_ne_none fpos

omit [DecidableEq File] [DecidableEq Task] in
theorem Delivered.of_running (delivered : Delivered jobs value task w)
    (running : (w.progress task).phase = .running) :
    (w.progress task).calls = 1 ∧ w.session.fpos (jobs task).file = some 1 := by
  rcases delivered.phase with ⟨_, calls, moved⟩ | ⟨ended, _⟩
  · exact ⟨calls, moved⟩
  · cases running.symm.trans ended

omit [DecidableEq File] [DecidableEq Task] in
theorem Delivered.ended (delivered : Delivered jobs value task w)
    (through : (w.progress task).phase ≠ .running) : (w.progress task).phase = .ended := by
  rcases delivered.phase with ⟨running, _⟩ | ⟨ended, _⟩
  · exact absurd running through
  · exact ended

/-- What was delivered stays delivered, and the next turn of the task is its last. -/
theorem Turn.delivered (turn : Turn jobs w other outcome)
    (program : (jobs task).program = .read room positive)
    (delivered : Delivered jobs value task w) :
    Delivered jobs value task outcome.1 ∧
      (other = task → (outcome.1.progress task).phase = .ended) := by
  by_cases same : task = other
  · subst same
    cases turn with
    | idle through => exact ⟨delivered, fun _ => delivered.ended through⟩
    | opens running closed =>
        have moved := (delivered.of_running running).2
        exact absurd (closed.symm.trans moved) (Option.some_ne_none 1).symm
    | writes text nonempty program' running opened device stored =>
        cases program.symm.trans program'
    | first room' positive' program' running opened =>
        have moved := (delivered.of_running running).2
        exact absurd (Option.some.inj (opened.symm.trans moved)) (by decide)
    | last room' positive' program' running fpos opened away =>
        have calls := (delivered.of_running running).1
        refine ⟨⟨?_, Or.inr ⟨?_, ?_⟩⟩, fun _ => ?_⟩
        · simp only [Function.update_self, delivered.data]
        · simp only [Function.update_self]
        · simp only [Function.update_self, calls]
        · simp only [Function.update_self]
  · refine ⟨⟨?_, ?_⟩, fun self => absurd self.symm same⟩
    · rw [turn.progress_of_ne same]
      exact delivered.data
    · rw [turn.progress_of_ne same]
      refine Or.imp_left ?_ delivered.phase
      rintro ⟨running, calls, moved⟩
      exact ⟨running, calls, turn.fpos_of_away moved (by decide)⟩

end ReadSessions

/-! ## Any number of programs -/

section Runs

variable (ahead : UInt8) (jobs : Task → Job File) (session : Session Device File)

/-- The world after a schedule. -/
abbrev world (schedule : List Task) : World Device File Task :=
  (system ahead jobs).run (World.start jobs session) schedule

theorem writing_world (schedule : List Task) {task : Task} {text : List UInt8}
    {nonempty : text ≠ []} (program : (jobs task).program = .write text nonempty) :
    Writing text ((world ahead jobs session schedule).progress task) := by
  refine (system ahead jobs).run_invariant_of_step (fun w => Writing text (w.progress task))
    (fun w other writing => (turn_step ahead jobs w other).writing program writing) ?_ schedule
  have start : (World.start jobs session).progress task = (jobs task).program.start := rfl
  rw [start, program]
  exact Writing.start

/-- A writing task that was given one turn more than its text has bytes is through. -/
theorem ended_of_turns (schedule : List Task) {task : Task} {text : List UInt8}
    {nonempty : text ≠ []} (program : (jobs task).program = .write text nonempty)
    (enough : text.length < schedule.count task) :
    ((world ahead jobs session schedule).progress task).phase = .ended := by
  have writing := writing_world ahead jobs session schedule program
  have needed := remaining_le_length jobs task (World.start jobs session)
  have whole : ((World.start jobs session).progress task).rest = text := by
    simp only [World.start, program, Program.start]
  have left : remaining jobs task (world ahead jobs session schedule) ≤
      remaining jobs task (World.start jobs session) - schedule.count task :=
    (system ahead jobs).run_measure_le (remaining jobs task) task
      (fun w => (turn_step ahead jobs w task).remaining_lt program)
      (fun w other different => (turn_step ahead jobs w other).remaining_le different)
      (World.start jobs session) schedule
  refine writing.ended ?_
  intro running
  have fewer := writing.calls_lt running
  rw [whole] at needed
  rw [remaining, if_pos running, writing.rest, List.length_drop] at left
  omega

theorem untouched_world (schedule : List Task) (task : Task) :
    Untouched jobs task (world ahead jobs session schedule) :=
  (system ahead jobs).run_invariant_of_step (Untouched jobs task)
    (fun w other before => (turn_step ahead jobs w other).untouched before) (fun _ => rfl) schedule

/-- Whatever follows the first call of a reading task on a fresh file, it was
given the byte that the device held then, and the next of its turns ends it. -/
theorem delivered_of_fresh (schedule : List Task) {task : Task} {room : Nat}
    {positive : 0 < room} (program : (jobs task).program = .read room positive)
    (fresh : Fresh jobs task (world ahead jobs session schedule)) (after : List Task) :
    let value := (world ahead jobs session schedule).session.device.value
    let later := world ahead jobs session (schedule ++ task :: after)
    Delivered jobs value task later ∧ (task ∈ after → (later.progress task).phase = .ended) := by
  intro value later
  let m := system ahead jobs
  let first := m.next (world ahead jobs session schedule) task
  have split : later = m.run first after := m.run_append _ schedule (task :: after)
  have given : Delivered jobs value task first :=
    (turn_step ahead jobs _ task).delivers program fresh (untouched_world ahead jobs session _ task)
  have keeps : forall w other, Delivered jobs value task w →
      Delivered jobs value task (m.next w other) := fun w other delivered =>
    ((turn_step ahead jobs w other).delivered program delivered).1
  have delivered : Delivered jobs value task later :=
    split ▸ m.run_invariant_of_step _ keeps given after
  refine ⟨delivered, ?_⟩
  intro again
  rcases List.append_of_mem again with ⟨before, rest, parts⟩
  have ended : ((m.next (m.run first before) task).progress task).phase = .ended :=
    ((turn_step ahead jobs _ task).delivered program (m.run_invariant_of_step _ keeps given before)).2
      rfl
  rw [split, parts, m.run_append]
  refine m.run_invariant_of_step (fun w => (w.progress task).phase = .ended) ?_ ended rest
  intro w other finished
  have through : (w.progress task).phase ≠ .running := by
    rw [finished]
    decide
  exact (congrArg Progress.phase
    ((turn_step ahead jobs w other).progress_of_through through)).trans finished

/-- A file that the task has opened and that no other task reads from is at its
start when the task makes its first call. -/
theorem fresh_of_ownFile (schedule : List Task) {task : Task} (own : OwnFile jobs task)
    (closed : session.fpos (jobs task).file = none)
    (first : ((world ahead jobs session schedule).progress task).calls = 0)
    (call : (system ahead jobs).out (world ahead jobs session schedule) task = true) :
    Fresh jobs task (world ahead jobs session schedule) := by
  have unmoved : Unmoved jobs task (world ahead jobs session schedule) :=
    (system ahead jobs).run_invariant_of_step (Unmoved jobs task)
      (fun w other before => (turn_step ahead jobs w other).unmoved own before)
      (fun _ => Or.inl closed) schedule
  have opened := (turn_step ahead jobs _ task).opened_of_call call
  exact ⟨first, (unmoved first).resolve_left opened⟩

/-- Any number of programs, any schedule and any state to start from.  A program
that writes makes one call for each byte of its text and leaves the last of them
in the device with each call; a program that reads from a fresh file is given
the byte that the device holds at its first call, ends with its second, and
changes nothing. -/
theorem sessions_spec (schedule : List Task) (task : Task) :
    (forall text nonempty, (jobs task).program = .write text nonempty →
      Writing text ((world ahead jobs session schedule).progress task) ∧
        (text.length < schedule.count task →
          ((world ahead jobs session schedule).progress task).phase = .ended) ∧
        ((system ahead jobs).out (world ahead jobs session schedule) task = true →
          (world ahead jobs session (schedule ++ [task])).session.device.value =
            text.getLast nonempty)) ∧
    (forall room positive, (jobs task).program = .read room positive →
      (world ahead jobs session (schedule ++ [task])).session.device =
          (world ahead jobs session schedule).session.device ∧
        (Fresh jobs task (world ahead jobs session schedule) → forall after,
          Delivered jobs (world ahead jobs session schedule).session.device.value task
              (world ahead jobs session (schedule ++ task :: after)) ∧
            (task ∈ after →
              ((world ahead jobs session (schedule ++ task :: after)).progress task).phase =
                .ended))) := by
  have turn := turn_step ahead jobs (world ahead jobs session schedule) task
  have next : world ahead jobs session (schedule ++ [task]) =
      (system ahead jobs).next (world ahead jobs session schedule) task :=
    (system ahead jobs).run_append _ schedule [task]
  rw [next]
  constructor
  · intro text nonempty program
    have writing := writing_world ahead jobs session schedule program
    exact ⟨writing, ended_of_turns ahead jobs session schedule program, turn.held program writing⟩
  · intro room positive program
    refine ⟨turn.device_of_read program, ?_⟩
    intro fresh after
    exact delivered_of_fresh ahead jobs session schedule program fresh after

end Runs

end Turns

end CharacterDevice
end KernelHacking
