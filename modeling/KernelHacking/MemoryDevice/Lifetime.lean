import KernelHacking.Foundations.Machine
import KernelHacking.MemoryDevice.Driver
import Mathlib.Logic.Function.Basic
import Mathlib.Data.List.Induction

namespace KernelHacking
namespace MemoryDevice

/-!
# The buffer's lifetime and the calls that use it

`memory_init` registers the device before it allocates the buffer, and clients
can open the device from then on.  `memory_exit` unregisters it and frees the
buffer; as `memory_fops` names no owner, an open file does not keep the module
from being unloaded, and its methods are still called afterwards.

Loading, unloading and the methods are sequences of steps here, and any of them
may come between two others.  A module can be loaded again; files of an earlier
load keep calling the methods of that load, whose buffer is gone.
-/

/-- What `memory_buffer` points to. -/
inductive Buffer where
  | null
  | raw
  | zeroed
  | freed
  deriving DecidableEq

/-- The next step of loading or unloading the module.  `unregister` and `free`
are the steps of `memory_exit`, which `memory_init` of `memory.c` also calls when
there is no memory.  The minimal version clears the buffer that it has not got, and
the kernel kills the process that loads it. -/
inductive Stage where
  | unloaded
  | register
  | allocate
  | zero
  | killed
  | live
  | unregister
  | free
  deriving DecidableEq

/-- The next step of a method that was called on an open file. -/
inductive Method where
  | returned
  | copyToUser
  | testPosition
  | cleanup
  | copyFromUser
  deriving DecidableEq

/-- An open file: the load that it belongs to, its position and the method that
is running on it. -/
structure OpenFile where
  load : Nat
  fpos : Int
  method : Method
  deriving DecidableEq

/-- The module and its clients.  `load` counts how often it was loaded. -/
structure Loading (File : Type*) where
  stage : Stage
  load : Nat
  registered : Bool
  memoryBuffer : Buffer
  file : File → Option OpenFile

/-- A step of anybody.  `granted` says whether the kernel can serve the request
of a step of `memory_init`. -/
inductive Move (File : Type*) where
  | insmod
  | rmmod
  | advance (granted : Bool)
  | openFile (file : File)
  | release (file : File)
  | seek (file : File) (pos : Int)
  | read (file : File)
  | write (file : File)
  | method (file : File)

/-- The steps of `memory_init` and `memory_exit`.  The minimal version does not look
at what it was granted. -/
def Loading.advance {File : Type*} (v : Version) (s : Loading File) (granted : Bool) :
    Loading File :=
  match s.stage with
  | .register =>
      if granted then { s with registered := true, stage := .allocate }
      else if v = .memory then { s with stage := .unloaded }
      else { s with stage := .allocate }
  | .allocate =>
      if granted then { s with memoryBuffer := .raw, stage := .zero }
      else if v = .memory then { s with memoryBuffer := .null, stage := .unregister }
      else { s with memoryBuffer := .null, stage := .zero }
  | .zero =>
      if s.memoryBuffer = .null then { s with stage := .killed }
      else { s with memoryBuffer := .zeroed, stage := .live }
  | .unregister => { s with registered := false, stage := .free }
  | .free =>
      if s.memoryBuffer = .null then { s with stage := .unloaded }
      else { s with memoryBuffer := .freed, stage := .unloaded }
  | .unloaded => s
  | .killed => s
  | .live => s

/-- The steps of `memory_read` and `memory_write` on their file. -/
def OpenFile.advance (v : Version) (f : OpenFile) : OpenFile :=
  match f.method with
  | .returned => f
  | .copyToUser => { f with method := .testPosition }
  | .testPosition =>
      if f.fpos = 0 then { f with fpos := f.fpos + BUFSIZE v, method := .returned }
      else { f with method := .cleanup }
  | .cleanup => { f with method := .returned }
  | .copyFromUser => { f with method := .returned }

section Loading

variable {File : Type*} [DecidableEq File]

/-- Change an open file. -/
def Loading.onFile (s : Loading File) (file : File) (change : OpenFile → Option OpenFile) :
    Loading File :=
  { s with file := Function.update s.file file ((s.file file).bind change) }

/-- Call a method on a file on which none is running. -/
def OpenFile.call (method : Method) (f : OpenFile) : OpenFile :=
  if f.method = .returned then { f with method := method } else f

def Loading.step (v : Version) (s : Loading File) : Move File → Loading File
  | .insmod =>
      if s.stage = .unloaded then
        { s with stage := .register, load := s.load + 1, memoryBuffer := .null }
      else s
  | .rmmod => if s.stage = .live then { s with stage := .unregister } else s
  | .advance granted => s.advance v granted
  | .openFile file =>
      if s.registered ∧ s.file file = none then
        { s with
          file := Function.update s.file file
            (some { load := s.load, fpos := 0, method := .returned }) }
      else s
  | .release file => s.onFile file fun f => if f.method = .returned then none else some f
  | .seek file pos => s.onFile file fun f => some { f with fpos := pos }
  | .read file => s.onFile file fun f => some (f.call .copyToUser)
  | .write file => s.onFile file fun f => some (f.call .copyFromUser)
  | .method file => s.onFile file fun f => some (f.advance v)

/-- The module and its clients in any interleaving. -/
def loading (v : Version) (File : Type*) [DecidableEq File] :
    Machine (Loading File) (Move File) Unit where
  step s move := (s.step v move, ())

/-- The kernel before the module is loaded for the first time. -/
def Loading.boot (File : Type*) : Loading File where
  stage := .unloaded
  load := 0
  registered := false
  memoryBuffer := .null
  file _ := none

/-- The buffer that the methods of a load use. -/
def Loading.bufferOf {File : Type*} (s : Loading File) (load : Nat) : Buffer :=
  if load = s.load then s.memoryBuffer else .freed

/-- No method runs unless its buffer is allocated and cleared. -/
def Alive {File : Type*} (s : Loading File) : Prop :=
  forall file f, s.file file = some f → f.method ≠ .returned → s.bufferOf f.load = .zeroed

/-- Files are opened only while the module is live, and it is unloaded only
while no file is open. -/
def Orderly {File : Type*} (s : Loading File) : Move File → Prop
  | .openFile file => s.registered = true → s.file file = none → s.stage = .live
  | .rmmod => s.stage = .live → forall file, s.file file = none
  | _ => True

/-! ## An orderly run never touches a dead buffer -/

/-- While files are open the module is live, and they belong to it. -/
structure Attended (s : Loading File) : Prop where
  live : forall file f, s.file file = some f → s.stage = .live ∧ f.load = s.load
  cleared : s.stage = .live → s.memoryBuffer = .zeroed

omit [DecidableEq File] in
theorem Attended.boot : Attended (Loading.boot File) where
  live _ _ opened := nomatch opened
  cleared live := nomatch live

omit [DecidableEq File] in
theorem Attended.alive {s : Loading File} (attended : Attended s) : Alive s := by
  intro file f opened _
  rcases attended.live file f opened with ⟨live, same⟩
  rw [Loading.bufferOf, if_pos same]
  exact attended.cleared live

omit [DecidableEq File] in
/-- No file is open outside the live stage. -/
theorem Attended.none_open {s : Loading File} (attended : Attended s) (notLive : s.stage ≠ .live)
    (file : File) : s.file file = none := by
  cases opened : s.file file with
  | none => rfl
  | some f => exact absurd (attended.live file f opened).1 notLive

omit [DecidableEq File] in
theorem Loading.advance_file (v : Version) (s : Loading File) (granted : Bool) :
    (s.advance v granted).file = s.file := by
  cases stage : s.stage <;> simp only [Loading.advance, stage] <;> split_ifs <;> rfl

omit [DecidableEq File] in
theorem Loading.advance_live (v : Version) {s : Loading File} (live : s.stage = .live)
    (granted : Bool) : s.advance v granted = s := by
  simp only [Loading.advance, live]

omit [DecidableEq File] in
/-- Loading ends with the buffer cleared. -/
theorem Loading.advance_cleared {v : Version} {s : Loading File} (notLive : s.stage ≠ .live)
    {granted : Bool} (ended : (s.advance v granted).stage = .live) :
    (s.advance v granted).memoryBuffer = .zeroed := by
  cases stage : s.stage with
  | zero =>
      simp only [Loading.advance, stage] at ended ⊢
      split_ifs at ended ⊢
      rfl
  | live => exact absurd stage notLive
  | unloaded =>
      simp only [Loading.advance, stage] at ended
      exact nomatch ended
  | killed =>
      simp only [Loading.advance, stage] at ended
      exact nomatch ended
  | unregister =>
      simp only [Loading.advance, stage] at ended
      exact nomatch ended
  | register =>
      simp only [Loading.advance, stage] at ended
      split_ifs at ended
  | allocate =>
      simp only [Loading.advance, stage] at ended
      split_ifs at ended
  | free =>
      simp only [Loading.advance, stage] at ended
      split_ifs at ended

theorem OpenFile.call_load (method : Method) (f : OpenFile) : (f.call method).load = f.load := by
  unfold OpenFile.call
  split <;> rfl

theorem OpenFile.advance_load (v : Version) (f : OpenFile) : (f.advance v).load = f.load := by
  unfold OpenFile.advance
  split
  · rfl
  · rfl
  · split_ifs <;> rfl
  · rfl
  · rfl

/-- Calls on an open file leave it with its load, if they leave it open. -/
theorem Attended.onFile {s : Loading File} (attended : Attended s) (file : File)
    {change : OpenFile → Option OpenFile}
    (keeps : forall f f', change f = some f' → f'.load = f.load) :
    Attended (s.onFile file change) where
  live other f opened := by
    simp only [Loading.onFile] at opened ⊢
    by_cases same : other = file
    · subst same
      rw [Function.update_self] at opened
      rcases Option.bind_eq_some_iff.mp opened with ⟨before, was, changed⟩
      rw [keeps before f changed]
      exact attended.live other before was
    · rw [Function.update_of_ne same] at opened
      exact attended.live other f opened
  cleared := attended.cleared

theorem Attended.step (v : Version) {s : Loading File} {move : Move File} (attended : Attended s)
    (orderly : Orderly s move) : Attended (s.step v move) := by
  cases move with
  | insmod =>
      rw [Loading.step]
      split_ifs with unloaded
      · have none_open := attended.none_open (by rw [unloaded]; exact nofun)
        refine ⟨fun file f opened => ?_, nofun⟩
        exact absurd ((none_open file).symm.trans opened) nofun
      · exact attended
  | rmmod =>
      rw [Loading.step]
      split_ifs with live
      · refine ⟨fun file f opened => ?_, nofun⟩
        exact absurd ((orderly live file).symm.trans opened) nofun
      · exact attended
  | advance granted =>
      rw [Loading.step]
      by_cases live : s.stage = .live
      · rw [Loading.advance_live v live]
        exact attended
      · refine ⟨fun file f opened => ?_, Loading.advance_cleared live⟩
        rw [Loading.advance_file] at opened
        exact absurd ((attended.none_open live file).symm.trans opened) nofun
  | openFile file =>
      rw [Loading.step]
      split_ifs with possible
      · have live := orderly possible.1 possible.2
        refine ⟨fun other f opened => ?_, attended.cleared⟩
        simp only at opened ⊢
        by_cases same : other = file
        · subst same
          rw [Function.update_self] at opened
          cases opened
          exact ⟨live, rfl⟩
        · rw [Function.update_of_ne same] at opened
          exact attended.live other f opened
      · exact attended
  | release file =>
      apply attended.onFile
      intro f f' changed
      split_ifs at changed
      cases changed
      rfl
  | seek file pos =>
      apply attended.onFile
      rintro f f' ⟨⟩
      rfl
  | read file =>
      apply attended.onFile
      rintro f f' ⟨⟩
      exact f.call_load _
  | write file =>
      apply attended.onFile
      rintro f f' ⟨⟩
      exact f.call_load _
  | method file =>
      apply attended.onFile
      rintro f f' ⟨⟩
      exact f.advance_load v

theorem attended_run (v : Version) {moves : List (Move File)}
    (orderly : (loading v File).Along Orderly (Loading.boot File) moves) :
    Attended ((loading v File).run (Loading.boot File) moves) :=
  (loading v File).run_invariant Attended Orderly (fun _ _ attended => attended.step v)
    Attended.boot orderly

/-- As long as files are opened only while the module is live, and it is
unloaded only while none is open, no method runs without its buffer. -/
theorem alive_of_orderly (v : Version) (moves : List (Move File))
    (orderly : (loading v File).Along Orderly (Loading.boot File) moves) :
    Alive ((loading v File).run (Loading.boot File) moves) :=
  (attended_run v orderly).alive

/-- Load the module, use it from two files, close both and unload it. -/
theorem alive_of_orderly_session :
    Alive ((loading .memory Nat).run (Loading.boot Nat)
      [.insmod, .advance true, .advance true, .advance true, .openFile 0, .openFile 1, .write 0,
        .method 0, .read 1, .method 1, .method 1, .release 0, .release 1, .rmmod, .advance true,
        .advance true]) := by
  apply alive_of_orderly
  refine ⟨trivial, trivial, trivial, trivial, fun _ _ => rfl, fun _ _ => rfl, trivial, trivial,
    trivial, trivial, trivial, trivial, trivial, fun _ file => ?_, trivial, trivial, trivial⟩
  rcases file with _ | _ | file <;> rfl

/-- The device is registered before there is a buffer, and a client that comes
at once reads through a null pointer. -/
theorem early_read_not_alive :
    ¬ forall moves : List (Move Nat),
      Alive ((loading .memory Nat).run (Loading.boot Nat) moves) := by
  intro always
  have alive := always [.insmod, .advance true, .openFile 0, .read 0]
  exact absurd (alive 0 { load := 1, fpos := 0, method := .copyToUser } rfl nofun) nofun

/-! ## A run that is not orderly can go wrong -/

/-- What the stage says about the registration and the buffer. -/
structure Staged (s : Loading File) : Prop where
  registered : s.registered = true → s.stage = .allocate ∨ s.stage = .zero ∨ s.stage = .killed ∨
    s.stage = .live ∨ s.stage = .unregister
  null : s.stage = .allocate → s.memoryBuffer = .null
  raw : s.stage = .zero → s.memoryBuffer = .raw ∨ s.memoryBuffer = .null
  killed : s.stage = .killed → s.memoryBuffer = .null
  starting : s.stage = .register → s.memoryBuffer = .null

omit [DecidableEq File] in
theorem Staged.boot : Staged (Loading.boot File) := ⟨nofun, nofun, nofun, nofun, nofun⟩

omit [DecidableEq File] in
/-- Where the device cannot be registered. -/
theorem Staged.unregistered {s : Loading File} (staged : Staged s)
    (stage : s.stage = .unloaded ∨ s.stage = .register ∨ s.stage = .free) :
    s.registered ≠ true := by
  intro registered
  rcases staged.registered registered with at_ | at_ | at_ | at_ | at_ <;> rw [at_] at stage <;>
    rcases stage with same | same | same <;> exact nomatch same

omit [DecidableEq File] in
theorem Staged.advance (v : Version) {s : Loading File} (staged : Staged s) (granted : Bool) :
    Staged (s.advance v granted) := by
  cases stage : s.stage with
  | unloaded | killed | live =>
      simp only [Loading.advance, stage]
      exact staged
  | register =>
      have unregistered := staged.unregistered (Or.inr (Or.inl stage))
      simp only [Loading.advance, stage]
      split_ifs
      · exact ⟨fun _ => Or.inl rfl, fun _ => staged.starting stage, nofun, nofun, nofun⟩
      · exact ⟨fun registered => absurd registered unregistered, nofun, nofun, nofun, nofun⟩
      · exact ⟨fun _ => Or.inl rfl, fun _ => staged.starting stage, nofun, nofun, nofun⟩
  | allocate =>
      simp only [Loading.advance, stage]
      split_ifs
      · exact ⟨fun _ => Or.inr (Or.inl rfl), nofun, fun _ => Or.inl rfl, nofun, nofun⟩
      · exact ⟨fun _ => Or.inr (Or.inr (Or.inr (Or.inr rfl))), nofun, nofun, nofun, nofun⟩
      · exact ⟨fun _ => Or.inr (Or.inl rfl), nofun, fun _ => Or.inr rfl, nofun, nofun⟩
  | zero =>
      simp only [Loading.advance, stage]
      split_ifs with null
      · exact ⟨fun _ => Or.inr (Or.inr (Or.inl rfl)), nofun, nofun, fun _ => null, nofun⟩
      · exact ⟨fun _ => Or.inr (Or.inr (Or.inr (Or.inl rfl))), nofun, nofun, nofun, nofun⟩
  | unregister =>
      simp only [Loading.advance, stage]
      exact ⟨nofun, nofun, nofun, nofun, nofun⟩
  | free =>
      have unregistered := staged.unregistered (Or.inr (Or.inr stage))
      simp only [Loading.advance, stage]
      split_ifs
      · exact ⟨fun registered => absurd registered unregistered, nofun, nofun, nofun, nofun⟩
      · exact ⟨fun registered => absurd registered unregistered, nofun, nofun, nofun, nofun⟩

theorem Staged.step (v : Version) {s : Loading File} (staged : Staged s) (move : Move File) :
    Staged (s.step v move) := by
  cases move with
  | insmod =>
      rw [Loading.step]
      split_ifs with unloaded
      · have unregistered := staged.unregistered (Or.inl unloaded)
        exact ⟨fun registered => absurd registered unregistered, nofun, nofun, nofun, fun _ => rfl⟩
      · exact staged
  | rmmod =>
      rw [Loading.step]
      split_ifs
      · exact ⟨fun _ => Or.inr (Or.inr (Or.inr (Or.inr rfl))), nofun, nofun, nofun, nofun⟩
      · exact staged
  | advance granted => exact staged.advance v granted
  | openFile file =>
      rw [Loading.step]
      split_ifs
      · exact ⟨staged.registered, staged.null, staged.raw, staged.killed, staged.starting⟩
      · exact staged
  | release file | seek file pos | read file | write file | method file =>
      exact ⟨staged.registered, staged.null, staged.raw, staged.killed, staged.starting⟩

/-- Moves that nobody can refuse once they are due: the module's own next step,
and the calls on files that are open. -/
def Move.Due {File : Type*} : Move File → Prop
  | .insmod => False
  | .rmmod => False
  | .openFile _ => False
  | _ => True

omit [DecidableEq File] in
theorem Move.Due.orderly {move : Move File} (due : move.Due) (s : Loading File) :
    Orderly s move := by
  cases move with
  | insmod | rmmod | openFile => exact due.elim
  | _ => trivial

/-- Whoever reads now finds no cleared buffer. -/
theorem read_not_alive (v : Version) {s : Loading File} {file : File} {f : OpenFile}
    (opened : s.file file = some f) (current : f.load = s.load)
    (dead : s.memoryBuffer ≠ .zeroed) : ¬ Alive (s.step v (.read file)) := by
  intro alive
  have running : (f.call .copyToUser).method ≠ .returned := by
    unfold OpenFile.call
    split_ifs with returned
    · exact nofun
    · exact returned
  have here : (s.step v (.read file)).file file = some (f.call .copyToUser) := by
    simp only [Loading.step, Loading.onFile, Function.update_self, opened, Option.bind_some]
  have cleared := alive file _ here running
  rw [Loading.bufferOf, f.call_load, if_pos (show f.load = (s.step v (.read file)).load from current)]
    at cleared
  exact dead cleared

/-- A file that is still open when the module is unloaded outlives the buffer. -/
theorem unload_not_alive (v : Version) {s : Loading File} {file : File} {f : OpenFile}
    (opened : s.file file = some f) (current : f.load = s.load) (unloading : s.stage = .unregister) :
    ¬ Alive ((loading v File).run s [.advance true, .advance true, .read file]) := by
  have gone : (s.advance v true).advance v true = { s with
      registered := false, stage := .unloaded,
      memoryBuffer := if s.memoryBuffer = .null then s.memoryBuffer else .freed } := by
    simp only [Loading.advance, unloading]
    split_ifs <;> rfl
  have here : ((s.advance v true).advance v true).file file = some f := by
    rw [gone]
    exact opened
  apply read_not_alive v here
  · rw [gone]
    exact current
  · rw [gone]
    simp only
    split_ifs with null
    · rw [null]
      exact nofun
    · exact nofun

/-- After a move that is not orderly, moves that are due are enough to make a
method run without its buffer. -/
theorem exists_not_alive (v : Version) {s : Loading File} (staged : Staged s)
    (attended : Attended s) {move : Move File} (disorderly : ¬ Orderly s move) :
    ∃ more, (forall next, next ∈ more → next.Due) ∧
      ¬ Alive ((loading v File).run s (move :: more)) := by
  cases move with
  | rmmod =>
      rcases Classical.not_imp.mp disorderly with ⟨live, some_open⟩
      rcases not_forall.mp some_open with ⟨file, is_open⟩
      rcases Option.ne_none_iff_exists'.mp is_open with ⟨f, opened⟩
      refine ⟨[.advance true, .advance true, .read file], ?_, ?_⟩
      · simp [Move.Due]
      · rw [Machine.run_cons]
        have after : (loading v File).next s .rmmod = { s with stage := .unregister } :=
          if_pos live
        rw [after]
        exact unload_not_alive v opened (attended.live file f opened).2 rfl
  | openFile file =>
      rcases Classical.not_imp.mp disorderly with ⟨registered, rest⟩
      rcases Classical.not_imp.mp rest with ⟨closed, notLive⟩
      have after : (loading v File).next s (.openFile file) = { s with
          file := Function.update s.file file
            (some { load := s.load, fpos := 0, method := .returned }) } :=
        if_pos ⟨registered, closed⟩
      have opened : ((loading v File).next s (.openFile file)).file file =
          some { load := s.load, fpos := 0, method := .returned } := by
        rw [after]
        exact Function.update_self ..
      rcases staged.registered registered with at_ | at_ | at_ | at_ | at_
      · refine ⟨[.read file], by simp [Move.Due], ?_⟩
        apply read_not_alive v opened (by rw [after])
        rw [after]
        exact fun zeroed => nomatch (staged.null at_).symm.trans zeroed
      · refine ⟨[.read file], by simp [Move.Due], ?_⟩
        apply read_not_alive v opened (by rw [after])
        rw [after]
        intro zeroed
        rcases staged.raw at_ with raw | null
        · exact nomatch raw.symm.trans zeroed
        · exact nomatch null.symm.trans zeroed
      · refine ⟨[.read file], by simp [Move.Due], ?_⟩
        apply read_not_alive v opened (by rw [after])
        rw [after]
        exact fun zeroed => nomatch (staged.killed at_).symm.trans zeroed
      · exact absurd at_ notLive
      · refine ⟨[.advance true, .advance true, .read file], by simp [Move.Due], ?_⟩
        rw [Machine.run_cons]
        exact unload_not_alive v opened (by rw [after]) (by rw [after]; exact at_)
  | _ => exact absurd trivial disorderly

/-- The runs that are orderly are exactly those at no point of which the moves
that are due lead to a method without its buffer. -/
theorem orderly_iff (v : Version) (moves : List (Move File)) :
    (loading v File).Along Orderly (Loading.boot File) moves ↔
      forall before after more, moves = before ++ after → (forall next, next ∈ more → next.Due) →
        Alive ((loading v File).run (Loading.boot File) (before ++ more)) := by
  constructor
  · rintro orderly before after more rfl due
    refine (attended_run v ?_).alive
    rw [Machine.along_append] at orderly ⊢
    refine ⟨orderly.1, ?_⟩
    apply (loading v File).along_iff_forall_split _ _ _ |>.mpr
    rintro first next rest rfl
    exact (due next (by simp)).orderly _
  · intro alive
    induction moves using List.reverseRecOn with
    | nil => trivial
    | append_singleton moves move ih =>
        have orderly := ih fun before after more split =>
          alive before (after ++ [move]) more (by rw [split, List.append_assoc])
        rw [Machine.along_append]
        refine ⟨orderly, ?_, trivial⟩
        by_contra disorderly
        have staged : Staged ((loading v File).run (Loading.boot File) moves) :=
          (loading v File).run_invariant_of_step Staged (fun _ move staged => staged.step v move)
            Staged.boot moves
        rcases exists_not_alive v staged (attended_run v orderly) disorderly with
          ⟨more, due, dead⟩
        have still := alive (moves ++ [move]) [] more (List.append_nil _).symm due
        rw [List.append_assoc, Machine.run_append] at still
        exact dead still

end Loading

end MemoryDevice
end KernelHacking
