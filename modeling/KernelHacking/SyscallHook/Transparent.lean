import KernelHacking.SyscallHook.Module

namespace KernelHacking
namespace SyscallHook

/-!
# What a caller sees of a hooked open

`my_sys_open` raises the address limit of its thread for the hook file, since
that path lies in kernel memory, and restores it behind the call.  Apart from
the path of such a file a caller should notice nothing: the original function
runs once, with the caller's arguments, and never on the caller's pointer with
the raised limit.

The type of the file is looked up in the caller's memory directly, before
anything has looked whether that memory is there.  Behind an unreadable name
the call ends in a fault, where the original function returns an error.

What the original functions return is a parameter, and each string that
`getcwd` returns comes with the open that evaluates it.
-/

/-- A thread in a system call: its address limit, and the functions that it has
called as `sys_open`. -/
structure Thread where
  fs : Segment
  calls : List (Word × SysOpen) := []

namespace Thread

/-- `set_fs(fs)`. -/
def setFs (t : Thread) (fs : Segment) : Thread := { t with fs := fs }

/-- The call of an original function, which gives the address limit back as it
finds it. -/
def sysOpen (serve : Word → SysOpen → Int) (t : Thread) (target : Word) (path : PathArg)
    (call : OpenCall) : Thread × Int :=
  let passed : SysOpen := {
    path := path
    flags := call.flags
    mode := call.mode.setWidth 32
    fs := t.fs }
  ({ t with calls := t.calls ++ [(target, passed)] }, serve target passed)

end Thread

/-- What fits into `hookfile`. -/
def hookfile (cwd filetype : List UInt8) : List UInt8 :=
  (hookPath cwd filetype).take (HOOKFILE_SIZE - 1)

/-- `my_sys_open`, where `getcwd` returns `cwd`.  There is no result when the
thread faults. -/
def hookedOpen (serve : Word → SysOpen → Int) (origSysOpen : Word) (cwd : List UInt8) (t : Thread)
    (call : OpenCall) : Thread × Option Int :=
  match funFiletype call.filename with
  | none => (t, none)
  | some none =>
      let (t, fd) := t.sysOpen serve origSysOpen (.user call.filename) call
      (t, some fd)
  | some (some filetype) =>
      let oldFs := t.fs
      let t := t.setFs .kernelDs
      let (t, fd) := t.sysOpen serve origSysOpen (.kernel (hookfile cwd filetype)) call
      (t.setFs oldFs, some fd)

/-- The open system call of a thread, dispatched through the processor's table. -/
def dispatchOpen (k : Kernel) (serve : Word → SysOpen → Int) (s : Toplel) (cwd : List UInt8)
    (t : Thread) (call : OpenCall) : Thread × Option Int :=
  let target := s.hook.mem (entryOf k.sysCallTable NR_open)
  if target = k.mySysOpen then hookedOpen serve s.hook.origSysOpen cwd t call
  else
    let (t, fd) := t.sysOpen serve target (.user call.filename) call
    (t, some fd)

/-- What the module's functions are called for. -/
inductive HookOp where
  | insert
  | remove
  | openFile (fs : Segment) (cwd : List UInt8) (call : OpenCall)

/-- The hook under its operations.  An open by a thread with the address limit
`fs` shows what it leaves of the thread. -/
def hookSystem (k : Kernel) (serve : Word → SysOpen → Int) :
    Machine Toplel HookOp (Option (Thread × Option Int)) where
  step s op :=
    match op with
    | .insert => ((toplelInsert k s).1, none)
    | .remove => (toplelRemove s, none)
    | .openFile fs cwd call => (s, some (dispatchOpen k serve s cwd { fs := fs } call))

/-- The law of an open by a user's thread. -/
structure Transparent (serve : Word → SysOpen → Int) (original : Word) (cwd : List UInt8)
    (call : OpenCall) (served : Thread × Option Int) : Prop where
  calls : ∃ passed, served.1.calls = [(original, passed)] ∧ served.2 = some (serve original passed) ∧
    passed.flags = call.flags ∧ passed.mode = call.mode.setWidth 32 ∧
    (funFiletype call.filename = some none → passed.path = .user call.filename) ∧
    (passed.fs = .kernelDs ↔ ∃ filetype, passed.path = .kernel (hookfile cwd filetype)) ∧
    (forall filename, passed.path = .user filename → passed.fs = .userDs)
  fs : served.1.fs = .userDs

/-- The law along a run: every open by a user's thread is transparent. -/
def TransparentOpen (k : Kernel) (serve : Word → SysOpen → Int) (original : Word) (s : Toplel)
    (op : HookOp) : Prop :=
  forall cwd call, op = .openFile .userDs cwd call →
    Transparent serve original cwd call (dispatchOpen k serve s cwd { fs := .userDs } call)

/-- The name can be read to its end, and three bytes back from there. -/
def PathPtr.Legible (filename : PathPtr) : Prop :=
  ∃ name, cstr filename.mapped = some name ∧ 3 ≤ filename.below.length + name.length

/-- Every open by a user's thread that comes to the hook has a legible name. -/
def LegibleOpen (k : Kernel) (s : Toplel) (op : HookOp) : Prop :=
  forall cwd call, op = .openFile .userDs cwd call →
    s.hook.mem (entryOf k.sysCallTable NR_open) = k.mySysOpen → call.filename.Legible

/-! ## One call -/

/-- Looking for the type faults exactly at a name that is not legible. -/
theorem funFiletype_isSome_iff (filename : PathPtr) :
    (funFiletype filename).isSome = true ↔ filename.Legible := by
  cases found : cstr filename.mapped with
  | none => simp [funFiletype, PathPtr.Legible, found]
  | some name =>
      by_cases short : (filename.below ++ name).length < 3
      · rw [List.length_append] at short
        simp [funFiletype, PathPtr.Legible, found, short]
      · rw [List.length_append] at short
        simp [funFiletype, PathPtr.Legible, found, short, Nat.not_lt.mp short]

/-- The hook makes the call that it makes with its own `getcwd`. -/
theorem hookedOpen_eq_mySysOpen (serve : Word → SysOpen → Int) (origSysOpen : Word)
    {opener : Opener} {cwd : List UInt8} (returned : getcwd opener.cwd = some cwd)
    (call : OpenCall) :
    hookedOpen serve origSysOpen cwd { fs := opener.fs } call =
      match mySysOpen opener call with
      | none => ({ fs := opener.fs }, none)
      | some (opener, passed) =>
          ({ fs := opener.fs, calls := [(origSysOpen, passed)] }, some (serve origSysOpen passed)) := by
  cases known : funFiletype call.filename with
  | none => simp only [hookedOpen, mySysOpen, known]
  | some filetype =>
      cases filetype with
      | none =>
          simp only [hookedOpen, mySysOpen, known]
          rfl
      | some filetype =>
          simp only [hookedOpen, mySysOpen, known, returned]
          rfl

variable {serve : Word → SysOpen → Int} {original : Word} {cwd : List UInt8} {call : OpenCall}

/-- A call of the original function with the caller's arguments is transparent. -/
theorem sysOpen_transparent (serve : Word → SysOpen → Int) (original : Word) (cwd : List UInt8)
    (call : OpenCall) :
    Transparent serve original cwd call
      ((Thread.sysOpen serve { fs := .userDs } original (.user call.filename) call).1,
        some (Thread.sysOpen serve { fs := .userDs } original (.user call.filename) call).2) where
  calls := by
    refine ⟨_, rfl, rfl, rfl, rfl, fun _ => rfl, ?_, fun _ _ => rfl⟩
    constructor
    · intro raised
      cases raised
    · rintro ⟨_, same⟩
      cases same
  fs := rfl

/-- The hook is transparent exactly for names that it can read. -/
theorem hookedOpen_transparent_iff :
    Transparent serve original cwd call
        (hookedOpen serve original cwd { fs := .userDs } call) ↔ call.filename.Legible := by
  rw [← funFiletype_isSome_iff, hookedOpen]
  cases known : funFiletype call.filename with
  | none =>
      constructor
      · rintro ⟨⟨passed, called, _⟩, _⟩
        cases called
      · intro impossible
        cases impossible
  | some filetype =>
      refine iff_of_true ?_ rfl
      cases filetype with
      | none => exact sysOpen_transparent serve original cwd call
      | some filetype =>
          constructor
          · refine ⟨_, rfl, rfl, rfl, rfl, ?_, ?_, ?_⟩
            · intro ordinary
              rw [known] at ordinary
              cases ordinary
            · exact iff_of_true rfl ⟨filetype, rfl⟩
            · intro filename same
              cases same
          · -- the limit that was saved is the one of the caller
            rfl

/-! ## Every call of a run -/

variable {k : Kernel} {image : Memory}

/-- What the processor finds in its table is the hook, which then has saved the
original function, or the original function. -/
theorem dispatch_original {h : Hook} (inStep : InStep k image h)
    (original : image (entryOf k.sysCallTable NR_open) ≠ k.mySysOpen) :
    (h.mem (entryOf k.sysCallTable NR_open) = k.mySysOpen →
        h.origSysOpen = image (entryOf k.sysCallTable NR_open)) ∧
      (h.mem (entryOf k.sysCallTable NR_open) ≠ k.mySysOpen →
        h.mem (entryOf k.sysCallTable NR_open) = image (entryOf k.sysCallTable NR_open)) := by
  cases flag : h.toplelInstalled with
  | false =>
      rw [inStep.removed flag]
      exact ⟨fun hooked => absurd hooked original, fun _ => rfl⟩
  | true =>
      rcases inStep.installed flag with ⟨_, _, saved, mem⟩
      rw [mem, saved, hookedImage]
      by_cases here : entryOf k.sysCallTable NR_open = imageEntry k image
      · rw [here]
        refine ⟨fun _ => rfl, ?_⟩
        intro other
        exact absurd (Function.update_self ..) other
      · rw [Function.update_of_ne here]
        exact ⟨fun hooked => absurd hooked original, fun _ => rfl⟩

theorem transparentOpen_iff {s : Toplel} (inStep : InStep k image s.hook)
    (original : image (entryOf k.sysCallTable NR_open) ≠ k.mySysOpen) (op : HookOp) :
    TransparentOpen k serve (image (entryOf k.sysCallTable NR_open)) s op ↔ LegibleOpen k s op := by
  rcases dispatch_original inStep original with ⟨saved, plain⟩
  refine forall_congr' fun cwd => forall_congr' fun call => forall_congr' fun _ => ?_
  rw [dispatchOpen]
  by_cases hooked : s.hook.mem (entryOf k.sysCallTable NR_open) = k.mySysOpen
  · rw [if_pos hooked, saved hooked, hookedOpen_transparent_iff]
    exact ⟨fun legible _ => legible, fun legible => legible hooked⟩
  · rw [if_neg hooked]
    refine iff_of_true ?_ fun impossible => absurd impossible hooked
    rw [plain hooked]
    exact sysOpen_transparent ..

/-- Inserts, removes and opens keep the hook in step with the image. -/
theorem hookSystem_inStep {s : Toplel} (inStep : InStep k image s.hook) (op : HookOp) :
    InStep k image ((hookSystem k serve).next s op).hook := by
  cases op with
  | insert => exact insert_inStep inStep
  | remove => exact (remove_inStep inStep).1
  | openFile fs cwd call => exact inStep

/-- Every open of a run by a user's thread is transparent exactly when each of
them that comes to the hook has a name that the hook can read. -/
theorem transparent_iff_legible (serve : Word → SysOpen → Int)
    (original : image (entryOf k.sysCallTable NR_open) ≠ k.mySysOpen) (cr0 : Word)
    (ops : List HookOp) :
    (hookSystem k serve).Along
        (TransparentOpen k serve (image (entryOf k.sysCallTable NR_open)))
        { hook := { mem := image }, cr0 := cr0 } ops ↔
      (hookSystem k serve).Along (LegibleOpen k) { hook := { mem := image }, cr0 := cr0 } ops := by
  apply Machine.along_iff_of_invariant (hookSystem k serve) (fun s => InStep k image s.hook)
  · intro s op inStep
    exact hookSystem_inStep inStep op
  · intro s op inStep
    exact transparentOpen_iff inStep original op
  · exact InStep.initial k image

/-- A picture is opened through the hook. -/
theorem openPicture_transparent :
    (hookSystem smallKernel fun _ _ => 3).Along
      (TransparentOpen smallKernel (fun _ _ => 3)
        (smallImage (entryOf smallKernel.sysCallTable NR_open)))
      { hook := { mem := smallImage }, cr0 := CR0_WP }
      [.insert, .openFile .userDs (ascii ['/', 'm']) openPicture] := by
  apply (transparent_iff_legible (fun _ _ => 3) (by decide) CR0_WP _).mpr
  refine ⟨nofun, ?_, trivial⟩
  intro cwd call same _
  cases same
  exact ⟨ascii ['a', '.', 'j', 'p', 'g'], by decide, by decide⟩

/-- The open of a pointer into unmapped memory. -/
def openNowhere : OpenCall where
  filename := { below := [], mapped := [] }
  flags := 0
  mode := 0

/-- Through the hook, the original function is never called for it. -/
theorem openNowhere_not_transparent :
    ¬ (hookSystem smallKernel fun _ _ => -14).Along
      (TransparentOpen smallKernel (fun _ _ => -14)
        (smallImage (entryOf smallKernel.sysCallTable NR_open)))
      { hook := { mem := smallImage }, cr0 := CR0_WP }
      [.insert, .openFile .userDs (ascii ['/', 'm']) openNowhere] := by
  rintro ⟨_, here, _⟩
  rcases (here (ascii ['/', 'm']) openNowhere rfl).calls with ⟨passed, _, result, _⟩
  have faulted : (dispatchOpen smallKernel (fun _ _ => -14)
      ((hookSystem smallKernel fun _ _ => -14).next
        { hook := { mem := smallImage }, cr0 := CR0_WP } .insert)
      (ascii ['/', 'm']) { fs := .userDs } openNowhere).2 = none := by decide
  rw [faulted] at result
  cases result

end SyscallHook
end KernelHacking
