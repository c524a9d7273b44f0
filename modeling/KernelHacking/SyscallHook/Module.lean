import KernelHacking.Foundations.Machine
import KernelHacking.SyscallHook.Redirect
import KernelHacking.SyscallHook.Toplel

namespace KernelHacking
namespace SyscallHook

/-!
# The module from load to unload

Numbers written to the sysfs file `foo` install and remove the hook, whatever
they were written for: text without a number leaves `foo` as it is, and the
command that it holds is carried out once more.  Between these writes any
process may open files, through the hook or not.

`kmod_get_retarded` replaces the module's exit function by one that logs a line
and calls `kmod_exit`, which removes the hook.

The calls are taken one after another here.  What they keep in step is stated
against the memory image that the module found when it was loaded.
-/

structure Module where
  toplel : Toplel
  foo : BitVec 32 := 0
  opener : Opener

/-- The module as it is loaded into a memory image. -/
def Module.load (image : Memory) (cr0 : Word) (opener : Opener) : Module where
  toplel := { hook := { mem := image }, cr0 := cr0 }
  opener := opener

inductive Call where
  | store (text : List UInt8)
  | openFile (call : OpenCall)

/-- A write to `foo` returns a count and may have restarted the machine.  An
open faults, or comes down to a call of some `sys_open`. -/
inductive Outcome where
  | stored (ret : Nat) (restarted : Bool)
  | faulted
  | passed (target : Word) (call : SysOpen)

/-- `foo_store`.  A restart ends the run; the model lets it go on. -/
def fooStore (k : Kernel) (m : Module) (text : List UInt8) : Module × Outcome :=
  let m := { m with foo := (scanUnsigned text).getD m.foo }
  match command m.foo with
  | .restart => (m, .stored text.length true)
  | .insert => ({ m with toplel := (toplelInsert k m.toplel).1 }, .stored text.length false)
  | .remove => ({ m with toplel := toplelRemove m.toplel }, .stored text.length false)
  | .nothing => (m, .stored text.length false)

/-- The open system call, dispatched through the processor's table. -/
def openSyscall (k : Kernel) (m : Module) (call : OpenCall) : Module × Outcome :=
  let target := m.toplel.hook.mem (entryOf k.sysCallTable NR_open)
  if target = k.mySysOpen then
    match mySysOpen m.opener call with
    | none => (m, .faulted)
    | some (opener, passed) =>
        ({ m with opener := opener }, .passed m.toplel.hook.origSysOpen passed)
  else
    (m, .passed target {
      path := .user call.filename
      flags := call.flags
      mode := call.mode.setWidth 32
      fs := m.opener.fs })

/-- `kmod_exit`, as far as it concerns the hook. -/
def kmodExit (m : Module) : Module :=
  { m with toplel := toplelRemove m.toplel }

/-- The loaded module under the calls of its users. -/
def system (k : Kernel) : Machine Module Call Outcome where
  step m call :=
    match call with
    | .store text => fooStore k m text
    | .openFile call => openSyscall k m call

/-! ## What one call does to the hook -/

/-- An insert gives up at once, or because there is no table, or it runs
through all of its assignments. -/
theorem toplelInsert_cases (k : Kernel) (s : Toplel) :
    (s.hook.toplelInstalled = true ∧ toplelInsert k s = (s, -1)) ∨
      (s.hook.toplelInstalled = false ∧ toplelInsert k s = ({ s with hook := s.hook.search k }, -1)) ∨
      (s.hook.toplelInstalled = false ∧ findSysCallTable k s.hook.mem ≠ 0 ∧
        toplelInsert k s =
          ({ hook := ((s.hook.search k).save.install k).setInstalled true
             cr0 := enableWriteProtection (disableWriteProtection s.cr0) }, 0)) := by
  rw [toplelInsert]
  by_cases already : s.hook.toplelInstalled = true
  · rw [if_pos already]
    exact Or.inl ⟨already, rfl⟩
  · have removed := Bool.eq_false_iff.mpr already
    rw [if_neg already]
    by_cases missing : (s.hook.search k).syscallTable = 0
    · exact Or.inr (Or.inl ⟨removed, if_pos missing⟩)
    · exact Or.inr (Or.inr ⟨removed, missing, if_neg missing⟩)

/-- An insert that returns -1 leaves the memory, the control register and the
flag as they were. -/
theorem toplelInsert_refused {k : Kernel} {s : Toplel} (refused : (toplelInsert k s).2 = -1) :
    (toplelInsert k s).1.hook.mem = s.hook.mem ∧ (toplelInsert k s).1.cr0 = s.cr0 ∧
      (toplelInsert k s).1.hook.toplelInstalled = s.hook.toplelInstalled := by
  rcases toplelInsert_cases k s with ⟨_, result⟩ | ⟨_, result⟩ | ⟨_, _, result⟩
  · rw [result]
    exact ⟨rfl, rfl, rfl⟩
  · rw [result]
    exact ⟨rfl, rfl, rfl⟩
  · rw [result] at refused
    cases refused

/-- A remove has nothing to do, or it runs through all of its assignments. -/
theorem toplelRemove_cases (s : Toplel) :
    (s.hook.toplelInstalled = false ∧ toplelRemove s = s) ∨
      (s.hook.toplelInstalled = true ∧ toplelRemove s =
        { hook := s.hook.restore.setInstalled false
          cr0 := enableWriteProtection (disableWriteProtection s.cr0) }) := by
  rw [toplelRemove]
  cases installed : s.hook.toplelInstalled
  · exact Or.inl ⟨rfl, rfl⟩
  · exact Or.inr ⟨rfl, rfl⟩

/-- The flag, the saved pointer and the memory are in step with the image. -/
structure InStep (k : Kernel) (image : Memory) (h : Hook) : Prop where
  removed : h.toplelInstalled = false → h.mem = image
  installed : h.toplelInstalled = true →
    findSysCallTable k image ≠ 0 ∧ h.syscallTable = findSysCallTable k image ∧
      h.origSysOpen = image (imageEntry k image) ∧ h.mem = hookedImage k image

/-- A hook that has not been used yet is in step with its memory. -/
theorem InStep.initial (k : Kernel) (image : Memory) : InStep k image { mem := image } where
  removed _ := rfl
  installed impossible := by cases impossible

theorem insert_inStep {k : Kernel} {image : Memory} {s : Toplel}
    (inStep : InStep k image s.hook) : InStep k image (toplelInsert k s).1.hook := by
  rcases toplelInsert_cases k s with ⟨_, result⟩ | ⟨removed, result⟩ | ⟨removed, found, result⟩
  · rw [result]
    exact inStep
  · rw [result]
    constructor
    · exact inStep.removed
    · intro installed
      exact absurd (removed.symm.trans installed) Bool.false_ne_true
  · have clean := inStep.removed removed
    rw [result]
    constructor
    · intro impossible
      cases impossible
    · intro _
      rw [clean] at found
      have table : (s.hook.search k).syscallTable = findSysCallTable k image := search_image clean
      exact ⟨found, table, save_image table clean, install_image table clean⟩

theorem remove_inStep {k : Kernel} {image : Memory} {s : Toplel}
    (inStep : InStep k image s.hook) :
    InStep k image (toplelRemove s).hook ∧ (toplelRemove s).hook.toplelInstalled = false := by
  rcases toplelRemove_cases s with ⟨removed, result⟩ | ⟨installed, result⟩
  · rw [result]
    exact ⟨inStep, removed⟩
  · rcases inStep.installed installed with ⟨_, table, saved, mem⟩
    rw [result]
    refine ⟨⟨?_, ?_⟩, rfl⟩
    · intro _
      exact restore_image table saved (Or.inr mem)
    · intro impossible
      cases impossible

/-- Every call keeps the hook in step with the image. -/
theorem inStep_next {k : Kernel} {image : Memory} {m : Module}
    (inStep : InStep k image m.toplel.hook) (call : Call) :
    InStep k image ((system k).next m call).toplel.hook := by
  cases call with
  | store text =>
      simp only [Machine.next, system, fooStore]
      cases command ((scanUnsigned text).getD m.foo) with
      | restart => exact inStep
      | insert => exact insert_inStep inStep
      | remove => exact (remove_inStep inStep).1
      | nothing => exact inStep
  | openFile call =>
      simp only [Machine.next, system, openSyscall]
      split
      · cases mySysOpen m.opener call with
        | none => exact inStep
        | some result => exact inStep
      · exact inStep

theorem inStep_run (k : Kernel) (image : Memory) (cr0 : Word) (opener : Opener)
    (calls : List Call) :
    InStep k image ((system k).run (Module.load image cr0 opener) calls).toplel.hook := by
  apply Machine.run_invariant_of_step (system k) (fun m => InStep k image m.toplel.hook)
  · intro m call inStep
    exact inStep_next inStep call
  · exact InStep.initial k image

/-! ## The law of the hook -/

/-- What the flag says about the table and the saved pointer.  `image` is the
memory before the module was loaded. -/
structure HookLaw (k : Kernel) (image : Memory) (h : Hook) : Prop where
  flag_iff : h.toplelInstalled = true ↔
    findSysCallTable k image ≠ 0 ∧ h.mem (imageEntry k image) = k.mySysOpen
  saved : h.toplelInstalled = true →
    h.origSysOpen = image (imageEntry k image) ∧ h.origSysOpen ≠ k.mySysOpen
  restored : h.toplelInstalled = false → h.mem = image
  others : forall address, address ≠ imageEntry k image → h.mem address = image address

theorem InStep.law {k : Kernel} {image : Memory} {h : Hook} (inStep : InStep k image h)
    (original : findSysCallTable k image ≠ 0 → image (imageEntry k image) ≠ k.mySysOpen) :
    HookLaw k image h where
  flag_iff := by
    constructor
    · intro installed
      rcases inStep.installed installed with ⟨found, _, _, mem⟩
      exact ⟨found, by rw [mem, hookedImage_entry]⟩
    · rintro ⟨found, hooked⟩
      by_contra removed
      rw [inStep.removed (Bool.eq_false_iff.mpr removed)] at hooked
      exact original found hooked
  saved := by
    intro installed
    rcases inStep.installed installed with ⟨found, _, saved, _⟩
    exact ⟨saved, saved ▸ original found⟩
  restored := inStep.removed
  others := by
    intro address other
    cases flag : h.toplelInstalled with
    | false => rw [inStep.removed flag]
    | true =>
        rw [(inStep.installed flag).2.2.2]
        exact Function.update_of_ne other ..

/-- Whatever is written to `foo` and whatever is opened, the law of the hook
holds after every call and after the module is unloaded, unloading it gives the
memory image back, and an insert that is refused changes nothing that counts. -/
theorem hookLaw_run {k : Kernel} {image : Memory}
    (original : findSysCallTable k image ≠ 0 → image (imageEntry k image) ≠ k.mySysOpen)
    (cr0 : Word) (opener : Opener) (calls : List Call) :
    HookLaw k image ((system k).run (Module.load image cr0 opener) calls).toplel.hook ∧
      HookLaw k image (kmodExit ((system k).run (Module.load image cr0 opener) calls)).toplel.hook ∧
      (kmodExit ((system k).run (Module.load image cr0 opener) calls)).toplel.hook.mem = image ∧
      forall s : Toplel, (toplelInsert k s).2 = -1 →
        (toplelInsert k s).1.hook.mem = s.hook.mem ∧ (toplelInsert k s).1.cr0 = s.cr0 ∧
          (toplelInsert k s).1.hook.toplelInstalled = s.hook.toplelInstalled := by
  have inStep := inStep_run k image cr0 opener calls
  rcases remove_inStep inStep with ⟨after, removed⟩
  exact ⟨inStep.law original, after.law original, after.removed removed,
    fun s refused => toplelInsert_refused refused⟩

/-! ## A small kernel -/

/-- The table's entry for `close` is `sys_close`, and the other words belong to
some function. -/
def smallImage : Memory :=
  fun address => if address = 0x1020 then 0x1000 else 0x2000

/-- A user's thread, and the module compiled in the root directory. -/
def smallOpener : Opener where
  cwd := ascii ['/', 't', 'o', 'p', 'l', 'e', 'l', '.', 'c']
  fs := .userDs

/-- The hook is installed, installed again by a line without number, and used. -/
theorem smallKernel_law :
    HookLaw smallKernel smallImage
      ((system smallKernel).run (Module.load smallImage CR0_WP smallOpener)
        [.store (ascii ['1', '3', '3', '7']), .store (ascii ['x']), .openFile openPicture]).toplel.hook :=
  (hookLaw_run (by decide) CR0_WP smallOpener _).1

end SyscallHook
end KernelHacking
