import KernelHacking.Foundations.Machine
import KernelHacking.SyscallHook.Module
import KernelHacking.SyscallHook.Patch

namespace KernelHacking
namespace SyscallHook

/-!
# The basic hook and the pages under the table

The first module of `4-hooks` hooks `open` only, and passes every call on.  It
trusts neither the write-protect bit alone: beside clearing the bit it makes
three pages around the start of the table writable, and looks at the result of
that only to log it.  Unloading clears and sets the bit again and puts the entry
back.  Nothing makes the pages read-only again.

`set_memory_rw` is the kernel's.  It is a parameter here, with what the module
takes it to do.
-/

def PAGE_SIZE : Word := 0x1000

/-- `PAGE_ALIGN(addr)`, which rounds up. -/
def pageAlign (addr : Word) : Word := (addr + (PAGE_SIZE - 1)) &&& ~~~(PAGE_SIZE - 1)

/-- The number of the page of an address. -/
def pageOf (addr : Word) : Word := addr >>> 12

/-- The bit of a page's flags that allows writing. -/
def PAGE_RW : Word := 0x2

/-- The flags of all pages. -/
abbrev Pages := Word → Word

/-- A page can be written. -/
def Writable (pages : Pages) (page : Word) : Prop := pages page &&& PAGE_RW = PAGE_RW

instance (pages : Pages) (page : Word) : Decidable (Writable pages page) :=
  inferInstanceAs (Decidable (_ = _))

/-- The numbers of some pages in a row. -/
def pagesFrom (addr : Word) (numpages : Nat) : List Word :=
  (List.range numpages).map fun i => pageOf (addr + PAGE_SIZE * BitVec.ofNat 64 i)

/-- `set_memory_rw(addr, numpages)`: the flags that it leaves, and its answer. -/
abbrev SetMemoryRw := Pages → Word → Nat → Pages × Int

/-- What the module takes `set_memory_rw` to do.  It may set the bit that allows
writing in the pages that it is given, and changes nothing else. -/
structure SetMemoryRw.Sound (setMemoryRw : SetMemoryRw) : Prop where
  outside : forall pages addr numpages page, page ∉ pagesFrom addr numpages →
    (setMemoryRw pages addr numpages).1 page = pages page
  inside : forall pages addr numpages page, page ∈ pagesFrom addr numpages →
    (setMemoryRw pages addr numpages).1 page = pages page ∨
      (setMemoryRw pages addr numpages).1 page = pages page ||| PAGE_RW

/-- `set_memory_rw` has made all pages writable, as the module logs when the answer
is zero. -/
def SetMemoryRw.Wins (setMemoryRw : SetMemoryRw) (pages : Pages) (addr : Word) (numpages : Nat) :
    Prop :=
  forall page, page ∈ pagesFrom addr numpages → Writable (setMemoryRw pages addr numpages).1 page

/-- The memory, the control register, the module's variables and the flags of
the pages. -/
structure Basic where
  patch : Patch
  pages : Pages

/-- The address that the module hands to `set_memory_rw`. -/
def rwStart (table : Word) : Word := pageAlign table - PAGE_SIZE

/-- `toplel_init`. -/
def basicInit (k : Kernel) (setMemoryRw : SetMemoryRw) (s : Basic) : Basic × Int :=
  let hook : Sys → Word := fun _ => k.mySysOpen
  let p := s.patch.assign k hook .search
  if p.vars.syscallTable = 0 then ({ s with patch := p }, -1)
  else
    let p := p.assign k hook .disable
    let addr := p.vars.syscallTable
    -- the answer is only logged
    let (pages, _) := setMemoryRw s.pages (pageAlign addr - PAGE_SIZE) 3
    let p := (p.assign k hook (.save .openFile)).assign k hook (.install .openFile)
    ({ patch := p.assign k hook .enable, pages := pages }, 0)

/-- `toplel_exit`. -/
def basicExit (k : Kernel) (s : Basic) : Basic :=
  let hook : Sys → Word := fun _ => k.mySysOpen
  let p := (s.patch.assign k hook .disable).assign k hook (.restore .openFile)
  { s with patch := p.assign k hook .enable }

structure BasicCall where
  filename : PathPtr
  flags : BitVec 32
  mode : BitVec 32

/-- A function called with the arguments of an open, and whether the caller
faults behind it. -/
structure BasicOpened where
  target : Word
  call : BasicCall
  faults : Bool

/-- `my_sys_open`.  It prints the name of the file after it has called the
original function. -/
def basicOpen (s : Basic) (call : BasicCall) : BasicOpened where
  target := s.patch.vars.orig .openFile
  call := call
  faults := (cstr call.filename.mapped).isNone

/-- The loaded module under open calls, which the processor looks up in its
table. -/
def basicSystem (k : Kernel) : Machine Basic BasicCall BasicOpened where
  step s call :=
    let target := s.patch.mem (entryOf k.sysCallTable NR_open)
    if target = k.mySysOpen then (s, basicOpen s call)
    else (s, { target := target, call := call, faults := false })

/-- The law of a load, some calls and an unload: the hook is the only change to
the memory in between, and afterwards everything is as it was. -/
structure LeavesNoTrace (k : Kernel) (setMemoryRw : SetMemoryRw) (s : Basic)
    (calls : List BasicCall) : Prop where
  hooked : forall before after, calls = before ++ after → forall address,
    ((basicSystem k).run (basicInit k setMemoryRw s).1 before).patch.mem address =
      if address = entryOf (findSysCallTable k s.patch.mem) NR_open then k.mySysOpen
      else s.patch.mem address
  memory : (basicExit k ((basicSystem k).run (basicInit k setMemoryRw s).1 calls)).patch.mem =
    s.patch.mem
  cr0 : (basicExit k ((basicSystem k).run (basicInit k setMemoryRw s).1 calls)).patch.cr0 =
    s.patch.cr0
  pages : (basicExit k ((basicSystem k).run (basicInit k setMemoryRw s).1 calls)).pages =
    s.pages

/-! ## Bits that are set twice -/

section Bits

variable {w : Nat}

theorem or_eq_self_iff (flags bits : BitVec w) : flags ||| bits = flags ↔ flags &&& bits = bits := by
  constructor
  · intro same
    rw [← same]
    ext i
    simp only [BitVec.getElem_or, BitVec.getElem_and]
    cases flags[i] <;> cases bits[i] <;> rfl
  · intro same
    rw [← same]
    ext i
    simp only [BitVec.getElem_or, BitVec.getElem_and]
    cases flags[i] <;> rfl

theorem clear_or (flags bits : BitVec w) : flags &&& ~~~bits ||| bits = flags ||| bits := by
  ext i
  simp only [BitVec.getElem_or, BitVec.getElem_and, BitVec.getElem_not]
  cases flags[i] <;> cases bits[i] <;> rfl

theorem or_or_self (flags bits : BitVec w) : flags ||| bits ||| bits = flags ||| bits := by
  rw [BitVec.or_assoc, BitVec.or_self]

end Bits

/-! ## What a load and an unload change -/

/-- The pages that the module asks for. -/
def rwPages (table : Word) : List Word := pagesFrom (rwStart table) 3

section Pages

variable {setMemoryRw : SetMemoryRw} (sound : setMemoryRw.Sound) (pages : Pages) (addr : Word)
  (numpages : Nat)

include sound

/-- No flags change exactly when no page is opened that was closed. -/
theorem SetMemoryRw.Sound.eq_iff :
    (setMemoryRw pages addr numpages).1 = pages ↔
      forall page, page ∈ pagesFrom addr numpages →
        Writable (setMemoryRw pages addr numpages).1 page → Writable pages page := by
  constructor
  · intro same page _ opened
    rwa [same] at opened
  · intro before
    funext page
    by_cases member : page ∈ pagesFrom addr numpages
    · rcases sound.inside pages addr numpages page member with same | set
      · exact same
      · have opened : Writable (setMemoryRw pages addr numpages).1 page := by
          rw [Writable, set]
          exact (or_eq_self_iff _ _).mp (or_or_self _ _)
        rw [set]
        exact (or_eq_self_iff _ _).mpr (before page member opened)
    · exact sound.outside pages addr numpages page member

/-- Where all pages are open now, no flags have changed exactly when all were open. -/
theorem SetMemoryRw.Sound.eq_iff_of_wins (wins : setMemoryRw.Wins pages addr numpages) :
    (setMemoryRw pages addr numpages).1 = pages ↔
      forall page, page ∈ pagesFrom addr numpages → Writable pages page := by
  rw [sound.eq_iff]
  constructor
  · intro before page member
    exact before page member (wins page member)
  · intro all page member _
    exact all page member

end Pages

variable {k : Kernel} {setMemoryRw : SetMemoryRw} {s : Basic}

/-- A load that succeeds has found a table. -/
theorem basicInit_found (success : (basicInit k setMemoryRw s).2 = 0) :
    findSysCallTable k s.patch.mem ≠ 0 := by
  intro missing
  simp only [basicInit, Patch.assign, missing, if_true] at success
  cases success

/-- What a load that finds a table leaves: the memory and the register are those
of the other versions. -/
theorem basicInit_eq (found : findSysCallTable k s.patch.mem ≠ 0) :
    (basicInit k setMemoryRw s).1 =
      { patch := (toplelInit k (fun _ => k.mySysOpen) rickrollCalls s.patch).1
        pages := (setMemoryRw s.pages (rwStart (findSysCallTable k s.patch.mem)) 3).1 } := by
  have real : (s.patch.assign k (fun _ => k.mySysOpen) .search).vars.syscallTable ≠ 0 := found
  simp only [basicInit, toplelInit, if_neg real]
  rfl

theorem basicExit_eq (k : Kernel) (s : Basic) :
    basicExit k s =
      { s with patch := toplelExit k (fun _ => k.mySysOpen) rickrollCalls s.patch } := rfl

/-- The calls change nothing. -/
theorem basicSystem_run (calls : List BasicCall) (s : Basic) : (basicSystem k).run s calls = s := by
  induction calls with
  | nil => rfl
  | cons call rest ih =>
      have kept : (basicSystem k).next s call = s := by
        simp only [Machine.next, basicSystem]
        split <;> rfl
      rw [Machine.run_cons, kept, ih]

/-- The control register after the two assignments, where writing was protected. -/
theorem protected_again {cr0 : Word} (protect : cr0 &&& CR0_WP = CR0_WP) :
    enableWriteProtection (disableWriteProtection cr0) = cr0 := by
  rw [enableWriteProtection, disableWriteProtection, clear_or]
  exact (or_eq_self_iff _ _).mpr protect

/-- A load that succeeds, any calls and an unload give back the memory and the
control register, and change no entry but the hooked one in between.  What is left
of the pages is what `set_memory_rw` made of them. -/
theorem leavesNoTrace_iff_pages (success : (basicInit k setMemoryRw s).2 = 0)
    (protect : s.patch.cr0 &&& CR0_WP = CR0_WP) (calls : List BasicCall) :
    LeavesNoTrace k setMemoryRw s calls ↔
      (setMemoryRw s.pages (rwStart (findSysCallTable k s.patch.mem)) 3).1 = s.pages := by
  have found := basicInit_found success
  have loaded : (basicInit k setMemoryRw s).1 = _ := basicInit_eq found
  rw [toplelInit_found _ _ _ found] at loaded
  constructor
  · intro law
    have pages := law.pages
    rw [basicSystem_run, loaded, basicExit_eq] at pages
    exact pages
  · intro pages
    constructor
    · intro before after split address
      rw [basicSystem_run, loaded]
      exact Function.update_apply ..
    · rw [basicSystem_run, loaded, basicExit_eq, toplelExit_eq]
      exact (Function.update_idem ..).trans (Function.update_eq_self ..)
    · rw [basicSystem_run, loaded, basicExit_eq, toplelExit_eq]
      rw [protected_again protect, protected_again protect]
    · rw [basicSystem_run, loaded, basicExit_eq]
      exact pages

/-- Everything is as before exactly when `set_memory_rw` opened no page that was
closed, and where it made the three pages writable exactly when they were before. -/
theorem leavesNoTrace_iff_writable (sound : setMemoryRw.Sound)
    (success : (basicInit k setMemoryRw s).2 = 0) (protect : s.patch.cr0 &&& CR0_WP = CR0_WP)
    (calls : List BasicCall) :
    (LeavesNoTrace k setMemoryRw s calls ↔
      forall page, page ∈ rwPages (findSysCallTable k s.patch.mem) →
        Writable (setMemoryRw s.pages (rwStart (findSysCallTable k s.patch.mem)) 3).1 page →
          Writable s.pages page) ∧
    (setMemoryRw.Wins s.pages (rwStart (findSysCallTable k s.patch.mem)) 3 →
      (LeavesNoTrace k setMemoryRw s calls ↔
        forall page, page ∈ rwPages (findSysCallTable k s.patch.mem) → Writable s.pages page)) := by
  rw [leavesNoTrace_iff_pages success protect]
  exact ⟨sound.eq_iff _ _ _, sound.eq_iff_of_wins _ _ _⟩

/-- A kernel whose `set_memory_rw` can change every page. -/
def changeAll : SetMemoryRw := fun pages addr numpages =>
  (fun page => if page ∈ pagesFrom addr numpages then pages page ||| PAGE_RW else pages page, 0)

theorem changeAll_sound : changeAll.Sound where
  outside _ _ _ _ other := if_neg other
  inside _ _ _ _ member := Or.inr (if_pos member)

theorem changeAll_wins (pages : Pages) (addr : Word) (numpages : Nat) :
    changeAll.Wins pages addr numpages := by
  intro page member
  have set : (changeAll pages addr numpages).1 page = pages page ||| PAGE_RW := if_pos member
  rw [Writable, set]
  exact (or_eq_self_iff _ _).mp (or_or_self _ _)

/-- The small kernel with one set of flags for all pages. -/
def smallMachine (flags : Word) : Basic where
  patch := { mem := smallImage, cr0 := CR0_WP }
  pages := fun _ => flags

/-- Where every page is writable from the start, nothing is left. -/
theorem writablePages_noTrace : LeavesNoTrace smallKernel changeAll (smallMachine PAGE_RW) [] :=
  ((leavesNoTrace_iff_writable changeAll_sound (by decide) (by decide) []).2
    (changeAll_wins _ _ _)).mpr fun _ _ => BitVec.and_self

/-- The page of a table in read-only memory stays writable. -/
theorem readOnlyPages_trace : ¬ LeavesNoTrace smallKernel changeAll (smallMachine 0) [] := by
  intro law
  have page := congrFun law.pages 1
  revert page
  decide

end SyscallHook
end KernelHacking
