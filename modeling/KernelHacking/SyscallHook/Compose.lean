import KernelHacking.Foundations.Machine
import KernelHacking.SyscallHook.Patch
import KernelHacking.SyscallHook.Module

namespace KernelHacking
namespace SyscallHook

/-!
# Several hook modules on one table

Each module keeps what it found in the table when it was loaded, and puts that
back when it is unloaded, whatever has become of it since.  The modules are
loaded and unloaded one after another, in any order; some ask the kernel for it
and some are told through their file `foo`.
-/

/-- The versions of the module, by what loads them and which calls they hook. -/
inductive Version where
  | rickroll
  | more
  | controlled
  deriving DecidableEq

def Version.calls : Version → List Sys
  | .rickroll => rickrollCalls
  | .more => moreCalls
  | .controlled => [.openFile]

/-- The modules, the kernel and the memory image that they are loaded into.  The
kernel's own functions and the hooks are all different. -/
structure Family (Id : Type*) extends Kernel where
  image : Memory
  version : Id → Version
  hook : Id → Sys → Word
  hookMapped : forall i, hook i .openFile ≠ 0
  notClose : forall i call, hook i call ≠ sysClose
  apart : forall i j, hook i .openFile = hook j .openFile → i = j
  foreign : forall i,
    image (entryOf (findSysCallTable toKernel image) NR_open) ≠ hook i .openFile

/-- The kernel as a module sees it. -/
def Family.kernel {Id : Type*} (F : Family Id) (i : Id) : Kernel :=
  { F.toKernel with mySysOpen := F.hook i .openFile, mapped := F.hookMapped i }

/-- The memory and the control register that the modules share, and the variables
of each.  `loaded` is what the kernel knows of a module, or the module's own
`toplel_installed`. -/
structure Shared (Id : Type*) where
  mem : Memory
  cr0 : Word
  vars : Id → Vars
  loaded : Id → Bool

inductive Change (Id : Type*) where
  | load (i : Id)
  | unload (i : Id)

section Family

variable {Id : Type*} [DecidableEq Id]

def Shared.patch (s : Shared Id) (i : Id) : Patch where
  mem := s.mem
  cr0 := s.cr0
  vars := s.vars i

/-- The state after a function of one module. -/
def Shared.put (s : Shared Id) (i : Id) (p : Patch) (loaded : Bool) : Shared Id where
  mem := p.mem
  cr0 := p.cr0
  vars := Function.update s.vars i p.vars
  loaded := Function.update s.loaded i loaded

/-- The state as `toplel_insert` and `toplel_remove` see it. -/
def Shared.toplel (s : Shared Id) (i : Id) : Toplel where
  hook := {
    mem := s.mem
    syscallTable := (s.vars i).syscallTable
    origSysOpen := (s.vars i).orig .openFile
    toplelInstalled := s.loaded i }
  cr0 := s.cr0

def Shared.putToplel (s : Shared Id) (i : Id) (t : Toplel) : Shared Id :=
  s.put i {
    mem := t.hook.mem
    cr0 := t.cr0
    vars := {
      syscallTable := t.hook.syscallTable
      orig := Function.update (s.vars i).orig .openFile t.hook.origSysOpen } }
    t.hook.toplelInstalled

/-- Load a module.  The kernel does not load a module twice. -/
def Shared.load (F : Family Id) (s : Shared Id) (i : Id) : Shared Id :=
  match F.version i with
  | .controlled => s.putToplel i (toplelInsert (F.kernel i) (s.toplel i)).1
  | version =>
      if s.loaded i then s
      else
        let (p, ret) := toplelInit (F.kernel i) (F.hook i) version.calls { s.patch i with vars := {} }
        s.put i p (ret = 0)

/-- Unload a module, if it is loaded. -/
def Shared.unload (F : Family Id) (s : Shared Id) (i : Id) : Shared Id :=
  match F.version i with
  | .controlled => s.putToplel i (toplelRemove (s.toplel i))
  | version =>
      if s.loaded i then
        s.put i (toplelExit (F.kernel i) (F.hook i) version.calls (s.patch i)) false
      else s

def family (F : Family Id) : Machine (Shared Id) (Change Id) Unit where
  step s change :=
    match change with
    | .load i => (s.load F i, ())
    | .unload i => (s.unload F i, ())

/-- No module is loaded. -/
def Shared.boot (F : Family Id) (cr0 : Word) : Shared Id where
  mem := F.image
  cr0 := cr0
  vars _ := {}
  loaded _ := false

/-- The table that the search finds before any module is loaded. -/
def Family.table (F : Family Id) : Word := findSysCallTable F.toKernel F.image

def Family.openEntry (F : Family Id) : Word := entryOf F.table NR_open

/-- The open entry is the original function or the hook of a module that is
loaded, and the original function when none is. -/
def Composed (F : Family Id) (s : Shared Id) : Prop :=
  (s.mem F.openEntry = F.image F.openEntry ∨
    ∃ i, s.loaded i = true ∧ s.mem F.openEntry = F.hook i .openFile) ∧
  ((forall i, s.loaded i = false) → s.mem F.openEntry = F.image F.openEntry)

/-- What stood in the open entry when each module was loaded, and the modules that
are loaded, the last one first.  No module keeps this. -/
structure Trail (Id : Type*) where
  found : Id → Word
  order : List Id

/-- A module leaves a trail when it comes to be loaded and when it is unloaded. -/
def Trail.next (F : Family Id) (s : Shared Id) (change : Change Id) (trail : Trail Id) : Trail Id :=
  match change with
  | .load i =>
      if s.loaded i = false ∧ (s.load F i).loaded i = true then
        { found := Function.update trail.found i (s.mem F.openEntry), order := i :: trail.order }
      else trail
  | .unload i => { trail with order := trail.order.erase i }

def Trail.boot : Trail Id := { found := fun _ => 0, order := [] }

def observed (F : Family Id) : Machine (Shared Id × Trail Id) (Change Id) Unit :=
  (family F).withGhost (Trail.next F)

/-- A module is unloaded only while the module whose hook it found in the table,
if it found a hook there, is another one that is loaded. -/
def InTurn (F : Family Id) (s : Shared Id × Trail Id) : Change Id → Prop
  | .load _ => True
  | .unload i => s.1.loaded i = true →
      forall j, s.2.found i = F.hook j .openFile → j ≠ i ∧ s.1.loaded j = true

/-- Of the modules that are loaded, the last one is unloaded first. -/
def LastFirst (s : Shared Id × Trail Id) : Change Id → Prop
  | .load _ => True
  | .unload i => s.1.loaded i = true → s.2.order.head? = some i

instance (s : Shared Id × Trail Id) : (change : Change Id) → Decidable (LastFirst s change)
  | .load _ => isTrue trivial
  | .unload _ => inferInstanceAs (Decidable (_ → _))

/-! ## What one load or unload does -/

theorem openFile_mem_calls (version : Version) : Sys.openFile ∈ version.calls := by
  cases version <;> exact List.mem_cons_self

omit [DecidableEq Id] in
theorem findSysCallTable_kernel (F : Family Id) (i : Id) (mem : Memory) :
    findSysCallTable (F.kernel i) mem = findSysCallTable F.toKernel mem := by
  have same : forall rounds address,
      searchFrom (F.kernel i) mem rounds address = searchFrom F.toKernel mem rounds address := by
    intro rounds
    induction rounds with
    | zero => exact fun _ => rfl
    | succ rounds ih =>
        intro address
        rw [searchFrom, searchFrom, ih]
        rfl
  exact congrArg (fun found => found.getD 0) (same _ _)

/-- Nothing is different for the modules that are loaded. -/
def Shared.Keeps (s s' : Shared Id) : Prop :=
  s'.mem = s.mem ∧ s'.loaded = s.loaded ∧ forall j, s.loaded j = true → s'.vars j = s.vars j

/-- A module that was not loaded has overwritten the entries of its calls and
keeps what they were. -/
def Shared.Patches (F : Family Id) (s : Shared Id) (i : Id) (s' : Shared Id) : Prop :=
  s.loaded i = false ∧ findSysCallTable F.toKernel s.mem ≠ 0 ∧
    s'.mem = writeAll (findSysCallTable F.toKernel s.mem) (F.hook i) (F.version i).calls s.mem ∧
    s'.loaded = Function.update s.loaded i true ∧
    ∃ vars, s'.vars = Function.update s.vars i vars ∧
      vars.syscallTable = findSysCallTable F.toKernel s.mem ∧
      forall call, call ∈ (F.version i).calls →
        vars.orig call = s.mem (entryOf (findSysCallTable F.toKernel s.mem) call.nr)

/-- A module that is not loaded may change its own variables. -/
theorem Shared.vars_apart {s : Shared Id} {i : Id} (removed : s.loaded i = false) {j : Id}
    (loaded : s.loaded j = true) (vars : Vars) :
    Function.update s.vars i vars j = s.vars j := by
  apply Function.update_of_ne
  rintro rfl
  exact Bool.false_ne_true (removed.symm.trans loaded)

theorem Shared.load_controlled (F : Family Id) (s : Shared Id) (i : Id)
    (controlled : F.version i = .controlled) :
    s.Keeps (s.load F i) ∨ s.Patches F i (s.load F i) := by
  have load : s.load F i = s.putToplel i (toplelInsert (F.kernel i) (s.toplel i)).1 := by
    rw [Shared.load, controlled]
  rw [load]
  rcases toplelInsert_cases (F.kernel i) (s.toplel i) with
    ⟨installed, result⟩ | ⟨removed, result⟩ | ⟨removed, found, result⟩
  · rw [result]
    refine Or.inl ⟨rfl, Function.update_eq_self i s.loaded, fun j _ => ?_⟩
    by_cases same : j = i
    · subst same
      simp only [Shared.putToplel, Shared.put, Shared.toplel, Function.update_eq_self]
    · exact Function.update_of_ne same ..
  · rw [result]
    exact Or.inl ⟨rfl, Function.update_eq_self i s.loaded,
      fun j loaded => Shared.vars_apart removed loaded _⟩
  · have table : findSysCallTable (F.kernel i) s.mem = findSysCallTable F.toKernel s.mem :=
      findSysCallTable_kernel F i s.mem
    rw [result, Shared.Patches, controlled, ← table]
    refine Or.inr ⟨removed, found, rfl, rfl, _, rfl, rfl, fun call member => ?_⟩
    rcases List.mem_singleton.mp member with rfl
    simp only [Function.update_self]
    rfl

theorem Shared.load_byInit (F : Family Id) (s : Shared Id) (i : Id)
    (other : F.version i ≠ .controlled) :
    s.Keeps (s.load F i) ∨ s.Patches F i (s.load F i) := by
  have byInit : s.load F i =
      if s.loaded i then s
      else s.put i
        (toplelInit (F.kernel i) (F.hook i) (F.version i).calls { s.patch i with vars := {} }).1
        ((toplelInit (F.kernel i) (F.hook i) (F.version i).calls
          { s.patch i with vars := {} }).2 = 0) := by
    rw [Shared.load]
    split
    · next controlled => exact absurd controlled other
    · rfl
  rw [byInit]
  cases installed : s.loaded i with
  | true => exact Or.inl ⟨rfl, rfl, fun _ _ => rfl⟩
  | false =>
      have table := findSysCallTable_kernel F i s.mem
      simp only [Bool.false_eq_true, if_false]
      by_cases missing : findSysCallTable (F.kernel i) s.mem = 0
      · rw [toplelInit_missing _ _ _ missing]
        refine Or.inl ⟨rfl, ?_, fun j loaded => Shared.vars_apart installed loaded _⟩
        exact Function.update_eq_self_iff.mpr (by rw [installed]; rfl)
      · rw [toplelInit_found _ _ _ missing, Shared.Patches, ← table]
        exact Or.inr ⟨installed, missing, rfl, rfl, _, rfl, rfl, fun call member => if_pos member⟩

/-- A load has no effect that counts, or it patches the table. -/
theorem Shared.load_cases (F : Family Id) (s : Shared Id) (i : Id) :
    s.Keeps (s.load F i) ∨ s.Patches F i (s.load F i) := by
  by_cases controlled : F.version i = .controlled
  · exact s.load_controlled F i controlled
  · exact s.load_byInit F i controlled

/-- An unload has no effect, or it puts back what the module has kept. -/
theorem Shared.unload_cases (F : Family Id) (s : Shared Id) (i : Id) :
    (s.loaded i = false ∧ (s.unload F i).mem = s.mem ∧ (s.unload F i).loaded = s.loaded ∧
      (s.unload F i).vars = s.vars) ∨
    (s.loaded i = true ∧
      (s.unload F i).mem =
        writeAll (s.vars i).syscallTable (s.vars i).orig (F.version i).calls s.mem ∧
      (s.unload F i).loaded = Function.update s.loaded i false ∧ (s.unload F i).vars = s.vars) := by
  have kept : Function.update (s.vars i).orig .openFile ((s.vars i).orig .openFile) =
      (s.vars i).orig := Function.update_eq_self ..
  by_cases controlled : F.version i = .controlled
  · have unload : s.unload F i = s.putToplel i (toplelRemove (s.toplel i)) := by
      rw [Shared.unload, controlled]
    rw [unload, controlled]
    rcases toplelRemove_cases (s.toplel i) with ⟨removed, result⟩ | ⟨installed, result⟩
    · refine Or.inl ⟨removed, by rw [result]; rfl, ?_, ?_⟩
      · rw [result]
        exact Function.update_eq_self i s.loaded
      · rw [result]
        simp only [Shared.putToplel, Shared.put, Shared.toplel, kept, Function.update_eq_self]
    · refine Or.inr ⟨installed, by rw [result]; rfl, by rw [result]; rfl, ?_⟩
      rw [result]
      simp only [Shared.putToplel, Shared.put, Shared.toplel, Hook.setInstalled, Hook.restore, kept,
        Function.update_eq_self]
  · have byExit : s.unload F i =
        if s.loaded i then
          s.put i (toplelExit (F.kernel i) (F.hook i) (F.version i).calls (s.patch i)) false
        else s := by
      rw [Shared.unload]
      split
      · next version => exact absurd version controlled
      · rfl
    rw [byExit]
    cases installed : s.loaded i with
    | false => exact Or.inl ⟨rfl, rfl, rfl, rfl⟩
    | true =>
        rw [if_pos rfl, toplelExit_eq]
        exact Or.inr ⟨rfl, rfl, rfl, Function.update_eq_self ..⟩

/-! ## The table in any order of loads and unloads -/

/-- What can stand in an entry of the table: what the image has there, or the
hook of some module. -/
def Family.Proper (F : Family Id) (call : Sys) (value : Word) : Prop :=
  value = F.image (entryOf F.table call.nr) ∨ ∃ i, value = F.hook i call

structure Tracked (F : Family Id) (s : Shared Id) : Prop where
  others : forall address, (forall call : Sys, address ≠ entryOf F.table call.nr) →
    s.mem address = F.image address
  proper : forall call : Sys, F.Proper call (s.mem (entryOf F.table call.nr))
  untouched : F.table = 0 → s.mem = F.image
  loaded : forall i, s.loaded i = true → F.table ≠ 0 ∧ (s.vars i).syscallTable = F.table ∧
    forall call, call ∈ (F.version i).calls → F.Proper call ((s.vars i).orig call)

variable {F : Family Id} {s : Shared Id}

omit [DecidableEq Id] in
theorem Tracked.boot (cr0 : Word) : Tracked F (Shared.boot F cr0) where
  others _ _ := rfl
  proper _ := Or.inl rfl
  untouched _ := rfl
  loaded _ loaded := nomatch loaded

omit [DecidableEq Id] in
/-- Every module finds the same table. -/
theorem Tracked.table (tracked : Tracked F s) : findSysCallTable F.toKernel s.mem = F.table := by
  by_cases missing : F.table = 0
  · rw [tracked.untouched missing]
    rfl
  · apply findSysCallTable_congr _ _ missing
    · exact tracked.others _ (close_ne_entry F.table)
    · intro address
      by_cases entry : ∃ call : Sys, address = entryOf F.table call.nr
      · rcases entry with ⟨call, rfl⟩
        rcases tracked.proper call with same | ⟨i, hook⟩
        · exact Or.inl same
        · exact Or.inr (hook ▸ F.notClose i call)
      · exact Or.inl (tracked.others address (not_exists.mp entry))

omit [DecidableEq Id] in
theorem Tracked.others_writeAll (tracked : Tracked F s) (value : Sys → Word) (calls : List Sys)
    {address : Word} (outside : forall call : Sys, address ≠ entryOf F.table call.nr) :
    writeAll F.table value calls s.mem address = F.image address :=
  (writeAll_other value calls s.mem outside).trans (tracked.others address outside)

omit [DecidableEq Id] in
theorem Tracked.proper_writeAll (tracked : Tracked F s) {value : Sys → Word} {calls : List Sys}
    (proper : forall call, call ∈ calls → F.Proper call (value call)) (call : Sys) :
    F.Proper call (writeAll F.table value calls s.mem (entryOf F.table call.nr)) := by
  rw [writeAll_entry]
  split_ifs with member
  · exact proper call member
  · exact tracked.proper call

omit [DecidableEq Id] in
/-- Nothing is written, and the loaded modules keep their variables. -/
theorem Tracked.keeps (tracked : Tracked F s) {after : Shared Id} (keeps : s.Keeps after) :
    Tracked F after := by
  rcases keeps with ⟨mem, loaded, vars⟩
  refine ⟨?_, ?_, ?_, ?_⟩
  · rw [mem]
    exact tracked.others
  · rw [mem]
    exact tracked.proper
  · rw [mem]
    exact tracked.untouched
  · intro j isLoaded
    rw [loaded] at isLoaded
    rw [vars j isLoaded]
    exact tracked.loaded j isLoaded

theorem Tracked.load (tracked : Tracked F s) (i : Id) : Tracked F (s.load F i) := by
  rcases s.load_cases F i with keeps | ⟨_, found, mem, loaded, kept, vars, table, orig⟩
  · exact tracked.keeps keeps
  · rw [tracked.table] at found mem table orig
    refine ⟨?_, ?_, fun missing => absurd missing found, ?_⟩
    · rw [mem]
      exact fun _ outside => tracked.others_writeAll _ _ outside
    · rw [mem]
      exact tracked.proper_writeAll fun call _ => Or.inr ⟨i, rfl⟩
    · intro j isLoaded
      rw [vars]
      by_cases same : j = i
      · subst same
        rw [Function.update_self]
        refine ⟨found, table, fun call member => ?_⟩
        rw [orig call member]
        exact tracked.proper call
      · rw [Function.update_of_ne same]
        rw [loaded, Function.update_of_ne same] at isLoaded
        exact tracked.loaded j isLoaded

theorem Tracked.unload (tracked : Tracked F s) (i : Id) : Tracked F (s.unload F i) := by
  rcases s.unload_cases F i with ⟨_, mem, loaded, vars⟩ | ⟨isLoaded, mem, loaded, vars⟩
  · exact tracked.keeps ⟨mem, loaded, fun j _ => congrFun vars j⟩
  · rcases tracked.loaded i isLoaded with ⟨found, table, proper⟩
    rw [table] at mem
    refine ⟨?_, ?_, fun missing => absurd missing found, ?_⟩
    · rw [mem]
      exact fun _ outside => tracked.others_writeAll _ _ outside
    · rw [mem]
      exact tracked.proper_writeAll proper
    · intro j still
      rw [vars]
      rw [loaded] at still
      by_cases same : j = i
      · rw [same, Function.update_self] at still
        exact absurd still Bool.false_ne_true
      · rw [Function.update_of_ne same] at still
        exact tracked.loaded j still

theorem Tracked.next (tracked : Tracked F s) (change : Change Id) :
    Tracked F ((family F).next s change) := by
  cases change with
  | load i => exact tracked.load i
  | unload i => exact tracked.unload i

/-! ## When the modules compose -/

/-- A load puts the hook of a loaded module into the entry, or changes nothing. -/
theorem Tracked.composed_load (tracked : Tracked F s) (composed : Composed F s) (i : Id) :
    Composed F (s.load F i) := by
  rcases s.load_cases F i with ⟨mem, loaded, _⟩ | ⟨_, _, mem, loaded, _⟩
  · rw [Composed, mem, loaded]
    exact composed
  · have hooked : (s.load F i).mem F.openEntry = F.hook i .openFile := by
      rw [mem, tracked.table]
      exact (writeAll_entry F.table _ _ _ .openFile).trans (if_pos (openFile_mem_calls _))
    have isLoaded : (s.load F i).loaded i = true := by
      rw [loaded]
      exact Function.update_self ..
    refine ⟨Or.inr ⟨i, isLoaded, hooked⟩, fun noneLoaded => ?_⟩
    exact Bool.noConfusion (isLoaded.symm.trans (noneLoaded i))

/-- The saved pointers of the loaded modules are what the trail says. -/
def Recorded (s : Shared Id × Trail Id) : Prop :=
  forall i, s.1.loaded i = true → (s.1.vars i).orig .openFile = s.2.found i

variable {trail : Trail Id}

/-- A load that counts is one that patches the table. -/
theorem Trail.next_load_keeps {i : Id} (keeps : s.Keeps (s.load F i)) :
    trail.next F s (.load i) = trail := by
  refine if_neg fun loads => ?_
  rw [keeps.2.1, loads.1] at loads
  exact Bool.false_ne_true loads.2

theorem Trail.next_load_patches {i : Id} (patches : s.Patches F i (s.load F i)) :
    trail.next F s (.load i) =
      { found := Function.update trail.found i (s.mem F.openEntry), order := i :: trail.order } := by
  rcases patches with ⟨removed, _, _, loaded, _⟩
  refine if_pos ⟨removed, ?_⟩
  rw [loaded]
  exact Function.update_self ..

theorem Tracked.recorded_next (tracked : Tracked F s) (recorded : Recorded (s, trail))
    (change : Change Id) : Recorded ((observed F).next (s, trail) change) := by
  cases change with
  | load i =>
      change Recorded (s.load F i, trail.next F s (.load i))
      rcases s.load_cases F i with keeps | patches
      · intro j isLoaded
        have stays : s.loaded j = true := keeps.2.1 ▸ isLoaded
        rw [Trail.next_load_keeps keeps, keeps.2.2 j stays]
        exact recorded j stays
      · rw [Trail.next_load_patches patches]
        rcases patches with ⟨_, _, _, loaded, kept, vars, _, orig⟩
        intro j isLoaded
        dsimp only at isLoaded ⊢
        rw [vars]
        by_cases same : j = i
        · subst same
          rw [Function.update_self, Function.update_self, orig _ (openFile_mem_calls _),
            tracked.table]
          rfl
        · rw [Function.update_of_ne same, Function.update_of_ne same]
          rw [loaded, Function.update_of_ne same] at isLoaded
          exact recorded j isLoaded
  | unload i =>
      change Recorded (s.unload F i, trail.next F s (.unload i))
      rcases s.unload_cases F i with ⟨_, _, loaded, vars⟩ | ⟨_, _, loaded, vars⟩
      · intro j isLoaded
        rw [vars]
        exact recorded j (loaded ▸ isLoaded)
      · intro j isLoaded
        rw [vars]
        apply recorded j
        by_cases same : j = i
        · rw [loaded, same, Function.update_self] at isLoaded
          exact absurd isLoaded Bool.false_ne_true
        · rwa [loaded, Function.update_of_ne same] at isLoaded

/-- Unloading a module puts back what it found. -/
theorem Tracked.unload_entry (tracked : Tracked F s) (recorded : Recorded (s, trail)) {i : Id}
    (isLoaded : s.loaded i = true)
    (mem : (s.unload F i).mem =
      writeAll (s.vars i).syscallTable (s.vars i).orig (F.version i).calls s.mem) :
    (s.unload F i).mem F.openEntry = trail.found i := by
  rw [mem, (tracked.loaded i isLoaded).2.1, ← recorded i isLoaded]
  exact (writeAll_entry F.table _ _ _ .openFile).trans (if_pos (openFile_mem_calls _))

/-- An unload leaves the entry as it should be exactly when it is its turn. -/
theorem Tracked.composed_unload_iff (tracked : Tracked F s) (recorded : Recorded (s, trail))
    (composed : Composed F s) (i : Id) :
    Composed F (s.unload F i) ↔ InTurn F (s, trail) (.unload i) := by
  rcases s.unload_cases F i with ⟨removed, mem, loaded, _⟩ | ⟨isLoaded, mem, loaded, _⟩
  · rw [Composed, mem, loaded]
    exact iff_of_true composed fun isLoaded =>
      absurd (removed.symm.trans isLoaded) Bool.false_ne_true
  · have restored : (s.unload F i).mem F.openEntry = trail.found i :=
      tracked.unload_entry recorded isLoaded mem
    have proper : F.Proper .openFile (trail.found i) :=
      recorded i isLoaded ▸ (tracked.loaded i isLoaded).2.2 .openFile (openFile_mem_calls _)
    have still : forall j, (s.unload F i).loaded j = true ↔ j ≠ i ∧ s.loaded j = true := by
      intro j
      rw [loaded]
      by_cases same : j = i
      · simp [same]
      · simp [same]
    constructor
    · rintro ⟨entry, _⟩ _ j found
      rw [restored] at entry
      rcases entry with original | ⟨l, isStill, hook⟩
      · exact absurd (original.symm.trans found) (F.foreign j)
      · rcases F.apart l j (hook.symm.trans found) with rfl
        exact (still l).mp isStill
    · intro inTurn
      rw [Composed, restored]
      rcases proper with original | ⟨j, hook⟩
      · exact ⟨Or.inl original, fun _ => original⟩
      · have isStill := (still j).mpr (inTurn isLoaded j hook)
        refine ⟨Or.inr ⟨j, isStill, hook⟩, fun noneLoaded => ?_⟩
        exact Bool.noConfusion (isStill.symm.trans (noneLoaded j))

theorem Tracked.composed_iff (tracked : Tracked F s) (recorded : Recorded (s, trail))
    (composed : Composed F s) (change : Change Id) :
    Composed F ((family F).next s change) ↔ InTurn F (s, trail) change := by
  cases change with
  | load i => exact iff_of_true (tracked.composed_load composed i) trivial
  | unload i => exact tracked.composed_unload_iff recorded composed i

/-- What holds between the steps of a run in which the modules compose. -/
structure Between (F : Family Id) (s : Shared Id × Trail Id) : Prop where
  tracked : Tracked F s.1
  recorded : Recorded s
  composed : Composed F s.1

omit [DecidableEq Id] in
theorem Between.boot (cr0 : Word) : Between F (Shared.boot F cr0, Trail.boot) where
  tracked := Tracked.boot cr0
  recorded _ loaded := nomatch loaded
  composed := ⟨Or.inl rfl, fun _ => rfl⟩

theorem Between.next {s : Shared Id × Trail Id} (between : Between F s) {change : Change Id}
    (composed : Composed F ((family F).next s.1 change)) :
    Between F ((observed F).next s change) :=
  ⟨between.tracked.next change, between.tracked.recorded_next between.recorded change, composed⟩

theorem Between.iff {s : Shared Id × Trail Id} (between : Between F s) (change : Change Id) :
    Composed F ((family F).next s.1 change) ↔ InTurn F s change :=
  between.tracked.composed_iff between.recorded between.composed change

theorem composed_of_along_inTurn (F : Family Id) (cr0 : Word) {changes : List (Change Id)}
    (inTurn : (observed F).Along (InTurn F) (Shared.boot F cr0, Trail.boot) changes) :
    (family F).Along (fun s change => Composed F ((family F).next s change)) (Shared.boot F cr0)
      changes := by
  rw [← (family F).withGhost_along_fst (Trail.next F) _ (Shared.boot F cr0, Trail.boot)]
  exact (observed F).along_of_invariant (Between F) _ _
    (fun _ change between inTurn => between.next ((between.iff change).mpr inTurn))
    (fun _ change between => (between.iff change).mpr) (Between.boot cr0) inTurn

/-- The modules compose throughout a run exactly when each of them is unloaded
while the module whose hook it found, if any, is still loaded. -/
theorem composed_iff_inTurn (F : Family Id) (cr0 : Word) (changes : List (Change Id)) :
    (family F).Along (fun s change => Composed F ((family F).next s change)) (Shared.boot F cr0)
        changes ↔
      (observed F).Along (InTurn F) (Shared.boot F cr0, Trail.boot) changes := by
  refine ⟨fun composed => ?_, composed_of_along_inTurn F cr0⟩
  rw [← (family F).withGhost_along_fst (Trail.next F) _ (Shared.boot F cr0, Trail.boot)]
    at composed
  exact (observed F).along_of_invariant (Between F) _ _
    (fun _ _ between composed => between.next composed)
    (fun _ change between => (between.iff change).mp) (Between.boot cr0) composed

/-! ## The last module first -/

/-- The entry is the hook of the first of these modules, which found the hook of
the second, and so on down to the original function. -/
def Stacked (F : Family Id) (found : Id → Word) : List Id → Word → Prop
  | [], value => value = F.image F.openEntry
  | i :: rest, value => value = F.hook i .openFile ∧ Stacked F found rest (found i)

omit [DecidableEq Id] in
theorem Stacked.congr {found found' : Id → Word} {order : List Id}
    (same : forall i, i ∈ order → found' i = found i) {value : Word}
    (stacked : Stacked F found order value) : Stacked F found' order value := by
  induction order generalizing value with
  | nil => exact stacked
  | cons i rest ih =>
      refine ⟨stacked.1, ih (fun j member => same j (List.mem_cons_of_mem i member)) ?_⟩
      rw [same i List.mem_cons_self]
      exact stacked.2

/-- What holds between the steps when the last module is unloaded first. -/
structure Piled (F : Family Id) (s : Shared Id × Trail Id) : Prop where
  tracked : Tracked F s.1
  recorded : Recorded s
  stacked : Stacked F s.2.found s.2.order (s.1.mem F.openEntry)
  distinct : s.2.order.Nodup
  loaded : forall i, i ∈ s.2.order ↔ s.1.loaded i = true

omit [DecidableEq Id] in
theorem Piled.boot (cr0 : Word) : Piled F (Shared.boot F cr0, Trail.boot) where
  tracked := Tracked.boot cr0
  recorded _ loaded := nomatch loaded
  stacked := rfl
  distinct := List.nodup_nil
  loaded _ := iff_of_false List.not_mem_nil Bool.false_ne_true

omit [DecidableEq Id] in
/-- The next module below is the one whose hook was found. -/
theorem Piled.inTurn (piled : Piled F (s, trail)) {change : Change Id}
    (lastFirst : LastFirst (s, trail) change) : InTurn F (s, trail) change := by
  cases change with
  | load i => trivial
  | unload i =>
      intro isLoaded j found
      rcases List.head?_eq_some_iff.mp (lastFirst isLoaded) with ⟨rest, order⟩
      have stacked := piled.stacked
      have distinct := piled.distinct
      have loaded := piled.loaded
      dsimp only at found stacked distinct loaded order ⊢
      rw [order] at stacked distinct loaded
      cases rest with
      | nil => exact absurd (stacked.2.symm.trans found) (F.foreign j)
      | cons below rest =>
          rcases F.apart below j (stacked.2.1.symm.trans found) with rfl
          have member : below ∈ i :: below :: rest := List.mem_cons_of_mem i List.mem_cons_self
          refine ⟨?_, (loaded below).mp member⟩
          rintro rfl
          exact (List.nodup_cons.mp distinct).1 List.mem_cons_self

theorem Piled.load (piled : Piled F (s, trail)) (i : Id) :
    Piled F (s.load F i, trail.next F s (.load i)) := by
  have tracked := piled.tracked.load i
  have recorded := piled.tracked.recorded_next piled.recorded (.load i)
  rcases s.load_cases F i with keeps | patches
  · have left : trail.next F s (.load i) = trail := Trail.next_load_keeps keeps
    refine ⟨tracked, recorded, ?_, ?_, ?_⟩
    · rw [left, keeps.1]
      exact piled.stacked
    · rw [left]
      exact piled.distinct
    · rw [left, keeps.2.1]
      exact piled.loaded
  · have left : trail.next F s (.load i) = { found := _, order := i :: trail.order } :=
      Trail.next_load_patches patches
    rcases patches with ⟨removed, _, mem, loaded, _⟩
    have fresh : i ∉ _ := fun member =>
      Bool.false_ne_true (removed.symm.trans ((piled.loaded i).mp member))
    have below : forall j, j ∈ trail.order →
        Function.update trail.found i (s.mem F.openEntry) j = trail.found j := by
      intro j member
      apply Function.update_of_ne
      rintro rfl
      exact fresh member
    refine ⟨tracked, recorded, ?_, ?_, ?_⟩
    · rw [left, mem, piled.tracked.table]
      refine ⟨(writeAll_entry F.table _ _ _ .openFile).trans (if_pos (openFile_mem_calls _)), ?_⟩
      dsimp only
      rw [Function.update_self]
      exact piled.stacked.congr below
    · rw [left]
      exact List.nodup_cons.mpr ⟨fresh, piled.distinct⟩
    · intro j
      rw [left, loaded, List.mem_cons, piled.loaded j]
      by_cases same : j = i
      · simp [same]
      · simp [same]

theorem Piled.unload (piled : Piled F (s, trail)) {i : Id}
    (lastFirst : LastFirst (s, trail) (.unload i)) :
    Piled F (s.unload F i, trail.next F s (.unload i)) := by
  have tracked := piled.tracked.unload i
  have recorded := piled.tracked.recorded_next piled.recorded (.unload i)
  rcases s.unload_cases F i with ⟨removed, mem, loaded, _⟩ | ⟨isLoaded, mem, loaded, _⟩
  · have absent : i ∉ trail.order := fun member =>
      Bool.false_ne_true (removed.symm.trans ((piled.loaded i).mp member))
    have order : trail.order.erase i = trail.order := List.erase_of_not_mem absent
    refine ⟨tracked, recorded, ?_, ?_, ?_⟩
    · rw [Trail.next, order, mem]
      exact piled.stacked
    · rw [Trail.next, order]
      exact piled.distinct
    · rw [Trail.next, order, loaded]
      exact piled.loaded
  · rcases List.head?_eq_some_iff.mp (lastFirst isLoaded) with ⟨rest, order⟩
    dsimp only at order
    have erased : trail.order.erase i = rest := by
      rw [order]
      exact List.erase_cons_head ..
    have stacked := piled.stacked
    have distinct := piled.distinct
    have members := piled.loaded
    dsimp only at stacked distinct members
    rw [order] at stacked distinct members
    refine ⟨tracked, recorded, ?_, ?_, ?_⟩
    · rw [Trail.next, erased, piled.tracked.unload_entry piled.recorded isLoaded mem]
      exact stacked.2
    · rw [Trail.next, erased]
      exact (List.nodup_cons.mp distinct).2
    · intro j
      rw [Trail.next, erased, loaded]
      by_cases same : j = i
      · subst same
        rw [Function.update_self]
        exact iff_of_false (List.nodup_cons.mp distinct).1 Bool.false_ne_true
      · rw [Function.update_of_ne same, ← members j, List.mem_cons]
        exact (or_iff_right same).symm

/-- Modules that are unloaded in the opposite order to that in which they were
loaded compose, and others may be loaded at any time. -/
theorem composed_of_lastFirst (F : Family Id) (cr0 : Word) {changes : List (Change Id)}
    (lastFirst : (observed F).Along LastFirst (Shared.boot F cr0, Trail.boot) changes) :
    (family F).Along (fun s change => Composed F ((family F).next s change)) (Shared.boot F cr0)
      changes := by
  apply composed_of_along_inTurn F cr0
  refine (observed F).along_of_invariant (Piled F) LastFirst (InTurn F) ?_
    (fun _ _ piled lastFirst => piled.inTurn lastFirst) (Piled.boot cr0) lastFirst
  intro s change piled lastFirst
  cases change with
  | load i => exact piled.load i
  | unload i => exact piled.unload lastFirst

end Family

/-- Two modules of the second version. -/
def twoModules : Family Bool where
  toKernel := smallKernel
  image address := if address = 0x1020 then 0x1000 else 0x2000
  version _ := .rickroll
  hook i _ := if i then 0x3000 else 0x4000
  hookMapped := by decide
  notClose i _ := by cases i <;> decide
  apart := by decide
  foreign := by decide

/-- The module that was loaded first is unloaded first, and its hook comes back
when the other one is unloaded. -/
theorem twoModules_not_composed :
    ¬ forall changes, (family twoModules).Along
      (fun s change => Composed twoModules ((family twoModules).next s change))
      (Shared.boot twoModules CR0_WP) changes := by
  intro composed
  have last := (composed [.load true, .load false, .unload true, .unload false]).2.2.2.1
  have original := last.2 (by decide)
  revert original
  decide

/-- In the opposite order, and one of them twice. -/
theorem twoModules_composed :
    (family twoModules).Along (fun s change => Composed twoModules ((family twoModules).next s change))
      (Shared.boot twoModules CR0_WP)
      [.load true, .load false, .unload false, .load false, .unload false, .unload true] :=
  composed_of_lastFirst twoModules CR0_WP (by decide)

end SyscallHook
end KernelHacking
