import KernelHacking.SyscallHook.Toplel

namespace KernelHacking
namespace SyscallHook

/-!
# Loading and unloading the modules of `4-hooks`

`toplel_init` looks for the table, saves the entries of the calls that the
module hooks, all of them before the first is overwritten, and then puts its own
functions there.  `toplel_exit` puts the saved entries back.  The versions hook
one call or three.  Neither function asks whether the module is loaded, since
the kernel calls them once each.
-/

def NR_mkdir : Word := 83
def NR_rmdir : Word := 84

/-- The system calls that are hooked by some version. -/
inductive Sys where
  | openFile
  | mkdir
  | rmdir
  deriving DecidableEq

def Sys.nr : Sys → Word
  | .openFile => NR_open
  | .mkdir => NR_mkdir
  | .rmdir => NR_rmdir

/-- The static variables of a module. -/
structure Vars where
  syscallTable : Word := 0
  orig : Sys → Word := fun _ => 0

/-- The memory and the control register with a module's variables. -/
structure Patch where
  mem : Memory
  cr0 : Word
  vars : Vars := {}

/-- One assignment of `toplel_init` or `toplel_exit`. -/
inductive Assignment where
  | search
  | disable
  | save (call : Sys)
  | install (call : Sys)
  | restore (call : Sys)
  | enable
  deriving DecidableEq

/-- The table's entry for a call. -/
def Patch.entry (p : Patch) (call : Sys) : Word := entryOf p.vars.syscallTable call.nr

def Patch.assign (k : Kernel) (hook : Sys → Word) (p : Patch) : Assignment → Patch
  | .search => { p with vars := { p.vars with syscallTable := findSysCallTable k p.mem } }
  | .disable => { p with cr0 := disableWriteProtection p.cr0 }
  | .save call =>
      { p with vars := { p.vars with orig := Function.update p.vars.orig call (p.mem (p.entry call)) } }
  | .install call => { p with mem := Function.update p.mem (p.entry call) (hook call) }
  | .restore call => { p with mem := Function.update p.mem (p.entry call) (p.vars.orig call) }
  | .enable => { p with cr0 := enableWriteProtection p.cr0 }

/-- What `toplel_init` does after it has found the table. -/
def installing (calls : List Sys) : List Assignment :=
  .disable :: (calls.map .save ++ calls.map .install ++ [.enable])

/-- What `toplel_exit` does. -/
def removing (calls : List Sys) : List Assignment :=
  .disable :: (calls.map .restore ++ [.enable])

/-- The calls that are hooked by `4-hooks/2` and by `4-hooks/3`. -/
def rickrollCalls : List Sys := [.openFile]

def moreCalls : List Sys := [.openFile, .mkdir, .rmdir]

/-- `toplel_init` of a module that hooks these calls. -/
def toplelInit (k : Kernel) (hook : Sys → Word) (calls : List Sys) (p : Patch) : Patch × Int :=
  let p := p.assign k hook .search
  if p.vars.syscallTable = 0 then (p, -1)
  else ((installing calls).foldl (Patch.assign k hook) p, 0)

/-- `toplel_exit` of a module that hooks these calls. -/
def toplelExit (k : Kernel) (hook : Sys → Word) (calls : List Sys) (p : Patch) : Patch :=
  (removing calls).foldl (Patch.assign k hook) p

/-! ## The entries of a table -/

theorem entryOf_nr_injective {table : Word} {call other : Sys}
    (same : entryOf table call.nr = entryOf table other.nr) : call = other := by
  have offsets : 8 * call.nr = 8 * other.nr := (BitVec.add_right_inj table).mp same
  revert offsets
  cases call <;> cases other <;> decide

theorem close_ne_entry (table : Word) (call : Sys) :
    entryOf table NR_close ≠ entryOf table call.nr := by
  intro same
  have offsets : 8 * NR_close = 8 * call.nr := (BitVec.add_right_inj table).mp same
  revert offsets
  cases call <;> decide

/-! ## Whole loads and unloads -/

/-- Write to the entries of some calls. -/
def writeAll (table : Word) (value : Sys → Word) (calls : List Sys) (mem : Memory) : Memory :=
  calls.foldl (fun mem call => Function.update mem (entryOf table call.nr) (value call)) mem

/-- One more entry of a list that is gone through with updates. -/
theorem update_of_mem_cons {α β : Type*} [DecidableEq α] (f value : α → β) (first : α)
    (rest : List α) (x : α) :
    (if x ∈ rest then value x else Function.update f first (value first) x) =
      if x ∈ first :: rest then value x else f x := by
  by_cases later : x ∈ rest
  · rw [if_pos later, if_pos (List.mem_cons_of_mem _ later)]
  · rw [if_neg later]
    by_cases same : x = first
    · subst same
      rw [Function.update_self, if_pos List.mem_cons_self]
    · rw [Function.update_of_ne same, if_neg]
      exact fun member => (List.mem_cons.mp member).elim same later

theorem writeAll_entry (table : Word) (value : Sys → Word) (calls : List Sys) (mem : Memory)
    (call : Sys) : writeAll table value calls mem (entryOf table call.nr) =
      if call ∈ calls then value call else mem (entryOf table call.nr) := by
  induction calls generalizing mem with
  | nil => rfl
  | cons first rest ih =>
      have distinct : Function.Injective fun call : Sys => entryOf table call.nr :=
        fun _ _ equal => entryOf_nr_injective equal
      have entry := congrFun (Function.update_comp_eq_of_injective mem distinct first (value first))
        call
      rw [writeAll, List.foldl_cons]
      refine (ih _).trans ?_
      rw [← update_of_mem_cons (fun call => mem (entryOf table call.nr)) value first rest call]
      exact congrArg (ite _ _) entry

theorem writeAll_other {table address : Word} (value : Sys → Word) (calls : List Sys) (mem : Memory)
    (outside : forall call : Sys, address ≠ entryOf table call.nr) :
    writeAll table value calls mem address = mem address := by
  induction calls generalizing mem with
  | nil => rfl
  | cons first rest ih =>
      rw [writeAll, List.foldl_cons]
      exact (ih _).trans (Function.update_of_ne (outside first) ..)

section Folds

variable (k : Kernel) (hook : Sys → Word)

theorem foldl_save (calls : List Sys) (p : Patch) :
    (calls.map Assignment.save).foldl (Patch.assign k hook) p =
      { p with vars := { p.vars with
          orig := fun call => if call ∈ calls then p.mem (p.entry call) else p.vars.orig call } } := by
  induction calls generalizing p with
  | nil => simp
  | cons first rest ih =>
      rw [List.map_cons, List.foldl_cons, ih]
      simp only [Patch.assign, Patch.entry, Patch.mk.injEq, Vars.mk.injEq, true_and]
      funext call
      exact update_of_mem_cons p.vars.orig (fun call => p.mem (p.entry call)) first rest call

theorem foldl_install (calls : List Sys) (p : Patch) :
    (calls.map Assignment.install).foldl (Patch.assign k hook) p =
      { p with mem := writeAll p.vars.syscallTable hook calls p.mem } := by
  induction calls generalizing p with
  | nil => rfl
  | cons first rest ih =>
      rw [List.map_cons, List.foldl_cons, ih]
      rfl

theorem foldl_restore (calls : List Sys) (p : Patch) :
    (calls.map Assignment.restore).foldl (Patch.assign k hook) p =
      { p with mem := writeAll p.vars.syscallTable p.vars.orig calls p.mem } := by
  induction calls generalizing p with
  | nil => rfl
  | cons first rest ih =>
      rw [List.map_cons, List.foldl_cons, ih]
      rfl

/-- A load that finds a table saves the entries of the calls and overwrites
them. -/
theorem toplelInit_found (calls : List Sys) {p : Patch} (found : findSysCallTable k p.mem ≠ 0) :
    toplelInit k hook calls p =
      ({ mem := writeAll (findSysCallTable k p.mem) hook calls p.mem
         cr0 := enableWriteProtection (disableWriteProtection p.cr0)
         vars := {
          syscallTable := findSysCallTable k p.mem
          orig := fun call =>
            if call ∈ calls then p.mem (entryOf (findSysCallTable k p.mem) call.nr)
            else p.vars.orig call } }, 0) := by
  simp only [toplelInit, Patch.assign, if_neg found, installing, List.foldl_cons, List.foldl_append,
    foldl_save, foldl_install, List.foldl_nil]
  rfl

theorem toplelInit_missing (calls : List Sys) {p : Patch} (missing : findSysCallTable k p.mem = 0) :
    toplelInit k hook calls p = ({ p with vars := { p.vars with syscallTable := 0 } }, -1) := by
  simp only [toplelInit, Patch.assign, missing, if_true]

theorem toplelExit_eq (calls : List Sys) (p : Patch) :
    toplelExit k hook calls p =
      { p with
        mem := writeAll p.vars.syscallTable p.vars.orig calls p.mem
        cr0 := enableWriteProtection (disableWriteProtection p.cr0) } := by
  simp only [toplelExit, removing, List.foldl_cons, List.foldl_append, foldl_restore, List.foldl_nil]
  rfl

end Folds

end SyscallHook
end KernelHacking
