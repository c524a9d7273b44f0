import KernelHacking.Foundations.CString
import KernelHacking.Foundations.Stride
import Mathlib.Logic.Function.Basic

namespace KernelHacking
namespace SyscallHook

/-!
# Installing and removing the hook of `7-meta`

`toplel_insert` looks for the table of system calls in memory, saves its entry
for `open` and puts the address of `my_sys_open` there; `toplel_remove` puts
the saved entry back.  Three static variables and the table have to stay in
step.  Each assignment is a definition of its own here, because callers that
run at the same time interleave between them.

Memory is read and written in words of eight bytes, always at addresses that
lie a multiple of eight behind `sys_close`.
-/

abbrev Word := BitVec 64

/-- The addresses of the running kernel and of the module.  `sysCallTable` is
where the processor looks system calls up, which the module does not know.  The
variable `loops_per_jiffy` ends within the address space, and no function lies
at address zero. -/
structure Kernel where
  sysCallTable : Word
  sysClose : Word
  loopsPerJiffy : Word
  mySysOpen : Word
  noWrap : loopsPerJiffy.toNat + 8 ≤ 2 ^ 64
  mapped : mySysOpen ≠ 0

/-- Four words are searched, and the table begins with the second of them. -/
def smallKernel : Kernel where
  sysCallTable := 0x1008
  sysClose := 0x1000
  loopsPerJiffy := 0x1020
  mySysOpen := 0x3000
  noWrap := by decide
  mapped := by decide

abbrev Memory := Word → Word

def NR_open : Word := 2
def NR_close : Word := 3
def CR0_WP : Word := 0x00010000

/-- The address of an entry of a table. -/
def entryOf (table nr : Word) : Word := table + 8 * nr

/-! ## `find_sys_call_table` -/

/-- The loop of the search from address `i` on, for a number of rounds.  It
returns NULL when it gets to `loops_per_jiffy`. -/
def searchFrom (k : Kernel) (mem : Memory) : Nat → Word → Option Word
  | 0, _ => none
  | rounds + 1, i =>
      if i < k.loopsPerJiffy then
        if mem (entryOf i NR_close) = k.sysClose then some i
        else searchFrom k mem rounds (i + 8)
      else some 0

/-- The rounds after which the address is past the end of the search. -/
def searchRounds (k : Kernel) : Nat := (k.loopsPerJiffy.toNat - k.sysClose.toNat) / 8 + 2

def findSysCallTable (k : Kernel) (mem : Memory) : Word :=
  (searchFrom k mem (searchRounds k) k.sysClose).getD 0

/-- A word may begin a table if its entry for `close` is `sys_close`. -/
def IsTable (mem : Memory) (sysClose ptr : Word) : Prop :=
  mem (entryOf ptr NR_close) = sysClose

instance (mem : Memory) (sysClose : Word) : DecidablePred (IsTable mem sysClose) :=
  fun ptr => inferInstanceAs (Decidable (mem (entryOf ptr NR_close) = sysClose))

/-- What the end of a walk means for the search. -/
def tableOf : Ending 64 → Option Word
  | .unfinished => none
  | .passedEnd => some 0
  | .found table => some table

/-- The search is a walk in steps of a word. -/
theorem searchFrom_eq (k : Kernel) (mem : Memory) (rounds : Nat) (i : Word) :
    searchFrom k mem rounds i =
      tableOf (walk 8 k.loopsPerJiffy (IsTable mem k.sysClose) rounds i).2 := by
  induction rounds generalizing i with
  | zero => rfl
  | succ rounds ih =>
      rw [searchFrom, walk]
      by_cases before : i < k.loopsPerJiffy
      · rw [if_pos before, if_pos before]
        by_cases table : mem (entryOf i NR_close) = k.sysClose
        · have passes : IsTable mem k.sysClose i := table
          rw [if_pos table, if_pos passes]
          rfl
        · have fails : ¬ IsTable mem k.sysClose i := table
          rw [if_neg table, if_neg fails]
          exact ih (i + 8)
      · rw [if_neg before, if_neg before]
        rfl

/-- The search comes to an end in time: the address does not wrap around. -/
theorem searchFrom_isSome (k : Kernel) (mem : Memory) (rounds : Nat) (i : Word)
    (enough : k.loopsPerJiffy.toNat ≤ i.toNat + 8 * rounds) :
    (searchFrom k mem (rounds + 1) i).isSome = true := by
  have ended : (walk 8 k.loopsPerJiffy (IsTable mem k.sysClose) (rounds + 1) i).2 ≠ .unfinished :=
    walk_finishes k.noWrap enough
  rw [searchFrom_eq]
  cases ending : (walk 8 k.loopsPerJiffy (IsTable mem k.sysClose) (rounds + 1) i).2 with
  | unfinished => exact absurd ending ended
  | passedEnd => rfl
  | found table => rfl

/-- The search returns what its loop returns, and never runs out of rounds. -/
theorem findSysCallTable_terminates (k : Kernel) (mem : Memory) :
    searchFrom k mem (searchRounds k) k.sysClose = some (findSysCallTable k mem) := by
  have finished := searchFrom_isSome k mem
    ((k.loopsPerJiffy.toNat - k.sysClose.toNat) / 8 + 1) k.sysClose (by omega)
  rcases Option.isSome_iff_exists.mp finished with ⟨table, found⟩
  rw [findSysCallTable, searchRounds, found]
  rfl

/-! ## The assignments of the two functions -/

/-- The memory and the static variables. -/
structure Hook where
  mem : Memory
  syscallTable : Word := 0
  origSysOpen : Word := 0
  toplelInstalled : Bool := false

namespace Hook

/-- The table's entry for `open`. -/
def openEntry (h : Hook) : Word := entryOf h.syscallTable NR_open

/-- `syscall_table = (void **)find_sys_call_table()`. -/
def search (k : Kernel) (h : Hook) : Hook :=
  { h with syscallTable := findSysCallTable k h.mem }

/-- `orig_sys_open = syscall_table[__NR_open]`. -/
def save (h : Hook) : Hook :=
  { h with origSysOpen := h.mem h.openEntry }

/-- `syscall_table[__NR_open] = my_sys_open`. -/
def install (k : Kernel) (h : Hook) : Hook :=
  { h with mem := Function.update h.mem h.openEntry k.mySysOpen }

/-- `syscall_table[__NR_open] = orig_sys_open`. -/
def restore (h : Hook) : Hook :=
  { h with mem := Function.update h.mem h.openEntry h.origSysOpen }

/-- `toplel_installed = flag`. -/
def setInstalled (flag : Bool) (h : Hook) : Hook :=
  { h with toplelInstalled := flag }

end Hook

/-! ## The two functions -/

/-- The hook together with the control register of the processor. -/
structure Toplel where
  hook : Hook
  cr0 : Word

def disableWriteProtection (cr0 : Word) : Word := cr0 &&& ~~~CR0_WP

def enableWriteProtection (cr0 : Word) : Word := cr0 ||| CR0_WP

/-- `toplel_insert`. -/
def toplelInsert (k : Kernel) (s : Toplel) : Toplel × Int :=
  if s.hook.toplelInstalled then (s, -1)
  else
    let s := { s with hook := s.hook.search k }
    if s.hook.syscallTable = 0 then (s, -1)
    else
      let s := { s with cr0 := disableWriteProtection s.cr0 }
      let s := { s with hook := s.hook.save.install k }
      let s := { s with cr0 := enableWriteProtection s.cr0 }
      ({ s with hook := s.hook.setInstalled true }, 0)

/-- `toplel_remove`. -/
def toplelRemove (s : Toplel) : Toplel :=
  if !s.hook.toplelInstalled then s
  else
    let s := { s with cr0 := disableWriteProtection s.cr0 }
    let s := { s with hook := s.hook.restore }
    let s := { s with cr0 := enableWriteProtection s.cr0 }
    { s with hook := s.hook.setInstalled false }

/-- What `foo_store` does with the number in `foo`. -/
inductive Command where
  | restart
  | insert
  | remove
  | nothing
  deriving DecidableEq

/-- The `switch (foo)`. -/
def command (foo : BitVec 32) : Command :=
  if foo = 666 then .restart
  else if foo = 1337 then .insert
  else if foo = 1338 then .remove
  else .nothing

/-! ## The memory image with and without the hook -/

section Image

variable (k : Kernel) (image : Memory)

/-- The entry for `open` of the table that the search finds in an image. -/
def imageEntry : Word := entryOf (findSysCallTable k image) NR_open

/-- The image with the hook in its table. -/
def hookedImage : Memory := Function.update image (imageEntry k image) k.mySysOpen

theorem hookedImage_entry : hookedImage k image (imageEntry k image) = k.mySysOpen :=
  Function.update_self ..

variable {k image} {h : Hook}

/-! Each assignment on the image, and the search on both. -/

theorem search_image (clean : h.mem = image) :
    (h.search k).syscallTable = findSysCallTable k image := by
  rw [Hook.search, clean]

theorem save_image (table : h.syscallTable = findSysCallTable k image) (clean : h.mem = image) :
    h.save.origSysOpen = image (imageEntry k image) := by
  rw [Hook.save, Hook.openEntry, table, clean]
  rfl

theorem install_image (table : h.syscallTable = findSysCallTable k image) (clean : h.mem = image) :
    (h.install k).mem = hookedImage k image := by
  rw [Hook.install, Hook.openEntry, table, clean]
  rfl

/-- Putting the original entry back gives the image again, once or twice. -/
theorem restore_image (table : h.syscallTable = findSysCallTable k image)
    (entry : h.origSysOpen = image (imageEntry k image))
    (memory : h.mem = image ∨ h.mem = hookedImage k image) : h.restore.mem = image := by
  rw [Hook.restore, Hook.openEntry, table, entry]
  rcases memory with clean | hooked
  · rw [clean]
    exact Function.update_eq_self ..
  · rw [hooked, hookedImage]
    exact (Function.update_idem ..).trans (Function.update_eq_self ..)

/-- Different system calls have different entries in a table. -/
theorem close_ne_open (table : Word) : entryOf table NR_close ≠ entryOf table NR_open := by
  intro same
  have offsets : 8 * NR_close = 8 * NR_open := (BitVec.add_right_inj table).mp same
  exact absurd offsets (by decide)

/-- The search finds the same table in a memory that looks like the entry for
`close` nowhere else than before. -/
theorem searchFrom_congr {mem : Memory} {table : Word}
    (kept : mem (entryOf table NR_close) = image (entryOf table NR_close))
    (others : forall address, mem address = image address ∨ mem address ≠ k.sysClose)
    (real : table ≠ 0) {rounds : Nat} {i : Word} (found : searchFrom k image rounds i = some table) :
    searchFrom k mem rounds i = some table := by
  induction rounds generalizing i with
  | zero => cases found
  | succ rounds ih =>
      rw [searchFrom] at found ⊢
      by_cases inside : i < k.loopsPerJiffy
      · rw [if_pos inside] at found ⊢
        by_cases here : image (entryOf i NR_close) = k.sysClose
        · rw [if_pos here] at found
          have same := Option.some.inj found
          subst same
          rw [kept, if_pos here]
        · rw [if_neg here] at found
          have still : mem (entryOf i NR_close) ≠ k.sysClose := by
            rcases others (entryOf i NR_close) with same | other
            · rw [same]
              exact here
            · exact other
          rw [if_neg still]
          exact ih found
      · rw [if_neg inside] at found
        exact absurd (Option.some.inj found).symm real

theorem findSysCallTable_congr {mem : Memory}
    (kept : mem (entryOf (findSysCallTable k image) NR_close) =
      image (entryOf (findSysCallTable k image) NR_close))
    (others : forall address, mem address = image address ∨ mem address ≠ k.sysClose)
    (real : findSysCallTable k image ≠ 0) : findSysCallTable k mem = findSysCallTable k image := by
  have same := searchFrom_congr kept others real (findSysCallTable_terminates k image)
  rw [findSysCallTable, same]
  rfl

/-- The search finds the same table once the hook is in it. -/
theorem findSysCallTable_hooked (distinct : k.mySysOpen ≠ k.sysClose)
    (found : findSysCallTable k image ≠ 0) :
    findSysCallTable k (hookedImage k image) = findSysCallTable k image := by
  have others : forall address, hookedImage k image address = image address ∨
      hookedImage k image address ≠ k.sysClose := by
    intro address
    rw [hookedImage, Function.update_apply]
    split
    · exact Or.inr distinct
    · exact Or.inl rfl
  exact findSysCallTable_congr (Function.update_of_ne (close_ne_open _) ..) others found

end Image

end SyscallHook
end KernelHacking
