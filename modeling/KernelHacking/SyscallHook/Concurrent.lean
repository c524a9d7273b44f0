import KernelHacking.Foundations.Machine
import KernelHacking.SyscallHook.Module

namespace KernelHacking
namespace SyscallHook

/-!
# Writes to `foo` at the same time

`foo_store` takes no lock, and sysfs does not serialize writes through
different open files.  Any number of callers may therefore be inside
`toplel_insert` and `toplel_remove` together, and each of their assignments is
a step after which another caller may run.

The flag that is meant to keep a second insert out is tested first and set
last.  An insert that passes the test while another caller has passed its own
and has not yet set the flag may save the hook as the original entry, or have
the flag cleared behind its back.  As long as no insert passes its test in that
window the variables stay in step, by an assertion at every program counter
that no other caller's step invalidates.

The control register belongs to a processor and is not shared by the callers.
-/

/-- Where a caller stands in `foo_store` and the function it calls. -/
inductive Pc where
  | idle
  | parse (text : List UInt8)
  | dispatch
  | insertTest
  | insertSearch
  | insertSave
  | insertWrite
  | insertFlag
  | removeTest
  | removeRestore
  | removeFlag
  deriving DecidableEq

/-- The shared variables and the callers. -/
structure Callers (Process : Type*) where
  hook : Hook
  foo : BitVec 32
  pc : Process → Pc

/-- A caller writes a text to `foo`, or executes its next step. -/
inductive Move (Process : Type*) where
  | call (p : Process) (text : List UInt8)
  | advance (p : Process)

/-- One step of a caller on the shared variables. -/
def act (k : Kernel) (hook : Hook) (foo : BitVec 32) : Pc → Hook × BitVec 32 × Pc
  | .idle => (hook, foo, .idle)
  | .parse text => (hook, (scanUnsigned text).getD foo, .dispatch)
  | .dispatch =>
      match command foo with
      | .restart => (hook, foo, .idle)
      | .insert => (hook, foo, .insertTest)
      | .remove => (hook, foo, .removeTest)
      | .nothing => (hook, foo, .idle)
  | .insertTest => (hook, foo, if hook.toplelInstalled then .idle else .insertSearch)
  | .insertSearch =>
      (hook.search k, foo, if (hook.search k).syscallTable = 0 then .idle else .insertSave)
  | .insertSave => (hook.save, foo, .insertWrite)
  | .insertWrite => (hook.install k, foo, .insertFlag)
  | .insertFlag => (hook.setInstalled true, foo, .idle)
  | .removeTest => (hook, foo, if !hook.toplelInstalled then .idle else .removeRestore)
  | .removeRestore => (hook.restore, foo, .removeFlag)
  | .removeFlag => (hook.setInstalled false, foo, .idle)

section Callers

variable {Process : Type*} [DecidableEq Process]

def Callers.step (k : Kernel) (s : Callers Process) : Move Process → Callers Process
  | .call p text =>
      if s.pc p = .idle then { s with pc := Function.update s.pc p (.parse text) } else s
  | .advance p =>
      let (hook, foo, pc) := act k s.hook s.foo (s.pc p)
      { hook := hook, foo := foo, pc := Function.update s.pc p pc }

/-- The callers in any interleaving. -/
def callers (k : Kernel) (Process : Type*) [DecidableEq Process] :
    Machine (Callers Process) (Move Process) Unit where
  step s move := (s.step k move, ())

/-- The module as it is loaded, with no call under way. -/
def Callers.load (image : Memory) (Process : Type*) : Callers Process where
  hook := { mem := image }
  foo := 0
  pc _ := .idle

/-! ## One caller alone does what the function does -/

/-- Some steps of one caller on the shared variables. -/
def actAlone (k : Kernel) : Nat → Hook × BitVec 32 × Pc → Hook × BitVec 32 × Pc
  | 0, state => state
  | rounds + 1, state => actAlone k rounds (act k state.1 state.2.1 state.2.2)

theorem run_alone (k : Kernel) (s : Callers Process) (p : Process) (rounds : Nat) :
    (((callers k Process).run s (List.replicate rounds (.advance p))).hook,
        ((callers k Process).run s (List.replicate rounds (.advance p))).foo,
        ((callers k Process).run s (List.replicate rounds (.advance p))).pc p) =
      actAlone k rounds (s.hook, s.foo, s.pc p) := by
  induction rounds generalizing s with
  | zero => rfl
  | succ rounds ih =>
      rw [List.replicate_succ, Machine.run_cons, ih, actAlone]
      simp only [Machine.next, callers, Callers.step, Function.update_self]

/-- A caller that nobody interrupts leaves what `toplel_insert` leaves. -/
theorem insert_alone (k : Kernel) (s : Callers Process) (cr0 : Word) {p : Process}
    (called : s.pc p = .insertTest) :
    ((callers k Process).run s (List.replicate 5 (.advance p))).hook =
        (toplelInsert k { hook := s.hook, cr0 := cr0 }).1.hook ∧
      ((callers k Process).run s (List.replicate 5 (.advance p))).pc p = .idle := by
  have alone := run_alone k s p 5
  simp only [Prod.ext_iff] at alone
  rw [alone.1, alone.2.2, called]
  by_cases already : s.hook.toplelInstalled = true
  · simp only [actAlone, act, toplelInsert, if_pos already, and_self]
  · by_cases missing : (s.hook.search k).syscallTable = 0
    · simp only [actAlone, act, toplelInsert, if_neg already, if_pos missing, and_self]
    · simp only [actAlone, act, toplelInsert, if_neg already, if_neg missing, and_self]

/-- And what `toplel_remove` leaves. -/
theorem remove_alone (k : Kernel) (s : Callers Process) (cr0 : Word) {p : Process}
    (called : s.pc p = .removeTest) :
    ((callers k Process).run s (List.replicate 3 (.advance p))).hook =
        (toplelRemove { hook := s.hook, cr0 := cr0 }).hook ∧
      ((callers k Process).run s (List.replicate 3 (.advance p))).pc p = .idle := by
  have alone := run_alone k s p 3
  simp only [Prod.ext_iff] at alone
  rw [alone.1, alone.2.2, called]
  by_cases removed : (!s.hook.toplelInstalled) = true
  · simp only [actAlone, act, toplelRemove, if_pos removed, and_self]
  · simp only [actAlone, act, toplelRemove, if_neg removed, and_self]

/-! ## The window between the test and the flag -/

/-- The caller is inserting: it has passed its test and not yet set the flag. -/
def inserting : Pc → Bool
  | .insertSearch | .insertSave | .insertWrite | .insertFlag => true
  | _ => false

/-- The caller has passed its test and not yet set or cleared the flag. -/
def inside : Pc → Bool
  | .removeRestore | .removeFlag => true
  | pc => inserting pc

theorem inside_of_inserting {pc : Pc} (inserts : inserting pc = true) : inside pc = true := by
  cases pc <;> first | exact inserts | rfl

/-- Where there is a table to be found, no insert passes its test while another
caller is in the window. -/
def Serialized (k : Kernel) (image : Memory) (s : Callers Process) : Move Process → Prop
  | .call _ _ => True
  | .advance p =>
      findSysCallTable k image ≠ 0 → s.pc p = .insertTest → s.hook.toplelInstalled = false →
        forall q, q ≠ p → inside (s.pc q) = false

/-- The saved entry is never the hook itself, and when all calls have returned
with the flag cleared the table has its original entry. -/
def Safe (k : Kernel) (image : Memory) (s : Callers Process) : Prop :=
  s.hook.origSysOpen ≠ k.mySysOpen ∧
    ((forall p, s.pc p = .idle) → s.hook.toplelInstalled = false →
      s.hook.mem (imageEntry k image) = image (imageEntry k image))

/-! ## An assertion at every program counter -/

/-- The table has been found and its original entry saved. -/
structure Saved (k : Kernel) (image : Memory) (h : Hook) : Prop where
  found : findSysCallTable k image ≠ 0
  table : h.syscallTable = findSysCallTable k image
  entry : h.origSysOpen = image (imageEntry k image)

/-- What holds whenever some caller stands at this program counter. -/
def Asserted (k : Kernel) (image : Memory) (h : Hook) : Pc → Prop
  | .insertSearch => h.toplelInstalled = false ∧ h.mem = image
  | .insertSave => h.toplelInstalled = false ∧ h.mem = image ∧
      findSysCallTable k image ≠ 0 ∧ h.syscallTable = findSysCallTable k image
  | .insertWrite => h.toplelInstalled = false ∧ h.mem = image ∧ Saved k image h
  | .insertFlag => h.toplelInstalled = false ∧ h.mem = hookedImage k image ∧ Saved k image h
  | .removeRestore => Saved k image h
  | .removeFlag => h.mem = image ∧ Saved k image h
  | _ => True

theorem asserted_outside {k : Kernel} {image : Memory} {h : Hook} {pc : Pc}
    (outside : inside pc = false) : Asserted k image h pc := by
  cases pc <;> trivial

/-- An assertion survives a step that keeps what it says. -/
theorem asserted_kept {k : Kernel} {image : Memory} {h h' : Hook} {pc : Pc}
    (asserted : Asserted k image h pc)
    (flag : h.toplelInstalled = false → h'.toplelInstalled = false)
    (mem : h.mem = image → h'.mem = image)
    (hooked : inserting pc = true → h.mem = hookedImage k image → h'.mem = hookedImage k image)
    (table : h.syscallTable = findSysCallTable k image → h'.syscallTable = findSysCallTable k image)
    (entry : h.origSysOpen = image (imageEntry k image) →
      h'.origSysOpen = image (imageEntry k image)) :
    Asserted k image h' pc := by
  have kept : Saved k image h → Saved k image h' :=
    fun saved => ⟨saved.found, table saved.table, entry saved.entry⟩
  cases pc with
  | insertSearch => exact ⟨flag asserted.1, mem asserted.2⟩
  | insertSave => exact ⟨flag asserted.1, mem asserted.2.1, asserted.2.2.1, table asserted.2.2.2⟩
  | insertWrite => exact ⟨flag asserted.1, mem asserted.2.1, kept asserted.2.2⟩
  | insertFlag => exact ⟨flag asserted.1, hooked rfl asserted.2.1, kept asserted.2.2⟩
  | removeRestore => exact kept asserted
  | removeFlag => exact ⟨mem asserted.1, kept asserted.2⟩
  | _ => trivial

/-- Callers that are inserting have found the flag cleared. -/
theorem removed_of_inserting {k : Kernel} {image : Memory} {h : Hook} {pc : Pc}
    (asserted : Asserted k image h pc) (inserts : inserting pc = true) :
    h.toplelInstalled = false := by
  cases pc with
  | insertSearch => exact asserted.1
  | insertSave => exact asserted.1
  | insertWrite => exact asserted.1
  | insertFlag => exact asserted.1
  | _ => cases inserts

/-- The invariant of all callers. -/
structure Invariant (k : Kernel) (image : Memory) (s : Callers Process) : Prop where
  memory : s.hook.mem = image ∨ s.hook.mem = hookedImage k image
  foreign : s.hook.origSysOpen ≠ k.mySysOpen
  clean : s.hook.toplelInstalled = false → (forall p, s.pc p ≠ .insertFlag) → s.hook.mem = image
  saved : s.hook.toplelInstalled = true → Saved k image s.hook
  asserted : forall p, Asserted k image s.hook (s.pc p)
  alone : findSysCallTable k image ≠ 0 →
    forall p q, q ≠ p → inserting (s.pc p) = true → inside (s.pc q) = false

/-- What one caller's step has to leave behind for the invariant to hold of all
of them. -/
theorem Invariant.step {k : Kernel} {image : Memory} {s : Callers Process}
    (invariant : Invariant k image s) {p : Process} {hook : Hook} (foo : BitVec 32) {pc : Pc}
    (memory : hook.mem = image ∨ hook.mem = hookedImage k image)
    (foreign : hook.origSysOpen ≠ k.mySysOpen)
    (clean : hook.toplelInstalled = false → pc ≠ .insertFlag →
      (forall q, q ≠ p → s.pc q ≠ .insertFlag) → hook.mem = image)
    (saved : hook.toplelInstalled = true → Saved k image hook)
    (own : Asserted k image hook pc)
    (others : forall q, q ≠ p → Asserted k image hook (s.pc q))
    (enters : findSysCallTable k image ≠ 0 → inserting pc = true →
      forall q, q ≠ p → inside (s.pc q) = false)
    (joins : findSysCallTable k image ≠ 0 → inside pc = true →
      forall q, q ≠ p → inserting (s.pc q) = false) :
    Invariant k image { hook := hook, foo := foo, pc := Function.update s.pc p pc } where
  memory := memory
  foreign := foreign
  clean := by
    intro removed noFlag
    apply clean removed
    · simpa only [Function.update_self] using noFlag p
    · intro q other
      simpa only [Function.update_of_ne other] using noFlag q
  saved := saved
  asserted := by
    intro q
    by_cases same : q = p
    · subst same
      simpa only [Function.update_self] using own
    · simpa only [Function.update_of_ne same] using others q same
  alone := by
    intro found q r other inserts
    simp only at inserts ⊢
    by_cases mine : q = p
    · subst mine
      rw [Function.update_self] at inserts
      rw [Function.update_of_ne other]
      exact enters found inserts r other
    · rw [Function.update_of_ne mine] at inserts
      by_cases its : r = p
      · subst its
        rw [Function.update_self]
        by_contra stays
        have quiet := joins found (Bool.not_eq_false _ |>.mp stays) q mine
        rw [quiet] at inserts
        cases inserts
      · rw [Function.update_of_ne its]
        exact invariant.alone found q r other inserts

/-! ## The steps of a caller -/

variable {k : Kernel} {image : Memory} {s : Callers Process} {p : Process}

/-- A caller that is not about to set the flag has no part in the exception
that `clean` makes. -/
theorem Invariant.clean_but (invariant : Invariant k image s) (here : s.pc p ≠ .insertFlag)
    (removed : s.hook.toplelInstalled = false) (others : forall q, q ≠ p → s.pc q ≠ .insertFlag) :
    s.hook.mem = image := by
  apply invariant.clean removed
  intro q
  by_cases same : q = p
  · exact same ▸ here
  · exact others q same

/-- A step that leaves the shared variables alone and does not enter the window. -/
theorem Invariant.quiet (invariant : Invariant k image s) (foo : BitVec 32) {pc : Pc}
    (here : s.pc p ≠ .insertFlag) (outside : inside pc = false) :
    Invariant k image { hook := s.hook, foo := foo, pc := Function.update s.pc p pc } := by
  apply invariant.step foo invariant.memory invariant.foreign
  · intro removed _ others
    exact invariant.clean_but here removed others
  · exact invariant.saved
  · exact asserted_outside outside
  · intro q _
    exact invariant.asserted q
  · intro _ inserts
    exact absurd (outside.symm.trans (inside_of_inserting inserts)) Bool.false_ne_true
  · intro _ stays
    exact absurd (outside.symm.trans stays) Bool.false_ne_true

omit [DecidableEq Process] in
/-- While a caller is in the window nobody else is inserting. -/
theorem Invariant.joins (invariant : Invariant k image s) (found : findSysCallTable k image ≠ 0)
    (here : inside (s.pc p) = true) {q : Process} (other : q ≠ p) :
    inserting (s.pc q) = false := by
  by_contra inserts
  have quiet := invariant.alone found q p other.symm (Bool.not_eq_false _ |>.mp inserts)
  exact absurd (quiet.symm.trans here) Bool.false_ne_true

/-- A step within an insert, which keeps the assertions of all others. -/
theorem Invariant.insertStep (invariant : Invariant k image s) (foo : BitVec 32) {hook : Hook}
    {pc : Pc} (here : inserting (s.pc p) = true)
    (memory : hook.mem = image ∨ hook.mem = hookedImage k image)
    (foreign : hook.origSysOpen ≠ k.mySysOpen)
    (clean : hook.toplelInstalled = false → pc ≠ .insertFlag → hook.mem = image)
    (saved : hook.toplelInstalled = true → Saved k image hook)
    (own : Asserted k image hook pc)
    (others : forall q, q ≠ p → Asserted k image hook (s.pc q)) :
    Invariant k image { hook := hook, foo := foo, pc := Function.update s.pc p pc } := by
  apply invariant.step foo memory foreign
  · intro removed noFlag _
    exact clean removed noFlag
  · exact saved
  · exact own
  · exact others
  · intro found _ q other
    exact invariant.alone found p q other here
  · intro found _ q other
    exact invariant.joins found (inside_of_inserting here) other

/-- An insert passes its test when nobody else is in the window. -/
theorem Invariant.passInsert (invariant : Invariant k image s) (foo : BitVec 32)
    (here : s.pc p = .insertTest) (removed : s.hook.toplelInstalled = false)
    (alone : findSysCallTable k image ≠ 0 → forall q, q ≠ p → inside (s.pc q) = false) :
    Invariant k image { hook := s.hook, foo := foo, pc := Function.update s.pc p .insertSearch } := by
  have before : s.pc p ≠ .insertFlag := by
    rw [here]
    intro impossible
    cases impossible
  have noFlag : forall q, q ≠ p → s.pc q ≠ .insertFlag := by
    intro q other there
    have asserted := invariant.asserted q
    rw [there] at asserted
    have outside := alone asserted.2.2.found q other
    rw [there] at outside
    cases outside
  have clean := invariant.clean_but before removed noFlag
  apply invariant.step foo invariant.memory invariant.foreign
  · intro _ _ _
    exact clean
  · exact invariant.saved
  · exact ⟨removed, clean⟩
  · intro q _
    exact invariant.asserted q
  · intro found _
    exact alone found
  · intro found _ q other
    by_contra inserts
    have stays := inside_of_inserting (Bool.not_eq_false _ |>.mp inserts)
    exact absurd ((alone found q other).symm.trans stays) Bool.false_ne_true

/-- A remove passes its test only when nobody is inserting. -/
theorem Invariant.passRemove (invariant : Invariant k image s) (foo : BitVec 32)
    (installed : s.hook.toplelInstalled = true) :
    Invariant k image { hook := s.hook, foo := foo, pc := Function.update s.pc p .removeRestore } := by
  apply invariant.step foo invariant.memory invariant.foreign
  · intro removed
    exact absurd (removed.symm.trans installed) Bool.false_ne_true
  · exact invariant.saved
  · exact invariant.saved installed
  · intro q _
    exact invariant.asserted q
  · intro _ impossible
    cases impossible
  · intro _ _ q _
    by_contra inserts
    have removed := removed_of_inserting (invariant.asserted q) (Bool.not_eq_false _ |>.mp inserts)
    exact absurd (removed.symm.trans installed) Bool.false_ne_true

theorem Invariant.search (invariant : Invariant k image s) (foo : BitVec 32)
    (here : s.pc p = .insertSearch) :
    Invariant k image
      { hook := s.hook.search k
        foo := foo
        pc := Function.update s.pc p
          (if (s.hook.search k).syscallTable = 0 then .idle else .insertSave) } := by
  have asserted := invariant.asserted p
  rw [here] at asserted
  rcases asserted with ⟨removed, clean⟩
  have table : (s.hook.search k).syscallTable = findSysCallTable k image := search_image clean
  apply invariant.insertStep foo
  · rw [here]
    rfl
  · exact Or.inl clean
  · exact invariant.foreign
  · intro _ _
    exact clean
  · intro installed
    exact absurd (removed.symm.trans installed) Bool.false_ne_true
  · rw [table]
    by_cases missing : findSysCallTable k image = 0
    · rw [if_pos missing]
      trivial
    · rw [if_neg missing]
      exact ⟨removed, clean, missing, table⟩
  · intro q _
    exact asserted_kept (invariant.asserted q) id id (fun _ => id) (fun _ => table) id

theorem Invariant.save (invariant : Invariant k image s) (foo : BitVec 32)
    (original : image (imageEntry k image) ≠ k.mySysOpen) (here : s.pc p = .insertSave) :
    Invariant k image
      { hook := s.hook.save, foo := foo, pc := Function.update s.pc p .insertWrite } := by
  have asserted := invariant.asserted p
  rw [here] at asserted
  rcases asserted with ⟨removed, clean, found, table⟩
  have entry := save_image table clean
  apply invariant.insertStep foo
  · rw [here]
    rfl
  · exact Or.inl clean
  · rw [entry]
    exact original
  · intro _ _
    exact clean
  · intro installed
    exact absurd (removed.symm.trans installed) Bool.false_ne_true
  · exact ⟨removed, clean, found, table, entry⟩
  · intro q _
    exact asserted_kept (invariant.asserted q) id id (fun _ => id) id (fun _ => entry)

theorem Invariant.write (invariant : Invariant k image s) (foo : BitVec 32)
    (here : s.pc p = .insertWrite) :
    Invariant k image
      { hook := s.hook.install k, foo := foo, pc := Function.update s.pc p .insertFlag } := by
  have asserted := invariant.asserted p
  rw [here] at asserted
  rcases asserted with ⟨removed, clean, saved⟩
  have inserts : inserting (s.pc p) = true := by rw [here]; rfl
  have hooked := install_image saved.table clean
  apply invariant.insertStep foo inserts
  · exact Or.inr hooked
  · exact invariant.foreign
  · intro _ impossible
    exact absurd rfl impossible
  · intro installed
    exact absurd (removed.symm.trans installed) Bool.false_ne_true
  · exact ⟨removed, hooked, saved.found, saved.table, saved.entry⟩
  · intro q other
    exact asserted_outside (invariant.alone saved.found p q other inserts)

theorem Invariant.setFlag (invariant : Invariant k image s) (foo : BitVec 32)
    (here : s.pc p = .insertFlag) :
    Invariant k image
      { hook := s.hook.setInstalled true, foo := foo, pc := Function.update s.pc p .idle } := by
  have asserted := invariant.asserted p
  rw [here] at asserted
  rcases asserted with ⟨removed, _, saved⟩
  have inserts : inserting (s.pc p) = true := by rw [here]; rfl
  apply invariant.insertStep foo inserts
  · exact invariant.memory
  · exact invariant.foreign
  · intro impossible
    cases impossible
  · intro _
    exact ⟨saved.found, saved.table, saved.entry⟩
  · trivial
  · intro q other
    exact asserted_outside (invariant.alone saved.found p q other inserts)

theorem Invariant.restore (invariant : Invariant k image s) (foo : BitVec 32)
    (here : s.pc p = .removeRestore) :
    Invariant k image
      { hook := s.hook.restore, foo := foo, pc := Function.update s.pc p .removeFlag } := by
  have saved := invariant.asserted p
  rw [here] at saved
  have clean := restore_image saved.table saved.entry invariant.memory
  have here_inside : inside (s.pc p) = true := by rw [here]; rfl
  have after : Saved k image s.hook.restore := ⟨saved.found, saved.table, saved.entry⟩
  apply invariant.step foo
  · exact Or.inl clean
  · exact invariant.foreign
  · intro _ _ _
    exact clean
  · intro _
    exact after
  · exact ⟨clean, after⟩
  · intro q other
    have quiet := invariant.joins saved.found here_inside other
    exact asserted_kept (invariant.asserted q) id (fun _ => clean)
      (fun inserts => absurd (quiet.symm.trans inserts) Bool.false_ne_true) id id
  · intro _ impossible
    cases impossible
  · intro found _ q other
    exact invariant.joins found here_inside other

theorem Invariant.clearFlag (invariant : Invariant k image s) (foo : BitVec 32)
    (here : s.pc p = .removeFlag) :
    Invariant k image
      { hook := s.hook.setInstalled false, foo := foo, pc := Function.update s.pc p .idle } := by
  have asserted := invariant.asserted p
  rw [here] at asserted
  rcases asserted with ⟨clean, saved⟩
  apply invariant.step foo
  · exact invariant.memory
  · exact invariant.foreign
  · intro _ _ _
    exact clean
  · intro impossible
    cases impossible
  · trivial
  · intro q _
    exact asserted_kept (invariant.asserted q) (fun _ => rfl) id (fun _ => id) id id
  · intro _ impossible
    cases impossible
  · intro _ impossible
    cases impossible

/-- Every serialized move keeps the invariant. -/
theorem invariant_next
    (original : findSysCallTable k image ≠ 0 → image (imageEntry k image) ≠ k.mySysOpen)
    (invariant : Invariant k image s) {move : Move Process}
    (serialized : Serialized k image s move) :
    Invariant k image ((callers k Process).next s move) := by
  cases move with
  | call p text =>
      simp only [Machine.next, callers, Callers.step]
      by_cases idle : s.pc p = .idle
      · have before : s.pc p ≠ .insertFlag := by simp [idle]
        simp only [if_pos idle]
        exact invariant.quiet s.foo before rfl
      · simp only [if_neg idle]
        exact invariant
  | advance p =>
      have asserted := invariant.asserted p
      simp only [Machine.next, callers, Callers.step]
      cases here : s.pc p with
      | idle =>
          have before : s.pc p ≠ .insertFlag := by simp [here]
          exact invariant.quiet s.foo before rfl
      | parse text =>
          have before : s.pc p ≠ .insertFlag := by simp [here]
          exact invariant.quiet ((scanUnsigned text).getD s.foo) before rfl
      | dispatch =>
          have before : s.pc p ≠ .insertFlag := by simp [here]
          simp only [act]
          cases command s.foo with
          | restart => exact invariant.quiet s.foo before rfl
          | insert => exact invariant.quiet s.foo before rfl
          | remove => exact invariant.quiet s.foo before rfl
          | nothing => exact invariant.quiet s.foo before rfl
      | insertTest =>
          have before : s.pc p ≠ .insertFlag := by simp [here]
          cases installed : s.hook.toplelInstalled with
          | true =>
              simp only [act, installed, if_true]
              exact invariant.quiet s.foo before rfl
          | false =>
              simp only [act, installed, Bool.false_eq_true, if_false]
              exact invariant.passInsert s.foo here installed
                fun found => serialized found here installed
      | insertSearch => exact invariant.search s.foo here
      | insertSave =>
          rw [here] at asserted
          exact invariant.save s.foo (original asserted.2.2.1) here
      | insertWrite => exact invariant.write s.foo here
      | insertFlag => exact invariant.setFlag s.foo here
      | removeTest =>
          have before : s.pc p ≠ .insertFlag := by simp [here]
          cases installed : s.hook.toplelInstalled with
          | true =>
              simp only [act, installed, Bool.not_true, Bool.false_eq_true, if_false]
              exact invariant.passRemove s.foo installed
          | false =>
              simp only [act, installed, Bool.not_false, if_true]
              exact invariant.quiet s.foo before rfl
      | removeRestore => exact invariant.restore s.foo here
      | removeFlag => exact invariant.clearFlag s.foo here

omit [DecidableEq Process] in
theorem invariant_load (k : Kernel) (image : Memory) :
    Invariant k image (Callers.load image Process) where
  memory := Or.inl rfl
  foreign := k.mapped.symm
  clean _ _ := rfl
  saved impossible := by cases impossible
  asserted _ := trivial
  alone _ _ _ _ impossible := by cases impossible

omit [DecidableEq Process] in
theorem Invariant.safe (invariant : Invariant k image s) : Safe k image s := by
  refine ⟨invariant.foreign, ?_⟩
  intro returned removed
  have clean := invariant.clean removed fun p => by simp [returned p]
  rw [clean]

/-- The invariant of a serialized run. -/
theorem invariant_run
    (original : findSysCallTable k image ≠ 0 → image (imageEntry k image) ≠ k.mySysOpen)
    {moves : List (Move Process)}
    (serialized : (callers k Process).Along (Serialized k image) (Callers.load image Process) moves) :
    Invariant k image ((callers k Process).run (Callers.load image Process) moves) := by
  apply Machine.run_invariant (callers k Process) (Invariant k image) (Serialized k image)
  · intro s move invariant allowed
    exact invariant_next original invariant allowed
  · exact invariant_load k image
  · exact serialized

/-- In every interleaving of any number of callers in which no insert passes
its test in another caller's window, the hook is never saved as the original
entry, and a cleared flag means the original table once all have returned. -/
theorem safe_of_serialized
    (original : findSysCallTable k image ≠ 0 → image (imageEntry k image) ≠ k.mySysOpen)
    {moves : List (Move Process)}
    (serialized : (callers k Process).Along (Serialized k image) (Callers.load image Process) moves) :
    Safe k image ((callers k Process).run (Callers.load image Process) moves) :=
  (invariant_run original serialized).safe

end Callers

/-! ## Two callers -/

/-- A caller writes a number and executes some steps. -/
def storeAndRun (p : Bool) (digits : List Char) (rounds : Nat) : List (Move Bool) :=
  .call p (ascii digits) :: List.replicate rounds (.advance p)

instance decidableSerialized (k : Kernel) (image : Memory) (s : Callers Bool) (move : Move Bool) :
    Decidable (Serialized k image s move) :=
  match move with
  | .call _ _ => isTrue trivial
  | .advance p =>
      inferInstanceAs (Decidable (findSysCallTable k image ≠ 0 → s.pc p = .insertTest →
        s.hook.toplelInstalled = false → forall q, q ≠ p → inside (s.pc q) = false))

/-- One caller inserts, and the other removes after it has returned. -/
def insertThenRemove : List (Move Bool) :=
  storeAndRun true ['1', '3', '3', '7'] 7 ++ storeAndRun false ['1', '3', '3', '8'] 5

theorem insertThenRemove_safe :
    Safe smallKernel smallImage
      ((callers smallKernel Bool).run (Callers.load smallImage Bool) insertThenRemove) :=
  safe_of_serialized (by decide) (by decide +kernel)

/-- Both callers pass the test of an insert, and the second saves the entry
after the first has returned. -/
def twoInserts : List (Move Bool) :=
  storeAndRun true ['1', '3', '3', '7'] 3 ++ storeAndRun false ['1', '3', '3', '7'] 3 ++
    List.replicate 4 (.advance true) ++ List.replicate 2 (.advance false)

/-- The second insert saves the hook as the original entry. -/
theorem twoInserts_not_safe :
    ¬ Safe smallKernel smallImage
      ((callers smallKernel Bool).run (Callers.load smallImage Bool) twoInserts) := by
  intro safe
  have savesHook : ((callers smallKernel Bool).run
      (Callers.load smallImage Bool) twoInserts).hook.origSysOpen = smallKernel.mySysOpen := by
    decide +kernel
  exact safe.1 savesHook

end SyscallHook
end KernelHacking
