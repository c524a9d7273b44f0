import KernelHacking.SyscallHook.Concurrent

namespace KernelHacking
namespace SyscallHook

/-!
# What an insert in another caller's window can lead to

The condition of the safe runs cannot be relaxed.  As soon as an insert passes
its test while another caller is between its own test and its own assignment
to the flag, some order of further steps saves the hook as the original entry.

Behind another insert this takes nothing more than the steps of the two: the
one writes the hook, the other searches and saves.  Behind a remove the insert
runs to its end first.  The remove then clears the flag of a table that holds
the hook, and the next insert passes its test and saves it.
-/

section Overlap

variable {Process : Type*} [DecidableEq Process]
variable {k : Kernel} {image : Memory} {s : Callers Process}

/-- Some further moves save the hook as the original entry. -/
def Breakable (k : Kernel) (s : Callers Process) : Prop :=
  exists moves, ((callers k Process).run s moves).hook.origSysOpen = k.mySysOpen

theorem breakable_of_run (moves : List (Move Process))
    (later : Breakable k ((callers k Process).run s moves)) : Breakable k s := by
  rcases later with ⟨more, breaks⟩
  refine ⟨moves ++ more, ?_⟩
  rw [Machine.run_append]
  exact breaks

/-- One step of a caller in terms of its program counter. -/
theorem next_advance (k : Kernel) {p : Process} {pc : Pc} (here : s.pc p = pc) :
    (callers k Process).next s (.advance p) =
      { hook := (act k s.hook s.foo pc).1
        foo := (act k s.hook s.foo pc).2.1
        pc := Function.update s.pc p (act k s.hook s.foo pc).2.2 } := by
  subst here
  rfl

/-- The steps of a caller leave the others where they are. -/
theorem run_alone_others (k : Kernel) (s : Callers Process) {p q : Process} (other : q ≠ p)
    (rounds : Nat) :
    ((callers k Process).run s (List.replicate rounds (.advance p))).pc q = s.pc q := by
  induction rounds generalizing s with
  | zero => rfl
  | succ rounds ih =>
      rw [List.replicate_succ, Machine.run_cons, ih, next_advance k rfl]
      exact Function.update_of_ne other ..

/-- Where some steps of one caller lead, when nobody interrupts it. -/
theorem run_alone_of (k : Kernel) (s : Callers Process) (p : Process) (rounds : Nat) {pc after : Pc}
    {hook : Hook} {foo : BitVec 32} (here : s.pc p = pc)
    (alone : actAlone k rounds (s.hook, s.foo, pc) = (hook, foo, after)) :
    ((callers k Process).run s (List.replicate rounds (.advance p))).hook = hook ∧
      ((callers k Process).run s (List.replicate rounds (.advance p))).pc p = after := by
  have runs := run_alone k s p rounds
  rw [here, alone] at runs
  simp only [Prod.mk.injEq] at runs
  exact ⟨runs.1, runs.2.2⟩

/-! ## An insert that searches a hooked table -/

/-- The search finds the table with the hook in it, and the entry is saved. -/
theorem breakable_of_search (distinct : k.mySysOpen ≠ k.sysClose)
    (found : findSysCallTable k image ≠ 0) (p : Process) (here : s.pc p = .insertSearch)
    (hooked : s.hook.mem = hookedImage k image) : Breakable k s := by
  have table : (s.hook.search k).syscallTable = findSysCallTable k image := by
    rw [Hook.search, hooked]
    exact findSysCallTable_hooked distinct found
  have saved : (s.hook.search k).save.origSysOpen = k.mySysOpen := by
    rw [Hook.save, Hook.openEntry, table]
    change s.hook.mem (imageEntry k image) = k.mySysOpen
    rw [hooked, hookedImage_entry]
  have alone : actAlone k 2 (s.hook, s.foo, .insertSearch) =
      ((s.hook.search k).save, s.foo, .insertWrite) := by
    simp only [actAlone, act, table, if_neg found]
  refine ⟨List.replicate 2 (.advance p), ?_⟩
  rw [(run_alone_of k s p 2 here alone).1]
  exact saved

/-- A cleared flag lets the next call of `foo_store` get that far. -/
theorem breakable_of_call (distinct : k.mySysOpen ≠ k.sysClose)
    (found : findSysCallTable k image ≠ 0) (p : Process) (here : s.pc p = .idle)
    (removed : s.hook.toplelInstalled = false) (hooked : s.hook.mem = hookedImage k image) :
    Breakable k s := by
  have number : command ((scanUnsigned (ascii ['1', '3', '3', '7'])).getD s.foo) = .insert := by
    have scanned : scanUnsigned (ascii ['1', '3', '3', '7']) = some 1337 := by decide
    rw [scanned]
    rfl
  apply breakable_of_run (.call p (ascii ['1', '3', '3', '7']) :: [])
  have called : (callers k Process).next s (.call p (ascii ['1', '3', '3', '7'])) =
      { s with pc := Function.update s.pc p (.parse (ascii ['1', '3', '3', '7'])) } :=
    if_pos here
  rw [Machine.run_cons, Machine.run_nil, called]
  apply breakable_of_run (List.replicate 3 (.advance p))
  have reached := run_alone_of k
    { s with pc := Function.update s.pc p (.parse (ascii ['1', '3', '3', '7'])) } p 3
    (Function.update_self ..) (by simp only [actAlone, act, number, removed]; rfl)
  apply breakable_of_search distinct found p reached.2
  rw [reached.1]
  exact hooked

/-! ## An insert behind a remove -/

/-- The insert runs to its end before the remove clears the flag. -/
theorem breakable_of_removeFlag (distinct : k.mySysOpen ≠ k.sysClose)
    (found : findSysCallTable k image ≠ 0) {p q : Process} (other : q ≠ p)
    (here : s.pc p = .insertSearch) (there : s.pc q = .removeFlag) (clean : s.hook.mem = image) :
    Breakable k s := by
  have table : (s.hook.search k).syscallTable = findSysCallTable k image := search_image clean
  have saved : (s.hook.search k).save.syscallTable = findSysCallTable k image := table
  have hooked := install_image saved clean
  have alone : actAlone k 4 (s.hook, s.foo, .insertSearch) =
      (((s.hook.search k).save.install k).setInstalled true, s.foo, .idle) := by
    simp only [actAlone, act, table, if_neg found]
  have reached := run_alone_of k s p 4 here alone
  have waits := run_alone_others k s other 4
  apply breakable_of_run (List.replicate 4 (.advance p))
  apply breakable_of_run [.advance q]
  rw [Machine.run_cons, Machine.run_nil, next_advance k (waits.trans there)]
  apply breakable_of_call distinct found p
  · exact (Function.update_of_ne other.symm ..).trans reached.2
  · rfl
  · rw [reached.1]
    exact hooked

/-! ## An insert behind another insert -/

/-- The other insert writes the hook and is left there. -/
theorem breakable_of_insertion (distinct : k.mySysOpen ≠ k.sysClose)
    (found : findSysCallTable k image ≠ 0) {p q : Process} (other : q ≠ p)
    (here : s.pc p = .insertSearch) (rounds : Nat) {pc : Pc} {hook : Hook} {foo : BitVec 32}
    (there : s.pc q = pc) (alone : actAlone k rounds (s.hook, s.foo, pc) = (hook, foo, .insertFlag))
    (hooked : hook.mem = hookedImage k image) : Breakable k s := by
  apply breakable_of_run (List.replicate rounds (.advance q))
  apply breakable_of_search distinct found p
  · exact (run_alone_others k s other.symm rounds).trans here
  · rw [(run_alone_of k s q rounds there alone).1]
    exact hooked

/-! ## Every overlap -/

/-- Whoever is in the window when an insert searches, the hook can be saved. -/
theorem breakable_of_inside (distinct : k.mySysOpen ≠ k.sysClose)
    (found : findSysCallTable k image ≠ 0) {p q : Process} (other : q ≠ p)
    (here : s.pc p = .insertSearch) {pc : Pc} (there : s.pc q = pc) (within : inside pc = true)
    (asserted : Asserted k image s.hook pc)
    (memory : s.hook.mem = image ∨ s.hook.mem = hookedImage k image) : Breakable k s := by
  cases pc with
  | insertSearch =>
      have table : (s.hook.search k).syscallTable = findSysCallTable k image :=
        search_image asserted.2
      have saved : (s.hook.search k).save.syscallTable = findSysCallTable k image := table
      have alone : actAlone k 3 (s.hook, s.foo, .insertSearch) =
          ((s.hook.search k).save.install k, s.foo, .insertFlag) := by
        simp only [actAlone, act, table, if_neg found]
      exact breakable_of_insertion distinct found other here 3 there alone
        (install_image saved asserted.2)
  | insertSave =>
      have saved : s.hook.save.syscallTable = findSysCallTable k image := asserted.2.2.2
      exact breakable_of_insertion distinct found other here 2 there rfl
        (install_image saved asserted.2.1)
  | insertWrite =>
      exact breakable_of_insertion distinct found other here 1 there rfl
        (install_image asserted.2.2.table asserted.2.1)
  | insertFlag =>
      exact breakable_of_insertion distinct found other here 0 there rfl asserted.2.1
  | removeRestore =>
      apply breakable_of_run [.advance q]
      rw [Machine.run_cons, Machine.run_nil, next_advance k there]
      apply breakable_of_removeFlag distinct found other
      · exact (Function.update_of_ne other.symm ..).trans here
      · exact Function.update_self ..
      · exact restore_image asserted.table asserted.entry memory
  | removeFlag => exact breakable_of_removeFlag distinct found other here there asserted.1
  | _ => cases within

/-- An insert that passes its test in another caller's window can go wrong. -/
theorem Invariant.overlap (invariant : Invariant k image s) (distinct : k.mySysOpen ≠ k.sysClose)
    {move : Move Process} (overlaps : ¬ Serialized k image s move) :
    Breakable k ((callers k Process).next s move) := by
  cases move with
  | call p text => exact absurd trivial overlaps
  | advance p =>
      simp only [Serialized, Classical.not_imp, not_forall, Bool.not_eq_false] at overlaps
      rcases overlaps with ⟨found, here, removed, q, other, within⟩
      rw [next_advance k here]
      have passed : (act k s.hook s.foo .insertTest).2.2 = .insertSearch := by
        simp only [act, removed]
        rfl
      apply breakable_of_inside distinct found other
      · rw [passed]
        exact Function.update_self ..
      · exact Function.update_of_ne other ..
      · exact within
      · exact invariant.asserted q
      · exact invariant.memory

/-- A run that is serialized up to its last move, and not at it, has a
continuation that is not safe. -/
theorem unsafe_of_overlap
    (original : findSysCallTable k image ≠ 0 → image (imageEntry k image) ≠ k.mySysOpen)
    (distinct : k.mySysOpen ≠ k.sysClose) {moves : List (Move Process)} {move : Move Process}
    (serialized : (callers k Process).Along (Serialized k image) (Callers.load image Process) moves)
    (overlaps : ¬ Serialized k image
      ((callers k Process).run (Callers.load image Process) moves) move) :
    exists more, ¬ Safe k image
      ((callers k Process).run (Callers.load image Process) (moves ++ move :: more)) := by
  have reached := invariant_run original serialized
  rcases reached.overlap distinct overlaps with ⟨more, breaks⟩
  refine ⟨more, ?_⟩
  intro safe
  rw [Machine.run_append, Machine.run_cons] at safe
  exact safe.1 breaks

end Overlap

end SyscallHook
end KernelHacking
