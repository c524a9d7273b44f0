import KernelHacking.SyscallHook.Module

namespace KernelHacking
namespace SyscallHook

/-!
# The search for the table of system calls

All four modules look for the table in the same way: from `sys_close` on they
take each word up to `loops_per_jiffy` for the table's first, and look whether
its entry for `close` is `sys_close`.  The entry lies behind the word itself, so
that the last rounds read behind the end of the search.

Here the search keeps a record of the pointers that it examines and of the words
that it reads.  Everything else about a hook rests on the table that it finds.
-/

/-- What a search has done.  A search whose rounds did not suffice has no
result. -/
structure Searched where
  examined : List Word
  reads : List Word
  result : Option Word

/-- The loop of `find_sys_call_table` with its record. -/
def scanForTable (mem : Memory) (sysClose loopsPerJiffy : Word) : Nat → Word → Searched
  | 0, _ => { examined := [], reads := [], result := none }
  | rounds + 1, ptr =>
      if ptr < loopsPerJiffy then
        let read := entryOf ptr NR_close
        if mem read = sysClose then { examined := [ptr], reads := [read], result := some ptr }
        else
          let later := scanForTable mem sysClose loopsPerJiffy rounds (ptr + 8)
          { later with examined := ptr :: later.examined, reads := read :: later.reads }
      else { examined := [], reads := [], result := some 0 }

/-- A place where the search may find a table. -/
def LooksLikeTable (mem : Memory) (sysClose loopsPerJiffy table : Word) : Prop :=
  (∃ count : Nat, table.toNat = sysClose.toNat + 8 * count) ∧ table < loopsPerJiffy ∧
    mem (entryOf table NR_close) = sysClose

/-- The law of a search: it comes back, its pointer does not wrap around, it
finds the least place that looks like a table, and it reads each entry for
`close` once, in whole words between the bounds. -/
structure SearchLaw (mem : Memory) (sysClose loopsPerJiffy : Word) (searched : Searched) : Prop where
  returns : searched.result.isSome = true
  found : forall table, table ≠ 0 →
    (searched.result = some table ↔ IsLeast {p | LooksLikeTable mem sysClose loopsPerJiffy p} table)
  missing : searched.result = some 0 ↔ forall table, ¬ LooksLikeTable mem sysClose loopsPerJiffy table
  noWrap : forall ptr, ptr ∈ searched.examined → (ptr + 8).toNat = ptr.toNat + 8
  once : searched.examined.Nodup
  reads : searched.reads = searched.examined.map fun ptr => entryOf ptr NR_close
  bounds : forall read, read ∈ searched.reads →
    sysClose.toNat + 8 * NR_close.toNat ≤ read.toNat ∧
      read.toNat + 8 ≤ loopsPerJiffy.toNat + 8 * (NR_close.toNat + 1)

/-- The search with its record is the walk that `findSysCallTable` takes. -/
theorem scanForTable_eq (mem : Memory) (sysClose loopsPerJiffy : Word) (rounds : Nat) (ptr : Word) :
    scanForTable mem sysClose loopsPerJiffy rounds ptr =
      { examined := (walk 8 loopsPerJiffy (IsTable mem sysClose) rounds ptr).1
        reads := (walk 8 loopsPerJiffy (IsTable mem sysClose) rounds ptr).1.map
          fun ptr => entryOf ptr NR_close
        result := tableOf (walk 8 loopsPerJiffy (IsTable mem sysClose) rounds ptr).2 } := by
  induction rounds generalizing ptr with
  | zero => rfl
  | succ rounds ih =>
      rw [scanForTable, walk]
      by_cases before : ptr < loopsPerJiffy
      · rw [if_pos before, if_pos before]
        by_cases table : mem (entryOf ptr NR_close) = sysClose
        · have passes : IsTable mem sysClose ptr := table
          rw [if_pos passes]
          exact if_pos table
        · have fails : ¬ IsTable mem sysClose ptr := table
          rw [if_neg fails]
          refine (if_neg table).trans ?_
          rw [ih]
          rfl
      · rw [if_neg before, if_neg before]
        rfl

theorem scanForTable_result (k : Kernel) (mem : Memory) (rounds : Nat) (ptr : Word) :
    (scanForTable mem k.sysClose k.loopsPerJiffy rounds ptr).result = searchFrom k mem rounds ptr := by
  rw [scanForTable_eq, searchFrom_eq]

section Law

variable {mem : Memory} {sysClose loopsPerJiffy : Word}

theorem looksLikeTable_iff (table : Word) :
    LooksLikeTable mem sysClose loopsPerJiffy table ↔
      OnWalk 8 loopsPerJiffy sysClose table ∧ IsTable mem sysClose table :=
  and_assoc.symm

/-- The entry that is looked at lies within the address space. -/
theorem read_toNat (room : loopsPerJiffy.toNat + 8 * (NR_close.toNat + 1) ≤ 2 ^ 64) {ptr : Word}
    (before : ptr < loopsPerJiffy) : (entryOf ptr NR_close).toNat = ptr.toNat + 8 * NR_close.toNat := by
  have close : NR_close.toNat = 3 := rfl
  have offset : (8 * NR_close : Word).toNat = 24 := rfl
  rw [BitVec.lt_def] at before
  rw [close] at room ⊢
  rw [entryOf, BitVec.toNat_add, offset, Nat.mod_eq_of_lt (by omega)]

/-- The result of a walk that has ended is the least place that looks like a
table, or NULL if there is none. -/
theorem tableOf_spec (nonzero : sysClose ≠ 0) {ending : Ending 64}
    (ended : ending ≠ .unfinished)
    (law : EndsRight 8 loopsPerJiffy sysClose (IsTable mem sysClose) ending) :
    (tableOf ending).isSome = true ∧
      (forall table, table ≠ 0 → (tableOf ending = some table ↔
        IsLeast {p | LooksLikeTable mem sysClose loopsPerJiffy p} table)) ∧
      (tableOf ending = some 0 ↔ forall table, ¬ LooksLikeTable mem sysClose loopsPerJiffy table) := by
  simp only [looksLikeTable_iff, not_and]
  cases ending with
  | unfinished => exact absurd rfl ended
  | passedEnd =>
      refine ⟨rfl, ?_, iff_of_true rfl law⟩
      intro table real
      refine iff_of_false ?_ ?_
      · intro null
        exact real (Option.some.inj null).symm
      · intro least
        exact law table least.1.1 least.1.2
  | found place =>
      have behind := law.1.1.start_le
      have real : place ≠ 0 := by
        rintro rfl
        exact nonzero (BitVec.le_antisymm behind (BitVec.le_def.mpr (Nat.zero_le _)))
      refine ⟨rfl, ?_, iff_of_false ?_ ?_⟩
      · intro table _
        constructor
        · intro same
          cases same
          exact law
        · intro least
          rw [tableOf, BitVec.le_antisymm (law.2 least.1) (least.2 law.1)]
      · intro null
        exact real (Option.some.inj null)
      · intro none
        exact none place law.1.1 law.1.2

/-- Every search whose rounds suffice keeps the law, and the number of rounds
that suffices is known beforehand.  With it the search returns what the hooks
find. -/
theorem search_finds_least (mem : Memory) (nonzero : sysClose ≠ 0)
    (room : loopsPerJiffy.toNat + 8 * (NR_close.toNat + 1) ≤ 2 ^ 64) :
    ∃ enough,
      (forall rounds, enough ≤ rounds →
        SearchLaw mem sysClose loopsPerJiffy (scanForTable mem sysClose loopsPerJiffy rounds sysClose)) ∧
      forall k : Kernel, k.sysClose = sysClose → k.loopsPerJiffy = loopsPerJiffy →
        (scanForTable mem sysClose loopsPerJiffy enough sysClose).result =
          some (findSysCallTable k mem) := by
  have eight : (8 : Word).toNat = 8 := rfl
  have walkRoom : loopsPerJiffy.toNat + (8 : Word).toNat ≤ 2 ^ 64 := by omega
  refine ⟨(loopsPerJiffy.toNat - sysClose.toNat) / 8 + 2, ?_, ?_⟩
  · intro rounds enough
    rcases Nat.exists_eq_add_of_le' enough with ⟨more, rfl⟩
    have ended : (walk 8 loopsPerJiffy (IsTable mem sysClose)
        (more + ((loopsPerJiffy.toNat - sysClose.toNat) / 8 + 1) + 1) sysClose).2 ≠ .unfinished := by
      apply walk_finishes walkRoom
      rw [eight]
      omega
    rcases tableOf_spec nonzero ended (walk_ending walkRoom _) with ⟨returns, found, missing⟩
    rw [scanForTable_eq]
    constructor
    · exact returns
    · exact found
    · exact missing
    · intro ptr looked
      rw [walkStep_toNat walkRoom (walk_onWalk walkRoom looked).2, eight]
    · exact (walk_ascending walkRoom (by decide) _).imp BitVec.ne_of_lt
    · rfl
    · intro read member
      rcases List.mem_map.mp member with ⟨ptr, looked, rfl⟩
      have on := walk_onWalk walkRoom looked
      have behind := on.start_le
      have before := on.2
      rw [read_toNat room before]
      rw [BitVec.le_def] at behind
      rw [BitVec.lt_def] at before
      omega
  · rintro k rfl rfl
    rw [scanForTable_result]
    exact findSysCallTable_terminates k mem

end Law

/-- The search of the small kernel. -/
theorem smallKernel_search :
    ∃ enough,
      (forall rounds, enough ≤ rounds →
        SearchLaw smallImage 0x1000 0x1020 (scanForTable smallImage 0x1000 0x1020 rounds 0x1000)) ∧
      forall k : Kernel, k.sysClose = 0x1000 → k.loopsPerJiffy = 0x1020 →
        (scanForTable smallImage 0x1000 0x1020 enough 0x1000).result =
          some (findSysCallTable k smallImage) :=
  search_finds_least smallImage (by decide) (by decide)

end SyscallHook
end KernelHacking
