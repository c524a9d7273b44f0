import Mathlib.Data.Fintype.Basic
import Mathlib.Logic.Function.Basic

namespace KernelHacking

universe u v

/-!
# Counted loops over tables

A loop `for (i = 0; i < n; i++)` folds its body over the counter.  What it
leaves behind is proved from an invariant of the counter and the state; the
two loops that drivers write most often, one that fills cells of a table and
one that sets bits, have their outcome stated once.

Tables with 256 entries are indexed by a byte, and a law about every byte is
decided by trying them all.
-/

/-- `for (i = 0; i < n; i++) body(i)`. -/
def countedLoop {State : Type u} (n : Nat) (body : Nat → State → State) (s : State) : State :=
  (List.range n).foldl (fun state i => body i state) s

@[simp] theorem countedLoop_zero {State : Type u} (body : Nat → State → State) (s : State) :
    countedLoop 0 body s = s := rfl

theorem countedLoop_succ {State : Type u} (n : Nat) (body : Nat → State → State) (s : State) :
    countedLoop (n + 1) body s = body n (countedLoop n body s) := by
  rw [countedLoop, List.range_succ, List.foldl_append]
  rfl

/-- The invariant rule: what holds at the start with counter zero, and is
passed on by each round, holds at the end with the bound of the loop. -/
theorem countedLoop_invariant {State : Type u} (I : Nat → State → Prop) {n : Nat}
    {body : Nat → State → State} {s : State} (initial : I 0 s)
    (preserved : forall i state, i < n → I i state → I (i + 1) (body i state)) :
    I n (countedLoop n body s) := by
  induction n with
  | zero => exact initial
  | succ n ih =>
      rw [countedLoop_succ]
      apply preserved n _ (Nat.lt_succ_self n)
      apply ih
      intro i state below holds
      exact preserved i state (Nat.lt_succ_of_lt below) holds

section Tables

variable {Index : Type u} {Value : Type v} [DecidableEq Index]

omit [DecidableEq Index] in
/-- A loop in which each cell is stored to in one round, its owner, and left
alone in every other: the cells owned by a round of the loop have their values,
and the others are as they were. -/
theorem countedLoop_stores {n : Nat} {body : Nat → (Index → Value) → Index → Value}
    (owner : Index → Nat) (value : Index → Value)
    (stores : forall i table index, i < n →
      body i table index = if owner index = i then value index else table index)
    (table : Index → Value) (index : Index) :
    countedLoop n body table index = if owner index < n then value index else table index := by
  induction n with
  | zero => rw [countedLoop_zero, if_neg (Nat.not_lt_zero _)]
  | succ n ih =>
      have earlier := ih fun i t index below => stores i t index (Nat.lt_succ_of_lt below)
      rw [countedLoop_succ, stores n _ index (Nat.lt_succ_self n), earlier]
      by_cases here : owner index = n
      · rw [if_pos here, if_pos (here ▸ Nat.lt_succ_self n)]
      · have same : owner index < n ↔ owner index < n + 1 := by omega
        rw [if_neg here]
        simp only [same]

/-- A loop that only sets bits sets exactly the bits it names. -/
theorem countedLoop_setBit {n : Nat} (bit : Nat → Index) (bits : Index → Bool) (index : Index) :
    countedLoop n (fun i t => Function.update t (bit i) true) bits index = true ↔
      bits index = true ∨ ∃ i, i < n ∧ bit i = index := by
  refine countedLoop_invariant
    (fun k (t : Index → Bool) => t index = true ↔ bits index = true ∨ ∃ i, i < k ∧ bit i = index) ?_ ?_
  · simp
  · intro k t _ holds
    rw [Function.update_apply]
    by_cases same : index = bit k
    · rw [if_pos same]
      exact iff_of_true rfl (Or.inr ⟨k, Nat.lt_succ_self k, same.symm⟩)
    · rw [if_neg same, holds]
      apply or_congr_right
      constructor
      · rintro ⟨i, earlier, here⟩
        exact ⟨i, Nat.lt_succ_of_lt earlier, here⟩
      · rintro ⟨i, upto, here⟩
        rcases Nat.lt_succ_iff_lt_or_eq.mp upto with earlier | rfl
        · exact ⟨i, earlier, here⟩
        · exact absurd here.symm same

end Tables

/-! ## Laws about every byte -/

theorem forall_byte_iff {P : UInt8 → Prop} :
    (forall byte, P byte) ↔ forall i : Fin 256, P (UInt8.ofFin i) := by
  constructor
  · intro every i
    exact every _
  · intro every byte
    exact every byte.toFin

instance decidableForallByte {P : UInt8 → Prop} [DecidablePred P] :
    Decidable (forall byte, P byte) :=
  decidable_of_iff _ forall_byte_iff.symm

end KernelHacking
