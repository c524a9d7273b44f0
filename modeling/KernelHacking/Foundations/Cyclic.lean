import Mathlib.Data.List.Nodup
import Mathlib.Data.List.Range
import Mathlib.Data.Nat.ModEq
import Mathlib.Logic.Function.Iterate

namespace KernelHacking

/-!
# Indices around a ring

The places of a ring of fixed size are visited one after another, and the first
comes after the last.  As long as fewer steps are taken than there are places,
no place is visited twice, so that a stretch of the ring is known by its ends.
-/

namespace Cyclic

variable {count : Nat}

/-- The place after another. -/
def next (i : Fin count) : Fin count :=
  if inside : i.val + 1 < count then ⟨i.val + 1, inside⟩
  else ⟨0, Nat.zero_lt_of_lt i.isLt⟩

theorem next_val (i : Fin count) : (next i).val = (i.val + 1) % count := by
  have bound := i.isLt
  unfold next
  split
  · next inside => exact (Nat.mod_eq_of_lt inside).symm
  · have last : i.val + 1 = count := by omega
    rw [last, Nat.mod_self]

theorem iterate_val (i : Fin count) (k : Nat) : (next^[k] i).val = (i.val + k) % count := by
  induction k with
  | zero => exact (Nat.mod_eq_of_lt i.isLt).symm
  | succ k ih => rw [Function.iterate_succ_apply', next_val, ih, Nat.mod_add_mod, Nat.add_assoc]

/-- How many steps lead from one place to another. -/
def distance (i j : Fin count) : Nat := (j.val + count - i.val) % count

/-- Fewer steps than once around are counted by the distance. -/
theorem distance_iterate (i : Fin count) {k : Nat} (less : k < count) :
    distance i (next^[k] i) = k := by
  have bound := i.isLt
  rw [distance, iterate_val]
  rcases Nat.lt_or_ge (i.val + k) count with inside | around
  · have ahead : i.val + k + count - i.val = k + count := by omega
    rw [Nat.mod_eq_of_lt inside, ahead, Nat.add_mod_right, Nat.mod_eq_of_lt less]
  · have wrapped : (i.val + k) % count = i.val + k - count := by
      rw [Nat.mod_eq_sub_mod around]
      exact Nat.mod_eq_of_lt (by omega)
    have ahead : i.val + k - count + count - i.val = k := by omega
    rw [wrapped, ahead, Nat.mod_eq_of_lt less]

/-- The distance is how often to step to get there. -/
theorem iterate_distance (i j : Fin count) : next^[distance i j] i = j := by
  have iBound := i.isLt
  have jBound := j.isLt
  apply Fin.ext
  have along : i.val + (j.val + count - i.val) = j.val + count := by omega
  rw [iterate_val, distance, Nat.add_mod_mod, along, Nat.add_mod_right,
    Nat.mod_eq_of_lt jBound]

/-- Different numbers of steps less than once around lead to different places. -/
theorem iterate_injective {i : Fin count} {j k : Nat} (jLess : j < count) (kLess : k < count)
    (same : next^[j] i = next^[k] i) : j = k := by
  rw [← distance_iterate i jLess, same, distance_iterate i kLess]

theorem iterate_ne {i : Fin count} {j k : Nat} (jLess : j < count) (kLess : k < count)
    (different : j ≠ k) : next^[j] i ≠ next^[k] i :=
  fun same => different (iterate_injective jLess kLess same)

/-- The places from one up to another, without that. -/
def between (i j : Fin count) : List (Fin count) :=
  (List.range (distance i j)).map fun k => next^[k] i

theorem between_iterate (i : Fin count) {k : Nat} (less : k < count) :
    between i (next^[k] i) = (List.range k).map fun j => next^[j] i := by
  rw [between, distance_iterate i less]

theorem mem_between_iterate (i : Fin count) {k : Nat} (less : k < count) (place : Fin count) :
    place ∈ between i (next^[k] i) ↔ ∃ j, j < k ∧ place = next^[j] i := by
  rw [between_iterate i less, List.mem_map]
  simp only [List.mem_range, eq_comm]

theorem getLast?_between (i : Fin count) {k : Nat} (less : k + 1 < count) :
    (between i (next^[k + 1] i)).getLast? = some (next^[k] i) := by
  rw [between_iterate i less, List.range_succ, List.map_append, List.map_singleton,
    List.getLast?_concat]

/-! ## Places as numbers -/

/-- The number of the next place, by `if (++i == count) i = 0`. -/
def wrap (count i : Nat) : Nat := if i + 1 = count then 0 else i + 1

theorem wrap_eq_mod {count i : Nat} (inside : i < count) : wrap count i = (i + 1) % count := by
  unfold wrap
  split
  · next last => rw [last, Nat.mod_self]
  · exact (Nat.mod_eq_of_lt (by omega)).symm

theorem wrap_lt {count i : Nat} (inside : i < count) : wrap count i < count := by
  rw [wrap_eq_mod inside]
  exact Nat.mod_lt _ (Nat.zero_lt_of_lt inside)

/-- Counting from the next place is counting one further from this one. -/
theorem wrap_add_mod {count i : Nat} (inside : i < count) (k : Nat) :
    (wrap count i + k) % count = (i + (k + 1)) % count := by
  rw [wrap_eq_mod inside, Nat.mod_add_mod, Nat.add_assoc, Nat.add_comm 1 k]

theorem wrap_mod {count : Nat} (positive : 0 < count) (k : Nat) :
    wrap count (k % count) = (k + 1) % count := by
  rw [wrap_eq_mod (Nat.mod_lt _ positive), Nat.mod_add_mod]

/-- Less than once around, no place comes twice. -/
theorem add_mod_injective {count i j k : Nat} (jLess : j < count) (kLess : k < count)
    (same : (i + j) % count = (i + k) % count) : j = k := by
  have congruent : j % count = k % count := Nat.ModEq.add_left_cancel' i same
  rwa [Nat.mod_eq_of_lt jLess, Nat.mod_eq_of_lt kLess] at congruent

/-- Every place is reached from every other in less than once around. -/
theorem exists_add_mod {count i place : Nat} (iInside : i < count) (inside : place < count) :
    ∃ k, k < count ∧ (i + k) % count = place := by
  refine ⟨(place + count - i) % count, Nat.mod_lt _ (by omega), ?_⟩
  rw [Nat.add_mod_mod]
  have ahead : i + (place + count - i) = place + count := by omega
  rw [ahead, Nat.add_mod_right, Nat.mod_eq_of_lt inside]

/-- A walk once around from any place visits every place once. -/
theorem around_perm {count start : Nat} (inside : start < count) :
    ((List.range count).map fun i => (start + i) % count).Perm (List.range count) := by
  have once : ((List.range count).map fun i => (start + i) % count).Nodup := by
    apply List.Nodup.map_on _ List.nodup_range
    intro i iMem j jMem same
    exact add_mod_injective (List.mem_range.mp iMem) (List.mem_range.mp jMem) same
  apply (List.perm_ext_iff_of_nodup once List.nodup_range).mpr
  intro place
  rw [List.mem_map, List.mem_range]
  constructor
  · rintro ⟨i, _, reached⟩
    rw [← reached]
    exact Nat.mod_lt _ (Nat.zero_lt_of_lt inside)
  · intro placeInside
    rcases exists_add_mod inside placeInside with ⟨i, less, reached⟩
    exact ⟨i, List.mem_range.mpr less, reached⟩

theorem flatMap_range_getElem? {Item Out : Type*} (f : Item → List Out) (items : List Item)
    {count : Nat} (room : items.length ≤ count) :
    ((List.range count).flatMap fun i => items[i]?.elim [] f) = items.flatMap f := by
  induction items generalizing count with
  | nil => simp
  | cons item items ih =>
      obtain ⟨less, rfl⟩ : ∃ less, count = less + 1 := ⟨count - 1, by
        rw [List.length_cons] at room
        omega⟩
      rw [List.range_succ_eq_map, List.flatMap_cons, List.flatMap_map, List.flatMap_cons]
      have rest := ih (Nat.le_of_succ_le_succ room)
      exact congrArg (f item ++ ·) rest

/-- What is gathered from all places of a ring, when items stand one after
another from one place on and the other places give nothing. -/
theorem flatMap_around {Item Out : Type*} {count start : Nat} {items : List Item}
    (f : Item → List Out) (gather : Nat → List Out) (inside : start < count)
    (room : items.length ≤ count)
    (standing : forall i item, items[i]? = some item → gather ((start + i) % count) = f item)
    (empty : forall i, items.length ≤ i → i < count → gather ((start + i) % count) = []) :
    ((List.range count).flatMap gather).Perm (items.flatMap f) := by
  have walked := (around_perm inside).symm.flatMap_right gather
  have same : (((List.range count).map fun i => (start + i) % count).flatMap gather) =
      items.flatMap f := by
    rw [List.flatMap_map, ← flatMap_range_getElem? f items room]
    apply List.flatMap_congr
    intro i member
    rcases Nat.lt_or_ge i items.length with before | behind
    · have found := List.getElem?_eq_getElem before
      rw [found]
      exact standing i _ found
    · rw [List.getElem?_eq_none behind]
      exact empty i behind (List.mem_range.mp member)
  rwa [same] at walked

end Cyclic
end KernelHacking
