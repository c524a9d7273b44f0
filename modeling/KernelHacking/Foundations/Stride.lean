import Mathlib.Algebra.Ring.Nat
import Mathlib.Order.Bounds.Defs

namespace KernelHacking

/-!
# Walking through memory in equal steps

A search through memory moves a pointer from a start in equal steps, looks at
each place that it comes to, and stops at the first that passes a test or when
it is at or behind the end.  Pointers are words and may wrap around.  Where one
step from the last place before the end stays within the address space they do
not, and the walk comes to the places that the arithmetic of natural numbers
says it comes to.
-/

variable {w : Nat}

/-- How a walk ends, if the rounds suffice. -/
inductive Ending (w : Nat) where
  | unfinished
  | passedEnd
  | found (place : BitVec w)
  deriving DecidableEq

/-- The places that a walk looks at, in order, and how it ends. -/
def walk (step stop : BitVec w) (test : BitVec w → Prop) [DecidablePred test] :
    Nat → BitVec w → List (BitVec w) × Ending w
  | 0, _ => ([], .unfinished)
  | rounds + 1, place =>
      if place < stop then
        if test place then ([place], .found place)
        else
          let later := walk step stop test rounds (place + step)
          (place :: later.1, later.2)
      else ([], .passedEnd)

/-- The places before the end that lie a multiple of the step behind the start. -/
def OnWalk (step stop start place : BitVec w) : Prop :=
  (∃ count : Nat, place.toNat = start.toNat + step.toNat * count) ∧ place < stop

/-- What the end of a walk says about the places on it. -/
def EndsRight (step stop start : BitVec w) (test : BitVec w → Prop) : Ending w → Prop
  | .unfinished => True
  | .passedEnd => forall place, OnWalk step stop start place → ¬ test place
  | .found place => IsLeast {place | OnWalk step stop start place ∧ test place} place

variable {step stop start place : BitVec w}

/-- The end is so far from the end of the address space that no step wraps. -/
theorem walkStep_toNat (room : stop.toNat + step.toNat ≤ 2 ^ w) (before : start < stop) :
    (start + step).toNat = start.toNat + step.toNat := by
  rw [BitVec.lt_def] at before
  rw [BitVec.toNat_add, Nat.mod_eq_of_lt (by omega)]

theorem not_onWalk (behind : ¬ start < stop) : ¬ OnWalk step stop start place := by
  rintro ⟨⟨count, here⟩, before⟩
  rw [BitVec.lt_def] at behind before
  omega

/-- The places on a walk are its start and those on the walk one step later. -/
theorem onWalk_iff (room : stop.toNat + step.toNat ≤ 2 ^ w) (before : start < stop) :
    OnWalk step stop start place ↔ place = start ∨ OnWalk step stop (start + step) place := by
  have moved := walkStep_toNat room before
  constructor
  · rintro ⟨⟨count, here⟩, inside⟩
    cases count with
    | zero => exact Or.inl (BitVec.eq_of_toNat_eq here)
    | succ count =>
        refine Or.inr ⟨⟨count, ?_⟩, inside⟩
        rw [here, moved, Nat.mul_succ]
        omega
  · rintro (rfl | ⟨⟨count, here⟩, inside⟩)
    · exact ⟨⟨0, rfl⟩, before⟩
    · refine ⟨⟨count + 1, ?_⟩, inside⟩
      rw [here, moved, Nat.mul_succ]
      omega

theorem OnWalk.start_le (on : OnWalk step stop start place) : start ≤ place := by
  rcases on with ⟨⟨count, here⟩, _⟩
  rw [BitVec.le_def]
  omega

section Walk

variable {test : BitVec w → Prop} [DecidablePred test]

/-- With enough rounds the walk comes to an end. -/
theorem walk_finishes (room : stop.toNat + step.toNat ≤ 2 ^ w) {rounds : Nat}
    (enough : stop.toNat ≤ start.toNat + step.toNat * rounds) :
    (walk step stop test (rounds + 1) start).2 ≠ .unfinished := by
  induction rounds generalizing start with
  | zero =>
      have behind : ¬ start < stop := by
        rw [BitVec.lt_def]
        omega
      rw [walk, if_neg behind]
      exact nofun
  | succ rounds ih =>
      rw [walk]
      split
      · rename_i before
        split
        · exact nofun
        · apply ih
          rw [walkStep_toNat room before]
          rw [Nat.mul_succ] at enough
          omega
      · exact nofun

/-- Only places on the walk are looked at. -/
theorem walk_onWalk (room : stop.toNat + step.toNat ≤ 2 ^ w) {rounds : Nat}
    (looked : place ∈ (walk step stop test rounds start).1) : OnWalk step stop start place := by
  induction rounds generalizing start with
  | zero => cases looked
  | succ rounds ih =>
      rw [walk] at looked
      split at looked
      · rename_i before
        rw [onWalk_iff room before]
        split at looked
        · exact Or.inl (List.mem_singleton.mp looked)
        · rcases List.mem_cons.mp looked with here | later
          · exact Or.inl here
          · exact Or.inr (ih later)
      · cases looked

/-- The places are looked at in ascending order. -/
theorem walk_ascending (room : stop.toNat + step.toNat ≤ 2 ^ w) (moves : 0 < step.toNat)
    (rounds : Nat) : (walk step stop test rounds start).1.Pairwise (· < ·) := by
  induction rounds generalizing start with
  | zero => exact List.Pairwise.nil
  | succ rounds ih =>
      rw [walk]
      split
      · rename_i before
        split
        · exact List.pairwise_singleton ..
        · refine List.pairwise_cons.mpr ⟨?_, ih⟩
          intro other looked
          have behind := (walk_onWalk room looked).start_le
          rw [BitVec.le_def, walkStep_toNat room before] at behind
          rw [BitVec.lt_def]
          omega
      · exact List.Pairwise.nil

/-- A walk that finds a place has found the least that passes the test, and one
that passes the end has missed none. -/
theorem walk_ending (room : stop.toNat + step.toNat ≤ 2 ^ w) (rounds : Nat) :
    EndsRight step stop start test (walk step stop test rounds start).2 := by
  induction rounds generalizing start with
  | zero => trivial
  | succ rounds ih =>
      rw [walk]
      by_cases before : start < stop
      · rw [if_pos before]
        by_cases passes : test start
        · rw [if_pos passes]
          refine ⟨⟨(onWalk_iff room before).mpr (Or.inl rfl), passes⟩, ?_⟩
          rintro other ⟨on, _⟩
          exact on.start_le
        · rw [if_neg passes]
          have later := @ih (start + step)
          simp only
          cases ending : (walk step stop test rounds (start + step)).2 with
          | unfinished => trivial
          | passedEnd =>
              rw [ending] at later
              intro place on
              rcases (onWalk_iff room before).mp on with rfl | on
              · exact passes
              · exact later place on
          | found place =>
              rw [ending] at later
              refine ⟨⟨(onWalk_iff room before).mpr (Or.inr later.1.1), later.1.2⟩, ?_⟩
              rintro other ⟨on, good⟩
              rcases (onWalk_iff room before).mp on with rfl | on
              · exact absurd good passes
              · exact later.2 ⟨on, good⟩
      · rw [if_neg before]
        intro place on
        exact absurd on (not_onWalk before)

end Walk

end KernelHacking
