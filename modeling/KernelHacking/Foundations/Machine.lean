import Mathlib.Data.List.Basic

namespace KernelHacking

universe u v w

/-!
# Deterministic machines driven by a sequence of operations

A driver is entered through calls, and what one call does depends on what the
calls before it left behind.  This module fixes the vocabulary for such
histories once: a machine consumes one operation at a time, moves to its next
state and produces one output.  Concurrency is expressed in the operations
themselves, which name the file or the process they act for; an operation
sequence is then one interleaving.

The rules below are the ones every later argument about a run uses.  A guard
on the steps of a run is stated with `Along`, an invariant of guarded steps is
lifted to runs by `run_invariant`, a fact about each step is lifted by
`along_of_invariant`, progress is measured by `run_measure_le`, and two machines
are compared by `simulation`.  Ghost
bookkeeping that no step reads is added by `withGhost`.
-/

/-- One step consumes an operation and yields the next state and an output. -/
structure Machine (State : Type u) (Op : Type v) (Out : Type w) where
  step : State → Op → State × Out

namespace Machine

variable {State : Type u} {Op : Type v} {Out : Type w}

/-- The state after one operation. -/
def next (m : Machine State Op Out) (s : State) (op : Op) : State :=
  (m.step s op).1

/-- The output of one operation. -/
def out (m : Machine State Op Out) (s : State) (op : Op) : Out :=
  (m.step s op).2

/-- The state after a sequence of operations. -/
def run (m : Machine State Op Out) : State → List Op → State
  | s, [] => s
  | s, op :: ops => run m (m.next s op) ops

/-- The outputs of a sequence of operations, in order. -/
def trace (m : Machine State Op Out) : State → List Op → List Out
  | _, [] => []
  | s, op :: ops => m.out s op :: trace m (m.next s op) ops

@[simp] theorem run_nil (m : Machine State Op Out) (s : State) : m.run s [] = s := rfl

@[simp] theorem run_cons (m : Machine State Op Out) (s : State) (op : Op) (ops : List Op) :
    m.run s (op :: ops) = m.run (m.next s op) ops := rfl

@[simp] theorem trace_nil (m : Machine State Op Out) (s : State) : m.trace s [] = [] := rfl

@[simp] theorem trace_cons (m : Machine State Op Out) (s : State) (op : Op) (ops : List Op) :
    m.trace s (op :: ops) = m.out s op :: m.trace (m.next s op) ops := rfl

theorem run_append (m : Machine State Op Out) (s : State) (first second : List Op) :
    m.run s (first ++ second) = m.run (m.run s first) second := by
  induction first generalizing s with
  | nil => rfl
  | cons op ops ih => exact ih (m.next s op)

theorem trace_append (m : Machine State Op Out) (s : State) (first second : List Op) :
    m.trace s (first ++ second) = m.trace s first ++ m.trace (m.run s first) second := by
  induction first generalizing s with
  | nil => rfl
  | cons op ops ih => exact congrArg (m.out s op :: ·) (ih (m.next s op))

/-! ## Guards on the steps of a run -/

/-- Every operation of the run is taken from a state in which `P` allows it. -/
def Along (m : Machine State Op Out) (P : State → Op → Prop) : State → List Op → Prop
  | _, [] => True
  | s, op :: ops => P s op ∧ Along m P (m.next s op) ops

@[simp] theorem along_nil (m : Machine State Op Out) (P : State → Op → Prop) (s : State) :
    m.Along P s [] := trivial

@[simp] theorem along_cons (m : Machine State Op Out) (P : State → Op → Prop) (s : State)
    (op : Op) (ops : List Op) :
    m.Along P s (op :: ops) ↔ P s op ∧ m.Along P (m.next s op) ops := Iff.rfl

theorem along_append (m : Machine State Op Out) (P : State → Op → Prop) (s : State)
    (first second : List Op) :
    m.Along P s (first ++ second) ↔ m.Along P s first ∧ m.Along P (m.run s first) second := by
  induction first generalizing s with
  | nil => simp
  | cons op ops ih =>
      rw [List.cons_append, along_cons, along_cons, ih, and_assoc, run_cons]

instance decidableAlong (m : Machine State Op Out) (P : State → Op → Prop)
    [decidable : forall s op, Decidable (P s op)] (s : State) (ops : List Op) :
    Decidable (m.Along P s ops) :=
  match ops with
  | [] => isTrue trivial
  | op :: rest =>
      match decidable s op, decidableAlong m P (m.next s op) rest with
      | isTrue here, isTrue later => isTrue ⟨here, later⟩
      | isFalse here, _ => isFalse (fun both => here both.1)
      | _, isFalse later => isFalse (fun both => later both.2)

/-- A guard on a run is a condition at each of its splitting points. -/
theorem along_iff_forall_split (m : Machine State Op Out) (P : State → Op → Prop) (s : State)
    (ops : List Op) :
    m.Along P s ops ↔
      forall before op after, ops = before ++ op :: after → P (m.run s before) op := by
  constructor
  · intro along before op after split
    rw [split, along_append] at along
    exact along.2.1
  · intro every
    induction ops generalizing s with
    | nil => trivial
    | cons op ops ih =>
        refine ⟨every [] op ops rfl, ih (m.next s op) ?_⟩
        intro before later after split
        exact every (op :: before) later after (congrArg (op :: ·) split)

/-- A condition on every output of a run is a guard on its steps. -/
theorem forall_trace_iff_along (m : Machine State Op Out) (Q : Out → Prop) (s : State)
    (ops : List Op) :
    (forall o, o ∈ m.trace s ops → Q o) ↔ m.Along (fun state op => Q (m.out state op)) s ops := by
  induction ops generalizing s with
  | nil => simp
  | cons op ops ih =>
      rw [trace_cons, along_cons, ← ih]
      constructor
      · intro every
        exact ⟨every _ List.mem_cons_self, fun o member => every o (List.mem_cons_of_mem _ member)⟩
      · rintro ⟨here, later⟩ o member
        rcases List.mem_cons.mp member with same | member
        · exact same ▸ here
        · exact later o member

/-! ## Invariants -/

/-- Guarded steps that keep an invariant keep it over a whole guarded run. -/
theorem run_invariant (m : Machine State Op Out) (I : State → Prop) (P : State → Op → Prop)
    (preserved : forall s op, I s → P s op → I (m.next s op)) {s : State} {ops : List Op}
    (initial : I s) (along : m.Along P s ops) : I (m.run s ops) := by
  induction ops generalizing s with
  | nil => exact initial
  | cons op ops ih => exact ih (preserved s op initial along.1) along.2

/-- The unguarded case: steps that keep an invariant keep it over every run. -/
theorem run_invariant_of_step (m : Machine State Op Out) (I : State → Prop)
    (preserved : forall s op, I s → I (m.next s op)) {s : State} (initial : I s)
    (ops : List Op) : I (m.run s ops) := by
  induction ops generalizing s with
  | nil => exact initial
  | cons op ops ih => exact ih (preserved s op initial)

/-- What the invariant and the guard give at one step, they give along a run. -/
theorem along_of_invariant (m : Machine State Op Out) (I : State → Prop)
    (P Q : State → Op → Prop)
    (preserved : forall s op, I s → P s op → I (m.next s op))
    (holds : forall s op, I s → P s op → Q s op) {s : State} {ops : List Op}
    (initial : I s) (along : m.Along P s ops) : m.Along Q s ops := by
  induction ops generalizing s with
  | nil => trivial
  | cons op ops ih =>
      exact ⟨holds s op initial along.1, ih (preserved s op initial along.1) along.2⟩

/-- The unguarded case: what the invariant gives at one step, it gives along every run. -/
theorem along_of_invariant_of_step (m : Machine State Op Out) (I : State → Prop)
    (Q : State → Op → Prop) (preserved : forall s op, I s → I (m.next s op))
    (holds : forall s op, I s → Q s op) {s : State} (initial : I s) (ops : List Op) :
    m.Along Q s ops := by
  induction ops generalizing s with
  | nil => trivial
  | cons op ops ih => exact ⟨holds s op initial, ih (preserved s op initial)⟩

/-- Guards that the invariant makes equivalent hold along the same runs. -/
theorem along_iff_of_invariant (m : Machine State Op Out) (I : State → Prop)
    (P Q : State → Op → Prop) (preserved : forall s op, I s → I (m.next s op))
    (same : forall s op, I s → (P s op ↔ Q s op)) {s : State} (initial : I s) (ops : List Op) :
    m.Along P s ops ↔ m.Along Q s ops :=
  ⟨m.along_of_invariant I P Q (fun s op holds _ => preserved s op holds)
      (fun s op holds => (same s op holds).mp) initial,
    m.along_of_invariant I Q P (fun s op holds _ => preserved s op holds)
      (fun s op holds => (same s op holds).mpr) initial⟩

/-- Guards that are equivalent in every state hold along the same runs. -/
theorem along_congr (m : Machine State Op Out) {P Q : State → Op → Prop}
    (same : forall s op, P s op ↔ Q s op) (s : State) (ops : List Op) :
    m.Along P s ops ↔ m.Along Q s ops := by
  induction ops generalizing s with
  | nil => exact Iff.rfl
  | cons op ops ih => exact and_congr (same s op) (ih (m.next s op))

/-- A guard that looks at the operations only is a condition on each of them. -/
theorem along_of_forall_mem (m : Machine State Op Out) (P : Op → Prop) (s : State) {ops : List Op}
    (every : forall op, op ∈ ops → P op) : m.Along (fun _ op => P op) s ops := by
  induction ops generalizing s with
  | nil => trivial
  | cons op ops ih =>
      exact ⟨every op List.mem_cons_self,
        ih (m.next s op) fun later member => every later (List.mem_cons_of_mem _ member)⟩

theorem along_and (m : Machine State Op Out) {P Q : State → Op → Prop} {s : State} {ops : List Op}
    (first : m.Along P s ops) (second : m.Along Q s ops) :
    m.Along (fun state op => P state op ∧ Q state op) s ops := by
  induction ops generalizing s with
  | nil => trivial
  | cons op ops ih => exact ⟨⟨first.1, second.1⟩, ih first.2 second.2⟩

/-- A measure that one operation lowers and no other raises has fallen by the
number of times the operation was done. -/
theorem run_measure_le [DecidableEq Op] (m : Machine State Op Out) (measure : State → Nat)
    (op : Op) (lowers : forall s, measure (m.next s op) ≤ measure s - 1)
    (keeps : forall s other, other ≠ op → measure (m.next s other) ≤ measure s)
    (s : State) (ops : List Op) :
    measure (m.run s ops) ≤ measure s - ops.count op := by
  induction ops generalizing s with
  | nil => exact Nat.le_refl _
  | cons other ops ih =>
      have later := ih (m.next s other)
      rw [run_cons]
      by_cases same : other = op
      · subst same
        have here := lowers s
        rw [List.count_cons_self]
        omega
      · have here := keeps s other same
        rw [List.count_cons_of_ne same]
        omega

/-! ## Comparing two machines -/

/-- Two machines that stay related under the guard of the first, and show the
same observation at each step, show the same observations over a whole run. -/
theorem simulation {State' : Type*} {Out' : Type*} {Obs : Type*}
    (m : Machine State Op Out) (m' : Machine State' Op Out') (R : State → State' → Prop)
    (P : State → Op → Prop) (see : Out → Obs) (see' : Out' → Obs)
    (agree : forall s s' op, R s s' → P s op →
      R (m.next s op) (m'.next s' op) ∧ see (m.out s op) = see' (m'.out s' op))
    {s : State} {s' : State'} {ops : List Op} (related : R s s') (along : m.Along P s ops) :
    R (m.run s ops) (m'.run s' ops) ∧
      (m.trace s ops).map see = (m'.trace s' ops).map see' := by
  induction ops generalizing s s' with
  | nil => exact ⟨related, rfl⟩
  | cons op ops ih =>
      have here := agree s s' op related along.1
      have later := ih here.1 along.2
      refine ⟨later.1, ?_⟩
      rw [trace_cons, trace_cons, List.map_cons, List.map_cons, here.2, later.2]

/-! ## Ghost bookkeeping -/

/-- The same machine carrying a value that its steps update and never read. -/
def withGhost {Ghost : Type*} (m : Machine State Op Out)
    (update : State → Op → Ghost → Ghost) : Machine (State × Ghost) Op Out where
  step s op := ((m.next s.1 op, update s.1 op s.2), m.out s.1 op)

section Ghost

variable {Ghost : Type*} (m : Machine State Op Out) (update : State → Op → Ghost → Ghost)

@[simp] theorem withGhost_next (s : State × Ghost) (op : Op) :
    (m.withGhost update).next s op = (m.next s.1 op, update s.1 op s.2) := rfl

/-- The ghost does not disturb the run it watches. -/
theorem withGhost_run_fst (s : State × Ghost) (ops : List Op) :
    ((m.withGhost update).run s ops).1 = m.run s.1 ops := by
  induction ops generalizing s with
  | nil => rfl
  | cons op ops ih => exact ih _

theorem withGhost_along_fst (P : State → Op → Prop) (s : State × Ghost) (ops : List Op) :
    (m.withGhost update).Along (fun state op => P state.1 op) s ops ↔ m.Along P s.1 ops := by
  induction ops generalizing s with
  | nil => rfl
  | cons op ops ih => exact and_congr_right fun _ => ih _

end Ghost

end Machine
end KernelHacking
