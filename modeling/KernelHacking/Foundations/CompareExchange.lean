import KernelHacking.Foundations.Conservation
import Mathlib.Algebra.BigOperators.Group.Finset.Piecewise
import Mathlib.Algebra.Order.BigOperators.Group.Finset
import Mathlib.Algebra.Order.Group.Int
import Mathlib.Logic.Function.Basic
import Mathlib.Tactic.SplitIfs

namespace KernelHacking

universe u v w x y z

/-!
# Cells changed by compare-and-exchange

Tasks change shared cells without a lock: a task reads a cell, computes what should
stand there, and exchanges the contents provided that the cell still holds what it
has read.  Otherwise it starts again.  What the tasks do in such a machine, in any
order of their steps, they also do in one where each change is made at once, so
that an argument about the second machine holds of the first.

A change is computed from the content of its cell alone.  A cell that has changed
and changed back in the meantime does not matter.
-/

namespace CompareExchange

/-- A change of a cell, and what the task goes on with. -/
structure Update (Cell : Type u) (Value : Type v) (Work : Type w) (Event : Type x) where
  cell : Cell
  renew : Value → Value
  next : Value → Work × List Event

/-- What tasks do.  A task that is not about to change a cell acts by itself, and
others change cells at their will. -/
structure Protocol (Cell : Type u) (Value : Type v) (Work : Type w) (Event : Type x)
    (Input : Type y) (Env : Type z) where
  update : Work → Option (Update Cell Value Work Event)
  act : (Cell → Value) → Work → Input → Work × List Event
  change : Env → (Cell → Value) → Cell → Value

inductive Turn (Task : Type*) (Input : Type y) (Env : Type z) where
  | task (task : Task) (input : Input)
  | env (env : Env)
deriving DecidableEq, Repr

structure Shared (Cell : Type u) (Value : Type v) (Task : Type*) (Work : Type w) where
  cells : Cell → Value
  work : Task → Work

/-- `seen` is what a task has read before it exchanges. -/
structure Trying (Cell : Type u) (Value : Type v) (Task : Type*) (Work : Type w) extends
    Shared Cell Value Task Work where
  seen : Task → Option Value

section Machines

variable {Cell : Type u} {Value : Type v} {Work : Type w} {Event : Type x} {Input : Type y}
  {Env : Type z} {Task : Type*} [DecidableEq Cell] [DecidableEq Value] [DecidableEq Task]

namespace Shared

/-- A task has changed a cell. -/
def commit (shared : Shared Cell Value Task Work) (task : Task)
    (update : Update Cell Value Work Event) : Shared Cell Value Task Work where
  cells := Function.update shared.cells update.cell (update.renew (shared.cells update.cell))
  work := Function.update shared.work task (update.next (shared.cells update.cell)).1

def act (p : Protocol Cell Value Work Event Input Env) (shared : Shared Cell Value Task Work)
    (task : Task) (input : Input) : Shared Cell Value Task Work :=
  { shared with
    work := Function.update shared.work task (p.act shared.cells (shared.work task) input).1 }

def change (p : Protocol Cell Value Work Event Input Env) (shared : Shared Cell Value Task Work)
    (env : Env) : Shared Cell Value Task Work :=
  { shared with cells := p.change env shared.cells }

end Shared

/-- Each change is made at once. -/
def atomic (p : Protocol Cell Value Work Event Input Env) :
    Machine (Shared Cell Value Task Work) (Turn Task Input Env) (List Event) where
  step shared
    | .task task input =>
        match p.update (shared.work task) with
        | some update => (shared.commit task update, (update.next (shared.cells update.cell)).2)
        | none => (shared.act p task input, (p.act shared.cells (shared.work task) input).2)
    | .env env => (shared.change p env, [])

/-- A change is read, computed and exchanged. -/
def retrying (p : Protocol Cell Value Work Event Input Env) :
    Machine (Trying Cell Value Task Work) (Turn Task Input Env) (List Event) where
  step trying
    | .task task input =>
        match p.update (trying.work task) with
        | some update =>
            match trying.seen task with
            | none =>
                ({ trying with
                  seen := Function.update trying.seen task (some (trying.cells update.cell)) }, [])
            | some orig =>
                let seen := Function.update trying.seen task none
                if trying.cells update.cell = orig then
                  ({ cells := Function.update trying.cells update.cell (update.renew orig)
                     work := Function.update trying.work task (update.next orig).1
                     seen := seen }, (update.next orig).2)
                else ({ trying with seen := seen }, [])
        | none =>
            ({ trying with toShared := trying.act p task input },
              (p.act trying.cells (trying.work task) input).2)
    | .env env => ({ trying with toShared := trying.change p env }, [])

variable {p : Protocol Cell Value Work Event Input Env}

/-- One turn of the machine that retries is the same turn made at once, or nothing
of it is seen. -/
theorem retrying_step (trying : Trying Cell Value Task Work) (turn : Turn Task Input Env) :
    ((retrying p).next trying turn).toShared = (atomic p).next trying.toShared turn ∧
        (retrying p).out trying turn = (atomic p).out trying.toShared turn ∨
      ((retrying p).next trying turn).toShared = trying.toShared ∧
        (retrying p).out trying turn = [] := by
  cases turn with
  | env env => exact Or.inl ⟨rfl, rfl⟩
  | task task input =>
      unfold Machine.next Machine.out retrying atomic
      dsimp only
      cases update : p.update (trying.work task) with
      | none => exact Or.inl ⟨rfl, rfl⟩
      | some update =>
          cases seen : trying.seen task with
          | none => exact Or.inr ⟨rfl, rfl⟩
          | some orig =>
              dsimp only
              split_ifs with same
              · subst same
                exact Or.inl ⟨rfl, rfl⟩
              · exact Or.inr ⟨rfl, rfl⟩

/-- Every run of the machine that retries is a run of the machine that changes each
cell at once, with the turns left out in which nothing was seen. -/
theorem retrying_refines (P : Shared Cell Value Task Work → Turn Task Input Env → Prop)
    (trying : Trying Cell Value Task Work) (turns : List (Turn Task Input Env))
    (along : (retrying p).Along (fun state turn => P state.toShared turn) trying turns) :
    ∃ made, made.Sublist turns ∧ (atomic p).Along P trying.toShared made ∧
      (atomic p).run trying.toShared made = ((retrying p).run trying turns).toShared ∧
      (atomic p).events trying.toShared made = (retrying p).events trying turns := by
  induction turns generalizing trying with
  | nil => exact ⟨[], List.Sublist.refl [], trivial, rfl, rfl⟩
  | cons turn turns ih =>
      rcases ih _ along.2 with ⟨made, sublist, guarded, reached, events⟩
      rcases retrying_step trying turn with ⟨next, out⟩ | ⟨next, out⟩
      · rw [next] at guarded reached events
        refine ⟨turn :: made, sublist.cons_cons turn, ⟨along.1, guarded⟩, reached, ?_⟩
        rw [Machine.events_cons, Machine.events_cons, events, out]
      · rw [next] at guarded reached events
        refine ⟨made, sublist.cons turn, guarded, reached, ?_⟩
        rw [Machine.events_cons, events, out]
        rfl

/-- A turn of one task is none of another's. -/
theorem retrying_other (trying : Trying Cell Value Task Work) {task other : Task}
    (apart : other ≠ task) (input : Input) :
    ((retrying p).next trying (.task task input)).seen other = trying.seen other ∧
      ((retrying p).next trying (.task task input)).work other = trying.work other := by
  unfold Machine.next retrying
  dsimp only
  cases p.update (trying.work task) with
  | none => exact ⟨rfl, Function.update_of_ne apart ..⟩
  | some update =>
      cases trying.seen task with
      | none => exact ⟨Function.update_of_ne apart .., rfl⟩
      | some orig =>
          dsimp only
          split_ifs
          · exact ⟨Function.update_of_ne apart .., Function.update_of_ne apart ..⟩
          · exact ⟨Function.update_of_ne apart .., rfl⟩

/-- A task that is to exchange next has just read the cell, or had read it for a work
that changes none. -/
theorem retrying_read {trying : Trying Cell Value Task Work} {task : Task} {input : Input}
    {orig : Value} (read : ((retrying p).next trying (.task task input)).seen task = some orig) :
    (p.update (trying.work task) = none ∧ trying.seen task = some orig) ∨
      ∃ update, p.update (((retrying p).next trying (.task task input)).work task) = some update ∧
        trying.cells update.cell = orig := by
  revert read
  unfold Machine.next retrying
  dsimp only
  cases update : p.update (trying.work task) with
  | none => exact fun read => Or.inl ⟨rfl, read⟩
  | some made =>
      cases trying.seen task with
      | none =>
          intro read
          have now := (Function.update_self task _ trying.seen).symm.trans read
          exact Or.inr ⟨made, update, Option.some.inj now⟩
      | some before =>
          dsimp only
          split_ifs
          · intro read
            cases (Function.update_self task _ trying.seen).symm.trans read
          · intro read
            cases (Function.update_self task _ trying.seen).symm.trans read

/-- Whoever has read a cell, and has not exchanged yet, has found `P` there. -/
def SeenIn (p : Protocol Cell Value Work Event Input Env) (P : Cell → Value → Prop)
    (trying : Trying Cell Value Task Work) : Prop :=
  forall task orig, trying.seen task = some orig →
    ∃ update, p.update (trying.work task) = some update ∧ P update.cell orig

/-- What holds of all cells is what a task finds when it reads one. -/
theorem SeenIn.next {P : Cell → Value → Prop} {trying : Trying Cell Value Task Work}
    (seenIn : SeenIn p P trying) (cells : forall cell, P cell (trying.cells cell))
    (turn : Turn Task Input Env) : SeenIn p P ((retrying p).next trying turn) := by
  cases turn with
  | env env => exact seenIn
  | task task input =>
      intro other orig read
      by_cases same : other = task
      · subst same
        rcases retrying_read read with ⟨idle, before⟩ | ⟨update, made, found⟩
        · rcases seenIn other orig before with ⟨update, made, _⟩
          rw [idle] at made
          cases made
        · exact ⟨update, made, found ▸ cells update.cell⟩
      · rcases retrying_other (p := p) trying same input with ⟨seen, work⟩
        rw [seen] at read
        rw [work]
        exact seenIn other orig read

end Machines

/-! ## What the tasks carry -/

section Carried

variable {Task : Type*} {Work : Type w} [Fintype Task]

/-- What all tasks carry together. -/
def carriedBy (carried : Work → Int) (work : Task → Work) : Int := ∑ task, carried (work task)

theorem carriedBy_update [DecidableEq Task] (carried : Work → Int) (work : Task → Work)
    (task : Task) (next : Work) :
    carriedBy carried (Function.update work task next) + carried (work task) =
      carriedBy carried work + carried next := by
  have others : ∑ other ∈ Finset.univ.erase task, carried (Function.update work task next other) =
      ∑ other ∈ Finset.univ.erase task, carried (work other) := by
    apply Finset.sum_congr rfl
    intro other member
    rw [Function.update_of_ne (Finset.ne_of_mem_erase member)]
  rw [carriedBy, carriedBy, ← Finset.sum_erase_add _ _ (Finset.mem_univ task), others,
    Function.update_self, ← Finset.sum_erase_add _ _ (Finset.mem_univ task)]
  exact add_right_comm ..

theorem carriedBy_nonneg {carried : Work → Int} (work : Task → Work)
    (nonneg : forall item, 0 ≤ carried item) : 0 ≤ carriedBy carried work :=
  Finset.sum_nonneg fun task _ => nonneg (work task)

theorem carriedBy_eq_zero {carried : Work → Int} {work : Task → Work}
    (nothing : forall task, carried (work task) = 0) : carriedBy carried work = 0 :=
  Finset.sum_eq_zero fun task _ => nothing task

end Carried

end CompareExchange
end KernelHacking
