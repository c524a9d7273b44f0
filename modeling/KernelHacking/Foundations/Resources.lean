import Mathlib.Logic.Function.Basic
import Mathlib.Data.List.Count
import KernelHacking.Foundations.Machine

namespace KernelHacking

/-!
# Allocated objects and the accesses to them

Every allocation makes a new object, which is named by an identity of its own
even where the allocator returns an address again.  An object may be used from
its allocation on until it is freed, and nothing may be done with it outside of
that time.  A history that keeps to this is disciplined, and where it is, what
was done with an object can be read off its condition at the end.
-/

/-- The condition of an object. -/
inductive Cell where
  | fresh
  | live
  | freed
  deriving DecidableEq

inductive Access where
  | alloc
  | use
  | free
  deriving DecidableEq

/-- Something done through a pointer, which may be null. -/
inductive Event (Id : Type*) where
  | on (id : Id) (access : Access)
  | nullPointer
  deriving DecidableEq

/-- The accesses that are allowed, and the condition after them. -/
def Cell.next : Cell → Access → Option Cell
  | .fresh, .alloc => some .live
  | .live, .use => some .live
  | .live, .free => some .freed
  | _, _ => none

/-- How often each condition has seen an allocation or a release. -/
def Cell.seen : Cell → Access → Nat
  | .fresh, _ => 0
  | .live, .alloc => 1
  | .live, _ => 0
  | .freed, .use => 0
  | .freed, _ => 1

theorem Cell.seen_next {cell after : Cell} {access : Access}
    (allowed : cell.next access = some after) {kind : Access} (kept : kind ≠ .use) :
    after.seen kind = cell.seen kind + if access = kind then 1 else 0 := by
  cases cell <;> cases access <;> cases allowed <;> cases kind <;>
    first | rfl | exact absurd rfl kept

/-- The condition of all objects. -/
abbrev Heap (Id : Type*) := Id → Cell

namespace Heap

variable {Id : Type*} [DecidableEq Id]

def fresh : Heap Id := fun _ => .fresh

/-- The heap after one event, if that is allowed. -/
def next (heap : Heap Id) : Event Id → Option (Heap Id)
  | .on id access => ((heap id).next access).map (Function.update heap id)
  | .nullPointer => none

def run (heap : Heap Id) : List (Event Id) → Option (Heap Id)
  | [] => some heap
  | event :: rest => (heap.next event).bind fun after => after.run rest

/-- Every event of a history that starts with no object is allowed. -/
def Disciplined (events : List (Event Id)) : Prop :=
  ∃ heap, run fresh events = some heap

@[simp] theorem run_nil (heap : Heap Id) : heap.run [] = some heap := rfl

theorem run_append (heap : Heap Id) (first second : List (Event Id)) :
    heap.run (first ++ second) = (heap.run first).bind fun after => after.run second := by
  induction first generalizing heap with
  | nil => rfl
  | cons event rest ih =>
      rw [List.cons_append, run, run, Option.bind_assoc]
      exact congrArg (heap.next event).bind (funext ih)

theorem next_on_eq_some {heap after : Heap Id} {id : Id} {access : Access}
    (allowed : heap.next (.on id access) = some after) :
    ∃ cell, (heap id).next access = some cell ∧ after = Function.update heap id cell := by
  rcases Option.map_eq_some_iff.mp allowed with ⟨cell, allowedCell, rfl⟩
  exact ⟨cell, allowedCell, rfl⟩

/-! ## Single events -/

theorem next_alloc {heap : Heap Id} {id : Id} (unused : heap id = .fresh) :
    heap.next (.on id .alloc) = some (Function.update heap id .live) := by
  rw [next, unused]
  rfl

/-- Using an object changes nothing. -/
theorem next_use {heap : Heap Id} {id : Id} (live : heap id = .live) :
    heap.next (.on id .use) = some heap := by
  rw [next, live]
  exact congrArg some (Function.update_eq_self_iff.mpr live.symm)

theorem next_free {heap : Heap Id} {id : Id} (live : heap id = .live) :
    heap.next (.on id .free) = some (Function.update heap id .freed) := by
  rw [next, live]
  rfl

/-! ## What the condition of an object says about its history -/

/-- Allocations and releases are counted by the conditions they lead to. -/
theorem count_add {heap after : Heap Id} {events : List (Event Id)}
    (disciplined : heap.run events = some after) (id : Id) {kind : Access} (kept : kind ≠ .use) :
    (heap id).seen kind + events.count (.on id kind) = (after id).seen kind := by
  induction events generalizing heap with
  | nil =>
      cases disciplined
      rfl
  | cons event rest ih =>
      rcases Option.bind_eq_some_iff.mp disciplined with ⟨middle, here, later⟩
      rw [← ih later, List.count_cons]
      cases event with
      | nullPointer => exact nomatch here
      | on other access =>
          rcases next_on_eq_some here with ⟨cell, allowed, rfl⟩
          by_cases same : other = id
          · subst same
            rw [Function.update_self, Cell.seen_next allowed kept]
            by_cases sameKind : access = kind
            · subst sameKind
              simp
              omega
            · simp [sameKind]
          · rw [Function.update_of_ne (Ne.symm same)]
            simp [same]

/-- Without a live object at the end, whatever was allocated was freed once. -/
theorem freed_once {heap : Heap Id} {events : List (Event Id)} (ran : run fresh events = some heap)
    (none_live : forall id, heap id ≠ .live) {id : Id} (allocated : .on id .alloc ∈ events) :
    events.count (.on id .free) = 1 := by
  have allocs := count_add ran id (show Access.alloc ≠ .use from nofun)
  have frees := count_add ran id (show Access.free ≠ .use from nofun)
  have positive : 0 < events.count (.on id .alloc) := List.count_pos_iff.mpr allocated
  cases condition : heap id with
  | fresh =>
      rw [condition] at allocs
      simp only [fresh, Cell.seen] at allocs
      omega
  | live => exact absurd condition (none_live id)
  | freed =>
      rw [condition] at frees
      simpa only [fresh, Cell.seen, Nat.zero_add] using frees

/-- Nothing is done with an object after it was freed. -/
theorem not_mem_after_free {before after : List (Event Id)} {id : Id}
    (disciplined : Disciplined (before ++ .on id .free :: after)) (access : Access) :
    .on id access ∉ after := by
  rcases disciplined with ⟨heap, ran⟩
  rw [run_append] at ran
  rcases Option.bind_eq_some_iff.mp ran with ⟨middle, _, rest⟩
  rcases Option.bind_eq_some_iff.mp rest with ⟨gone, freed, later⟩
  rcases next_on_eq_some freed with ⟨cell, allowed, rfl⟩
  have condition : cell = .freed := by
    cases state : middle id <;> rw [state] at allowed <;> cases allowed
    rfl
  have start : Function.update middle id cell id = .freed := by
    rw [Function.update_self, condition]
  generalize Function.update middle id cell = gone at later start
  clear allowed condition freed rest ran
  induction after generalizing gone with
  | nil => exact List.not_mem_nil
  | cons event rest ih =>
      rcases Option.bind_eq_some_iff.mp later with ⟨next, here, tail⟩
      cases event with
      | nullPointer => exact nomatch here
      | on other kind =>
          rcases next_on_eq_some here with ⟨cell', allowed, rfl⟩
          have different : other ≠ id := by
            rintro rfl
            rw [start] at allowed
            exact nomatch allowed
          intro member
          rcases List.mem_cons.mp member with same | member
          · exact different (Event.on.inj same).1.symm
          · exact ih _ tail (by rw [Function.update_of_ne different.symm, start]) member

end Heap

/-! ## Machines that act on objects -/

namespace Machine

variable {State Op : Type*} {Id : Type*} [DecidableEq Id]

/-- Steps that keep an invariant of the state and the heap, and do only what is
allowed in it, make every run disciplined. -/
theorem run_disciplined {Out : Type*} (m : Machine State Op Out) (events : Out → List (Event Id))
    (I : State → Heap Id → Prop)
    (preserved : forall s heap op, I s heap →
      ∃ after, heap.run (events (m.out s op)) = some after ∧ I (m.next s op) after)
    {s : State} {heap : Heap Id} (initial : I s heap) (ops : List Op) :
    ∃ after, heap.run ((m.trace s ops).flatMap events) = some after ∧ I (m.run s ops) after := by
  induction ops generalizing s heap with
  | nil => exact ⟨heap, rfl, initial⟩
  | cons op ops ih =>
      rcases preserved s heap op initial with ⟨middle, here, kept⟩
      rcases ih kept with ⟨after, later, keptLater⟩
      refine ⟨after, ?_, keptLater⟩
      rw [trace_cons, List.flatMap_cons, Heap.run_append, here]
      exact later

end Machine
end KernelHacking
