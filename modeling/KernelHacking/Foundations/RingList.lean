import Mathlib.Data.List.Basic
import Mathlib.Data.List.Induction
import Mathlib.Data.List.Nodup

namespace KernelHacking

universe u v w

/-!
# Circular lists and the loops that walk around them

A circular list has no end and no length: there are two pointers at each node,
and following one of them leads around to where it began.  A loop over such a
list stops when it is back at a node that it knows.  Loops are given a number of
rounds here, and one that has not come to its end within them has no outcome.

Programs write these loops in different shapes, and walk over the nodes or over
the structures that contain them.  All shapes come to the same places, which are
those of a walk.
-/

/-- The pointers that are kept at each node. -/
structure Links (Node : Type u) where
  next : Node → Node
  prev : Node → Node

section Ring

variable {Node : Type u} {links : Links Node}

/-- The pointers lead from the first node through these to the last, and back. -/
def Leads (links : Links Node) : Node → List Node → Node → Prop
  | first, [], last => links.next first = last ∧ links.prev last = first
  | first, node :: nodes, last =>
      (links.next first = node ∧ links.prev node = first) ∧ Leads links node nodes last

theorem leads_append (first middle last : Node) (before after : List Node) :
    Leads links first (before ++ middle :: after) last ↔
      Leads links first before middle ∧ Leads links middle after last := by
  induction before generalizing first with
  | nil => exact Iff.rfl
  | cons node before ih =>
      rw [List.cons_append, Leads, ih, Leads, ← and_assoc]

/-- A circular list as it is seen from one of its nodes: the others, in order. -/
structure Ring (links : Links Node) (head : Node) (nodes : List Node) : Prop where
  distinct : (head :: nodes).Nodup
  around : Leads links head nodes head

/-- The same list, seen from another of its nodes. -/
theorem Ring.rotate {head node : Node} {before after : List Node}
    (ring : Ring links head (before ++ node :: after)) :
    Ring links node (after ++ head :: before) := by
  have halves := (leads_append head node head before after).mp ring.around
  constructor
  · have turned : (head :: (before ++ node :: after)).Perm (node :: (after ++ head :: before)) := by
      rw [← List.cons_append]
      exact List.perm_append_comm
    exact turned.nodup_iff.mp ring.distinct
  · exact (leads_append node head node after before).mpr ⟨halves.2, halves.1⟩

end Ring

/-! ## Loops -/

section Loops

variable {Pos : Type v} {Out : Type w}

/-- Concatenate what one round prints with what the rounds after it print. -/
def followedBy (printed later : Option (List Out)) : Option (List Out) :=
  match printed, later with
  | some first, some second => some (first ++ second)
  | _, _ => none

/-- `for (pos = start; test(pos); pos = advance(pos)) body(pos)`. -/
def forLoop (test : Pos → Bool) (advance : Pos → Pos) (body : Pos → Option (List Out)) :
    Nat → Pos → Option (List Out)
  | 0, _ => none
  | rounds + 1, pos =>
      if test pos then followedBy (body pos) (forLoop test advance body rounds (advance pos))
      else some []

/-- `for (pos = start; test(pos = advance(pos)); ) body(pos)`. -/
def advancingLoop (test : Pos → Bool) (advance : Pos → Pos) (body : Pos → Option (List Out)) :
    Nat → Pos → Option (List Out)
  | 0, _ => none
  | rounds + 1, pos =>
      let pos := advance pos
      if test pos then followedBy (body pos) (advancingLoop test advance body rounds pos)
      else some []

/-- `do { body(pos); pos = advance(pos); } while (test(pos))`. -/
def doLoop (test : Pos → Bool) (advance : Pos → Pos) (body : Pos → Option (List Out)) :
    Nat → Pos → Option (List Out)
  | 0, _ => none
  | rounds + 1, pos =>
      let printed := body pos
      let pos := advance pos
      if test pos then followedBy printed (doLoop test advance body rounds pos)
      else printed

variable {test : Pos → Bool} {advance : Pos → Pos} {body : Pos → Option (List Out)}

theorem followedBy_nil (printed : Option (List Out)) : followedBy printed (some []) = printed := by
  cases printed with
  | none => rfl
  | some lines => exact congrArg some (List.append_nil lines)

theorem advancingLoop_eq (rounds : Nat) (pos : Pos) :
    advancingLoop test advance body rounds pos = forLoop test advance body rounds (advance pos) := by
  induction rounds generalizing pos with
  | zero => rfl
  | succ rounds ih =>
      rw [advancingLoop, forLoop]
      simp only [ih]

theorem doLoop_succ (rounds : Nat) (pos : Pos) :
    doLoop test advance body (rounds + 1) pos =
      followedBy (body pos) (forLoop test advance body (rounds + 1) (advance pos)) := by
  induction rounds generalizing pos with
  | zero =>
      simp only [doLoop, forLoop]
      split
      · cases body pos <;> cases body (advance pos) <;> rfl
      · exact (followedBy_nil _).symm
  | succ rounds ih =>
      rw [doLoop, forLoop]
      simp only [ih]
      split
      · rfl
      · exact (followedBy_nil _).symm

/-- Advancing from here passes the test at these positions, in order, and then fails it. -/
def Walks (test : Pos → Bool) (advance : Pos → Pos) : Pos → List Pos → Prop
  | pos, [] => test pos = false
  | pos, stop :: stops => pos = stop ∧ test pos = true ∧ Walks test advance (advance pos) stops

/-- A loop comes to the end of a walk once there are more rounds than stops. -/
theorem forLoop_walks {pos : Pos} {stops : List Pos} (walks : Walks test advance pos stops)
    {lines : Pos → List Out} (printed : forall stop, stop ∈ stops → body stop = some (lines stop))
    {rounds : Nat} (enough : stops.length < rounds) :
    forLoop test advance body rounds pos = some (stops.flatMap lines) := by
  induction stops generalizing pos rounds with
  | nil =>
      cases rounds with
      | zero => exact absurd enough (Nat.not_lt_zero _)
      | succ rounds =>
          have failed : test pos = false := walks
          rw [forLoop, if_neg (by rw [failed]; decide)]
          rfl
  | cons stop stops ih =>
      cases rounds with
      | zero => exact absurd enough (Nat.not_lt_zero _)
      | succ rounds =>
          rcases walks with ⟨same, passed, later⟩
          have rest := ih later (fun other member => printed other (List.mem_cons_of_mem _ member))
            (Nat.lt_of_succ_lt_succ enough)
          subst same
          rw [forLoop, if_pos passed, rest, printed pos List.mem_cons_self]
          rfl

end Loops

/-! ## Loops around a ring -/

section Around

variable {Node : Type u} {Pos : Type v} {links : Links Node} (entry : Node → Pos)
  (node : Pos → Node) {test : Pos → Bool} {advance : Pos → Pos}

private theorem walks_of_leads (back : forall n, node (entry n) = n)
    (advances : forall pos, advance pos = entry (links.next (node pos))) {first last : Node}
    {nodes : List Node} (leads : Leads links first nodes last) (stops : test (entry last) = false)
    (passes : forall n, n ∈ nodes → test (entry n) = true) :
    Walks test advance (entry (links.next first)) (nodes.map entry) := by
  induction nodes generalizing first with
  | nil =>
      rw [leads.1]
      exact stops
  | cons n nodes ih =>
      rcases leads with ⟨⟨forward, _⟩, later⟩
      rw [forward]
      refine ⟨rfl, passes n List.mem_cons_self, ?_⟩
      rw [advances, back]
      exact ih later fun other member => passes other (List.mem_cons_of_mem _ member)

/-- A walk that starts behind the head of a ring, and whose test fails at the
head only, comes to all other nodes in order. -/
theorem Ring.walks {head : Node} {nodes : List Node} (ring : Ring links head nodes)
    (back : forall n, node (entry n) = n)
    (advances : forall pos, advance pos = entry (links.next (node pos)))
    (tests : forall n, test (entry n) = true ↔ n ≠ head) :
    Walks test advance (entry (links.next head)) (nodes.map entry) := by
  apply walks_of_leads entry node back advances ring.around
  · apply (Bool.not_eq_true _).mp
    intro passed
    exact (tests head).mp passed rfl
  · intro n member
    apply (tests n).mpr
    intro same
    subst same
    exact (List.nodup_cons.mp ring.distinct).1 member

end Around

/-! ## Outcomes that do not depend on the rounds -/

/-- A loop comes to its end with this outcome when it is given enough rounds. -/
def Returns {α : Type u} (run : Nat → Option α) (outcome : α) : Prop :=
  ∃ enough, forall rounds, enough ≤ rounds → run rounds = some outcome

theorem Returns.unique {α : Type u} {run : Nat → Option α} {first second : α}
    (left : Returns run first) (right : Returns run second) : first = second := by
  rcases left with ⟨m, left⟩
  rcases right with ⟨n, right⟩
  have one := left (max m n) (Nat.le_max_left m n)
  have two := right (max m n) (Nat.le_max_right m n)
  exact Option.some.inj (one.symm.trans two)

end KernelHacking
