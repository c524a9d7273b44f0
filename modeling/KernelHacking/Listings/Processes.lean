import Mathlib.Algebra.Order.BigOperators.Group.List
import Mathlib.Algebra.Order.Group.Nat
import KernelHacking.Listings.ListHead

namespace KernelHacking
namespace Listings

/-!
# Listing the processes

The tasks of the system are on a circular list that `init_task` is on as well,
and each task is the head of a list of its children.  `procs_psaux` goes around
the tasks with a macro that moves on inside its test; the variants open the macro
up, or use those for lists in general, with entries or with nodes.
-/

/-- What `msg` is given for a task, and for a child of the task before it. -/
inductive ProcessLine where
  | process (comm : List UInt8) (pid : Int)
  | child (comm : List UInt8) (pid : Int)
  deriving DecidableEq

/-- The line is one of a process, not of a child. -/
def ProcessLine.isProcess : ProcessLine → Bool
  | .process _ _ => true
  | .child _ _ => false

/-- The lists, the offsets of three members of a `struct task_struct`, the name and
the number of each task, and `init_task`. -/
structure Tasks where
  list : ListMemory
  tasks : Address
  children : Address
  sibling : Address
  comm : Address → List UInt8
  pid : Address → Int
  initTask : Address

namespace Tasks

variable (k : Tasks)

def processLine (task : Address) : ProcessLine := .process (k.comm task) (k.pid task)

def childLine (task : Address) : ProcessLine := .child (k.comm task) (k.pid task)

def print (task : Address) : Option (List ProcessLine) := some [k.processLine task]

/-- `next_task(p)`. -/
def nextTask (p : Address) : Address := listNextEntry k.list k.tasks p

/-- `for_each_process(p) body(p)`. -/
def forEachProcess (body : Address → Option (List ProcessLine)) (rounds : Nat) :
    Option (List ProcessLine) :=
  advancingLoop (fun p => p != k.initTask) k.nextTask body rounds k.initTask

/-- `procs_print_children`. -/
def procsPrintChildren (rounds : Nat) (task : Address) : Option (List ProcessLine) :=
  if listEmpty k.list (memberOf k.children task) then some []
  else
    listForEachEntry k.list k.sibling (memberOf k.children task)
      (fun child => some [k.childLine child]) rounds

/-- `procs_psaux`. -/
def procsPsaux (rounds : Nat) : Option (List ProcessLine) :=
  k.forEachProcess (fun task => followedBy (k.print task) (k.procsPrintChildren rounds task)) rounds

/-- `procs_psaux_v2`. -/
def procsPsauxV2 (rounds : Nat) : Option (List ProcessLine) :=
  advancingLoop (fun task => task != k.initTask) k.nextTask k.print rounds k.initTask

/-- `procs_psaux_v3`. -/
def procsPsauxV3 (rounds : Nat) : Option (List ProcessLine) :=
  let tasklist := memberOf k.tasks k.initTask
  listForEachEntry k.list k.tasks tasklist k.print rounds

/-- `procs_psaux_v4`. -/
def procsPsauxV4 (rounds : Nat) : Option (List ProcessLine) :=
  listForEachEntry k.list k.tasks (memberOf k.tasks k.initTask) k.print rounds

/-- `procs_psaux_v5`. -/
def procsPsauxV5 (rounds : Nat) : Option (List ProcessLine) :=
  listForEach k.list (memberOf k.tasks k.initTask)
    (fun pos => k.print (containerOf k.tasks pos)) rounds

end Tasks

/-- The lists of the kernel: the tasks around `init_task`, and for each of them
its children. -/
structure TaskRing extends Tasks where
  others : List Address
  ring : Ring list (memberOf tasks initTask) (others.map (memberOf tasks))
  childrenOf : Address → List Address
  family : forall task, task ∈ others →
    Ring list (memberOf children task) ((childrenOf task).map (memberOf sibling))

namespace TaskRing

variable (r : TaskRing)

/-- What `procs_print_children` prints: all children in order, or nothing. -/
theorem procsPrintChildren_ring {task : Address} (member : task ∈ r.others) {rounds : Nat}
    (enough : (r.childrenOf task).length < rounds) :
    r.procsPrintChildren rounds task = some ((r.childrenOf task).map r.childLine) := by
  have ring := r.family task member
  have printed : listForEachEntry r.list r.sibling (memberOf r.children task)
      (fun child => some [r.childLine child]) rounds =
        some ((r.childrenOf task).flatMap fun child => [r.childLine child]) :=
    listForEachEntry_entries ring (fun _ => rfl) enough
  rw [← List.map_eq_flatMap] at printed
  rw [Tasks.procsPrintChildren]
  split
  · rename_i empty
    cases family : r.childrenOf task with
    | nil => rfl
    | cons child children =>
        rw [family] at ring
        have same : memberOf r.sibling child = memberOf r.children task :=
          ring.around.1.1.symm.trans (beq_iff_eq.mp empty)
        have distinct := (List.nodup_cons.mp ring.distinct).1
        exact absurd (same ▸ List.mem_cons_self) distinct
  · exact printed

/-- All lines of `procs_psaux`: each task with its children behind it. -/
def psauxLines (task : Address) : List ProcessLine :=
  r.processLine task :: (r.childrenOf task).map r.childLine

/-- More rounds than any list on which one of the loops goes around. -/
def enoughRounds : Nat :=
  r.others.length + (r.others.map fun task => (r.childrenOf task).length).sum + 1

theorem procsPsaux_returns : Returns r.procsPsaux (r.others.flatMap r.psauxLines) := by
  refine ⟨r.enoughRounds, ?_⟩
  intro rounds enough
  rw [enoughRounds] at enough
  rw [Tasks.procsPsaux, Tasks.forEachProcess, advancingLoop_eq]
  apply forLoop_walks (walks_others r.ring)
  · intro task member
    have fewer : (r.childrenOf task).length ≤ (r.others.map fun t => (r.childrenOf t).length).sum :=
      List.single_le_sum (fun _ _ => Nat.zero_le _) _ (List.mem_map.mpr ⟨task, member, rfl⟩)
    rw [r.procsPrintChildren_ring member (by omega)]
    rfl
  · omega

/-- Without the lines of children, the lines of `procs_psaux` are one for each task. -/
theorem filter_psauxLines (entries : List Address) :
    (entries.flatMap r.psauxLines).filter ProcessLine.isProcess = entries.map r.processLine := by
  induction entries with
  | nil => rfl
  | cons task entries ih =>
      have childless : ((r.childrenOf task).map r.childLine).filter ProcessLine.isProcess = [] := by
        apply List.filter_eq_nil_iff.mpr
        intro line member
        rcases List.mem_map.mp member with ⟨child, _, rfl⟩
        exact Bool.false_ne_true
      rw [List.flatMap_cons, List.filter_append, ih, List.map_cons, psauxLines,
        List.filter_cons_of_pos rfl, childless]
      rfl

end TaskRing

/-- On every circular list of tasks, `procs_psaux` and its four variants come to an
end and print every task but `init_task` once, in the order of the list; the first
of them prints the children in between. -/
theorem listings_agree (r : TaskRing) :
    (r.initTask :: r.others).Nodup ∧
      (∃ lines, Returns r.procsPsaux lines ∧
        lines.filter ProcessLine.isProcess = r.others.map r.processLine) ∧
      Returns r.procsPsauxV2 (r.others.map r.processLine) ∧
      Returns r.procsPsauxV3 (r.others.map r.processLine) ∧
      Returns r.procsPsauxV4 (r.others.map r.processLine) ∧
      Returns r.procsPsauxV5 (r.others.map r.processLine) := by
  have entries : Returns r.procsPsauxV4 (r.others.map r.processLine) := by
    refine ⟨r.others.length + 1, fun rounds enough => ?_⟩
    rw [List.map_eq_flatMap]
    exact listForEachEntry_entries r.ring (fun _ => rfl) enough
  refine ⟨entries_distinct r.ring, ⟨_, r.procsPsaux_returns, r.filter_psauxLines _⟩, ?_, entries, entries, ?_⟩
  · refine ⟨r.others.length + 1, fun rounds enough => ?_⟩
    rw [List.map_eq_flatMap, Tasks.procsPsauxV2, advancingLoop_eq]
    exact forLoop_walks (walks_others r.ring) (fun _ _ => rfl) enough
  · refine ⟨r.others.length + 1, fun rounds enough => ?_⟩
    have printed : r.procsPsauxV5 rounds = some ((r.others.map (memberOf r.tasks)).flatMap
        fun pos => [r.processLine (containerOf r.tasks pos)]) :=
      listForEach_ring r.ring (fun _ _ => rfl) (by rwa [List.length_map])
    rw [printed, ← List.map_eq_flatMap, List.map_map]
    exact congrArg some (List.map_congr_left fun task _ =>
      congrArg r.processLine (containerOf_memberOf r.tasks task))

/-- Two tasks at 100 and 200, the second a child of the first, and `init_task` at 300.
The members are 8, 16 and 24 bytes in. -/
def childBehindParent : TaskRing where
  list :=
    { next := fun node =>
        if node = 308 then 108 else if node = 108 then 208 else if node = 208 then 308
        else if node = 116 then 224 else if node = 224 then 116 else node
      prev := fun node =>
        if node = 308 then 208 else if node = 208 then 108 else if node = 108 then 308
        else if node = 116 then 224 else if node = 224 then 116 else node }
  tasks := 8
  children := 16
  sibling := 24
  comm := fun task => if task = 100 then [97] else if task = 200 then [98] else [99]
  pid := fun task => if task = 100 then 1 else if task = 200 then 2 else 0
  initTask := 300
  others := [100, 200]
  ring := ⟨by decide, by
    refine ⟨⟨?_, ?_⟩, ⟨?_, ?_⟩, ?_, ?_⟩
    all_goals decide⟩
  childrenOf := fun task => if task = 100 then [200] else []
  family := by
    intro task member
    rcases List.mem_pair.mp member with rfl | rfl
    · refine ⟨by decide, ⟨?_, ?_⟩, ?_, ?_⟩
      all_goals decide
    · refine ⟨by decide, ?_, ?_⟩
      all_goals decide

theorem listings_agree_childBehindParent :
    [childBehindParent.initTask, 100, 200].Nodup ∧
      (∃ lines, Returns childBehindParent.procsPsaux lines ∧
        lines.filter ProcessLine.isProcess = [.process [97] 1, .process [98] 2]) ∧
      Returns childBehindParent.procsPsauxV2 [.process [97] 1, .process [98] 2] ∧
      Returns childBehindParent.procsPsauxV3 [.process [97] 1, .process [98] 2] ∧
      Returns childBehindParent.procsPsauxV4 [.process [97] 1, .process [98] 2] ∧
      Returns childBehindParent.procsPsauxV5 [.process [97] 1, .process [98] 2] :=
  listings_agree childBehindParent

end Listings
end KernelHacking
