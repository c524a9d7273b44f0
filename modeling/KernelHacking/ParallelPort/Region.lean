import KernelHacking.Foundations.Machine
import Mathlib.Logic.Function.Basic
import Mathlib.Algebra.Order.Ring.Int

namespace KernelHacking
namespace ParallelPort

/-!
# Who owns the port

The kernel keeps a table of the I/O regions in use.  `parlelport_init` asks it
with `check_region` whether `IOPORT` is free, remembers the answer in `port`, and
then takes the region with `request_region`, whose result it drops.  Its exit
function releases the region whenever the remembered answer was that it is
free, and `release_region` does not ask whose region it is.

Other drivers ask for the same port.  They look at the result of their
requests, and release what they believe to hold.
-/

/-- The owner of a region. -/
inductive Owner (Driver : Type*) where
  | parlelport
  | other (driver : Driver)
  deriving DecidableEq

/-- The next statement of `parlelport_init` or `parlelport_exit`.  The exit
function is also called by an init that fails, whose result it then returns. -/
inductive Pc where
  | unloaded
  | registering
  | checking
  | requesting
  | loaded
  | unregistering (result : Option Int)
  | releasing (result : Option Int)
  deriving DecidableEq

/-- The table's entry for `IOPORT`, what the other drivers believe, and this
driver with its variable `port`.  `obtained` is the result of its last request,
which it does not keep. -/
structure Ports (Driver : Type*) where
  region : Option (Owner Driver)
  holds : Driver → Bool
  pc : Pc := .unloaded
  port : Int := 0
  obtained : Bool := false

/-- A module is loaded or unloaded, the running function takes a step, or another
driver acts.  `register_chrdev` returns the number that comes with a step. -/
inductive PortOp (Driver : Type*) where
  | insmod
  | rmmod
  | step (result : Int)
  | request (driver : Driver)
  | release (driver : Driver)

section Table

variable {Driver : Type*}

/-- `check_region(IOPORT, 1)`. -/
def checkRegion (region : Option (Owner Driver)) : Int :=
  if region.isNone then 0 else -16

/-- `request_region(IOPORT, 1, name)`, with the table's entry after it. -/
def requestRegion (region : Option (Owner Driver)) (owner : Owner Driver) :
    Option (Owner Driver) × Bool :=
  match region with
  | none => (some owner, true)
  | some holder => (some holder, false)

/-- `release_region(IOPORT, 1)`, with the table's entry after it. -/
def releaseRegion (_region : Option (Owner Driver)) : Option (Owner Driver) := none

/-- A statement of `parlelport_init` or `parlelport_exit`, with the value that
the init function returns by it, if it does. -/
def Ports.advance (s : Ports Driver) (result : Int) : Ports Driver × Option Int :=
  match s.pc with
  | .unloaded => (s, none)
  | .registering =>
      if result < 0 then ({ s with pc := .unloaded }, some result)
      else ({ s with pc := .checking }, none)
  | .checking =>
      let port := checkRegion s.region
      if port ≠ 0 then ({ s with port := port, pc := .unregistering (some port) }, none)
      else ({ s with port := port, pc := .requesting }, none)
  | .requesting =>
      let (region, obtained) := requestRegion s.region .parlelport
      ({ s with region := region, obtained := obtained, pc := .loaded }, some 0)
  | .loaded => (s, none)
  | .unregistering failed => ({ s with pc := .releasing failed }, none)
  | .releasing failed =>
      let region := if s.port = 0 then releaseRegion s.region else s.region
      ({ s with region := region, pc := .unloaded }, failed)

variable [DecidableEq Driver]

/-- The table shared with the other drivers. -/
def ports (Driver : Type*) [DecidableEq Driver] :
    Machine (Ports Driver) (PortOp Driver) (Option Int) where
  step s op :=
    match op with
    | .insmod =>
        if s.pc = .unloaded then
          ({ s with pc := .registering, port := 0, obtained := false }, none)
        else (s, none)
    | .rmmod => if s.pc = .loaded then ({ s with pc := .unregistering none }, none) else (s, none)
    | .step result => s.advance result
    | .request driver =>
        if s.holds driver then (s, none)
        else
          let (region, obtained) := requestRegion s.region (.other driver)
          ({ s with region := region, holds := Function.update s.holds driver obtained }, none)
    | .release driver =>
        if s.holds driver then
          ({ s with
              region := releaseRegion s.region
              holds := Function.update s.holds driver false }, none)
        else (s, none)

/-- Before the driver is loaded, with the port free or held by somebody. -/
def freePort (holder : Option Driver) : Ports Driver where
  region := holder.map .other
  holds driver := holder = some driver

/-- The exit function is about to release the region. -/
def Ports.Releases (s : Ports Driver) : Prop :=
  (∃ failed, s.pc = .releasing failed) ∧ s.port = 0

/-- The law of one run: from the return of 0 by `parlelport_init` to the exit
the region is this driver's, and the exit releases only what its own request
obtained. -/
structure RegionLaw (s : Ports Driver) (ops : List (PortOp Driver)) : Prop where
  owned : forall before after, ops = before ++ after →
    ((ports Driver).run s before).pc = .loaded →
      ((ports Driver).run s before).region = some .parlelport
  released : forall before result after, ops = before ++ .step result :: after →
    ((ports Driver).run s before).Releases → ((ports Driver).run s before).obtained = true

/-- When the driver requests the region, nobody has it. -/
def FreeAtRequest (s : Ports Driver) (op : PortOp Driver) : Prop :=
  forall result, op = .step result → s.pc = .requesting → s.region = none

/-! ## The table and the driver in step -/

/-- The driver has its request behind it and will release the region. -/
def Ports.Keeps (s : Ports Driver) : Prop :=
  match s.pc with
  | .loaded => True
  | .unregistering _ => s.port = 0
  | .releasing _ => s.port = 0
  | _ => False

/-- Everybody who believes to hold the region is its owner. -/
structure Ports.InStep (s : Ports Driver) : Prop where
  believed : forall driver, s.holds driver = true → s.region = some (.other driver)
  port : s.pc = .requesting ∨ s.pc = .loaded → s.port = 0
  ours : s.region = some .parlelport ↔ s.Keeps
  obtained : s.Keeps → s.obtained = true

namespace Ports.InStep

variable {s : Ports Driver}

omit [DecidableEq Driver] in
/-- A driver that keeps no region does not own it, and goes on without it. -/
theorem goOn (inStep : s.InStep) (out : ¬ s.Keeps) {pc : Pc} {port : Int} (obtained : Bool)
    (outside : ¬ Keeps { s with pc := pc, port := port })
    (asked : pc = .requesting ∨ pc = .loaded → port = 0) :
    Ports.InStep { s with pc := pc, port := port, obtained := obtained } where
  believed := inStep.believed
  port := asked
  ours := iff_of_false (fun owned => out (inStep.ours.mp owned)) outside
  obtained kept := absurd kept outside

omit [DecidableEq Driver] in
theorem advance (inStep : s.InStep) (free : s.pc = .requesting → s.region = none) (result : Int) :
    (s.advance result).1.InStep := by
  unfold Ports.advance
  cases at_pc : s.pc with
  | unloaded => exact inStep
  | loaded => exact inStep
  | registering =>
      have out : ¬ s.Keeps := by
        rw [Keeps, at_pc]
        exact not_false
      simp only
      split
      · exact inStep.goOn out s.obtained not_false (by simp)
      · exact inStep.goOn out s.obtained not_false (by simp)
  | checking =>
      have out : ¬ s.Keeps := by
        rw [Keeps, at_pc]
        exact not_false
      simp only
      split
      · rename_i busy
        exact inStep.goOn out s.obtained busy (by simp)
      · rename_i idle
        exact inStep.goOn out s.obtained not_false fun _ => not_not.mp idle
  | requesting =>
      have nobody := free at_pc
      simp only [nobody, requestRegion]
      constructor
      · intro driver held
        exact absurd ((inStep.believed driver held).symm.trans nobody) nofun
      · intro _
        exact inStep.port (Or.inl at_pc)
      · exact iff_of_true rfl trivial
      · intro _
        rfl
  | unregistering failed =>
      have same : s.Keeps ↔ s.port = 0 := by rw [Keeps, at_pc]
      constructor
      · exact inStep.believed
      · simp
      · exact inStep.ours.trans same
      · intro kept
        exact inStep.obtained (same.mpr kept)
  | releasing failed =>
      have same : s.Keeps ↔ s.port = 0 := by rw [Keeps, at_pc]
      simp only
      split
      · rename_i idle
        have owned := inStep.ours.mpr (same.mpr idle)
        constructor
        · intro driver held
          exact absurd ((inStep.believed driver held).symm.trans owned) nofun
        · simp
        · exact iff_of_false nofun not_false
        · exact False.elim
      · rename_i busy
        exact inStep.goOn (fun kept => busy (same.mp kept)) s.obtained not_false (by simp)

theorem request (inStep : s.InStep) (driver : Driver) :
    ((ports Driver).next s (.request driver)).InStep := by
  simp only [Machine.next, ports]
  split
  · exact inStep
  · cases owner : s.region with
    | some holder =>
        -- a request that fails changes no belief
        rename_i unheld
        have same : Function.update s.holds driver false = s.holds :=
          Function.update_eq_self_iff.mpr (Bool.eq_false_iff.mpr unheld).symm
        simp only [requestRegion, same, ← owner]
        exact inStep
    | none =>
        have out : ¬ s.Keeps := fun kept => nomatch owner.symm.trans (inStep.ours.mpr kept)
        simp only [requestRegion]
        constructor
        · intro holder held
          change Function.update s.holds driver true holder = true at held
          by_cases here : holder = driver
          · rw [here]
          · rw [Function.update_of_ne here] at held
            exact absurd ((inStep.believed holder held).symm.trans owner) nofun
        · exact inStep.port
        · exact iff_of_false nofun out
        · intro kept
          exact absurd kept out

theorem release (inStep : s.InStep) (driver : Driver) :
    ((ports Driver).next s (.release driver)).InStep := by
  simp only [Machine.next, ports]
  split
  · rename_i held
    have owner := inStep.believed driver held
    have out : ¬ s.Keeps := fun kept => nomatch owner.symm.trans (inStep.ours.mpr kept)
    constructor
    · intro other believes
      change Function.update s.holds driver false other = true at believes
      by_cases here : other = driver
      · rw [here, Function.update_self] at believes
        cases believes
      · rw [Function.update_of_ne here] at believes
        have same := owner.symm.trans (inStep.believed other believes)
        cases same
        exact absurd rfl here
    · exact inStep.port
    · exact iff_of_false nofun out
    · intro kept
      exact absurd kept out
  · exact inStep

/-- Every operation keeps the table in step, provided that a request of the
driver finds the region free. -/
theorem next (inStep : s.InStep) {op : PortOp Driver} (free : FreeAtRequest s op) :
    ((ports Driver).next s op).InStep := by
  cases op with
  | insmod =>
      simp only [Machine.next, ports]
      split
      · rename_i unloaded
        have out : ¬ s.Keeps := by
          rw [Keeps, unloaded]
          exact not_false
        exact inStep.goOn out false not_false (by simp)
      · exact inStep
  | rmmod =>
      simp only [Machine.next, ports]
      split
      · rename_i loaded
        have idle := inStep.port (Or.inr loaded)
        have kept : s.Keeps := by
          rw [Keeps, loaded]
          trivial
        constructor
        · exact inStep.believed
        · simp
        · exact iff_of_true (inStep.ours.mpr kept) idle
        · intro _
          exact inStep.obtained kept
      · exact inStep
  | step result => exact inStep.advance (free result rfl) result
  | request driver => exact inStep.request driver
  | release driver => exact inStep.release driver

end Ports.InStep

theorem Ports.inStep_freePort (holder : Option Driver) :
    (freePort holder).InStep where
  believed := by
    intro driver held
    have same : holder = some driver := of_decide_eq_true held
    rw [freePort, same]
    rfl
  port := by simp [freePort]
  ours := by
    apply iff_of_false
    · cases holder <;> nofun
    · exact not_false
  obtained := False.elim

/-! ## The law is that every request finds the region free -/

theorem regionLaw_of_free {s : Ports Driver} {ops : List (PortOp Driver)} (inStep : s.InStep)
    (free : (ports Driver).Along FreeAtRequest s ops) : RegionLaw s ops where
  owned := by
    intro before after split loaded
    rw [split, Machine.along_append] at free
    have reached := Machine.run_invariant (ports Driver) Ports.InStep FreeAtRequest
      (fun _ _ holds asked => holds.next asked) inStep free.1
    apply reached.ours.mpr
    rw [Ports.Keeps, loaded]
    trivial
  released := by
    intro before result after split releases
    rw [split, Machine.along_append] at free
    have reached := Machine.run_invariant (ports Driver) Ports.InStep FreeAtRequest
      (fun _ _ holds asked => holds.next asked) inStep free.1
    apply reached.obtained
    rcases releases with ⟨⟨failed, releasing⟩, idle⟩
    rw [Ports.Keeps, releasing]
    exact idle

/-- A request that comes too late leaves the driver loaded without the region. -/
theorem free_of_owned {s : Ports Driver} (inStep : s.InStep) {op : PortOp Driver}
    (owned : ((ports Driver).next s op).pc = .loaded →
      ((ports Driver).next s op).region = some .parlelport) : FreeAtRequest s op := by
  intro result step asking
  subst step
  simp only [Machine.next, ports, Ports.advance, asking] at owned
  cases owner : s.region with
  | none => rfl
  | some holder =>
      simp only [owner, requestRegion] at owned
      have kept := inStep.ours.mp (owner.trans (owned trivial))
      rw [Ports.Keeps, asking] at kept
      exact kept.elim

theorem free_of_regionLaw {s : Ports Driver} {ops : List (PortOp Driver)} (inStep : s.InStep)
    (law : RegionLaw s ops) : (ports Driver).Along FreeAtRequest s ops := by
  induction ops generalizing s with
  | nil => trivial
  | cons op ops ih =>
      have free : FreeAtRequest s op := free_of_owned inStep (law.owned [op] ops rfl)
      refine ⟨free, ih (inStep.next free) ⟨?_, ?_⟩⟩
      · intro before after split
        exact law.owned (op :: before) after (by rw [split]; rfl)
      · intro before result after split
        exact law.released (op :: before) result after (by rw [split]; rfl)

/-- Whatever the other drivers do, the region is this driver's from the return
of its init to its exit, and its exit releases nothing else, exactly when no
other driver takes the region between the check and the request. -/
theorem regionLaw_iff_free (holder : Option Driver) (ops : List (PortOp Driver)) :
    RegionLaw (freePort holder) ops ↔
      (ports Driver).Along FreeAtRequest (freePort holder) ops :=
  ⟨free_of_regionLaw (Ports.inStep_freePort holder),
    regionLaw_of_free (Ports.inStep_freePort holder)⟩

end Table

/-- Another driver takes the port between the check and the request, and the
module is loaded and unloaded. -/
def stolenPort : List (PortOp Unit) :=
  [.insmod, .step 0, .step 0, .request (), .step 0, .rmmod, .step 0, .step 0]

/-- The module is loaded without the port. -/
theorem stolenPort_not_lawful : ¬ RegionLaw (freePort none) stolenPort := by
  intro law
  have owned := law.owned (stolenPort.take 5) (stolenPort.drop 5) rfl (by decide)
  revert owned
  decide

/-- In the end the other driver believes to hold a port that is free. -/
example :
    ((ports Unit).run (freePort none) stolenPort).region = none ∧
      ((ports Unit).run (freePort none) stolenPort).holds () = true := by
  decide

end ParallelPort
end KernelHacking
