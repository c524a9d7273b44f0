import KernelHacking.UsbHid.Driver
import Mathlib.Algebra.Order.Ring.Int

namespace KernelHacking
namespace UsbHid

/-!
# The users that the driver counts on the interface

The interface is suspended when nobody is counted as using it.  The driver gives
up a use in `usbhid_open` and takes one nowhere, so that every call of it lowers
the count for good.
-/

/-- The driver has added nothing to the count while the device is closed, and
has never taken off more than it added. -/
def Balanced (s : Driver) : Prop :=
  0 ≤ s.usage ∧ (s.opens = 0 → s.pending = [] → s.usage = 0)

instance (s : Driver) : Decidable (Balanced s) :=
  inferInstanceAs (Decidable (_ ∧ _))

def Op.isOpen : Op → Bool
  | .openDevice => true
  | _ => false

/-- The operation begins a call of `usbhid_open`. -/
def Opens (s : Driver) (op : Op) : Prop :=
  op.isOpen = true ∧ s.pending = [] ∧ s.phase = .started

instance (s : Driver) (op : Op) : Decidable (Opens s op) :=
  inferInstanceAs (Decidable (_ ∧ _ ∧ _))

/-- The count as it will be when the running callback has returned. -/
def Driver.account (s : Driver) : Int := s.usage - s.pending.count .putInterface

theorem account_perform (s : Driver) (accepted : Bool) (action : Action) (rest : List Action) :
    ({ (s.perform accepted action).1 with pending := rest } : Driver).account =
      s.usage - (action :: rest).count .putInterface := by
  simp only [Driver.account, Driver.perform_usage, List.count_cons, beq_iff_eq]
  split <;> omega

/-- Callbacks without an action that takes a use off leave the account. -/
theorem account_call {s s' : Driver} (usage : s'.usage = s.usage)
    (plain : s'.pending.count .putInterface = 0) {allowed : Prop} [Decidable allowed] :
    (s.call allowed s').account = s.account := by
  unfold Driver.call
  split_ifs with begins
  · simp only [Driver.account, usage, plain, begins.1, List.count_nil]
  · rfl

theorem account_open {s : Driver} {op : Op} (opens : Opens s op) :
    (driver.next s op).account = s.account - 1 := by
  rcases opens with ⟨isOpen, returned, started⟩
  cases op with
  | openDevice =>
      change (Driver.call s _ _).account = _
      rw [Driver.call, if_pos ⟨returned, started⟩]
      simp only [Driver.account, returned, List.count_nil]
      have once : usbhidOpen.count .putInterface = 1 := rfl
      rw [once]
      omega
  | _ => exact nomatch isOpen

/-- Nothing but a call of `usbhid_open` changes the account. -/
theorem account_other {s : Driver} {op : Op} (other : ¬ Opens s op) :
    (driver.next s op).account = s.account := by
  cases op with
  | openDevice =>
      change (Driver.call s _ _).account = _
      rw [Driver.call, if_neg fun begins => other ⟨rfl, begins⟩]
  | act accepted =>
      cases pending : s.pending with
      | nil => simp only [Machine.next, driver, Driver.step, pending]
      | cons action rest =>
          simp only [Machine.next, driver, Driver.step, pending]
          split_ifs
          · rfl
          · rw [account_perform, Driver.account, pending]
  | disconnect =>
      simp only [Machine.next, driver, Driver.step]
      apply account_call
      · rfl
      · cases s.phase <;> rfl
  | probe | start | closeDevice | stop =>
      simp only [Machine.next, driver, Driver.step]
      apply account_call <;> rfl
  | complete id status data | report id | resubmit id accepted =>
      simp only [Machine.next, driver, Driver.step]
      split_ifs <;> rfl

theorem account_run_le (s : Driver) (ops : List Op) : (driver.run s ops).account ≤ s.account := by
  apply driver.run_invariant_of_step (fun state => state.account ≤ s.account) _ (Int.le_refl _)
  intro state op below
  by_cases opens : Opens state op
  · rw [account_open opens]
    omega
  · rw [account_other opens]
    exact below

theorem account_run_unopened {s : Driver} {ops : List Op}
    (unopened : driver.Along (fun state op => ¬ Opens state op) s ops) :
    (driver.run s ops).account = s.account := by
  apply driver.run_invariant (fun state => state.account = s.account) _ _ rfl unopened
  intro state op same notOpen
  rw [account_other notOpen, same]

theorem balanced_of_account {s : Driver} (zero : s.account = 0) : Balanced s := by
  unfold Driver.account at zero
  refine ⟨by omega, fun _ returned => ?_⟩
  rw [returned, List.count_nil] at zero
  omega

/-- When all callbacks have returned, the count has been right throughout the run
exactly when `usbhid_open` was never called. -/
theorem balanced_iff_unopened (ops : List Op) (returned : (driver.run Driver.boot ops).pending = []) :
    (forall before after, ops = before ++ after → Balanced (driver.run Driver.boot before)) ↔
      driver.Along (fun s op => ¬ Opens s op) Driver.boot ops := by
  constructor
  · intro balanced
    apply (driver.along_iff_forall_split _ _ _).mpr
    intro before op after split opens
    have once : (driver.next (driver.run Driver.boot before) op).account ≤ -1 := by
      have start : Driver.boot.account = 0 := rfl
      have below := account_run_le Driver.boot before
      rw [account_open opens]
      omega
    have ended : (driver.run Driver.boot ops).account ≤ -1 := by
      rw [split, Machine.run_append, Machine.run_cons]
      exact Int.le_trans (account_run_le _ after) once
    have nonneg := (balanced ops [] (List.append_nil _).symm).1
    rw [Driver.account, returned, List.count_nil] at ended
    omega
  · rintro unopened before after rfl
    rw [Machine.along_append] at unopened
    exact balanced_of_account (account_run_unopened unopened.1)

/-- A mouse that is plugged in and out without being opened. -/
def unopenedSession : List Op :=
  [.probe, .act true, .act true, .start, .act true, .act true, .act true, .act true, .act true,
    .act true, .disconnect] ++ List.replicate 14 (.act true)

theorem unopenedSession_balanced :
    (driver.run Driver.boot unopenedSession).pending = [] ∧
      forall before after, unopenedSession = before ++ after →
        Balanced (driver.run Driver.boot before) := by
  have returned : (driver.run Driver.boot unopenedSession).pending = [] := by decide +kernel
  exact ⟨returned, (balanced_iff_unopened unopenedSession returned).mpr (by decide +kernel)⟩

/-- A mouse that is opened once and closed. -/
def openedSession : List Op :=
  [.probe, .act true, .act true, .start, .act true, .act true, .act true, .act true, .act true,
    .act true, .openDevice, .act true, .act true, .act true, .closeDevice, .act true, .act true,
    .complete 4 (-2) [], .report 4, .resubmit 4 true, .act true, .act true, .act true]

theorem openedSession_not_balanced :
    ¬ forall ops : List Op, Balanced (driver.run Driver.boot ops) := by
  intro balanced
  exact absurd (balanced openedSession) (by decide +kernel)

end UsbHid
end KernelHacking
