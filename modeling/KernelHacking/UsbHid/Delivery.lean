import KernelHacking.UsbHid.Driver

namespace KernelHacking
namespace UsbHid

/-!
# What reaches `hid_input_report`

The USB core hands an URB back for many reasons, and says in `urb->status` what
became of the transfer.  `hid_irq_in` does not look: what is in the buffer goes to
the HID core as a report, and the URB is submitted again.

A run is a sequence of turns here.  A turn is one step of a callback, or the end
of a transfer together with the handler that is entered for it.
-/

/-- One step of a callback, or a completion with its handler. -/
inductive Turn where
  | probe
  | start
  | openDevice
  | closeDevice
  | stop
  | disconnect
  | act (accepted : Bool)
  | completion (urb : Nat) (status : Int) (data : List UInt8) (accepted : Bool)

/-- `hid_irq_in`, entered when the controller has handed the URB back. -/
def hidIrqIn (urb : Nat) (accepted : Bool) : List Op :=
  [.report urb, .resubmit urb accepted]

def Turn.ops : Turn → List Op
  | .probe => [.probe]
  | .start => [.start]
  | .openDevice => [.openDevice]
  | .closeDevice => [.closeDevice]
  | .stop => [.stop]
  | .disconnect => [.disconnect]
  | .act accepted => [.act accepted]
  | .completion urb status data accepted => .complete urb status data :: hidIrqIn urb accepted

/-- The outcome of a transfer: its status, and the bytes that the handler finds in
the buffer up to `actual_length`. -/
structure Completion where
  status : Int
  data : List UInt8
  deriving DecidableEq

/-- The completion that this turn brings about.  An URB that is not in flight is
not handed back. -/
def Turn.completes (s : Driver) : Turn → Option Completion
  | .completion urb status data _ =>
      if (s.urb urb).inFlight then some { status := status, data := data } else none
  | _ => none

/-- The operation is a call of `usb_submit_urb` by a handler. -/
def submitsAgain (s : Driver) : Op → Bool
  | .resubmit urb _ => decide (0 < (s.urb urb).resubmitting)
  | _ => false

/-- The number of such calls among these operations. -/
def resubmissions : Driver → List Op → Nat
  | _, [] => 0
  | s, op :: ops => (if submitsAgain s op then 1 else 0) + resubmissions (driver.next s op) ops

/-- What a turn shows of transfers and reports. -/
structure Shown where
  completion : Option Completion
  reports : List (List UInt8)
  resubmitted : Nat

/-- The driver, one turn after the other. -/
def turnwise : Machine Driver Turn Shown where
  step s turn :=
    (driver.run s turn.ops,
      { completion := turn.completes s
        reports := (driver.trace s turn.ops).flatMap Effect.reports
        resubmitted := resubmissions s turn.ops })

/-- The completions of a run, in order. -/
def completions (shown : List Shown) : List Completion :=
  shown.filterMap Shown.completion

/-- The status says that the URB was unlinked or that the device is gone:
`-ENOENT`, `-ECONNRESET`, `-ESHUTDOWN` and `-ENODEV`. -/
def Gone (status : Int) : Prop :=
  status = -2 ∨ status = -104 ∨ status = -108 ∨ status = -19

/-- The delivery law for one run. -/
structure DeliversSuccesses (shown : List Shown) : Prop where
  reports : shown.flatMap Shown.reports =
    ((completions shown).filter fun completion => completion.status = 0).map Completion.data
  gone : forall turn completion, turn ∈ shown → turn.completion = some completion →
    Gone completion.status → turn.resubmitted = 0

/-- Every transfer that ends has succeeded. -/
def AllSucceed (s : Driver) (turns : List Turn) : Prop :=
  turnwise.Along
    (fun state turn => forall completion, turn.completes state = some completion →
      completion.status = 0) s turns

/-! ## One turn -/

/-- Handlers of this URB still have so many reports and submissions to make, and
those of the other URBs have none. -/
structure Outstanding (s : Driver) (id reporting resubmitting : Nat) : Prop where
  reporting : (s.urb id).reporting = reporting
  resubmitting : (s.urb id).resubmitting = resubmitting
  others : forall other, other ≠ id → (s.urb other).reporting = 0 ∧ (s.urb other).resubmitting = 0

/-- No handler is running. -/
def Idle (s : Driver) : Prop :=
  forall id, (s.urb id).reporting = 0 ∧ (s.urb id).resubmitting = 0

theorem Idle.boot : Idle Driver.boot := fun _ => ⟨rfl, rfl⟩

theorem Idle.outstanding {s : Driver} (idle : Idle s) (id : Nat) : Outstanding s id 0 0 where
  reporting := (idle id).1
  resubmitting := (idle id).2
  others other _ := idle other

theorem Outstanding.idle {s : Driver} {id : Nat} (none : Outstanding s id 0 0) : Idle s := by
  intro other
  by_cases same : other = id
  · rw [same]
    exact ⟨none.reporting, none.resubmitting⟩
  · exact none.others other same

theorem Outstanding.setUrb {s : Driver} {id reporting resubmitting : Nat}
    (before : Outstanding s id reporting resubmitting) (urb : Urb) :
    Outstanding (s.setUrb id urb) id urb.reporting urb.resubmitting where
  reporting := by simp only [Driver.setUrb, Function.update_self]
  resubmitting := by simp only [Driver.setUrb, Function.update_self]
  others other different := by
    simp only [Driver.setUrb, Function.update_of_ne different]
    exact before.others other different

theorem Idle.of_urb {s s' : Driver} (idle : Idle s) (same : s'.urb = s.urb) : Idle s' := by
  intro id
  rw [same]
  exact idle id

theorem submit_counts (accepted : Bool) (urb : Urb) :
    (Urb.submit accepted urb).reporting = urb.reporting ∧
      (Urb.submit accepted urb).resubmitting = urb.resubmitting := by
  unfold Urb.submit
  split
  · exact ⟨rfl, rfl⟩
  · exact ⟨rfl, rfl⟩

theorem Idle.mapUrb {s : Driver} (idle : Idle s) (resource : Resource) {change : Urb → Urb}
    (keeps : forall urb, (change urb).reporting = urb.reporting ∧
      (change urb).resubmitting = urb.resubmitting) : Idle (s.mapUrb resource change) := by
  unfold Driver.mapUrb
  split
  · rename_i id _
    have changed := (idle.outstanding id).setUrb (change (s.urb id))
    rw [(keeps _).1, (keeps _).2, (idle id).1, (idle id).2] at changed
    exact changed.idle
  · exact idle

/-- No action of a callback enters a handler. -/
theorem Idle.perform {s : Driver} (idle : Idle s) (accepted : Bool) (action : Action) :
    Idle (s.perform accepted action).1 := by
  cases action with
  | allocate resource =>
      intro id
      by_cases new : id = s.next
      · subst new
        simp only [Driver.perform, Driver.allocate, Function.update_self, and_self]
      · simp only [Driver.perform, Driver.allocate, Function.update_of_ne new]
        exact idle id
  | fillIntUrb => exact idle.mapUrb .urbin fun _ => ⟨rfl, rfl⟩
  | submitUrb => exact idle.mapUrb .urbin (submit_counts accepted)
  | rejectUrb resource => exact idle.mapUrb resource fun _ => ⟨rfl, rfl⟩
  | acceptUrb resource => exact idle.mapUrb resource fun _ => ⟨rfl, rfl⟩
  | readDriverData | keepDriverData | putInterface | clearRemoteWakeup | awaitUrb resource
  | release resource | destroyDevice | releaseKept => exact idle

theorem Idle.call {s s' : Driver} (idle : Idle s) (same : s'.urb = s.urb) (allowed : Prop)
    [Decidable allowed] : Idle (s.call allowed s') := by
  unfold Driver.call
  split
  · exact idle.of_urb same
  · exact idle

/-- The handler takes one report and one submission for each completion. -/
structure Handles (s : Driver) (turn : Turn) : Prop where
  idle : Idle (turnwise.next s turn)
  reports : (turnwise.out s turn).reports = (turn.completes s).toList.map Completion.data
  resubmitted : (turnwise.out s turn).resubmitted = (turn.completes s).toList.length

private theorem handles_quiet {s : Driver} {turn : Turn} {op : Op}
    (single : turn.ops = [op]) (plain : submitsAgain s op = false)
    (silent : (driver.out s op).reports = []) (nothing : turn.completes s = none)
    (after : Idle (driver.next s op)) : Handles s turn where
  idle := by
    simp only [turnwise, Machine.next, single]
    exact after
  reports := by
    simp only [turnwise, Machine.out, single, Machine.trace_cons, Machine.trace_nil,
      List.flatMap_cons, List.flatMap_nil, List.append_nil, nothing]
    exact silent
  resubmitted := by
    simp only [turnwise, Machine.out, single, resubmissions, plain, nothing]
    rfl

/-- The controller hands the URB back and a handler is entered for it. -/
theorem complete_flight {s : Driver} {id : Nat} (idle : Idle s)
    (flight : (s.urb id).inFlight = true) (status : Int) (data : List UInt8) :
    Outstanding (driver.next s (.complete id status data)) id 1 0 ∧
      ((driver.next s (.complete id status data)).urb id).data = data ∧
      (driver.out s (.complete id status data)).reports = [] := by
  simp only [Machine.next, Machine.out, driver, Driver.step, if_pos flight]
  refine ⟨?_, ?_, trivial⟩
  · have handed := (idle.outstanding id).setUrb
      { s.urb id with
        inFlight := false, status := status, data := data, reporting := (s.urb id).reporting + 1 }
    simp only [(idle id).1, (idle id).2, Nat.zero_add] at handed ⊢
    exact handed
  · simp only [Driver.setUrb, Function.update_self]

/-- `hid_input_report` is handed the buffer, whatever became of the transfer. -/
theorem report_once {s : Driver} {id : Nat} (entered : Outstanding s id 1 0) :
    Outstanding (driver.next s (.report id)) id 0 1 ∧
      (driver.out s (.report id)).reports = [(s.urb id).data] := by
  have waiting : 0 < (s.urb id).reporting := by
    rw [entered.reporting]
    decide
  simp only [Machine.next, Machine.out, driver, Driver.step, if_pos waiting, and_true]
  have reported := entered.setUrb
    { s.urb id with
      reporting := (s.urb id).reporting - 1, resubmitting := (s.urb id).resubmitting + 1 }
  simp only [entered.reporting, entered.resubmitting] at reported ⊢
  exact reported

/-- The handler submits the URB again, whatever became of the transfer. -/
theorem resubmit_once {s : Driver} {id : Nat} (reported : Outstanding s id 0 1) (accepted : Bool) :
    Outstanding (driver.next s (.resubmit id accepted)) id 0 0 ∧
      (driver.out s (.resubmit id accepted)).reports = [] ∧
      submitsAgain s (.resubmit id accepted) = true := by
  have pending : 0 < (s.urb id).resubmitting := by
    rw [reported.resubmitting]
    decide
  simp only [Machine.next, Machine.out, driver, Driver.step, if_pos pending]
  refine ⟨?_, trivial, decide_eq_true pending⟩
  have submitted := reported.setUrb
    (Urb.submit accepted { s.urb id with resubmitting := (s.urb id).resubmitting - 1 })
  have counts := submit_counts accepted
    { s.urb id with resubmitting := (s.urb id).resubmitting - 1 }
  rw [counts.1, counts.2] at submitted
  simp only [reported.reporting, reported.resubmitting] at submitted ⊢
  exact submitted

/-- Nothing happens to an URB that is not in flight. -/
theorem completion_grounded {s : Driver} {id : Nat} (idle : Idle s)
    (grounded : ¬ (s.urb id).inFlight = true) (status : Int) (data : List UInt8) (accepted : Bool) :
    Handles s (.completion id status data accepted) := by
  have first : driver.step s (.complete id status data) = (s, {}) := by
    simp only [driver, Driver.step, if_neg grounded]
  have second : driver.step s (.report id) = (s, {}) := by
    simp only [driver, Driver.step, (idle id).1, Nat.lt_irrefl, if_false]
  have third : driver.step s (.resubmit id accepted) = (s, {}) := by
    simp only [driver, Driver.step, (idle id).2, Nat.lt_irrefl, if_false]
  have none : Turn.completes s (.completion id status data accepted) = none := if_neg grounded
  constructor
  · simp only [turnwise, Machine.next, Turn.ops, hidIrqIn, Machine.run_cons, Machine.run_nil, first,
      second, third]
    exact idle
  · simp only [turnwise, Machine.out, Turn.ops, hidIrqIn, Machine.trace_cons, Machine.trace_nil,
      Machine.next, first, second, third, none]
    rfl
  · simp only [turnwise, Machine.out, Turn.ops, hidIrqIn, resubmissions, Machine.next, first, second,
      submitsAgain, (idle id).2, none]
    rfl

theorem completion_flight {s : Driver} {id : Nat} (idle : Idle s)
    (flight : (s.urb id).inFlight = true) (status : Int) (data : List UInt8) (accepted : Bool) :
    Handles s (.completion id status data accepted) := by
  rcases complete_flight idle flight status data with ⟨entered, contents, none⟩
  rcases report_once entered with ⟨reported, one⟩
  rcases resubmit_once reported accepted with ⟨left, silent, submits⟩
  rw [contents] at one
  have completes : Turn.completes s (.completion id status data accepted) =
      some { status := status, data := data } := if_pos flight
  constructor
  · simp only [turnwise, Machine.next, Turn.ops, hidIrqIn, Machine.run_cons, Machine.run_nil]
    exact left.idle
  · simp only [turnwise, Machine.out, Turn.ops, hidIrqIn, Machine.trace_cons, Machine.trace_nil,
      List.flatMap_cons, List.flatMap_nil, completes]
    simp only [Machine.out] at none one silent
    rw [none, one, silent]
    rfl
  · simp only [turnwise, Machine.out, Turn.ops, hidIrqIn, resubmissions, submits, completes]
    rfl

/-- Every turn from a state without handlers is one completion, one report and
one submission, or none of them. -/
theorem turn_handles {s : Driver} (idle : Idle s) (turn : Turn) : Handles s turn := by
  cases turn with
  | completion id status data accepted =>
      by_cases flight : (s.urb id).inFlight = true
      · exact completion_flight idle flight status data accepted
      · exact completion_grounded idle flight status data accepted
  | act accepted =>
      refine handles_quiet rfl rfl ?_ rfl ?_
      · simp only [Machine.out, driver, Driver.step]
        split
        · rfl
        · split
          · rfl
          · rename_i action rest _ _
            cases action <;> rfl
      · simp only [Machine.next, driver, Driver.step]
        split
        · exact idle
        · split
          · exact idle
          · rename_i action rest _ _
            exact (idle.perform accepted action).of_urb rfl
  | probe => exact handles_quiet rfl rfl rfl rfl (idle.call (by rfl) _)
  | start => exact handles_quiet rfl rfl rfl rfl (idle.call (by rfl) _)
  | openDevice => exact handles_quiet rfl rfl rfl rfl (idle.call (by rfl) _)
  | closeDevice => exact handles_quiet rfl rfl rfl rfl (idle.call (by rfl) _)
  | stop => exact handles_quiet rfl rfl rfl rfl (idle.call (by rfl) _)
  | disconnect => exact handles_quiet rfl rfl rfl rfl (idle.call (by rfl) _)

/-! ## Whole runs -/

/-- One report for each completion, with what was in the buffer. -/
theorem run_reports {s : Driver} (idle : Idle s) (turns : List Turn) :
    (turnwise.trace s turns).flatMap Shown.reports =
      (completions (turnwise.trace s turns)).map Completion.data := by
  induction turns generalizing s with
  | nil => rfl
  | cons turn turns ih =>
      have handled := turn_handles idle turn
      have shown : (turnwise.out s turn).completion = turn.completes s := rfl
      rw [Machine.trace_cons, List.flatMap_cons, ih handled.idle, handled.reports]
      simp only [completions, List.filterMap_cons, shown]
      cases turn.completes s with
      | none => rfl
      | some completion => rfl

/-- Each completion is followed by one submission, also when the URB was unlinked. -/
theorem run_resubmitted {s : Driver} (idle : Idle s) (turns : List Turn) :
    forall shown, shown ∈ turnwise.trace s turns →
      shown.resubmitted = shown.completion.toList.length := by
  apply (Machine.forall_trace_iff_along turnwise
    (fun shown => shown.resubmitted = shown.completion.toList.length) s turns).mpr
  refine Machine.along_of_invariant_of_step turnwise Idle _ ?_ ?_ idle turns
  · intro state turn idle
    exact (turn_handles idle turn).idle
  · intro state turn idle
    exact (turn_handles idle turn).resubmitted

theorem allSucceed_iff (s : Driver) (turns : List Turn) :
    AllSucceed s turns ↔
      forall completion, completion ∈ completions (turnwise.trace s turns) →
        completion.status = 0 := by
  have each := Machine.forall_trace_iff_along turnwise
    (fun shown => forall completion, shown.completion = some completion → completion.status = 0)
    s turns
  rw [AllSucceed]
  refine each.symm.trans ?_
  constructor
  · intro every completion member
    rcases List.mem_filterMap.mp member with ⟨shown, inTrace, same⟩
    exact every shown inTrace completion same
  · intro every shown inTrace completion same
    exact every completion (List.mem_filterMap.mpr ⟨shown, inTrace, same⟩)

/-- From the first probe on, a run obeys the delivery law exactly when every
transfer that ends in it has succeeded. -/
theorem deliversSuccesses_iff (turns : List Turn) :
    DeliversSuccesses (turnwise.trace Driver.boot turns) ↔ AllSucceed Driver.boot turns := by
  have reported := run_reports Idle.boot turns
  rw [allSucceed_iff]
  constructor
  · intro law completion member
    have lengths := congrArg List.length (reported.symm.trans law.reports)
    rw [List.length_map, List.length_map] at lengths
    have all := List.length_filter_eq_length_iff.mp lengths.symm completion member
    exact of_decide_eq_true all
  · intro every
    constructor
    · rw [reported, List.filter_eq_self.mpr fun completion member =>
        decide_eq_true (every completion member)]
    · intro shown completion member same gone
      have success := every completion (List.mem_filterMap.mpr ⟨shown, member, same⟩)
      rw [success] at gone
      exact absurd gone (by unfold Gone; decide)

/-- A mouse is opened, moved and closed.  The transfer that `usb_kill_urb` takes
back leaves the bytes of the one before in the buffer. -/
def movedOnce : List Turn :=
  [.probe, .act true, .act true, .start, .act true, .act true, .act true, .act true, .act true,
    .act true, .openDevice, .act true, .act true, .act true, .completion 4 0 [1] true,
    .closeDevice, .act true, .act true, .completion 4 (-2) [1] true, .act true, .act true, .act true]

/-- The movement is reported twice. -/
theorem movedOnce_not_delivered :
    ¬ DeliversSuccesses (turnwise.trace Driver.boot movedOnce) := by
  intro law
  have lengths := congrArg List.length law.reports
  revert lengths
  decide +kernel

end UsbHid
end KernelHacking
