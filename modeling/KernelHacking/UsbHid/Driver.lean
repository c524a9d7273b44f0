import Mathlib.Logic.Function.Basic
import KernelHacking.Foundations.Machine
import KernelHacking.Foundations.Resources

namespace KernelHacking
namespace UsbHid

/-!
# The callbacks of the USB HID driver and the completions of its URBs

The USB core and the HID core call the driver back one callback at a time.  A
callback is a list of actions here, and between any two of them the controller
can complete a transfer and `hid_irq_in` can take one of its two steps, on as
many completions as are being handled at once.  The interface can be probed
again after it was disconnected.

Objects are named by the order of their allocation.  There is one interface and
so one `usbhid_device` at a time, whose fields are kept in the state.
-/

/-- What is allocated, together with the pointer that it is kept in: the data of
the interface, the `driver_data` of the HID device, and the fields of the
`usbhid_device`. -/
inductive Resource where
  | hid
  | usbhid
  | inbuf
  | cr
  | urbin
  | urbctrl
  deriving DecidableEq

/-- One step of a callback. -/
inductive Action where
  | allocate (resource : Resource)
  | readDriverData
  | keepDriverData
  | fillIntUrb
  | submitUrb
  | putInterface
  | clearRemoteWakeup
  | rejectUrb (resource : Resource)
  | awaitUrb (resource : Resource)
  | acceptUrb (resource : Resource)
  | release (resource : Resource)
  | destroyDevice
  | releaseKept
  deriving DecidableEq

/-- `usb_kill_urb`, which makes submissions fail until it has seen the last
completion handler return. -/
def usbKillUrb (resource : Resource) : List Action :=
  [.rejectUrb resource, .awaitUrb resource, .acceptUrb resource]

def usbhidProbe : List Action :=
  [.allocate .hid, .allocate .usbhid]

def usbhidStart : List Action :=
  [.readDriverData, .allocate .inbuf, .allocate .cr, .allocate .urbin, .fillIntUrb,
    .allocate .urbctrl]

def usbhidOpen : List Action :=
  [.readDriverData, .submitUrb, .putInterface]

def usbhidClose : List Action :=
  .readDriverData :: usbKillUrb .urbin ++ [.clearRemoteWakeup]

def usbhidStop : List Action :=
  .readDriverData :: usbKillUrb .urbin ++ usbKillUrb .urbctrl ++
    [.release .urbin, .release .urbctrl, .release .inbuf, .release .cr]

/-- `hid_destroy_device` stops the device if it was started. -/
def usbhidDisconnect (started : Bool) : List Action :=
  .keepDriverData :: (if started then usbhidStop else []) ++ [.destroyDevice, .releaseKept]

/-- An URB, with the outcome of its last transfer.  Handlers that still have to
report and handlers that still have to submit it again are counted. -/
structure Urb where
  filled : Bool := false
  context : Option Nat := none
  transferBuffer : Option Nat := none
  status : Int := 0
  data : List UInt8 := []
  inFlight : Bool := false
  reporting : Nat := 0
  resubmitting : Nat := 0
  reject : Bool := false

/-- Something still has to happen to the URB before `usb_kill_urb` returns. -/
def Urb.Busy (urb : Urb) : Prop :=
  urb.inFlight = true ∨ 0 < urb.reporting ∨ 0 < urb.resubmitting

instance (urb : Urb) : Decidable urb.Busy :=
  inferInstanceAs (Decidable (_ ∨ _ ∨ _))

/-- How far the interface is bound. -/
inductive Phase where
  | unbound
  | bound
  | started
  deriving DecidableEq

/-- `usbhid` is the local variable of the running callback and `kept` that of
`usbhid_disconnect`.  `usage` is what the driver has added to the count of the
interface's users, and `opens` is how often the device is open. -/
structure Driver where
  next : Nat := 0
  pointer : Resource → Option Nat := fun _ => none
  urb : Nat → Urb := fun _ => {}
  usbhid : Option Nat := none
  kept : Option Nat := none
  needsRemoteWakeup : Bool := false
  pending : List Action := []
  phase : Phase := .unbound
  opens : Nat := 0
  usage : Int := 0

/-- `act` is the next step of the running callback.  `accepted` says whether the
controller can take a transfer. -/
inductive Op where
  | probe
  | start
  | openDevice
  | closeDevice
  | stop
  | disconnect
  | act (accepted : Bool)
  | complete (urb : Nat) (status : Int) (data : List UInt8)
  | report (urb : Nat)
  | resubmit (urb : Nat) (accepted : Bool)

/-- What a step does to allocated objects, and the reports that it hands to
`hid_input_report`. -/
structure Effect where
  events : List (Event Nat) := []
  reports : List (List UInt8) := []

/-- Go through a pointer. -/
def deref : Option Nat → List (Event Nat)
  | some id => [.on id .use]
  | none => [.nullPointer]

/-- Hand a pointer to a function that ignores null pointers. -/
def passing (access : Access) : Option Nat → List (Event Nat)
  | some id => [.on id access]
  | none => []

def Driver.setUrb (s : Driver) (id : Nat) (urb : Urb) : Driver :=
  { s with urb := Function.update s.urb id urb }

/-- Change the URB that a pointer leads to, if it does. -/
def Driver.mapUrb (s : Driver) (resource : Resource) (change : Urb → Urb) : Driver :=
  match s.pointer resource with
  | some id => s.setUrb id (change (s.urb id))
  | none => s

@[simp] theorem Driver.mapUrb_phase (s : Driver) (resource : Resource) (change : Urb → Urb) :
    (s.mapUrb resource change).phase = s.phase := by
  unfold Driver.mapUrb
  split <;> rfl

@[simp] theorem Driver.mapUrb_usage (s : Driver) (resource : Resource) (change : Urb → Urb) :
    (s.mapUrb resource change).usage = s.usage := by
  unfold Driver.mapUrb
  split <;> rfl

/-- `usb_submit_urb`. -/
def Urb.submit (accepted : Bool) (urb : Urb) : Urb :=
  if accepted && urb.filled && !urb.inFlight && !urb.reject then { urb with inFlight := true }
  else urb

/-- A new object.  `kzalloc` and `usb_alloc_urb` clear it. -/
def Driver.allocate (s : Driver) (resource : Resource) : Driver :=
  { s with
    next := s.next + 1
    urb := Function.update s.urb s.next {}
    pointer :=
      Function.update
        (match resource with
          | .hid => Function.update s.pointer .usbhid none
          | .usbhid => fun other => if other = .hid then s.pointer other else none
          | _ => s.pointer)
        resource (some s.next)
    usbhid := if resource = .usbhid then some s.next else s.usbhid }

/-- The object that holds the pointer to a resource. -/
def Driver.holder (s : Driver) : Resource → List (Event Nat)
  | .hid => []
  | .usbhid => deref (s.pointer .hid)
  | _ => deref s.usbhid

/-- One step of the running callback.  `await` waits while its URB is busy. -/
def Driver.perform (s : Driver) (accepted : Bool) : Action → Driver × Effect
  | .allocate resource =>
      (s.allocate resource,
        { events := .on s.next .alloc :: s.holder resource })
  | .readDriverData =>
      ({ s with usbhid := s.pointer .usbhid }, { events := deref (s.pointer .hid) })
  | .keepDriverData =>
      ({ s with kept := s.pointer .usbhid }, { events := deref (s.pointer .hid) })
  | .fillIntUrb =>
      (s.mapUrb .urbin fun urb =>
          { urb with
            filled := true, context := s.pointer .hid, transferBuffer := s.pointer .inbuf },
        { events := deref s.usbhid ++ deref (s.pointer .urbin) })
  | .submitUrb =>
      (s.mapUrb .urbin (Urb.submit accepted),
        { events := deref s.usbhid ++ passing .use (s.pointer .urbin) })
  | .putInterface => ({ s with usage := s.usage - 1 }, { events := deref s.usbhid })
  | .clearRemoteWakeup => ({ s with needsRemoteWakeup := false }, { events := deref s.usbhid })
  | .rejectUrb resource =>
      (s.mapUrb resource fun urb => { urb with reject := true },
        { events := deref s.usbhid ++ passing .use (s.pointer resource) })
  | .awaitUrb resource => (s, { events := passing .use (s.pointer resource) })
  | .acceptUrb resource =>
      (s.mapUrb resource fun urb => { urb with reject := false },
        { events := passing .use (s.pointer resource) })
  | .release resource =>
      (s, { events := deref s.usbhid ++ passing .free (s.pointer resource) })
  | .destroyDevice => (s, { events := passing .free (s.pointer .hid) })
  | .releaseKept => (s, { events := passing .free s.kept })

/-- Only the calls themselves change the phase. -/
@[simp] theorem Driver.perform_phase (s : Driver) (accepted : Bool) (action : Action) :
    (s.perform accepted action).1.phase = s.phase := by
  cases action <;> simp [Driver.perform, Driver.allocate]

/-- One action takes a use off the interface, and none adds one. -/
theorem Driver.perform_usage (s : Driver) (accepted : Bool) (action : Action) :
    (s.perform accepted action).1.usage =
      s.usage - if action = .putInterface then 1 else 0 := by
  cases action <;> simp [Driver.perform, Driver.allocate]

/-- The step has to wait for a completion or a handler. -/
def Driver.waits (s : Driver) : Action → Bool
  | .awaitUrb resource => (s.pointer resource).any fun id => decide (s.urb id).Busy
  | _ => false

/-- Begin a callback, if none is running. -/
def Driver.call (s : Driver) (allowed : Prop) [Decidable allowed] (after : Driver) : Driver :=
  if s.pending = [] ∧ allowed then after else s

def Driver.step (s : Driver) : Op → Driver × Effect
  | .probe =>
      (s.call (s.phase = .unbound) { s with phase := .bound, pending := usbhidProbe }, {})
  | .start =>
      (s.call (s.phase = .bound) { s with phase := .started, opens := 0, pending := usbhidStart }, {})
  | .openDevice =>
      (s.call (s.phase = .started) { s with opens := s.opens + 1, pending := usbhidOpen }, {})
  | .closeDevice =>
      (s.call (s.phase = .started ∧ 0 < s.opens)
        { s with opens := s.opens - 1, pending := usbhidClose }, {})
  | .stop =>
      (s.call (s.phase = .started) { s with phase := .bound, opens := 0, pending := usbhidStop }, {})
  | .disconnect =>
      (s.call (s.phase ≠ .unbound)
        { s with
          phase := .unbound, opens := 0, pending := usbhidDisconnect (s.phase = .started) }, {})
  | .act accepted =>
      match s.pending with
      | [] => (s, {})
      | action :: rest =>
          if s.waits action then (s, {})
          else ({ (s.perform accepted action).1 with pending := rest },
            (s.perform accepted action).2)
  | .complete id status data =>
      if (s.urb id).inFlight then
        (s.setUrb id
            { s.urb id with
              inFlight := false, status := status, data := data
              reporting := (s.urb id).reporting + 1 },
          { events := .on id .use :: deref (s.urb id).transferBuffer })
      else (s, {})
  | .report id =>
      if 0 < (s.urb id).reporting then
        (s.setUrb id
            { s.urb id with
              reporting := (s.urb id).reporting - 1
              resubmitting := (s.urb id).resubmitting + 1 },
          { events := .on id .use :: deref (s.urb id).context ++ deref (s.urb id).transferBuffer
            reports := [(s.urb id).data] })
      else (s, {})
  | .resubmit id accepted =>
      if 0 < (s.urb id).resubmitting then
        (s.setUrb id
            (Urb.submit accepted { s.urb id with resubmitting := (s.urb id).resubmitting - 1 }),
          { events := [.on id .use] })
      else (s, {})

/-- The driver between the two cores and the controller. -/
def driver : Machine Driver Op Effect where
  step := Driver.step

/-- The interface before it is probed for the first time. -/
def Driver.boot : Driver := {}

end UsbHid
end KernelHacking
