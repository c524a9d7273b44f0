import KernelHacking.UsbHid.Driver

namespace KernelHacking
namespace UsbHid

/-!
# Every object of the driver is freed once

What the driver owns between two actions is described by a custody: which
pointers lead to a live object of their own, which local variables are current,
and whether the input URB is known to be still.  A custody says which actions
are safe and what it becomes by them, so that a callback is checked by running
it on custodies.  The completions of URBs do not disturb what a custody says.
-/

/-- What is known between two actions.  `filled` is about the input URB, `loaded`
and `kept` are about the local variables, and `still` says that no transfer is
in flight and no handler is running. -/
structure Custody where
  has : Resource → Bool
  filled : Bool
  loaded : Bool
  kept : Bool
  still : Bool

/-- The resource is not part of what the input URB was filled with. -/
def Resource.outside : Resource → Bool
  | .cr => true
  | .urbctrl => true
  | _ => false

namespace Custody

/-- The action is safe. -/
def allows (c : Custody) : Action → Bool
  | .allocate .hid =>
      c.still && !c.has .hid && !c.has .usbhid && !c.has .inbuf && !c.has .cr && !c.has .urbin &&
        !c.has .urbctrl
  | .allocate .usbhid =>
      c.still && c.has .hid && !c.has .usbhid && !c.has .inbuf && !c.has .cr && !c.has .urbin &&
        !c.has .urbctrl
  | .allocate resource => c.still && c.loaded && c.has .usbhid && !c.has resource
  | .readDriverData => c.has .hid && c.has .usbhid
  | .keepDriverData => c.has .hid && c.has .usbhid
  | .fillIntUrb =>
      c.still && c.loaded && c.has .usbhid && c.has .hid && c.has .urbin && c.has .inbuf
  | .submitUrb => c.loaded && c.has .usbhid && c.filled
  | .putInterface => c.loaded && c.has .usbhid
  | .clearRemoteWakeup => c.loaded && c.has .usbhid
  | .rejectUrb resource => c.loaded && c.has .usbhid && c.has resource
  | .awaitUrb resource => c.has resource
  | .acceptUrb resource => c.has resource
  | .release .hid => false
  | .release .usbhid => false
  | .release resource => c.still && c.loaded && c.has .usbhid && c.has resource
  | .destroyDevice => c.still && c.has .hid
  | .releaseKept => c.still && c.kept && c.has .usbhid

/-- What is known after an action that is safe. -/
def after (c : Custody) : Action → Custody
  | .allocate .hid =>
      { c with has := Function.update c.has .hid true, filled := false, loaded := false, kept := false }
  | .allocate .usbhid =>
      { c with has := Function.update c.has .usbhid true, filled := false, loaded := true, kept := false }
  | .allocate resource =>
      { c with has := Function.update c.has resource true, filled := resource.outside && c.filled }
  | .readDriverData => { c with loaded := true }
  | .keepDriverData => { c with kept := true }
  | .fillIntUrb => { c with filled := true }
  | .submitUrb => { c with still := false }
  | .awaitUrb resource => { c with still := decide (resource = .urbin) || c.still }
  | .release resource =>
      { c with has := Function.update c.has resource false, filled := resource.outside && c.filled }
  | .destroyDevice => { c with has := Function.update c.has .hid false, filled := false }
  | .releaseKept => { c with has := Function.update c.has .usbhid false, filled := false }
  | _ => c

/-- Run a callback on custodies. -/
def checks (c : Custody) : List Action → Option Custody
  | [] => some c
  | action :: rest => if c.allows action then (c.after action).checks rest else none

/-- What is known when no callback is running. -/
def settled (c : Custody) : Phase → Bool
  | .unbound =>
      c.still && !c.has .hid && !c.has .usbhid && !c.has .inbuf && !c.has .cr && !c.has .urbin &&
        !c.has .urbctrl
  | .bound =>
      c.still && c.has .hid && c.has .usbhid && !c.has .inbuf && !c.has .cr && !c.has .urbin &&
        !c.has .urbctrl
  | .started =>
      c.filled && c.has .hid && c.has .usbhid && c.has .inbuf && c.has .cr && c.has .urbin &&
        c.has .urbctrl

/-! ## The callbacks are safe -/

theorem probe_checks {c : Custody} (settled : c.settled .unbound = true) :
    ∃ d, c.checks usbhidProbe = some d ∧ d.settled .bound = true := by
  simp_all [Custody.settled, usbhidProbe, checks, allows, after]

theorem start_checks {c : Custody} (settled : c.settled .bound = true) :
    ∃ d, c.checks usbhidStart = some d ∧ d.settled .started = true := by
  simp_all [Custody.settled, usbhidStart, checks, allows, after, Resource.outside]

theorem open_checks {c : Custody} (settled : c.settled .started = true) :
    ∃ d, c.checks usbhidOpen = some d ∧ d.settled .started = true := by
  simp_all [Custody.settled, usbhidOpen, checks, allows, after]

theorem close_checks {c : Custody} (settled : c.settled .started = true) :
    ∃ d, c.checks usbhidClose = some d ∧ d.settled .started = true := by
  simp_all [Custody.settled, usbhidClose, usbKillUrb, checks, allows, after]

theorem stop_checks {c : Custody} (settled : c.settled .started = true) :
    ∃ d, c.checks usbhidStop = some d ∧ d.settled .bound = true := by
  simp_all [Custody.settled, usbhidStop, usbKillUrb, checks, allows, after, Resource.outside]

theorem disconnect_checks {c : Custody} {phase : Phase} (bound : phase ≠ .unbound)
    (settled : c.settled phase = true) :
    ∃ d, c.checks (usbhidDisconnect (phase = .started)) = some d ∧ d.settled .unbound = true := by
  cases phase with
  | unbound => exact absurd rfl bound
  | bound =>
      simp_all [Custody.settled, usbhidDisconnect, checks, allows, after]
  | started =>
      simp_all [Custody.settled, usbhidDisconnect, usbhidStop, usbKillUrb, checks, allows, after,
        Resource.outside]

/-! ## What a custody says about the driver -/

structure Describes (c : Custody) (s : Driver) (heap : Heap Nat) : Prop where
  holds : forall r, c.has r = true → ∃ id, s.pointer r = some id ∧ heap id = .live
  apart : forall r r', c.has r = true → c.has r' = true → s.pointer r = s.pointer r' → r = r'
  covers : forall id, heap id = .live → ∃ r, c.has r = true ∧ s.pointer r = some id
  unused : forall id, s.next ≤ id → heap id = .fresh
  loaded : c.loaded = true → s.usbhid = s.pointer .usbhid
  kept : c.kept = true → s.kept = s.pointer .usbhid
  filled : c.filled = true → c.has .urbin = true ∧ c.has .inbuf = true ∧ c.has .hid = true ∧
    forall id, s.pointer .urbin = some id →
      (s.urb id).context = s.pointer .hid ∧ (s.urb id).transferBuffer = s.pointer .inbuf
  busy : forall id, (s.urb id).Busy →
    c.still = false ∧ c.filled = true ∧ s.pointer .urbin = some id

variable {c : Custody} {s : Driver} {heap : Heap Nat}

/-- A custody says nothing about the rest of the state. -/
theorem Describes.congr (described : c.Describes s heap) {s' : Driver}
    (next : s'.next = s.next) (pointer : s'.pointer = s.pointer) (urb : s'.urb = s.urb)
    (usbhid : s'.usbhid = s.usbhid) (kept : s'.kept = s.kept) : c.Describes s' heap where
  holds := by
    rw [pointer]
    exact described.holds
  apart := by
    rw [pointer]
    exact described.apart
  covers := by
    rw [pointer]
    exact described.covers
  unused := by
    rw [next]
    exact described.unused
  loaded := by
    rw [pointer, usbhid]
    exact described.loaded
  kept := by
    rw [pointer, kept]
    exact described.kept
  filled := by
    rw [pointer, urb]
    exact described.filled
  busy := by
    rw [pointer, urb]
    exact described.busy

/-- Nothing is in flight and no handler is running in a still state. -/
theorem Describes.idle (described : c.Describes s heap) (still : c.still = true) (id : Nat) :
    ¬ (s.urb id).Busy := by
  intro busy
  rw [(described.busy id busy).1] at still
  exact Bool.false_ne_true still

/-! ### Events that are allowed -/

theorem run_deref {pointer : Option Nat} {id : Nat} (leads : pointer = some id)
    (live : heap id = .live) (rest : List (Event Nat)) :
    heap.run (deref pointer ++ rest) = heap.run rest := by
  rw [leads]
  change (heap.next (.on id .use)).bind _ = _
  rw [Heap.next_use live]
  rfl

theorem run_passing {pointer : Option Nat} {id : Nat} (leads : pointer = some id)
    (live : heap id = .live) : heap.run (passing .use pointer) = some heap := by
  rw [leads]
  change (heap.next (.on id .use)).bind _ = _
  rw [Heap.next_use live]
  rfl

/-- What the custody has can be used. -/
theorem Describes.run_deref (described : c.Describes s heap) {r : Resource} (has : c.has r = true)
    (rest : List (Event Nat)) : heap.run (deref (s.pointer r) ++ rest) = heap.run rest := by
  rcases described.holds r has with ⟨id, leads, live⟩
  exact Custody.run_deref leads live rest

theorem Describes.run_passing (described : c.Describes s heap) {r : Resource}
    (has : c.has r = true) : heap.run (passing .use (s.pointer r)) = some heap := by
  rcases described.holds r has with ⟨id, leads, live⟩
  exact Custody.run_passing leads live

/-- The local variable can be used while it is current. -/
theorem Describes.run_local (described : c.Describes s heap) (loaded : c.loaded = true)
    (has : c.has .usbhid = true) (rest : List (Event Nat)) :
    heap.run (deref s.usbhid ++ rest) = heap.run rest := by
  rw [described.loaded loaded]
  exact described.run_deref has rest

/-! ### Changes to one URB -/

/-- An URB may change in what a custody does not speak of. -/
theorem Describes.setUrb (described : c.Describes s heap) {id : Nat} {urb : Urb}
    (context : urb.context = (s.urb id).context)
    (transferBuffer : urb.transferBuffer = (s.urb id).transferBuffer)
    (busy : urb.Busy → c.still = false ∧ c.filled = true ∧ s.pointer .urbin = some id) :
    c.Describes (s.setUrb id urb) heap where
  __ := described
  filled := by
    intro filled
    rcases described.filled filled with ⟨urbin, inbuf, hid, agrees⟩
    refine ⟨urbin, inbuf, hid, fun other leads => ?_⟩
    change (Function.update s.urb id urb other).context = s.pointer .hid ∧
      (Function.update s.urb id urb other).transferBuffer = s.pointer .inbuf
    by_cases same : other = id
    · subst same
      rw [Function.update_self, context, transferBuffer]
      exact agrees other leads
    · rw [Function.update_of_ne same]
      exact agrees other leads
  busy := by
    intro other
    change (Function.update s.urb id urb other).Busy → _
    by_cases same : other = id
    · subst same
      rw [Function.update_self]
      exact busy
    · rw [Function.update_of_ne same]
      exact described.busy other

/-- Refusing and accepting submissions is no such change. -/
theorem Describes.mapUrb (described : c.Describes s heap) (r : Resource) {change : Urb → Urb}
    (context : forall urb, (change urb).context = urb.context)
    (transferBuffer : forall urb, (change urb).transferBuffer = urb.transferBuffer)
    (busy : forall urb, (change urb).Busy → urb.Busy) : c.Describes (s.mapUrb r change) heap := by
  unfold Driver.mapUrb
  split
  · next id _ =>
      exact described.setUrb (context _) (transferBuffer _)
        fun now => described.busy id (busy _ now)
  · exact described

theorem submit_context (accepted : Bool) (urb : Urb) :
    (urb.submit accepted).context = urb.context := by
  unfold Urb.submit
  split <;> rfl

theorem submit_transferBuffer (accepted : Bool) (urb : Urb) :
    (urb.submit accepted).transferBuffer = urb.transferBuffer := by
  unfold Urb.submit
  split <;> rfl

/-! ### Completions and their handlers -/

/-- Whatever a completion and its handler touch is live. -/
theorem Describes.run_handler (described : c.Describes s heap) {id : Nat}
    (busy : (s.urb id).Busy) (rest : List (Event Nat)) :
    heap.run (.on id .use :: rest) = heap.run rest ∧
      heap.run (deref (s.urb id).context ++ rest) = heap.run rest ∧
      heap.run (deref (s.urb id).transferBuffer ++ rest) = heap.run rest := by
  rcases described.busy id busy with ⟨_, filled, leads⟩
  rcases described.filled filled with ⟨urbin, inbuf, hid, agrees⟩
  rcases agrees id leads with ⟨context, transferBuffer⟩
  rw [context, transferBuffer]
  refine ⟨?_, described.run_deref hid rest, described.run_deref inbuf rest⟩
  have whole := described.run_deref urbin rest
  rw [leads] at whole
  exact whole

theorem Describes.complete (described : c.Describes s heap) (id : Nat) (status : Int)
    (data : List UInt8) :
    ∃ after, heap.run (s.step (.complete id status data)).2.events = some after ∧
      c.Describes (s.step (.complete id status data)).1 after := by
  rw [Driver.step]
  split_ifs with inFlight
  · have busy : (s.urb id).Busy := Or.inl inFlight
    refine ⟨heap, ?_, described.setUrb rfl rfl fun _ => described.busy id busy⟩
    have touched := described.run_handler busy
    rw [(touched _).1, ← List.append_nil (deref _), (touched []).2.2]
    rfl
  · exact ⟨heap, rfl, described⟩

theorem Describes.report (described : c.Describes s heap) (id : Nat) :
    ∃ after, heap.run (s.step (.report id)).2.events = some after ∧
      c.Describes (s.step (.report id)).1 after := by
  rw [Driver.step]
  split_ifs with running
  · have busy : (s.urb id).Busy := Or.inr (Or.inl running)
    refine ⟨heap, ?_, described.setUrb rfl rfl fun _ => described.busy id busy⟩
    have touched := described.run_handler busy
    change heap.run (.on id .use :: (deref (s.urb id).context ++ deref (s.urb id).transferBuffer)) = _
    rw [(touched _).1, (touched _).2.1, ← List.append_nil (deref _), (touched []).2.2]
    rfl
  · exact ⟨heap, rfl, described⟩

theorem Describes.resubmit (described : c.Describes s heap) (id : Nat) (accepted : Bool) :
    ∃ after, heap.run (s.step (.resubmit id accepted)).2.events = some after ∧
      c.Describes (s.step (.resubmit id accepted)).1 after := by
  rw [Driver.step]
  split_ifs with running
  · have busy : (s.urb id).Busy := Or.inr (Or.inr running)
    refine ⟨heap, (described.run_handler busy []).1, ?_⟩
    exact described.setUrb (submit_context _ _) (submit_transferBuffer _ _)
      fun _ => described.busy id busy
  · exact ⟨heap, rfl, described⟩

/-! ### Allocating and freeing -/

/-- What a pointer of the custody leads to is live. -/
theorem Describes.live (described : c.Describes s heap) {r : Resource} (owned : c.has r = true)
    {id : Nat} (leads : s.pointer r = some id) : heap id = .live := by
  rcases described.holds r owned with ⟨held, leadsHeld, live⟩
  cases leads.symm.trans leadsHeld
  exact live

/-- The next object to be allocated is not live yet. -/
theorem Describes.ne_next (described : c.Describes s heap) {id : Nat} (live : heap id = .live) :
    id ≠ s.next := by
  rintro rfl
  exact nomatch (described.unused s.next (Nat.le_refl _)).symm.trans live

/-- A new object is kept in a pointer that led to nothing of the driver's. -/
theorem Describes.add (described : c.Describes s heap) (still : c.still = true) {r : Resource}
    (absent : c.has r = false) {base : Resource → Option Nat}
    (agrees : forall other, c.has other = true → base other = s.pointer other) {s' : Driver}
    (next : s'.next = s.next + 1) (urb : s'.urb = Function.update s.urb s.next {})
    (pointer : s'.pointer = Function.update base r (some s.next)) {d : Custody}
    (has : d.has = Function.update c.has r true)
    (filled : d.filled = true → c.filled = true ∧ r.outside = true)
    (loaded : d.loaded = true → s'.usbhid = s'.pointer .usbhid)
    (kept : d.kept = true → s'.kept = s'.pointer .usbhid) :
    d.Describes s' (Function.update heap s.next .live) where
  holds := by
    intro other owned
    rw [has] at owned
    rw [pointer]
    by_cases same : other = r
    · subst same
      exact ⟨s.next, Function.update_self .., Function.update_self ..⟩
    · rw [Function.update_of_ne same] at owned ⊢
      rcases described.holds other owned with ⟨id, leads, live⟩
      refine ⟨id, (agrees other owned).trans leads, ?_⟩
      rw [Function.update_of_ne (described.ne_next live), live]
  apart := by
    have fresh : forall other, c.has other = true → base other ≠ some s.next := by
      intro other owned same
      rw [agrees other owned] at same
      exact described.ne_next (described.live owned same) rfl
    intro first second ownedFirst ownedSecond same
    rw [has] at ownedFirst ownedSecond
    rw [pointer] at same
    by_cases isFirst : first = r <;> by_cases isSecond : second = r
    · exact isFirst.trans isSecond.symm
    · rw [Function.update_of_ne isSecond] at ownedSecond same
      rw [isFirst, Function.update_self] at same
      exact absurd same.symm (fresh second ownedSecond)
    · rw [Function.update_of_ne isFirst] at ownedFirst same
      rw [isSecond, Function.update_self] at same
      exact absurd same (fresh first ownedFirst)
    · rw [Function.update_of_ne isFirst] at ownedFirst
      rw [Function.update_of_ne isSecond] at ownedSecond
      rw [Function.update_of_ne isFirst, Function.update_of_ne isSecond,
        agrees first ownedFirst, agrees second ownedSecond] at same
      exact described.apart first second ownedFirst ownedSecond same
  covers := by
    intro id live
    rw [has, pointer]
    by_cases new : id = s.next
    · subst new
      exact ⟨r, Function.update_self .., Function.update_self ..⟩
    · rw [Function.update_of_ne new] at live
      rcases described.covers id live with ⟨other, owned, leads⟩
      have different : other ≠ r := by
        rintro rfl
        rw [absent] at owned
        exact Bool.false_ne_true owned
      refine ⟨other, ?_, ?_⟩
      · rw [Function.update_of_ne different]
        exact owned
      · rw [Function.update_of_ne different, agrees other owned]
        exact leads
  unused := by
    intro id later
    rw [next] at later
    rw [Function.update_of_ne (by omega)]
    exact described.unused id (by omega)
  loaded := loaded
  kept := kept
  filled := by
    intro now
    rcases filled now with ⟨before, outside⟩
    rcases described.filled before with ⟨urbin, inbuf, hid, contents⟩
    have other : forall part, part.outside = false → c.has part = true →
        d.has part = true ∧ s'.pointer part = s.pointer part := by
      intro part inside owned
      have different : part ≠ r := by
        rintro rfl
        rw [outside] at inside
        exact Bool.false_ne_true inside.symm
      rw [has, pointer, Function.update_of_ne different, Function.update_of_ne different]
      exact ⟨owned, agrees part owned⟩
    refine ⟨(other _ rfl urbin).1, (other _ rfl inbuf).1, (other _ rfl hid).1, fun id leads => ?_⟩
    rw [(other _ rfl urbin).2] at leads
    rw [(other _ rfl inbuf).2, (other _ rfl hid).2, urb,
      Function.update_of_ne (described.ne_next (described.live urbin leads))]
    exact contents id leads
  busy := by
    intro id
    rw [urb]
    by_cases new : id = s.next
    · subst new
      rw [Function.update_self]
      exact fun busy => absurd busy (by decide)
    · rw [Function.update_of_ne new]
      exact fun busy => absurd busy (described.idle still id)

/-- What is freed is not had any more. -/
theorem Describes.remove (described : c.Describes s heap) (still : c.still = true) {r : Resource}
    (owned : c.has r = true) {id : Nat} (leads : s.pointer r = some id) {d : Custody}
    (has : d.has = Function.update c.has r false)
    (filled : d.filled = true → c.filled = true ∧ r.outside = true)
    (loaded : d.loaded = c.loaded) (kept : d.kept = c.kept) :
    d.Describes s (Function.update heap id .freed) where
  holds := by
    intro other ownedOther
    rw [has] at ownedOther
    have different : other ≠ r := by
      rintro rfl
      rw [Function.update_self] at ownedOther
      exact Bool.false_ne_true ownedOther
    rw [Function.update_of_ne different] at ownedOther
    rcases described.holds other ownedOther with ⟨id', leads', live⟩
    have old : id' ≠ id := by
      rintro rfl
      exact different (described.apart other r ownedOther owned (leads'.trans leads.symm))
    exact ⟨id', leads', by rw [Function.update_of_ne old, live]⟩
  apart := by
    have before : forall other, d.has other = true → c.has other = true := by
      intro other ownedOther
      rw [has] at ownedOther
      by_cases same : other = r
      · rw [same]
        exact owned
      · rw [Function.update_of_ne same] at ownedOther
        exact ownedOther
    intro first second ownedFirst ownedSecond
    exact described.apart first second (before first ownedFirst) (before second ownedSecond)
  covers := by
    intro other live
    have different : other ≠ id := by
      rintro rfl
      rw [Function.update_self] at live
      exact nomatch live
    rw [Function.update_of_ne different] at live
    rcases described.covers other live with ⟨part, ownedPart, leadsPart⟩
    have apart : part ≠ r := by
      rintro rfl
      exact different (Option.some.inj (leadsPart.symm.trans leads))
    refine ⟨part, ?_, leadsPart⟩
    rw [has, Function.update_of_ne apart]
    exact ownedPart
  unused := by
    intro other later
    have different : other ≠ id := by
      rintro rfl
      exact nomatch (described.unused other later).symm.trans (described.live owned leads)
    rw [Function.update_of_ne different]
    exact described.unused other later
  loaded := by
    rw [loaded]
    exact described.loaded
  kept := by
    rw [kept]
    exact described.kept
  filled := by
    intro now
    rcases filled now with ⟨before, outside⟩
    rcases described.filled before with ⟨urbin, inbuf, hid, contents⟩
    have other : forall part, part.outside = false → c.has part = true → d.has part = true := by
      intro part inside ownedPart
      have different : part ≠ r := by
        rintro rfl
        rw [outside] at inside
        exact Bool.false_ne_true inside.symm
      rw [has, Function.update_of_ne different]
      exact ownedPart
    exact ⟨other _ rfl urbin, other _ rfl inbuf, other _ rfl hid, contents⟩
  busy := by
    intro other busy
    exact absurd busy (described.idle still other)

/-! ### The actions -/

/-- The object that is to hold a new pointer is there. -/
theorem Describes.holder (described : c.Describes s heap) {r : Resource}
    (allowed : c.allows (.allocate r) = true) :
    s.holder r = [] ∨ ∃ id, s.holder r = [.on id .use] ∧ heap id = .live := by
  have field : c.loaded = true → c.has .usbhid = true →
      ∃ id, deref s.usbhid = [.on id .use] ∧ heap id = .live := by
    intro loaded has
    rcases described.holds .usbhid has with ⟨id, leads, live⟩
    exact ⟨id, by rw [described.loaded loaded, leads]; rfl, live⟩
  cases r with
  | hid => exact Or.inl rfl
  | usbhid =>
      have has : c.has .hid = true := by simp_all [allows]
      rcases described.holds .hid has with ⟨id, leads, live⟩
      exact Or.inr ⟨id, congrArg deref leads, live⟩
  | inbuf | cr | urbin | urbctrl =>
      simp only [allows, Bool.and_eq_true] at allowed
      exact Or.inr (field allowed.1.1.2 allowed.1.2)

theorem Describes.run_allocate (described : c.Describes s heap) {r : Resource}
    (allowed : c.allows (.allocate r) = true) :
    heap.run (.on s.next .alloc :: s.holder r) = some (Function.update heap s.next .live) := by
  have unused := described.unused s.next (Nat.le_refl _)
  change (heap.next (.on s.next .alloc)).bind _ = _
  rw [Heap.next_alloc unused]
  rcases described.holder allowed with none | ⟨id, one, live⟩
  · rw [none]
    rfl
  · rw [one]
    have old : id ≠ s.next := by
      rintro rfl
      exact nomatch unused.symm.trans live
    have still : Function.update heap s.next .live id = .live := by
      rw [Function.update_of_ne old, live]
    change (Heap.next _ (.on id .use)).bind _ = _
    rw [Heap.next_use still]
    rfl

theorem Describes.allocate (described : c.Describes s heap) {r : Resource}
    (allowed : c.allows (.allocate r) = true) :
    (c.after (.allocate r)).Describes (s.allocate r) (Function.update heap s.next .live) := by
  have kept : c.kept = true → s.kept = s.pointer .usbhid := described.kept
  have loaded : c.loaded = true → s.usbhid = s.pointer .usbhid := described.loaded
  cases r with
  | hid =>
      simp only [allows, Bool.and_eq_true, Bool.not_eq_true'] at allowed
      refine described.add (by simp_all) (by simp_all) ?_ rfl rfl rfl rfl nofun nofun nofun
      intro other owned
      cases other <;> simp_all
  | usbhid =>
      simp only [allows, Bool.and_eq_true, Bool.not_eq_true'] at allowed
      refine described.add (by simp_all) (by simp_all) ?_ rfl rfl rfl rfl nofun ?_ nofun
      · intro other owned
        cases other <;> simp_all
      · intro _
        simp only [Driver.allocate, if_true, Function.update_self]
  | inbuf | cr | urbin | urbctrl =>
      simp only [allows, Bool.and_eq_true, Bool.not_eq_true'] at allowed
      refine described.add allowed.1.1.1 allowed.2 (fun _ _ => rfl) rfl rfl rfl rfl ?_ loaded kept
      intro filled
      simp only [after, Bool.and_eq_true] at filled
      exact ⟨filled.2, filled.1⟩

/-- A pointer to a live object can be freed while everything is still. -/
theorem Describes.free (described : c.Describes s heap) (still : c.still = true) {r : Resource}
    (owned : c.has r = true) {d : Custody} (has : d.has = Function.update c.has r false)
    (filled : d.filled = true → c.filled = true ∧ r.outside = true)
    (loaded : d.loaded = c.loaded) (kept : d.kept = c.kept) :
    ∃ after, heap.run (passing .free (s.pointer r)) = some after ∧ d.Describes s after := by
  rcases described.holds r owned with ⟨id, leads, live⟩
  refine ⟨_, ?_, described.remove still owned leads has filled loaded kept⟩
  rw [leads]
  change (heap.next (.on id .free)).bind _ = _
  rw [Heap.next_free live]
  rfl

theorem Describes.fill (described : c.Describes s heap) (still : c.still = true)
    (hid : c.has .hid = true) (urbin : c.has .urbin = true) (inbuf : c.has .inbuf = true) :
    (c.after .fillIntUrb).Describes
      (s.mapUrb .urbin fun urb =>
        { urb with
          filled := true, context := s.pointer .hid, transferBuffer := s.pointer .inbuf })
      heap := by
  rcases described.holds .urbin urbin with ⟨id, leads, _⟩
  unfold Driver.mapUrb
  rw [leads]
  exact {
    __ := described
    filled := by
      intro _
      refine ⟨urbin, inbuf, hid, fun other leadsOther => ?_⟩
      cases leads.symm.trans leadsOther
      simp only [Driver.setUrb, Function.update_self, and_self]
    busy := by
      intro other busy
      by_cases same : other = id
      · subst same
        simp only [Driver.setUrb, Function.update_self] at busy
        exact absurd busy (described.idle still other)
      · simp only [Driver.setUrb, Function.update_of_ne same] at busy
        exact absurd busy (described.idle still other) }

theorem Describes.submit (described : c.Describes s heap) (filled : c.filled = true)
    (accepted : Bool) :
    (c.after .submitUrb).Describes (s.mapUrb .urbin (Urb.submit accepted)) heap := by
  have moving : (c.after .submitUrb).Describes s heap := {
    __ := described
    filled := described.filled
    busy := fun id busy => ⟨rfl, (described.busy id busy).2⟩ }
  unfold Driver.mapUrb
  split
  · next id leads =>
      exact moving.setUrb (submit_context _ _) (submit_transferBuffer _ _)
        fun _ => ⟨rfl, filled, leads⟩
  · exact moving

/-- The wait for the input URB ends when everything is still. -/
theorem Describes.await (described : c.Describes s heap) {r : Resource} (owned : c.has r = true)
    (ready : s.waits (.awaitUrb r) = false) : (c.after (.awaitUrb r)).Describes s heap where
  __ := described
  filled := described.filled
  busy := by
    intro id busy
    rcases described.busy id busy with ⟨moving, filled, leads⟩
    refine ⟨?_, filled, leads⟩
    have different : r ≠ .urbin := by
      rintro rfl
      rw [Driver.waits, leads] at ready
      exact absurd busy (of_decide_eq_false ready)
    simp only [after, different, moving, decide_false, Bool.or_self]

theorem Describes.perform (described : c.Describes s heap) {action : Action}
    (allowed : c.allows action = true) (ready : s.waits action = false) (accepted : Bool) :
    ∃ after, heap.run (s.perform accepted action).2.events = some after ∧
      (c.after action).Describes (s.perform accepted action).1 after := by
  cases action with
  | allocate r => exact ⟨_, described.run_allocate allowed, described.allocate allowed⟩
  | readDriverData =>
      simp only [allows, Bool.and_eq_true] at allowed
      refine ⟨heap, ?_, { described with loaded := fun _ => rfl }⟩
      have run := described.run_deref allowed.1 []
      rwa [List.append_nil] at run
  | keepDriverData =>
      simp only [allows, Bool.and_eq_true] at allowed
      refine ⟨heap, ?_, { described with kept := fun _ => rfl }⟩
      have run := described.run_deref allowed.1 []
      rwa [List.append_nil] at run
  | fillIntUrb =>
      simp only [allows, Bool.and_eq_true] at allowed
      rcases allowed with ⟨⟨⟨⟨⟨still, loaded⟩, usbhid⟩, hid⟩, urbin⟩, inbuf⟩
      refine ⟨heap, ?_, ?_⟩
      · have run := described.run_local loaded usbhid (deref (s.pointer .urbin) ++ [])
        rw [described.run_deref urbin, List.append_nil] at run
        exact run
      · exact described.fill still hid urbin inbuf
  | submitUrb =>
      simp only [allows, Bool.and_eq_true] at allowed
      rcases allowed with ⟨⟨loaded, usbhid⟩, filled⟩
      refine ⟨heap, ?_, described.submit filled accepted⟩
      exact (described.run_local loaded usbhid _).trans
        (described.run_passing (described.filled filled).1)
  | putInterface | clearRemoteWakeup =>
      simp only [allows, Bool.and_eq_true] at allowed
      refine ⟨heap, ?_, described.congr rfl rfl rfl rfl rfl⟩
      have run := described.run_local allowed.1 allowed.2 []
      rwa [List.append_nil] at run
  | rejectUrb r =>
      simp only [allows, Bool.and_eq_true] at allowed
      have marked : c.Describes (s.mapUrb r fun urb => { urb with reject := true }) heap :=
        described.mapUrb r (fun _ => rfl) (fun _ => rfl) (fun _ => id)
      refine ⟨heap, ?_, marked⟩
      exact (described.run_local allowed.1.1 allowed.1.2 _).trans (described.run_passing allowed.2)
  | awaitUrb r =>
      exact ⟨heap, described.run_passing allowed, described.await allowed ready⟩
  | acceptUrb r =>
      have marked : c.Describes (s.mapUrb r fun urb => { urb with reject := false }) heap :=
        described.mapUrb r (fun _ => rfl) (fun _ => rfl) (fun _ => id)
      exact ⟨heap, described.run_passing allowed, marked⟩
  | release r =>
      have guard : c.still = true ∧ c.loaded = true ∧ c.has .usbhid = true ∧ c.has r = true ∧
          c.after (.release r) = { c with
            has := Function.update c.has r false, filled := r.outside && c.filled } := by
        cases r <;> simp_all [allows, after]
      rcases guard with ⟨still, loaded, usbhid, owned, becomes⟩
      rw [becomes]
      rcases described.free still owned (d := { c with
          has := Function.update c.has r false, filled := r.outside && c.filled }) rfl
          (fun filled => (Bool.and_eq_true_iff.mp filled).symm) rfl rfl with ⟨after, freed, left⟩
      exact ⟨after, (described.run_local loaded usbhid _).trans freed, left⟩
  | destroyDevice =>
      simp only [allows, Bool.and_eq_true] at allowed
      exact described.free allowed.1 allowed.2 rfl nofun rfl rfl
  | releaseKept =>
      simp only [allows, Bool.and_eq_true] at allowed
      change ∃ after, heap.run (passing .free s.kept) = some after ∧ _
      rw [described.kept allowed.1.2]
      exact described.free allowed.1.1 allowed.2 rfl nofun rfl rfl

/-! ### What is freed, and when -/

theorem deref_not_free (pointer : Option Nat) (id : Nat) : .on id .free ∉ deref pointer := by
  cases pointer <;> simp [deref]

theorem passing_not_free (pointer : Option Nat) (id : Nat) :
    .on id .free ∉ passing .use pointer := by
  cases pointer <;> simp [passing]

theorem holder_not_free (s : Driver) (r : Resource) (id : Nat) : .on id .free ∉ s.holder r := by
  cases r <;> simp [Driver.holder, deref_not_free]

/-- Safe callbacks free something only while everything is still. -/
theorem still_of_free {action : Action} (allowed : c.allows action = true) {accepted : Bool}
    {id : Nat} (freed : .on id .free ∈ (s.perform accepted action).2.events) : c.still = true := by
  cases action with
  | release r => cases r <;> simp_all [allows]
  | destroyDevice | releaseKept =>
      simp only [allows, Bool.and_eq_true] at allowed
      simp only [allowed]
  | _ =>
      simp [Driver.perform, deref_not_free, passing_not_free, holder_not_free] at freed

end Custody

/-! ## Every run -/

/-- A custody describes the state and lets the running callback go on to its
end, where the phase is reached that it leads to. -/
def Safe (s : Driver) (heap : Heap Nat) : Prop :=
  ∃ c : Custody, c.Describes s heap ∧
    ∃ d, c.checks s.pending = some d ∧ d.settled s.phase = true

theorem Safe.boot : Safe Driver.boot Heap.fresh := by
  refine ⟨{ has := fun _ => false, filled := false, loaded := false, kept := false, still := true },
    ?_, _, rfl, rfl⟩
  exact {
    holds := nofun
    apart := nofun
    covers := nofun
    unused := fun _ _ => rfl
    loaded := nofun
    kept := nofun
    filled := nofun
    busy := fun _ busy => absurd busy (show ¬ Urb.Busy {} by decide) }

/-- Beginning a callback that is safe from where the last one ended. -/
theorem Safe.call {s s' : Driver} {heap : Heap Nat} (safe : Safe s heap) {allowed : Prop}
    [Decidable allowed] (next : s'.next = s.next) (pointer : s'.pointer = s.pointer)
    (urb : s'.urb = s.urb) (usbhid : s'.usbhid = s.usbhid) (kept : s'.kept = s.kept)
    (checks : allowed → forall c : Custody, c.settled s.phase = true →
      ∃ d, c.checks s'.pending = some d ∧ d.settled s'.phase = true) :
    Safe (s.call allowed s') heap := by
  unfold Driver.call
  split_ifs with begins
  · rcases safe with ⟨c, described, d, checked, settled⟩
    rw [begins.1] at checked
    cases checked
    exact ⟨c, described.congr next pointer urb usbhid kept, checks begins.2 c settled⟩
  · exact safe

theorem Safe.step {s : Driver} {heap : Heap Nat} (safe : Safe s heap) (op : Op) :
    ∃ after, heap.run (s.step op).2.events = some after ∧ Safe (s.step op).1 after := by
  cases op with
  | probe =>
      refine ⟨heap, rfl, safe.call rfl rfl rfl rfl rfl ?_⟩
      intro unbound c settled
      rw [unbound] at settled
      exact Custody.probe_checks settled
  | start =>
      refine ⟨heap, rfl, safe.call rfl rfl rfl rfl rfl ?_⟩
      intro bound c settled
      rw [bound] at settled
      exact Custody.start_checks settled
  | openDevice =>
      refine ⟨heap, rfl, safe.call rfl rfl rfl rfl rfl ?_⟩
      intro started c settled
      rw [started] at settled
      rw [started]
      exact Custody.open_checks settled
  | closeDevice =>
      refine ⟨heap, rfl, safe.call rfl rfl rfl rfl rfl ?_⟩
      intro opened c settled
      rw [opened.1] at settled
      rw [opened.1]
      exact Custody.close_checks settled
  | stop =>
      refine ⟨heap, rfl, safe.call rfl rfl rfl rfl rfl ?_⟩
      intro started c settled
      rw [started] at settled
      exact Custody.stop_checks settled
  | disconnect =>
      refine ⟨heap, rfl, safe.call rfl rfl rfl rfl rfl ?_⟩
      intro bound c settled
      exact Custody.disconnect_checks bound settled
  | act accepted =>
      rcases safe with ⟨c, described, d, checked, settled⟩
      cases pending : s.pending with
      | nil =>
          refine ⟨heap, ?_, c, ?_, d, ?_, ?_⟩ <;> simp only [Driver.step, pending]
          · rfl
          · exact described
          · rw [pending] at checked
            exact checked
          · exact settled
      | cons action rest =>
          rw [pending, Custody.checks] at checked
          split_ifs at checked with allowed
          by_cases ready : s.waits action = true
          · refine ⟨heap, ?_, c, ?_, d, ?_, ?_⟩ <;> simp only [Driver.step, pending, ready, if_true]
            · rfl
            · exact described
            · rw [Custody.checks, if_pos allowed]
              exact checked
            · exact settled
          · have free : s.waits action = false := Bool.eq_false_iff.mpr ready
            rcases described.perform allowed free accepted with ⟨after, ran, becomes⟩
            refine ⟨after, ?_, c.after action, ?_, d, ?_, ?_⟩ <;>
              simp only [Driver.step, pending, free, Bool.false_eq_true, if_false]
            · exact ran
            · exact becomes.congr rfl rfl rfl rfl rfl
            · exact checked
            · rw [Driver.perform_phase]
              exact settled
  | complete id status data =>
      rcases safe with ⟨c, described, d, checked, settled⟩
      rcases described.complete id status data with ⟨after, ran, still⟩
      refine ⟨after, ran, c, still, d, ?_, ?_⟩ <;> rw [Driver.step] <;> split_ifs <;> assumption
  | report id =>
      rcases safe with ⟨c, described, d, checked, settled⟩
      rcases described.report id with ⟨after, ran, still⟩
      refine ⟨after, ran, c, still, d, ?_, ?_⟩ <;> rw [Driver.step] <;> split_ifs <;> assumption
  | resubmit id accepted =>
      rcases safe with ⟨c, described, d, checked, settled⟩
      rcases described.resubmit id accepted with ⟨after, ran, still⟩
      refine ⟨after, ran, c, still, d, ?_, ?_⟩ <;> rw [Driver.step] <;> split_ifs <;> assumption

/-- What a run did to allocated objects, in order. -/
def history (ops : List Op) : List (Event Nat) :=
  (driver.trace Driver.boot ops).flatMap Effect.events

theorem safe_run (ops : List Op) :
    ∃ heap, Heap.fresh.run (history ops) = some heap ∧ Safe (driver.run Driver.boot ops) heap :=
  driver.run_disciplined Effect.events Safe (fun _ _ op safe => safe.step op) Safe.boot ops

theorem Safe.none_live {s : Driver} {heap : Heap Nat} (safe : Safe s heap)
    (unbound : s.phase = .unbound) (returned : s.pending = []) (id : Nat) : heap id ≠ .live := by
  rcases safe with ⟨c, described, d, checked, settled⟩
  rw [returned] at checked
  cases checked
  rw [unbound] at settled
  intro live
  rcases described.covers id live with ⟨r, owned, _⟩
  cases r <;> simp_all [Custody.settled]

theorem Safe.still_of_free {s : Driver} {heap : Heap Nat} (safe : Safe s heap) {op : Op} {id : Nat}
    (freed : .on id .free ∈ (s.step op).2.events) (other : Nat) : ¬ (s.urb other).Busy := by
  rcases safe with ⟨c, described, d, checked, settled⟩
  cases op with
  | act accepted =>
      cases pending : s.pending with
      | nil =>
          simp only [Driver.step, pending] at freed
          exact absurd freed List.not_mem_nil
      | cons action rest =>
          rw [pending, Custody.checks] at checked
          split_ifs at checked with allowed
          simp only [Driver.step, pending] at freed
          split_ifs at freed
          · exact absurd freed List.not_mem_nil
          · exact described.idle (Custody.still_of_free allowed freed) other
  | complete id status data =>
      rw [Driver.step] at freed
      split_ifs at freed <;> simp [Custody.deref_not_free] at freed
  | report id =>
      rw [Driver.step] at freed
      split_ifs at freed <;> simp [Custody.deref_not_free] at freed
  | resubmit id accepted =>
      rw [Driver.step] at freed
      split_ifs at freed <;> simp at freed
  | _ => exact absurd freed List.not_mem_nil

/-- In every run nothing is used before it is allocated or after it is freed and
no null pointer is followed, nothing is in flight and no handler is running when
something is freed, and whatever was allocated has been freed exactly once when
`usbhid_disconnect` has returned. -/
theorem lifecycle (ops : List Op) :
    Heap.Disciplined (history ops) ∧
      (forall before id access after, history ops = before ++ .on id .free :: after →
        .on id access ∉ after) ∧
      driver.Along
        (fun s op => forall id, .on id .free ∈ (driver.out s op).events →
          forall urb, ¬ (s.urb urb).Busy)
        Driver.boot ops ∧
      ((driver.run Driver.boot ops).phase = .unbound →
        (driver.run Driver.boot ops).pending = [] →
          forall id, .on id .alloc ∈ history ops → (history ops).count (.on id .free) = 1) := by
  rcases safe_run ops with ⟨heap, ran, safe⟩
  refine ⟨⟨heap, ran⟩, ?_, ?_, ?_⟩
  · intro before id access after split
    apply Heap.not_mem_after_free
    rw [← split]
    exact ⟨heap, ran⟩
  · apply (driver.along_iff_forall_split _ _ _).mpr
    intro before op after split id freed urb
    rcases safe_run before with ⟨middle, _, safeMiddle⟩
    exact safeMiddle.still_of_free freed urb
  · intro unbound returned id allocated
    exact Heap.freed_once ran (safe.none_live unbound returned) allocated

/-- A mouse that is plugged in, moved once while it is open, and unplugged. -/
def session : List Op :=
  [.probe, .act true, .act true, .start, .act true, .act true, .act true, .act true, .act true,
    .act true, .openDevice, .act true, .act true, .act true, .complete 4 0 [1], .report 4,
    .resubmit 4 true, .closeDevice, .act true, .act true, .complete 4 (-2) [], .report 4,
    .resubmit 4 true, .act true, .act true, .act true, .disconnect] ++ List.replicate 14 (.act true)

example : (driver.run Driver.boot session).phase = .unbound ∧
    (driver.run Driver.boot session).pending = [] ∧
    (history session).count (.on 4 .free) = 1 := by
  decide +kernel

end UsbHid
end KernelHacking
