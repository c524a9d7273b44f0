import Mathlib.Data.BitVec
import Mathlib.Data.List.Basic

namespace KernelHacking
namespace Atl1c

/-!
# The interrupt handlers of the two `atl1c` drivers

The repository has the driver twice.  Directory `4-atl1c` is the original with
a few edits, and `5-atl1c` a fork of it from which more was removed.  The two
interrupt handlers read the status register up to five times and differ in one
branch: the fork does not look at the bits of a fatal error, which it still
enables.  What the card reports, whether the poll may be scheduled and what the
PHY says of the link are read from a sequence of readings.
-/

namespace Interrupt

/-! ## Registers -/

def isrManual : BitVec 32 := 0x00000004
def isrHwRxfOv : BitVec 32 := 0x00000008
def isrRfd0Ur : BitVec 32 := 0x00000010
def isrRfd1Ur : BitVec 32 := 0x00000020
def isrRfd2Ur : BitVec 32 := 0x00000040
def isrRfd3Ur : BitVec 32 := 0x00000080
def isrTxfUr : BitVec 32 := 0x00000100
def isrDmarToRst : BitVec 32 := 0x00000200
def isrDmawToRst : BitVec 32 := 0x00000400
def isrGphy : BitVec 32 := 0x00001000
def isrGphyLpw : BitVec 32 := 0x00002000
def isrTxqToRst : BitVec 32 := 0x00004000
def isrTxPkt : BitVec 32 := 0x00008000
def isrRxPkt0 : BitVec 32 := 0x00010000
def isrRxPkt1 : BitVec 32 := 0x00020000
def isrRxPkt2 : BitVec 32 := 0x00040000
def isrRxPkt3 : BitVec 32 := 0x00080000
def isrPhyLinkdown : BitVec 32 := 0x04000000
def isrDisInt : BitVec 32 := 0x80000000

def imrNormalMask : BitVec 32 :=
  isrManual ||| isrHwRxfOv ||| isrRfd0Ur ||| isrTxfUr ||| isrDmarToRst ||| isrTxqToRst |||
    isrDmawToRst ||| isrGphy ||| isrTxPkt ||| isrRxPkt0 ||| isrGphyLpw ||| isrPhyLinkdown

def isrRxPkt : BitVec 32 := isrRxPkt0 ||| isrRxPkt1 ||| isrRxPkt2 ||| isrRxPkt3

def isrOver : BitVec 32 :=
  isrRfd0Ur ||| isrRfd1Ur ||| isrRfd2Ur ||| isrRfd3Ur ||| isrHwRxfOv ||| isrTxfUr

def isrError : BitVec 32 := isrDmarToRst ||| isrTxqToRst ||| isrDmawToRst ||| isrPhyLinkdown

def bmsrLstatus : BitVec 16 := 0x0004

def speed0 : BitVec 16 := 0xffff

def atMaxIntWork : Nat := 5

def atl1cWorkEventReset : Nat := 0
def atl1cWorkEventLinkChange : Nat := 1

/-! ## The adapter -/

/-- What a handler does besides changing the adapter, in this order. -/
inductive Action
  | readPhyIsr
  | writeIsr (value : BitVec 32)
  | writeImr (value : BitVec 32)
  | napiSchedule
  | cleanTxIrq
  | hardwareError (bits : BitVec 32)
  | overflow (bits : BitVec 32)
  | linkIsDown
deriving DecidableEq, Repr

/-- The part of the adapter and of its network device that a handler uses.
`commonTask` says whether the work is queued. -/
structure Adapter where
  intrMask : BitVec 32
  workEvent : BitVec 64
  commonTask : Bool
  txCarrierErrors : BitVec 64
  carrierOk : Bool
  linkSpeed : BitVec 16
  msgHw : Bool
  msgIntr : Bool
  msgLink : Bool
  actions : List Action
deriving DecidableEq, Repr

namespace Adapter

def act (adapter : Adapter) (action : Action) : Adapter :=
  { adapter with actions := adapter.actions ++ [action] }

/-- `set_bit` on `work_event`. -/
def setBit (adapter : Adapter) (event : Nat) : Adapter :=
  { adapter with workEvent := adapter.workEvent ||| BitVec.twoPow 64 event }

/-- `schedule_work` on `common_task`. -/
def scheduleWork (adapter : Adapter) : Adapter := { adapter with commonTask := true }

/-- The work is queued and will reset the card. -/
structure ResetRequested (adapter : Adapter) : Prop where
  event : adapter.workEvent.getLsbD atl1cWorkEventReset = true
  queued : adapter.commonTask = true

theorem resetRequested_setBit (adapter : Adapter) :
    ((adapter.setBit atl1cWorkEventReset).scheduleWork).ResetRequested where
  event := by simp [scheduleWork, setBit, atl1cWorkEventReset]
  queued := rfl

end Adapter

/-- One turn of the loop as the handler sees it from outside. -/
structure Reading where
  regData : BitVec 32
  napiSchedulePrep : Bool
  bmsr : BitVec 16

/-! ## What both handlers do with a status -/

/-- From `atl1c_clear_phy_int` to `atl1c_clean_tx_irq`. -/
def acknowledge (reading : Reading) (status : BitVec 32) (adapter : Adapter) : Adapter :=
  let adapter := if status &&& isrGphy ≠ 0 then adapter.act .readPhyIsr else adapter
  let adapter := adapter.act (.writeIsr (status ||| isrDisInt))
  let adapter :=
    if status &&& isrRxPkt ≠ 0 ∧ reading.napiSchedulePrep = true then
      let intrMask := adapter.intrMask &&& ~~~ isrRxPkt
      (({ adapter with intrMask := intrMask }).act (.writeImr intrMask)).act .napiSchedule
    else adapter
  if status &&& isrTxPkt ≠ 0 then adapter.act .cleanTxIrq else adapter

def warnOverflow (status : BitVec 32) (adapter : Adapter) : Adapter :=
  if status &&& isrOver ≠ 0 ∧ adapter.msgIntr = true then
    adapter.act (.overflow (status &&& isrOver))
  else adapter

/-- The first half of `atl1c_link_chg_event`: the upper layer learns at once that
the link is down. -/
def notifyLinkDown (bmsr : BitVec 16) (adapter : Adapter) : Adapter :=
  if bmsr &&& bmsrLstatus = 0 ∧ adapter.carrierOk = true then
    let adapter := if adapter.msgLink then adapter.act .linkIsDown else adapter
    { adapter with carrierOk := false, linkSpeed := speed0 }
  else adapter

/-- `atl1c_link_chg_event`. -/
def linkChgEvent (bmsr : BitVec 16) (adapter : Adapter) : Adapter :=
  ((notifyLinkDown bmsr adapter).setBit atl1cWorkEventLinkChange).scheduleWork

/-- Where the loop goes after a status: around, to its end with `break`, or out
of the handler with `return`. -/
inductive Next
  | again
  | leave
  | fatal
deriving DecidableEq, Repr

def linkEvent (reading : Reading) (status : BitVec 32) (adapter : Adapter) : Next × Adapter :=
  if status &&& (isrGphy ||| isrManual) ≠ 0 then
    (.leave, linkChgEvent reading.bmsr
      { adapter with txCarrierErrors := adapter.txCarrierErrors + 1 })
  else (.again, adapter)

abbrev Serve := Reading → BitVec 32 → Adapter → Next × Adapter

/-- The body of the loop in `4-atl1c`, for a status that it handles. -/
def Edited.serve : Serve := fun reading status adapter =>
  let adapter := acknowledge reading status adapter
  if status &&& isrError ≠ 0 then
    let adapter :=
      if adapter.msgHw then adapter.act (.hardwareError (status &&& isrError)) else adapter
    (.fatal, (adapter.setBit atl1cWorkEventReset).scheduleWork)
  else
    linkEvent reading status (warnOverflow status adapter)

/-- The body of the loop in `5-atl1c`, for a status that it handles. -/
def Fork.serve : Serve := fun reading status adapter =>
  linkEvent reading status (warnOverflow status (acknowledge reading status adapter))

/-! ## The loop -/

inductive IrqReturn
  | irqNone
  | irqHandled
deriving DecidableEq, Repr

/-- The handler leaves the loop without touching this status. -/
def Quiet (status : BitVec 32) : Prop := status = 0 ∨ status &&& isrDisInt ≠ 0

instance (status : BitVec 32) : Decidable (Quiet status) :=
  inferInstanceAs (Decidable (_ ∨ _))

/-- The reading of the turn in which `max_ints` has this value. -/
def turn (readings : Nat → Reading) (maxInts : Nat) : Reading := readings (atMaxIntWork - maxInts)

/-- The loop of `atl1c_intr` from its head, and what follows it. -/
def intrLoop (serve : Serve) (readings : Nat → Reading) :
    Nat → IrqReturn → Adapter → IrqReturn × Adapter
  | 0, handled, adapter => (handled, adapter.act (.writeIsr 0))
  | maxInts + 1, handled, adapter =>
      let reading := turn readings (maxInts + 1)
      let status := reading.regData &&& adapter.intrMask
      if Quiet status then
        (if maxInts + 1 ≠ atMaxIntWork then .irqHandled else handled, adapter.act (.writeIsr 0))
      else
        match serve reading status adapter with
        | (.again, adapter) => intrLoop serve readings maxInts .irqHandled adapter
        | (.leave, adapter) => (.irqHandled, adapter.act (.writeIsr 0))
        | (.fatal, adapter) => (.irqHandled, adapter)

/-- `atl1c_intr`. -/
def intr (serve : Serve) (readings : Nat → Reading) (adapter : Adapter) : IrqReturn × Adapter :=
  intrLoop serve readings atMaxIntWork .irqNone adapter

/-- The statuses that the loop handles from its head on. -/
def handledFrom (serve : Serve) (readings : Nat → Reading) : Nat → Adapter → List (BitVec 32)
  | 0, _ => []
  | maxInts + 1, adapter =>
      let reading := turn readings (maxInts + 1)
      let status := reading.regData &&& adapter.intrMask
      if Quiet status then []
      else
        status ::
          match serve reading status adapter with
          | (.again, adapter) => handledFrom serve readings maxInts adapter
          | _ => []

/-- The statuses that one run of the handler handles. -/
def handledStatuses (serve : Serve) (readings : Nat → Reading) (adapter : Adapter) :
    List (BitVec 32) :=
  handledFrom serve readings atMaxIntWork adapter

/-- A fatal error that the handler has seen is not forgotten. -/
def ResetLaw (serve : Serve) (readings : Nat → Reading) (adapter : Adapter) : Prop :=
  (∃ status, status ∈ handledStatuses serve readings adapter ∧ status &&& isrError ≠ 0) →
    (intr serve readings adapter).2.ResetRequested

/-! ## What one status changes -/

theorem workEvent_acknowledge (reading : Reading) (status : BitVec 32) (adapter : Adapter) :
    (acknowledge reading status adapter).workEvent = adapter.workEvent := by
  unfold acknowledge
  split_ifs <;> rfl

theorem commonTask_acknowledge (reading : Reading) (status : BitVec 32) (adapter : Adapter) :
    (acknowledge reading status adapter).commonTask = adapter.commonTask := by
  unfold acknowledge
  split_ifs <;> rfl

theorem workEvent_warnOverflow (status : BitVec 32) (adapter : Adapter) :
    (warnOverflow status adapter).workEvent = adapter.workEvent := by
  unfold warnOverflow
  split_ifs <;> rfl

theorem commonTask_warnOverflow (status : BitVec 32) (adapter : Adapter) :
    (warnOverflow status adapter).commonTask = adapter.commonTask := by
  unfold warnOverflow
  split_ifs <;> rfl

theorem workEvent_notifyLinkDown (bmsr : BitVec 16) (adapter : Adapter) :
    (notifyLinkDown bmsr adapter).workEvent = adapter.workEvent := by
  unfold notifyLinkDown
  dsimp only
  split_ifs <;> rfl

/-- A change of the link queues the work, and leaves the request of a reset as
it is. -/
theorem workEvent_linkChgEvent (bmsr : BitVec 16) (adapter : Adapter) :
    (linkChgEvent bmsr adapter).workEvent.getLsbD atl1cWorkEventReset =
      adapter.workEvent.getLsbD atl1cWorkEventReset := by
  have other : (BitVec.twoPow 64 atl1cWorkEventLinkChange).getLsbD atl1cWorkEventReset = false := by
    decide
  change ((notifyLinkDown bmsr adapter).workEvent |||
    BitVec.twoPow 64 atl1cWorkEventLinkChange).getLsbD atl1cWorkEventReset = _
  rw [BitVec.getLsbD_or, other, Bool.or_false, workEvent_notifyLinkDown]

theorem commonTask_linkChgEvent (bmsr : BitVec 16) (adapter : Adapter) :
    (linkChgEvent bmsr adapter).commonTask = true := rfl

/-- The original leaves the handler on a fatal error, and has asked for a reset. -/
theorem Edited.serve_of_error (reading : Reading) {status : BitVec 32} (adapter : Adapter)
    (error : status &&& isrError ≠ 0) :
    (Edited.serve reading status adapter).1 = .fatal ∧
      (Edited.serve reading status adapter).2.ResetRequested := by
  rw [Edited.serve, if_pos error]
  exact ⟨rfl, Adapter.resetRequested_setBit _⟩

/-- Without a fatal error the two bodies are the same. -/
theorem Edited.serve_of_no_error (reading : Reading) {status : BitVec 32} (adapter : Adapter)
    (sound : status &&& isrError = 0) :
    Edited.serve reading status adapter = Fork.serve reading status adapter := by
  rw [Edited.serve, if_neg (not_not_intro sound)]
  rfl

/-- What the fork does with a status, as far as requests for work go. -/
theorem Fork.serve_spec (reading : Reading) (status : BitVec 32) (adapter : Adapter) :
    (Fork.serve reading status adapter).2.workEvent.getLsbD atl1cWorkEventReset =
        adapter.workEvent.getLsbD atl1cWorkEventReset ∧
      if status &&& (isrGphy ||| isrManual) ≠ 0 then
        (Fork.serve reading status adapter).1 = .leave ∧
          (Fork.serve reading status adapter).2.commonTask = true
      else
        (Fork.serve reading status adapter).1 = .again ∧
          (Fork.serve reading status adapter).2.commonTask = adapter.commonTask := by
  by_cases link : status &&& (isrGphy ||| isrManual) ≠ 0
  · rw [Fork.serve, linkEvent, if_pos link, if_pos link]
    refine ⟨?_, rfl, commonTask_linkChgEvent _ _⟩
    rw [workEvent_linkChgEvent]
    change (warnOverflow status _).workEvent.getLsbD _ = _
    rw [workEvent_warnOverflow, workEvent_acknowledge]
  · rw [Fork.serve, linkEvent, if_neg link, if_neg link]
    refine ⟨?_, rfl, ?_⟩
    · rw [workEvent_warnOverflow, workEvent_acknowledge]
    · rw [commonTask_warnOverflow, commonTask_acknowledge]

/-! ## What one run changes -/

/-- The rule of the loop: what holds where the loop is left, and is carried
backwards over a turn that goes around, holds of every run.  `P` relates the
adapter at the head of the loop, the statuses handled from there on, and the
adapter that the handler leaves. -/
theorem intrLoop_rule (serve : Serve) (readings : Nat → Reading)
    (P : Adapter → List (BitVec 32) → Adapter → Prop)
    (stop : forall adapter, P adapter [] (adapter.act (.writeIsr 0)))
    (again : forall reading status adapter after rest final,
      serve reading status adapter = (.again, after) → P after rest final →
        P adapter (status :: rest) final)
    (leave : forall reading status adapter after,
      serve reading status adapter = (.leave, after) →
        P adapter [status] (after.act (.writeIsr 0)))
    (fatal : forall reading status adapter after,
      serve reading status adapter = (.fatal, after) → P adapter [status] after)
    (maxInts : Nat) (handled : IrqReturn) (adapter : Adapter) :
    P adapter (handledFrom serve readings maxInts adapter)
      (intrLoop serve readings maxInts handled adapter).2 := by
  induction maxInts generalizing handled adapter with
  | zero => exact stop adapter
  | succ maxInts ih =>
      rw [handledFrom, intrLoop]
      generalize turn readings (maxInts + 1) = reading
      generalize reading.regData &&& adapter.intrMask = status
      by_cases quiet : Quiet status
      · rw [if_pos quiet, if_pos quiet]
        exact stop adapter
      · rw [if_neg quiet, if_neg quiet]
        rcases served : serve reading status adapter with ⟨next, after⟩
        cases next with
        | again => exact again reading status adapter after _ _ served (ih .irqHandled after)
        | leave => exact leave reading status adapter after served
        | fatal => exact fatal reading status adapter after served

/-- In the original every fatal error that a run handles is its last status. -/
theorem Edited.intrLoop_requested (readings : Nat → Reading) (maxInts : Nat)
    (handled : IrqReturn) (adapter : Adapter) :
    (∃ status, status ∈ handledFrom Edited.serve readings maxInts adapter ∧
        status &&& isrError ≠ 0) →
      (intrLoop Edited.serve readings maxInts handled adapter).2.ResetRequested := by
  refine intrLoop_rule Edited.serve readings
    (fun _ statuses final =>
      (∃ status, status ∈ statuses ∧ status &&& isrError ≠ 0) → final.ResetRequested)
    ?_ ?_ ?_ ?_ maxInts handled adapter
  · rintro adapter ⟨status, member, _⟩
    exact absurd member List.not_mem_nil
  · intro reading status adapter after rest final served later found
    have sound : ¬ status &&& isrError ≠ 0 := by
      intro error
      have fatal := (Edited.serve_of_error reading adapter error).1
      rw [served] at fatal
      cases fatal
    rw [List.exists_mem_cons_iff, or_iff_right sound] at found
    exact later found
  · intro reading status adapter after served found
    rcases found with ⟨other, member, error⟩
    rw [List.mem_singleton.mp member] at error
    have fatal := (Edited.serve_of_error reading adapter error).1
    rw [served] at fatal
    cases fatal
  · intro reading status adapter after served found
    rcases found with ⟨other, member, error⟩
    rw [List.mem_singleton.mp member] at error
    have requested := (Edited.serve_of_error reading adapter error).2
    rw [served] at requested
    exact requested

/-- The fork never asks for a reset, and queues the work for a change of the
link only. -/
theorem Fork.intrLoop_spec (readings : Nat → Reading) (maxInts : Nat) (handled : IrqReturn)
    (adapter : Adapter) :
    let after := (intrLoop Fork.serve readings maxInts handled adapter).2
    after.workEvent.getLsbD atl1cWorkEventReset =
        adapter.workEvent.getLsbD atl1cWorkEventReset ∧
      (after.commonTask = true ↔
        adapter.commonTask = true ∨
          ∃ status, status ∈ handledFrom Fork.serve readings maxInts adapter ∧
            status &&& (isrGphy ||| isrManual) ≠ 0) := by
  refine intrLoop_rule Fork.serve readings
    (fun adapter statuses final =>
      final.workEvent.getLsbD atl1cWorkEventReset =
          adapter.workEvent.getLsbD atl1cWorkEventReset ∧
        (final.commonTask = true ↔
          adapter.commonTask = true ∨
            ∃ status, status ∈ statuses ∧ status &&& (isrGphy ||| isrManual) ≠ 0))
    ?_ ?_ ?_ ?_ maxInts handled adapter
  · intro adapter
    refine ⟨rfl, Iff.symm (or_iff_left ?_)⟩
    rintro ⟨status, member, _⟩
    exact List.not_mem_nil member
  · intro reading status adapter after rest final served later
    rcases Fork.serve_spec reading status adapter with ⟨event, spec⟩
    rw [served] at event spec
    have noLink : ¬ status &&& (isrGphy ||| isrManual) ≠ 0 := by
      intro link
      rw [if_pos link] at spec
      cases spec.1
    rw [if_neg noLink] at spec
    refine ⟨later.1.trans event, later.2.trans ?_⟩
    rw [spec.2, List.exists_mem_cons_iff, or_iff_right noLink]
  · intro reading status adapter after served
    rcases Fork.serve_spec reading status adapter with ⟨event, spec⟩
    rw [served] at event spec
    have link : status &&& (isrGphy ||| isrManual) ≠ 0 := by
      intro noLink
      rw [if_neg (not_not_intro noLink)] at spec
      cases spec.1
    rw [if_pos link] at spec
    exact ⟨event, iff_of_true spec.2 (Or.inr ⟨status, List.mem_singleton_self status, link⟩)⟩
  · intro reading status adapter after served
    have spec := (Fork.serve_spec reading status adapter).2
    rw [served] at spec
    split_ifs at spec
    · cases spec.1
    · cases spec.1

/-- Until a fatal error is reported the two handlers cannot be told apart. -/
theorem intrLoop_agree (readings : Nat → Reading) (maxInts : Nat) (handled : IrqReturn)
    (adapter : Adapter)
    (sound : forall status, status ∈ handledFrom Fork.serve readings maxInts adapter →
      status &&& isrError = 0) :
    intrLoop Edited.serve readings maxInts handled adapter =
      intrLoop Fork.serve readings maxInts handled adapter := by
  induction maxInts generalizing handled adapter with
  | zero => rfl
  | succ maxInts ih =>
      rw [handledFrom] at sound
      rw [intrLoop, intrLoop]
      generalize (turn readings (maxInts + 1)).regData &&& adapter.intrMask = status at sound ⊢
      by_cases quiet : Quiet status
      · rw [if_pos quiet, if_pos quiet]
      · rw [if_neg quiet] at sound ⊢
        rw [if_neg quiet]
        rw [List.forall_mem_cons] at sound
        rcases sound with ⟨first, later⟩
        rw [Edited.serve_of_no_error _ _ first]
        rcases served : Fork.serve (turn readings (maxInts + 1)) status adapter with ⟨next, after⟩
        rw [served] at later
        cases next with
        | again => exact ih .irqHandled after later
        | leave => rfl
        | fatal => rfl

/-- The original always asks for the reset of a card that reported a fatal
error.  The fork leaves the request and the work as it found them, but for a
change of the link, which queues the work. -/
theorem resetLaw_iff (readings : Nat → Reading) (adapter : Adapter) :
    ResetLaw Edited.serve readings adapter ∧
      (ResetLaw Fork.serve readings adapter ↔
        (forall status, status ∈ handledStatuses Fork.serve readings adapter →
          status &&& isrError = 0) ∨
        (adapter.workEvent.getLsbD atl1cWorkEventReset = true ∧
          (adapter.commonTask = true ∨
            ∃ status, status ∈ handledStatuses Fork.serve readings adapter ∧
              status &&& (isrGphy ||| isrManual) ≠ 0))) := by
  constructor
  · exact Edited.intrLoop_requested readings atMaxIntWork .irqNone adapter
  · rcases Fork.intrLoop_spec readings atMaxIntWork .irqNone adapter with ⟨event, queued⟩
    have requested : (intr Fork.serve readings adapter).2.ResetRequested ↔
        adapter.workEvent.getLsbD atl1cWorkEventReset = true ∧
          (adapter.commonTask = true ∨
            ∃ status, status ∈ handledStatuses Fork.serve readings adapter ∧
              status &&& (isrGphy ||| isrManual) ≠ 0) := by
      constructor
      · intro both
        exact ⟨event.symm.trans both.event, queued.mp both.queued⟩
      · rintro ⟨set, pending⟩
        exact ⟨event.trans set, queued.mpr pending⟩
    rw [← requested, ResetLaw, imp_iff_not_or]
    push Not
    rfl

/-- A card whose DMA engine reports a timeout at once. -/
def dmaTimeout : Nat → Reading := fun _ => ⟨isrDmarToRst, true, bmsrLstatus⟩

/-- An adapter after `atl1c_up`, with nothing to do. -/
def idleAdapter : Adapter where
  intrMask := imrNormalMask
  workEvent := 0
  commonTask := false
  txCarrierErrors := 0
  carrierOk := true
  linkSpeed := 1000
  msgHw := true
  msgIntr := true
  msgLink := true
  actions := []

theorem dmaTimeout_forgotten : ¬ ResetLaw Fork.serve dmaTimeout idleAdapter := by
  intro law
  exact absurd (law ⟨isrDmarToRst, by decide, by decide⟩).queued (by decide)

end Interrupt
end Atl1c
end KernelHacking
