import KernelHacking.Atl1c.Interrupt
import KernelHacking.Foundations.Machine

namespace KernelHacking
namespace Atl1c

/-!
# Interrupts and polls of the `atl1c` driver

While frames are read by a poll the driver wants no interrupt for them.  The
handler schedules the poll and masks the receive bits, in `intr_mask` and then in
the register; the poll takes itself off the list and unmasks them.  The handler,
the poll and the card run at the same time, and each access to what they share
is a step of its own.  A poll may begin while the last statements of an earlier
one are still to be done on another processor.

What the card does with a write to the status register is what the driver
relies on: a one clears the event, and the highest bit holds the interrupt back.
-/

namespace Polling

open Interrupt

/-! ## The handler, the poll and what they share -/

/-- A turn of the handler's loop, with the value of `max_ints` in it. -/
structure Turn where
  maxInts : Nat
  status : BitVec 32
deriving DecidableEq, Repr

/-- What the handler does next. -/
inductive Handler
  | idle
  | readIsr (maxInts : Nat)
  | readMask (maxInts : Nat) (regData : BitVec 32)
  | ackIsr (turn : Turn)
  | prep (turn : Turn)
  | loadMask (turn : Turn)
  | storeMask (turn : Turn) (value : BitVec 32)
  | loadImr (turn : Turn)
  | storeImr (turn : Turn) (value : BitVec 32)
  | schedule (turn : Turn)
  | rest (turn : Turn)
  | reenable
deriving DecidableEq, Repr

/-- What a call of `atl1c_clean` does next. -/
inductive Poller
  | idle
  | start (budget : Nat)
  | loop (workDone budget : Nat)
  | leave (workDone budget : Nat)
  | complete
  | loadMask
  | storeMask (value : BitVec 32)
  | loadImr
  | storeImr (value : BitVec 32)
deriving DecidableEq, Repr

/-- `unread` counts the marked return statuses, `late` are the polls that a later
one has overtaken, and `scheduled` and `listed` are what the kernel notes of the
poll. -/
structure World where
  isr : BitVec 32
  imr : BitVec 32
  intrMask : BitVec 32
  scheduled : Bool
  listed : Bool
  carrierOk : Bool
  unread : Nat
  handler : Handler
  poller : Poller
  late : List Poller
deriving DecidableEq, Repr

/-- The card takes a write to `REG_ISR`. -/
def writeIsr (isr value : BitVec 32) : BitVec 32 :=
  (isr &&& ~~~ value &&& ~~~ isrDisInt) ||| (value &&& isrDisInt)

/-- One step of `atl1c_intr`.  What it does for other events does not touch what
it shares with the poll. -/
def handlerStep (world : World) : World :=
  match world.handler with
  | .idle => world
  | .readIsr maxInts => { world with handler := .readMask maxInts world.isr }
  | .readMask maxInts regData =>
      let status := regData &&& world.intrMask
      if Quiet status then { world with handler := .reenable }
      else { world with handler := .ackIsr ⟨maxInts, status⟩ }
  | .ackIsr turn =>
      { world with isr := writeIsr world.isr (turn.status ||| isrDisInt), handler := .prep turn }
  | .prep turn =>
      if turn.status &&& isrRxPkt ≠ 0 ∧ world.scheduled = false then
        { world with scheduled := true, handler := .loadMask turn }
      else { world with handler := .rest turn }
  | .loadMask turn =>
      { world with handler := .storeMask turn (world.intrMask &&& ~~~ isrRxPkt) }
  | .storeMask turn value => { world with intrMask := value, handler := .loadImr turn }
  | .loadImr turn => { world with handler := .storeImr turn world.intrMask }
  | .storeImr turn value => { world with imr := value, handler := .schedule turn }
  | .schedule turn => { world with listed := true, handler := .rest turn }
  | .rest turn =>
      if turn.status &&& (isrGphy ||| isrManual) ≠ 0 then { world with handler := .reenable }
      else if 0 < turn.maxInts - 1 then { world with handler := .readIsr (turn.maxInts - 1) }
      else { world with handler := .reenable }
  | .reenable => { world with isr := writeIsr world.isr 0, handler := .idle }

/-- The statements that follow `napi_complete`. -/
def unmaskStep (world : World) : Poller → World × Poller
  | .loadMask => (world, .storeMask (world.intrMask ||| isrRxPkt))
  | .storeMask value => ({ world with intrMask := value }, .loadImr)
  | .loadImr => (world, .storeImr world.intrMask)
  | .storeImr value => ({ world with imr := value }, .idle)
  | poller => (world, poller)

/-- One step of `atl1c_clean`.  A turn of its loop reads a return status, which
may be that of a wrong packet. -/
def pollerStep (world : World) (wrong : Bool) : World :=
  match world.poller with
  | .start budget =>
      if world.carrierOk then { world with poller := .loop 0 budget }
      else { world with poller := .complete }
  | .loop workDone budget =>
      if budget ≤ workDone then { world with poller := .leave workDone budget }
      else if 0 < world.unread then
        { world with
          unread := world.unread - 1
          poller := .loop (if wrong then workDone else workDone + 1) budget }
      else { world with poller := .leave workDone budget }
  | .leave workDone budget =>
      if workDone < budget then { world with poller := .complete }
      else { world with poller := .idle }
  | .complete => { world with scheduled := false, listed := false, poller := .loadMask }
  | poller =>
      let done := unmaskStep world poller
      { done.1 with poller := done.2 }

/-- A poll that has been overtaken goes on. -/
def lateStep (world : World) (i : Nat) : World :=
  match world.late[i]? with
  | none => world
  | some poller =>
      let done := unmaskStep world poller
      { done.1 with
        late := if done.2 = .idle then world.late.eraseIdx i else world.late.set i done.2 }

inductive Op
  | frame
  | raise (events : BitVec 32)
  | carrier (ok : Bool)
  | interrupt
  | handler
  | pollStart (budget : Nat)
  | poll (wrong : Bool)
  | late (i : Nat)
deriving DecidableEq, Repr

/-- The poll has taken itself off the list. -/
def Poller.isThrough : Poller → Bool
  | .idle | .loadMask | .storeMask _ | .loadImr | .storeImr _ => true
  | _ => false

/-- A step that does not fit the state leaves it as it is. -/
def step (world : World) : Op → World
  | .frame => { world with unread := world.unread + 1, isr := world.isr ||| isrRxPkt0 }
  | .raise events => { world with isr := world.isr ||| (events &&& ~~~ isrDisInt) }
  | .carrier ok => { world with carrierOk := ok }
  | .interrupt =>
      if world.handler = .idle then { world with handler := .readIsr atMaxIntWork } else world
  | .handler => handlerStep world
  | .pollStart budget =>
      if world.listed = true ∧ world.poller.isThrough = true then
        { world with
          poller := .start budget
          late := if world.poller = .idle then world.late else world.late ++ [world.poller] }
      else world
  | .poll wrong => pollerStep world wrong
  | .late i => lateStep world i

def polling : Machine World Op Unit where
  step world op := (step world op, ())

/-- The card calls for the handler. -/
def World.Asserts (world : World) : Prop :=
  world.isr.getLsbD 31 = false ∧ world.isr &&& world.imr ≠ 0

instance (world : World) : Decidable world.Asserts := inferInstanceAs (Decidable (_ ∧ _))

/-- The adapter when the interface has come up. -/
structure Started (world : World) : Prop where
  isr : world.isr = 0
  imr : world.imr = world.intrMask
  intrMask : world.intrMask = imrNormalMask
  scheduled : world.scheduled = false
  listed : world.listed = false
  unread : world.unread = 0
  handler : world.handler = .idle
  poller : world.poller = .idle
  late : world.late = []

def Poller.isStart : Poller → Bool
  | .start _ => true
  | _ => false

/-- The polls follow one another, and none gives up for want of a carrier while
frames are unread. -/
def Orderly (world : World) : Op → Prop
  | .pollStart _ => world.poller = .idle
  | .poll _ => world.poller.isStart = true → world.carrierOk = true ∨ world.unread = 0
  | _ => True

instance (world : World) (op : Op) : Decidable (Orderly world op) :=
  match op with
  | .frame | .raise _ | .carrier _ | .interrupt | .handler | .late _ => isTrue trivial
  | .pollStart _ => inferInstanceAs (Decidable (_ = _))
  | .poll _ => inferInstanceAs (Decidable (_ → _))

/-! ## Bits of the registers -/

/-- The bit of the first receive queue. -/
def hears (word : BitVec 32) : Bool := word.getLsbD 16

@[simp] theorem hears_and (first second : BitVec 32) :
    hears (first &&& second) = (hears first && hears second) := BitVec.getLsbD_and ..

@[simp] theorem hears_or (first second : BitVec 32) :
    hears (first ||| second) = (hears first || hears second) := BitVec.getLsbD_or ..

theorem rx_of_hears {word : BitVec 32} (set : hears word = true) : word &&& isrRxPkt ≠ 0 := by
  intro zero
  have bit := congrArg hears zero
  have whole : hears isrRxPkt = true := by decide
  have none : hears 0 = false := by decide
  rw [hears_and, set, whole, none] at bit
  cases bit

theorem not_hears_of_rx {word : BitVec 32} (zero : word &&& isrRxPkt = 0) : hears word = false := by
  rcases set : hears word with _ | _
  · rfl
  · exact absurd zero (rx_of_hears set)

theorem rx_and_left {first second : BitVec 32} (rx : first &&& second &&& isrRxPkt ≠ 0) :
    second &&& isrRxPkt ≠ 0 := by
  intro zero
  apply rx
  rw [BitVec.and_assoc, zero]
  exact BitVec.and_zero

theorem masked_rx (word : BitVec 32) : word &&& ~~~ isrRxPkt &&& isrRxPkt = 0 := by
  rw [BitVec.and_assoc]
  have apart : ~~~ isrRxPkt &&& isrRxPkt = 0 := by decide
  rw [apart]
  exact BitVec.and_zero

theorem hears_writeIsr (isr value : BitVec 32) :
    hears (writeIsr isr value) = (hears isr && !hears value) := by
  have top : hears (~~~ isrDisInt) = true := by decide
  have low : hears isrDisInt = false := by decide
  have flipped : hears (~~~ value) = !hears value := by simp [hears]
  rw [writeIsr, hears_or, hears_and, hears_and, hears_and, top, low, flipped]
  simp

theorem top_writeIsr_zero (isr : BitVec 32) : (writeIsr isr 0).getLsbD 31 = false := by
  simp [writeIsr, isrDisInt]

/-! ## The invariant -/

@[grind] def Handler.isMasking : Handler → Bool
  | .loadMask _ | .storeMask _ _ => true
  | _ => false

@[grind] def Handler.isScheduling : Handler → Bool
  | .loadMask _ | .storeMask _ _ | .loadImr _ | .storeImr _ _ | .schedule _ => true
  | _ => false

@[grind] def Poller.isPolling : Poller → Bool
  | .start _ | .loop _ _ | .leave _ _ | .complete => true
  | _ => false

@[grind] def Poller.isUnmasking : Poller → Bool
  | .loadMask | .storeMask _ => true
  | _ => false

/-- The poll looks for no more frames before it is taken off the list. -/
@[grind] def Poller.isChecked : Poller → Bool
  | .leave workDone budget => workDone < budget
  | .complete => true
  | _ => false

theorem Poller.isPolling_of_isChecked {poller : Poller} (checked : poller.isChecked = true) :
    poller.isPolling = true := by
  cases poller <;> first | rfl | cases checked

/-- The handler has acknowledged a receive event and is going to schedule. -/
@[grind] def Handler.hasTaken : Handler → Bool
  | .prep turn => turn.status &&& isrRxPkt != 0
  | _ => false

/-- The handler is about to acknowledge a receive event, or has done so. -/
@[grind] def Handler.isTaking : Handler → Bool
  | .ackIsr turn | .prep turn => turn.status &&& isrRxPkt != 0
  | _ => false

structure Inv (world : World) : Prop where
  alone : world.late = []
  sound : hears world.intrMask = false → world.intrMask &&& isrRxPkt = 0
  scheduling : world.handler.isScheduling = true → world.scheduled = true ∧ world.listed = false
  settled : world.handler.isScheduling = false → world.listed = world.scheduled
  masked : world.scheduled = true → world.handler.isMasking = false → hears world.intrMask = false
  taking : world.handler.isTaking = true → world.scheduled = false ∧ hears world.intrMask = true
  cleared : forall turn value, world.handler = .storeMask turn value → value &&& isrRxPkt = 0
  polling : world.poller.isPolling = true → world.listed = true
  unmasking : world.poller.isUnmasking = true →
    world.scheduled = false ∧ hears world.intrMask = false
  opening : forall value, world.poller = .storeMask value → hears value = true
  opened : world.scheduled = false → world.poller.isUnmasking = false → hears world.intrMask = true
  written : forall value, world.poller = .storeImr value → world.scheduled = false →
    hears value = true
  enabled : world.scheduled = false → world.poller = .idle → hears world.imr = true
  pending : world.poller.isChecked = true → 0 < world.unread → hears world.isr = true
  woken : 0 < world.unread → hears world.isr = true ∨ world.handler.hasTaken = true ∨
    world.scheduled = true
  released : world.handler = .idle → world.isr.getLsbD 31 = false

section Steps

variable {world : World}

/-- The handler takes a status that has been read with the mask as it is. -/
theorem Inv.readMask (inv : Inv world) {maxInts : Nat} {regData : BitVec 32}
    (here : world.handler = .readMask maxInts regData) : Inv (handlerStep world) := by
  rcases world with ⟨isr, imr, intrMask, scheduled, listed, carrierOk, unread, handler, poller, late⟩
  rcases inv with ⟨alone, sound, scheduling, settled, masked, taking, cleared, polling, unmasking,
    opening, opened, written, enabled, pending, woken, released⟩
  dsimp only at *
  subst here
  -- a receive bit in the status is one that the mask lets through, so no poll is scheduled
  have taken : regData &&& intrMask &&& isrRxPkt ≠ 0 →
      scheduled = false ∧ hears intrMask = true := by
    intro rx
    have heard : hears intrMask = true := by
      by_contra deaf
      exact rx_and_left rx (sound (Bool.eq_false_iff.mpr deaf))
    refine ⟨?_, heard⟩
    by_contra busy
    rw [masked (Bool.not_eq_false _ ▸ busy) rfl] at heard
    cases heard
  unfold Polling.handlerStep
  dsimp only
  split
  · constructor <;> grind -ring -linarith
  · constructor <;> grind -ring -linarith

/-- What the handler acknowledges it has taken. -/
theorem Inv.ackIsr (inv : Inv world) {turn : Turn} (here : world.handler = .ackIsr turn) :
    Inv (handlerStep world) := by
  rcases world with ⟨isr, imr, intrMask, scheduled, listed, carrierOk, unread, handler, poller, late⟩
  rcases inv with ⟨alone, sound, scheduling, settled, masked, taking, cleared, polling, unmasking,
    opening, opened, written, enabled, pending, woken, released⟩
  dsimp only at *
  subst here
  have low : hears isrDisInt = false := by decide
  have kept : turn.status &&& isrRxPkt = 0 →
      hears (writeIsr isr (turn.status ||| isrDisInt)) = hears isr := by
    intro none
    rw [hears_writeIsr, hears_or, not_hears_of_rx none, low]
    simp
  have apart : poller.isChecked = true → scheduled = true := fun checked =>
    (settled rfl).symm.trans (polling (Poller.isPolling_of_isChecked checked))
  unfold Polling.handlerStep
  constructor <;> grind -ring -linarith

theorem Inv.reenable (inv : Inv world) (here : world.handler = .reenable) :
    Inv (handlerStep world) := by
  rcases world with ⟨isr, imr, intrMask, scheduled, listed, carrierOk, unread, handler, poller, late⟩
  rcases inv with ⟨alone, sound, scheduling, settled, masked, taking, cleared, polling, unmasking,
    opening, opened, written, enabled, pending, woken, released⟩
  dsimp only at *
  subst here
  have kept : hears (writeIsr isr 0) = hears isr := by
    have none : hears 0 = false := by decide
    rw [hears_writeIsr, none]
    simp
  have open_ := top_writeIsr_zero isr
  unfold Polling.handlerStep
  constructor <;> grind -ring -linarith

/-- The handler masks the receive bits. -/
theorem Inv.masking_step (inv : Inv world) (isMasking : world.handler.isMasking = true) :
    Inv (handlerStep world) := by
  rcases world with ⟨isr, imr, intrMask, scheduled, listed, carrierOk, unread, handler, poller, late⟩
  rcases inv with ⟨alone, sound, scheduling, settled, masked, taking, cleared, polling, unmasking,
    opening, opened, written, enabled, pending, woken, released⟩
  dsimp only at *
  cases handler with
  | loadMask turn =>
      have zero := masked_rx intrMask
      unfold Polling.handlerStep
      constructor <;> grind -ring -linarith
  | storeMask turn value =>
      have deaf := not_hears_of_rx (cleared turn value rfl)
      unfold Polling.handlerStep
      constructor <;> grind -ring -linarith
  | _ => cases isMasking

/-- Then it writes the register and puts the poll on the list. -/
theorem Inv.scheduling_step (inv : Inv world) (isScheduling : world.handler.isScheduling = true)
    (isMasking : world.handler.isMasking = false) : Inv (handlerStep world) := by
  rcases world with ⟨isr, imr, intrMask, scheduled, listed, carrierOk, unread, handler, poller, late⟩
  rcases inv with ⟨alone, sound, scheduling, settled, masked, taking, cleared, polling, unmasking,
    opening, opened, written, enabled, pending, woken, released⟩
  dsimp only at *
  cases handler with
  | loadImr turn =>
      unfold Polling.handlerStep
      constructor <;> grind -ring -linarith
  | storeImr turn value =>
      unfold Polling.handlerStep
      constructor <;> grind -ring -linarith
  | schedule turn =>
      unfold Polling.handlerStep
      constructor <;> grind -ring -linarith
  | loadMask _ | storeMask _ _ => cases isMasking
  | _ => cases isScheduling

theorem Inv.handlerStep (inv : Inv world) : Inv (handlerStep world) := by
  cases here : world.handler with
  | readMask maxInts regData => exact inv.readMask here
  | ackIsr turn => exact inv.ackIsr here
  | reenable => exact inv.reenable here
  | loadMask turn => exact inv.masking_step (here ▸ rfl)
  | storeMask turn value => exact inv.masking_step (here ▸ rfl)
  | loadImr turn => exact inv.scheduling_step (here ▸ rfl) (here ▸ rfl)
  | storeImr turn value => exact inv.scheduling_step (here ▸ rfl) (here ▸ rfl)
  | schedule turn => exact inv.scheduling_step (here ▸ rfl) (here ▸ rfl)
  | _ =>
      rcases world with
        ⟨isr, imr, intrMask, scheduled, listed, carrierOk, unread, handler, poller, late⟩
      rcases inv with ⟨alone, sound, scheduling, settled, masked, taking, cleared, polling,
        unmasking, opening, opened, written, enabled, pending, woken, released⟩
      dsimp only at *
      subst here
      unfold Polling.handlerStep
      constructor <;> grind -ring -linarith

/-- While a poll is on the list the handler has nothing to schedule, and the
receive bits are masked. -/
structure Handler.Leaves (handler : Handler) : Prop where
  isScheduling : handler.isScheduling = false
  isMasking : handler.isMasking = false
  isTaking : handler.isTaking = false
  hasTaken : handler.hasTaken = false

theorem Inv.leaves (inv : Inv world) (listed : world.listed = true) :
    world.scheduled = true ∧ hears world.intrMask = false ∧ world.handler.Leaves := by
  have apart : world.handler.isScheduling = false := by
    by_contra scheduling
    have off := (inv.scheduling (Bool.not_eq_false _ ▸ scheduling)).2
    rw [listed] at off
    cases off
  have scheduled : world.scheduled = true := (inv.settled apart).symm.trans listed
  have free : world.handler.isTaking = false := by
    by_contra taking
    have off := (inv.taking (Bool.not_eq_false _ ▸ taking)).1
    rw [scheduled] at off
    cases off
  have masking : world.handler.isMasking = false := by
    cases here : world.handler <;> first | rfl | (rw [here] at apart; cases apart)
  have taken : world.handler.hasTaken = false := by
    cases here : world.handler <;> first | rfl | (rw [here] at free; exact free)
  exact ⟨scheduled, inv.masked scheduled masking, apart, masking, free, taken⟩

/-- The poll looks for frames until none is unread. -/
theorem Inv.polling_step (inv : Inv world) {wrong : Bool} (orderly : Orderly world (.poll wrong))
    (isPolling : world.poller.isPolling = true) : Inv (pollerStep world wrong) := by
  rcases inv.leaves (inv.polling isPolling) with
    ⟨scheduledNow, maskedNow, apart, masking, free, taken⟩
  rcases world with ⟨isr, imr, intrMask, scheduled, listed, carrierOk, unread, handler, poller, late⟩
  rcases inv with ⟨alone, sound, scheduling, settled, masked, taking, cleared, polling, unmasking,
    opening, opened, written, enabled, pending, woken, released⟩
  dsimp only at *
  cases poller with
  | start budget =>
      have here := orderly rfl
      unfold Polling.pollerStep
      constructor <;> grind -ring -linarith
  | loop workDone budget =>
      unfold Polling.pollerStep
      constructor <;> grind -ring -linarith
  | leave workDone budget =>
      unfold Polling.pollerStep
      constructor <;> grind -ring -linarith
  | complete =>
      unfold Polling.pollerStep
      constructor <;> grind -ring -linarith
  | _ => cases isPolling

/-- The poll has been taken off the list and unmasks the receive bits. -/
theorem Inv.unmasking_step (inv : Inv world) (wrong : Bool)
    (isPolling : world.poller.isPolling = false) : Inv (pollerStep world wrong) := by
  have opens : hears (world.intrMask ||| isrRxPkt) = true := by
    have whole : hears isrRxPkt = true := by decide
    rw [hears_or, whole, Bool.or_true]
  rcases world with ⟨isr, imr, intrMask, scheduled, listed, carrierOk, unread, handler, poller, late⟩
  rcases inv with ⟨alone, sound, scheduling, settled, masked, taking, cleared, polling, unmasking,
    opening, opened, written, enabled, pending, woken, released⟩
  dsimp only at *
  cases poller with
  | idle =>
      exact ⟨alone, sound, scheduling, settled, masked, taking, cleared, polling, unmasking,
        opening, opened, written, enabled, pending, woken, released⟩
  | loadMask =>
      change Inv ⟨isr, imr, intrMask, scheduled, listed, carrierOk, unread, handler,
        .storeMask (intrMask ||| isrRxPkt), late⟩
      constructor <;> grind -ring -linarith
  | storeMask value =>
      change Inv ⟨isr, imr, value, scheduled, listed, carrierOk, unread, handler, .loadImr, late⟩
      constructor <;> grind -ring -linarith
  | loadImr =>
      change Inv ⟨isr, imr, intrMask, scheduled, listed, carrierOk, unread, handler,
        .storeImr intrMask, late⟩
      constructor <;> grind -ring -linarith
  | storeImr value =>
      change Inv ⟨isr, value, intrMask, scheduled, listed, carrierOk, unread, handler, .idle, late⟩
      constructor <;> grind -ring -linarith
  | _ => cases isPolling

theorem Inv.pollerStep (inv : Inv world) {wrong : Bool} (orderly : Orderly world (.poll wrong)) :
    Inv (pollerStep world wrong) := by
  cases isPolling : world.poller.isPolling with
  | true => exact inv.polling_step orderly isPolling
  | false => exact inv.unmasking_step wrong isPolling

/-- What the card and the network do to the state. -/
theorem Inv.frame (inv : Inv world) : Inv (step world .frame) := by
  have first : hears (world.isr ||| isrRxPkt0) = true := by
    have set : hears isrRxPkt0 = true := by decide
    rw [hears_or, set, Bool.or_true]
  rcases inv with ⟨alone, sound, scheduling, settled, masked, taking, cleared, polling, unmasking,
    opening, opened, written, enabled, pending, woken, released⟩
  have low : (world.isr ||| isrRxPkt0).getLsbD 31 = world.isr.getLsbD 31 := by
    rw [BitVec.getLsbD_or]
    simp [isrRxPkt0]
  unfold step
  constructor <;> grind -ring -linarith

theorem Inv.raise (inv : Inv world) (events : BitVec 32) : Inv (step world (.raise events)) := by
  rcases inv with ⟨alone, sound, scheduling, settled, masked, taking, cleared, polling, unmasking,
    opening, opened, written, enabled, pending, woken, released⟩
  have more : hears world.isr = true → hears (world.isr ||| (events &&& ~~~ isrDisInt)) = true := by
    intro set
    rw [hears_or, set, Bool.true_or]
  have low : (world.isr ||| (events &&& ~~~ isrDisInt)).getLsbD 31 = world.isr.getLsbD 31 := by
    rw [BitVec.getLsbD_or, BitVec.getLsbD_and]
    simp [isrDisInt]
  unfold step
  constructor <;> grind -ring -linarith

theorem Inv.step (inv : Inv world) {op : Op} (orderly : Orderly world op) :
    Inv (step world op) := by
  cases op with
  | frame => exact inv.frame
  | raise events => exact inv.raise events
  | handler => exact inv.handlerStep
  | poll wrong => exact inv.pollerStep orderly
  | late i =>
      have nothing : lateStep world i = world := by
        rw [lateStep, inv.alone]
        rfl
      rw [Polling.step, nothing]
      exact inv
  | carrier ok =>
      exact ⟨inv.alone, inv.sound, inv.scheduling, inv.settled, inv.masked, inv.taking, inv.cleared,
        inv.polling, inv.unmasking, inv.opening, inv.opened, inv.written, inv.enabled, inv.pending,
        inv.woken, inv.released⟩
  | interrupt =>
      rcases inv with ⟨alone, sound, scheduling, settled, masked, taking, cleared, polling,
        unmasking, opening, opened, written, enabled, pending, woken, released⟩
      unfold Polling.step
      constructor <;> grind -ring -linarith
  | pollStart budget =>
      have alone : world.poller = .idle := orderly
      rcases inv with ⟨alone, sound, scheduling, settled, masked, taking, cleared, polling,
        unmasking, opening, opened, written, enabled, pending, woken, released⟩
      unfold Polling.step
      constructor <;> grind -ring -linarith

end Steps

/-- Left alone, the handler does with a status what it does when it is one step. -/
theorem handlerStep_acknowledge (world : World) {turn : Turn} (here : world.handler = .ackIsr turn)
    (reading : Reading) (adapter : Adapter) (prep : reading.napiSchedulePrep = !world.scheduled)
    (mask : adapter.intrMask = world.intrMask) :
    ∃ steps, (handlerStep^[steps] world).handler = .rest turn ∧
      (handlerStep^[steps] world).intrMask =
        (acknowledge reading turn.status adapter).intrMask := by
  have first : (acknowledge reading turn.status adapter).intrMask =
      if turn.status &&& isrRxPkt ≠ 0 ∧ world.scheduled = false then
        world.intrMask &&& ~~~ isrRxPkt
      else world.intrMask := by
    rw [← mask]
    unfold acknowledge
    rw [prep]
    rcases world.scheduled with _ | _ <;> split_ifs <;> simp_all [Adapter.act]
  rcases world with ⟨isr, imr, intrMask, scheduled, listed, carrierOk, unread, handler, poller, late⟩
  dsimp only at *
  subst here
  by_cases taken : turn.status &&& isrRxPkt ≠ 0 ∧ scheduled = false
  · refine ⟨7, ?_⟩
    rw [first, if_pos taken]
    simp only [Function.iterate_succ, Function.iterate_zero, Function.comp_apply, id_eq,
      handlerStep, if_pos taken, and_self]
  · refine ⟨2, ?_⟩
    rw [first, if_neg taken]
    simp only [Function.iterate_succ, Function.iterate_zero, Function.comp_apply, id_eq,
      handlerStep, if_neg taken, and_self]

/-! ## Whole runs -/

theorem Started.inv {world : World} (start : Started world) : Inv world := by
  rcases start with ⟨isr, imr, intrMask, scheduled, listed, unread, handler, poller, late⟩
  have heard : hears world.intrMask = true := by
    rw [intrMask]
    decide
  have low : world.isr.getLsbD 31 = false := by
    rw [isr]
    decide
  constructor <;> grind -ring -linarith

/-- A frame that is unread has its event in the status register, or the handler has
taken the event and is going to schedule the poll, or the poll is scheduled and has not
looked for the last time. -/
theorem Inv.announced {world : World} (inv : Inv world) (unread : 0 < world.unread) :
    hears world.isr = true ∨ world.handler.hasTaken = true ∨
      world.scheduled = true ∧ world.poller.isChecked = false := by
  cases checked : world.poller.isChecked with
  | true => exact Or.inl (inv.pending checked unread)
  | false =>
      rcases inv.woken unread with heard | taken | scheduled
      · exact Or.inl heard
      · exact Or.inr (Or.inl taken)
      · exact Or.inr (Or.inr ⟨scheduled, rfl⟩)

/-- No frame is left waiting.  In every state a frame that is unread is announced or
has the poll before it; when the handler and the poll are at rest, the poll is on the
list or the card calls for the handler; and whenever the handler has taken a receive
event, it may schedule the poll. -/
theorem unread_announced {world : World} (start : Started world) {ops : List Op}
    (orderly : polling.Along Orderly world ops) {reached : World}
    (reaches : polling.run world ops = reached) :
    (0 < reached.unread → hears reached.isr = true ∨ reached.handler.hasTaken = true ∨
      reached.scheduled = true ∧ reached.poller.isChecked = false) ∧
    (reached.handler = .idle → reached.poller = .idle → 0 < reached.unread →
      reached.listed = true ∨ reached.Asserts) ∧
    forall turn, reached.handler = .prep turn → turn.status &&& isrRxPkt ≠ 0 →
      reached.scheduled = false := by
  have inv : Inv (polling.run world ops) :=
    polling.run_invariant Inv Orderly (fun _ _ inv orderly => inv.step orderly) start.inv orderly
  rw [reaches] at inv
  refine ⟨inv.announced, ?_, ?_⟩
  · intro idle through unread
    rcases listed : reached.listed with _ | _
    · right
      have apart : reached.handler.isScheduling = false := by
        rw [idle]
        rfl
      have scheduled : reached.scheduled = false := (inv.settled apart).symm.trans listed
      have opened := inv.enabled scheduled through
      rcases inv.announced unread with heard | taken | ⟨busy, _⟩
      · refine ⟨inv.released idle, fun zero => ?_⟩
        have bit := congrArg hears zero
        rw [hears_and, heard, opened] at bit
        cases bit
      · rw [idle] at taken
        cases taken
      · rw [scheduled] at busy
        cases busy
    · exact Or.inl rfl
  · intro turn here rx
    refine (inv.taking ?_).1
    rw [here]
    exact bne_iff_ne.mpr rx

def started : World := ⟨0, imrNormalMask, imrNormalMask, false, false, true, 0, .idle, .idle, []⟩

theorem started_started : Started started := ⟨rfl, rfl, rfl, rfl, rfl, rfl, rfl, rfl, rfl⟩

/-- A frame arrives after the last look of the poll and before it unmasks. -/
def lastMoment : List Op :=
  [.frame, .interrupt] ++ List.replicate 13 .handler ++ [.pollStart 64] ++
    List.replicate 4 (.poll false) ++ [.frame] ++ List.replicate 5 (.poll false)

theorem unread_announced_lastMoment :
    (polling.run started lastMoment).listed = true ∨ (polling.run started lastMoment).Asserts :=
  (unread_announced started_started
    (show polling.Along Orderly started lastMoment by decide +kernel) rfl).2.1 rfl rfl (by decide)

/-- A poll is overtaken between reading `intr_mask` for the register and writing
it. -/
def overtaken : List Op :=
  [.frame, .interrupt] ++ List.replicate 13 .handler ++ [.pollStart 64] ++
    List.replicate 7 (.poll false) ++ [.frame, .raise isrTxPkt, .interrupt] ++
    List.replicate 6 .handler ++ [.poll false] ++ List.replicate 7 .handler ++
    [.pollStart 64] ++ List.replicate 9 (.poll false) ++ [.late 0, .frame]

/-- Then the receive bits are left masked, and the last frame is not announced. -/
theorem overtaken_forgets :
    (polling.run started overtaken).handler = .idle ∧
      (polling.run started overtaken).poller = .idle ∧
      (polling.run started overtaken).unread = 1 ∧
      (polling.run started overtaken).listed = false ∧
      ¬ (polling.run started overtaken).Asserts := by
  decide +kernel

end Polling
end Atl1c
end KernelHacking
