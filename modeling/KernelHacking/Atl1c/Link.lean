import KernelHacking.Atl1c.Interrupt
import KernelHacking.Foundations.Machine

namespace KernelHacking
namespace Atl1c

/-!
# The link of the `atl1c` driver

The PHY interrupts when the link comes or goes.  The handler notes a loss at once
and leaves the rest to the common task, which reads the PHY with interrupts off,
stops the MAC or starts it with what the link has resolved to, and sets the
carrier.  The same check is made when the interface is brought up.

The card asks for an interrupt as long as the PHY's own status has not been read.
The interface is taken down and up between two runs of the task.
-/

namespace Link

open Interrupt

/-! ## Registers -/

def speed10 : BitVec 16 := 10
def speed100 : BitVec 16 := 100
def speed1000 : BitVec 16 := 1000
def halfDuplex : BitVec 16 := 1
def fullDuplex : BitVec 16 := 2

def gigaPssrSpdDplxResolved : BitVec 16 := 0x0800
def gigaPssrDplx : BitVec 16 := 0x2000
def gigaPssrSpeed : BitVec 16 := 0xC000
def gigaPssr10mbs : BitVec 16 := 0x0000
def gigaPssr100mbs : BitVec 16 := 0x4000
def gigaPssr1000mbs : BitVec 16 := 0x8000

/-- A speed and a duplex. -/
abbrev Mode := BitVec 16 × BitVec 16

/-- `atl1c_get_speed_and_duplex`, for what `MII_GIGA_PSSR` reads. -/
def getSpeedAndDuplex (pssr : BitVec 16) : Option Mode :=
  if pssr &&& gigaPssrSpdDplxResolved = 0 then none
  else
    let duplex := if pssr &&& gigaPssrDplx ≠ 0 then fullDuplex else halfDuplex
    if pssr &&& gigaPssrSpeed = gigaPssr1000mbs then some (speed1000, duplex)
    else if pssr &&& gigaPssrSpeed = gigaPssr100mbs then some (speed100, duplex)
    else if pssr &&& gigaPssrSpeed = gigaPssr10mbs then some (speed10, duplex)
    else none

/-- The registers `MII_BMSR` and `MII_GIGA_PSSR`. -/
structure Phy where
  bmsr : BitVec 16
  pssr : BitVec 16
deriving DecidableEq, Repr

/-- A reading of `MII_BMSR`, which gives zero when it fails. -/
def Phy.readBmsr (phy : Phy) (ok : Bool) : BitVec 16 := if ok then phy.bmsr else 0

def linkUp (bmsr : BitVec 16) : Bool := bmsr &&& bmsrLstatus != 0

/-- The fields of `REG_MAC_CTRL` that `atl1c_start_mac` sets by the link. -/
structure MacSetting where
  speed1000 : Bool
  duplex : Bool
deriving DecidableEq, Repr

def macSetting (mode : Mode) : MacSetting := ⟨mode.1 == speed1000, mode.2 == fullDuplex⟩

/-! ## The driver and the PHY -/

/-- What the interrupt handler does next about the link. -/
inductive Handler
  | idle
  | clearPhyInt
  | readBmsr
  | notify (bmsr : BitVec 16)
deriving DecidableEq, Repr

/-- Who takes the interface down and up: the task, to reset the card, or a process. -/
inductive Opener
  | reset
  | user
deriving DecidableEq, Repr

/-- Who checks the link: the task, or `atl1c_up`. -/
inductive Caller
  | task
  | up (opener : Opener)
deriving DecidableEq, Repr

/-- What the common task does next, or the process that takes the interface down
or brings it up. -/
inductive Worker
  | idle
  | testReset
  | testLink
  | sync
  | readBmsr (caller : Caller)
  | readPssr (caller : Caller)
  | enable (caller : Caller)
  | closing (opener : Opener)
  | syncDown (opener : Opener)
  | configure (opener : Opener)
deriving DecidableEq, Repr

/-- `phyInt` says that the PHY's status has not been read since it changed, `mac` how
the MAC was started, and `reset` and `linkChange` are the bits of `work_event`. -/
structure World where
  phy : Phy
  phyInt : Bool
  carrierOk : Bool
  linkSpeed : BitVec 16
  linkDuplex : BitVec 16
  mac : Option MacSetting
  isDown : Bool
  reset : Bool
  linkChange : Bool
  queued : Bool
  irqSem : Nat
  handler : Handler
  worker : Worker
deriving DecidableEq, Repr

def World.mode (world : World) : Mode := (world.linkSpeed, world.linkDuplex)

/-- `atl1c_link_chg_event`, behind its reading of the PHY. -/
def notify (world : World) (bmsr : BitVec 16) : World :=
  let world :=
    if linkUp bmsr = false ∧ world.carrierOk = true then
      { world with carrierOk := false, linkSpeed := speed0 }
    else world
  { world with linkChange := true, queued := true }

/-- One step of `atl1c_intr`, for an event of the link; `ok` says whether the PHY can
be read.  A reading of `MII_ISR` that fails clears nothing. -/
def handlerStep (world : World) (ok : Bool) : World :=
  match world.handler with
  | .idle => world
  | .clearPhyInt => { world with phyInt := world.phyInt && !ok, handler := .readBmsr }
  | .readBmsr => { world with handler := .notify (world.phy.readBmsr ok) }
  | .notify bmsr => { notify world bmsr with handler := .idle }

/-- `atl1c_check_link_status`, when it finds no link. -/
def linkLost (world : World) : World := { world with carrierOk := false, mac := none }

/-- `atl1c_check_link_status`, when it finds a link with what it has resolved to. -/
def linkFound (world : World) : Option Mode → World
  | none => world
  | some mode =>
      if world.linkSpeed ≠ mode.1 ∨ world.linkDuplex ≠ mode.2 then
        { world with
          linkSpeed := mode.1
          linkDuplex := mode.2
          mac := some (macSetting mode)
          carrierOk := true }
      else { world with carrierOk := true }

/-- The beginning of `atl1c_down`. -/
def beginDown (world : World) (opener : Opener) : World :=
  { world with
    reset := false
    linkChange := false
    isDown := true
    carrierOk := false
    worker := .closing opener }

/-- Where the caller of `atl1c_up` goes on. -/
def Opener.next : Opener → Worker
  | .reset => .testLink
  | .user => .idle

/-- One step of `atl1c_common_task`, `atl1c_down` or `atl1c_up`; `ok` says whether the
allocations, the request of the interrupt or the reading of the PHY succeeds.  The
end of `atl1c_up` is one step. -/
def workerStep (world : World) (ok : Bool) : World :=
  match world.worker with
  | .idle => world
  | .testReset =>
      if world.reset then beginDown world .reset else { world with worker := .testLink }
  | .testLink =>
      if world.linkChange then
        { world with linkChange := false, irqSem := world.irqSem + 1, worker := .sync }
      else { world with worker := .idle }
  | .sync => if world.handler = .idle then { world with worker := .readBmsr .task } else world
  | .readBmsr caller =>
      if linkUp (world.phy.readBmsr ok) then { world with worker := .readPssr caller }
      else { linkLost world with worker := .enable caller }
  | .readPssr caller =>
      let found := if ok then linkFound world (getSpeedAndDuplex world.phy.pssr) else world
      { found with worker := .enable caller }
  | .enable .task => { world with irqSem := world.irqSem - 1, worker := .idle }
  | .enable (.up opener) =>
      { world with isDown := false, irqSem := world.irqSem - 1, worker := opener.next }
  | .closing opener => { world with irqSem := world.irqSem + 1, worker := .syncDown opener }
  | .syncDown opener =>
      if world.handler = .idle then
        { world with
          mac := none
          linkSpeed := speed0
          linkDuplex := 0xffff
          worker := if opener = .reset then .configure .reset else .idle }
      else world
  | .configure opener =>
      if ok then { world with carrierOk := false, worker := .readBmsr (.up opener) }
      else { world with carrierOk := false, worker := opener.next }

inductive Op
  | phy (phy : Phy)
  | interrupt
  | manual
  | handler (ok : Bool)
  | timeout
  | task
  | work (ok : Bool)
  | takeDown (cancels : Bool)
  | bringUp
deriving DecidableEq, Repr

/-- An operation that does not fit the state leaves it as it is.  `atl1c_close` waits
for the task to end and takes it off the queue before it takes the interface down; a
change of the MTU leaves it there. -/
def step (world : World) : Op → World
  | .phy phy => { world with phy := phy, phyInt := true }
  | .interrupt =>
      if world.irqSem = 0 ∧ world.handler = .idle ∧ world.phyInt = true then
        { world with handler := .clearPhyInt }
      else world
  | .manual =>
      if world.irqSem = 0 ∧ world.handler = .idle then { world with handler := .readBmsr }
      else world
  | .handler ok => handlerStep world ok
  | .timeout => { world with reset := true, queued := true }
  | .task =>
      if world.worker = .idle ∧ world.queued = true then
        { world with queued := false, worker := if world.isDown then .idle else .testReset }
      else world
  | .work ok => workerStep world ok
  | .takeDown cancels =>
      if world.worker = .idle ∧ world.isDown = false then
        beginDown { world with queued := world.queued && !cancels } .user
      else world
  | .bringUp =>
      if world.worker = .idle ∧ world.isDown = true then { world with worker := .configure .user }
      else world

def link : Machine World Op Unit where
  step world op := (step world op, ())

/-- The adapter as it is probed.  The carrier of a new network device is on. -/
structure Probed (world : World) : Prop where
  linkSpeed : world.linkSpeed = speed0
  mac : world.mac = none
  isDown : world.isDown = true
  irqSem : world.irqSem = 1
  handler : world.handler = .idle
  worker : world.worker = .idle

/-- The adapter of the interrupt handler is in the state of the world. -/
structure Shows (world : World) (adapter : Adapter) : Prop where
  carrierOk : world.carrierOk = adapter.carrierOk
  linkSpeed : world.linkSpeed = adapter.linkSpeed
  reset : world.reset = adapter.workEvent.getLsbD atl1cWorkEventReset
  linkChange : world.linkChange = adapter.workEvent.getLsbD atl1cWorkEventLinkChange
  queued : world.queued = adapter.commonTask

/-- The handler's last step is the whole handler's `atl1c_link_chg_event`. -/
theorem Shows.notify {world : World} {adapter : Adapter} (agree : Shows world adapter)
    (bmsr : BitVec 16) : Shows (notify world bmsr) (linkChgEvent bmsr adapter) := by
  have same : (linkUp bmsr = false ∧ world.carrierOk = true) ↔
      (bmsr &&& bmsrLstatus = 0 ∧ adapter.carrierOk = true) := by
    rw [agree.carrierOk, linkUp, bne_eq_false_iff_eq]
  have quiet : (adapter.workEvent ||| BitVec.twoPow 64 atl1cWorkEventLinkChange).getLsbD
      atl1cWorkEventReset = adapter.workEvent.getLsbD atl1cWorkEventReset := by
    simp [atl1cWorkEventLinkChange, atl1cWorkEventReset]
  have waits : (adapter.workEvent ||| BitVec.twoPow 64 atl1cWorkEventLinkChange).getLsbD
      atl1cWorkEventLinkChange = true := by
    simp [atl1cWorkEventLinkChange]
  unfold Link.notify linkChgEvent notifyLinkDown
  by_cases lost : linkUp bmsr = false ∧ world.carrierOk = true
  · rw [if_pos lost, if_pos (same.mp lost)]
    dsimp only
    split_ifs <;> exact ⟨rfl, rfl, agree.reset.trans quiet.symm, waits.symm, rfl⟩
  · rw [if_neg lost, if_neg (same.not.mp lost)]
    exact ⟨agree.carrierOk, agree.linkSpeed, agree.reset.trans quiet.symm, waits.symm, rfl⟩

/-! ## The carrier and the MAC -/

theorem speed_ne_speed0 {pssr : BitVec 16} {mode : Mode}
    (resolved : getSpeedAndDuplex pssr = some mode) : mode.1 ≠ speed0 := by
  unfold getSpeedAndDuplex at resolved
  split_ifs at resolved <;> cases resolved <;> decide

/-- The interface is being taken down. -/
@[grind] def Worker.isClosing : Worker → Bool
  | .closing _ | .syncDown _ => true
  | _ => false

/-- A recorded speed is that of the running MAC, and the carrier is on only with a
recorded speed. -/
structure Backed (world : World) : Prop where
  started : world.linkSpeed ≠ speed0 → world.mac = some (macSetting world.mode)
  recorded : world.carrierOk = true → world.linkSpeed ≠ speed0
  closing : world.worker.isClosing = true → world.carrierOk = false

def Worker.readsBmsr : Worker → Bool
  | .readBmsr _ => true
  | _ => false

/-- A check finds the link gone only after the handler has noted the loss. -/
def Noticed (world : World) : Op → Prop
  | .work ok => world.worker.readsBmsr = true →
      linkUp (world.phy.readBmsr ok) = false → world.linkSpeed = speed0
  | _ => True

instance (world : World) : (op : Op) → Decidable (Noticed world op)
  | .work _ => inferInstanceAs (Decidable (_ → _ → _))
  | .phy _ | .interrupt | .manual | .handler _ | .timeout | .task | .takeDown _ | .bringUp =>
      isTrue trivial

section Carrier

variable {world : World}

/-- A step that keeps the mode and the MAC. -/
theorem Backed.congr {world' : World} (backed : Backed world)
    (carrier : world'.carrierOk = true → world.carrierOk = true)
    (mode : world'.mode = world.mode) (mac : world'.mac = world.mac)
    (closing : world'.worker.isClosing = true → world'.carrierOk = false) : Backed world' := by
  have speed : world'.linkSpeed = world.linkSpeed := congrArg Prod.fst mode
  refine ⟨?_, ?_, closing⟩
  · intro recorded
    rw [mac, mode]
    exact backed.started (speed ▸ recorded)
  · intro on
    rw [speed]
    exact backed.recorded (carrier on)

theorem Backed.notify (backed : Backed world) (bmsr : BitVec 16) : Backed (notify world bmsr) := by
  unfold Link.notify
  split_ifs
  · exact ⟨fun recorded => absurd rfl recorded, fun on => absurd on Bool.false_ne_true,
      fun _ => rfl⟩
  · exact backed.congr id rfl rfl backed.closing

theorem Backed.handlerStep (backed : Backed world) (ok : Bool) : Backed (handlerStep world ok) := by
  unfold Link.handlerStep
  cases world.handler with
  | idle => exact backed
  | clearPhyInt => exact backed.congr id rfl rfl backed.closing
  | readBmsr => exact backed.congr id rfl rfl backed.closing
  | notify bmsr =>
      have noted := backed.notify bmsr
      exact noted.congr id rfl rfl noted.closing

/-- What a check that finds a link leaves, whatever comes next. -/
theorem Backed.linkFound (backed : Backed world) (pssr : BitVec 16) {worker : Worker}
    (going : worker.isClosing = false) :
    Backed { linkFound world (getSpeedAndDuplex pssr) with worker := worker } := by
  have apart : worker.isClosing = true → false = true := fun closing => going.symm.trans closing
  cases resolved : getSpeedAndDuplex pssr with
  | none => exact backed.congr id rfl rfl fun closing => absurd (apart closing) Bool.false_ne_true
  | some mode =>
      have real := speed_ne_speed0 resolved
      rw [Link.linkFound]
      split_ifs with changed
      · exact ⟨fun _ => rfl, fun _ => real,
          fun closing => absurd (apart closing) Bool.false_ne_true⟩
      · have same := not_or.mp changed
        have speed : world.linkSpeed = mode.1 := not_not.mp same.1
        exact ⟨backed.started, fun _ => speed ▸ real,
          fun closing => absurd (apart closing) Bool.false_ne_true⟩

theorem Backed.beginDown (backed : Backed world) (opener : Opener) :
    Backed (beginDown world opener) :=
  backed.congr (fun on => absurd on Bool.false_ne_true) rfl rfl fun _ => rfl

theorem Backed.workerStep (backed : Backed world) {ok : Bool} (noticed : Noticed world (.work ok)) :
    Backed (workerStep world ok) := by
  have apart : false = true → world.carrierOk = false := fun never => absurd never Bool.false_ne_true
  unfold Link.workerStep
  cases worker : world.worker with
  | idle => exact backed
  | testReset =>
      dsimp only
      split_ifs
      · exact backed.beginDown .reset
      · exact backed.congr id rfl rfl apart
  | testLink =>
      dsimp only
      split_ifs <;> exact backed.congr id rfl rfl apart
  | sync =>
      dsimp only
      split_ifs
      · exact backed.congr id rfl rfl apart
      · exact backed
  | readBmsr caller =>
      have noted : linkUp (world.phy.readBmsr ok) = false → world.linkSpeed = speed0 :=
        noticed (worker ▸ rfl)
      dsimp only
      split_ifs with up
      · exact backed.congr id rfl rfl apart
      · exact ⟨fun recorded => absurd (noted (Bool.eq_false_iff.mpr up)) recorded,
          fun on => absurd on Bool.false_ne_true, fun _ => rfl⟩
  | readPssr caller =>
      dsimp only
      cases ok with
      | true => exact backed.linkFound world.phy.pssr rfl
      | false => exact backed.congr id rfl rfl apart
  | enable caller =>
      cases caller with
      | task => exact backed.congr id rfl rfl apart
      | up opener =>
          refine backed.congr id rfl rfl fun closing => absurd closing ?_
          cases opener <;> exact Bool.false_ne_true
  | closing opener =>
      exact backed.congr id rfl rfl fun _ => backed.closing (worker ▸ rfl)
  | syncDown opener =>
      have off : world.carrierOk = false := backed.closing (worker ▸ rfl)
      dsimp only
      split_ifs
      · exact ⟨fun recorded => absurd rfl recorded,
          fun on => absurd (off.symm.trans on) Bool.false_ne_true, fun _ => off⟩
      · exact ⟨fun recorded => absurd rfl recorded,
          fun on => absurd (off.symm.trans on) Bool.false_ne_true, fun _ => off⟩
      · exact backed
  | configure opener =>
      have off : false = true → world.carrierOk = true := fun never =>
        absurd never Bool.false_ne_true
      dsimp only
      split_ifs
      · exact backed.congr off rfl rfl fun _ => rfl
      · exact backed.congr off rfl rfl fun _ => rfl

theorem Backed.step (backed : Backed world) {op : Op} (noticed : Noticed world op) :
    Backed (step world op) := by
  cases op with
  | phy phy => exact backed.congr id rfl rfl backed.closing
  | interrupt =>
      unfold Link.step
      dsimp only
      split_ifs
      · exact backed.congr id rfl rfl backed.closing
      · exact backed
  | manual =>
      unfold Link.step
      dsimp only
      split_ifs
      · exact backed.congr id rfl rfl backed.closing
      · exact backed
  | handler ok => exact backed.handlerStep ok
  | timeout => exact backed.congr id rfl rfl backed.closing
  | task =>
      unfold Link.step
      dsimp only
      split_ifs
      · exact backed.congr id rfl rfl fun closing => absurd closing Bool.false_ne_true
      · exact backed.congr id rfl rfl fun closing => absurd closing Bool.false_ne_true
      · exact backed
  | work ok => exact backed.workerStep noticed
  | takeDown cancels =>
      unfold Link.step
      dsimp only
      split_ifs
      · exact backed.congr (fun on => absurd on Bool.false_ne_true) rfl rfl fun _ => rfl
      · exact backed
  | bringUp =>
      unfold Link.step
      dsimp only
      split_ifs
      · exact backed.congr id rfl rfl fun closing => absurd closing Bool.false_ne_true
      · exact backed

/-- An adapter that has not been brought up since it was probed. -/
structure Unopened (world : World) : Prop where
  linkSpeed : world.linkSpeed = speed0
  isDown : world.isDown = true
  irqSem : world.irqSem = 1
  handler : world.handler = .idle
  worker : world.worker = .idle ∨ world.worker = .configure .user

theorem Probed.unopened (probed : Probed world) : Unopened world :=
  ⟨probed.linkSpeed, probed.isDown, probed.irqSem, probed.handler, Or.inl probed.worker⟩

/-- Bringing the interface up turns the carrier off first. -/
theorem Unopened.configure (unopened : Unopened world) (ok : Bool) {opener : Opener}
    (opening : world.worker = .configure opener) : Backed (workerStep world ok) := by
  have forgotten := unopened.linkSpeed
  unfold Link.workerStep
  rw [opening]
  dsimp only
  split_ifs <;> exact ⟨fun recorded => absurd forgotten recorded,
    fun on => absurd on Bool.false_ne_true, fun _ => rfl⟩

theorem Unopened.step (unopened : Unopened world) (op : Op) :
    Unopened (step world op) ∨ Backed (step world op) := by
  obtain ⟨linkSpeed, isDown, irqSem, handler, worker⟩ := unopened
  have deaf : world.irqSem ≠ 0 := irqSem ▸ one_ne_zero
  cases op with
  | phy phy => exact Or.inl ⟨linkSpeed, isDown, irqSem, handler, worker⟩
  | interrupt =>
      rw [Link.step, if_neg (not_and_of_not_left _ deaf)]
      exact Or.inl ⟨linkSpeed, isDown, irqSem, handler, worker⟩
  | manual =>
      rw [Link.step, if_neg (not_and_of_not_left _ deaf)]
      exact Or.inl ⟨linkSpeed, isDown, irqSem, handler, worker⟩
  | handler ok =>
      rw [Link.step, Link.handlerStep, handler]
      exact Or.inl ⟨linkSpeed, isDown, irqSem, handler, worker⟩
  | timeout => exact Or.inl ⟨linkSpeed, isDown, irqSem, handler, worker⟩
  | task =>
      unfold Link.step
      dsimp only
      split_ifs
      · exact Or.inl ⟨linkSpeed, isDown, irqSem, handler, Or.inl rfl⟩
      · exact Or.inl ⟨linkSpeed, isDown, irqSem, handler, worker⟩
  | work ok =>
      rcases worker with idle | opening
      · rw [Link.step, Link.workerStep, idle]
        exact Or.inl ⟨linkSpeed, isDown, irqSem, handler, Or.inl idle⟩
      · exact Or.inr (Unopened.configure ⟨linkSpeed, isDown, irqSem, handler, Or.inr opening⟩ ok
          opening)
  | takeDown cancels =>
      rw [Link.step, if_neg (not_and_of_not_right _ (isDown ▸ Bool.true_eq_false.mp))]
      exact Or.inl ⟨linkSpeed, isDown, irqSem, handler, worker⟩
  | bringUp =>
      unfold Link.step
      dsimp only
      split_ifs
      · exact Or.inl ⟨linkSpeed, isDown, irqSem, handler, Or.inr rfl⟩
      · exact Or.inl ⟨linkSpeed, isDown, irqSem, handler, worker⟩

/-- From the first bringing up on, and as long as each loss of the link is noted by
the handler before a check finds it, the MAC runs with the recorded speed and duplex
whenever the carrier is on. -/
theorem carrier_backed (probed : Probed world) {before after : List Op} {ok : Bool}
    (noticed : link.Along Noticed world (before ++ .work ok :: after)) {opener : Opener}
    (opening : (link.run world before).worker = .configure opener) {reached : World}
    (reaches : link.run world (before ++ .work ok :: after) = reached)
    (on : reached.carrierOk = true) : reached.mac = some (macSetting reached.mode) := by
  obtain ⟨earlier, checks, later⟩ := (link.along_append Noticed world before _).mp noticed
  have untouched : Unopened (link.run world before) ∨ Backed (link.run world before) :=
    link.run_invariant (fun world => Unopened world ∨ Backed world) Noticed
      (fun _ op known noticed => known.elim (fun unopened => unopened.step op)
        fun backed => Or.inr (backed.step noticed)) (Or.inl probed.unopened) earlier
  have opened : Backed (workerStep (link.run world before) ok) := by
    rcases untouched with unopened | backed
    · exact unopened.configure ok opening
    · exact backed.workerStep checks
  have backed : Backed (link.run (workerStep (link.run world before) ok) after) :=
    link.run_invariant Backed Noticed (fun _ _ backed noticed => backed.step noticed) opened later
  rw [link.run_append] at reaches
  rw [← reaches] at on ⊢
  exact backed.started (backed.recorded on)

end Carrier

def gigabit : Phy := ⟨0x0004, 0xA800⟩

def fastEthernet : Phy := ⟨0x0004, 0x6800⟩

def unplugged : Phy := ⟨0, 0⟩

def probed : World :=
  ⟨gigabit, false, true, speed0, fullDuplex, none, true, false, false, false, 1, .idle, .idle⟩

theorem probed_probed : Probed probed := ⟨rfl, rfl, rfl, rfl, rfl, rfl⟩

/-- The interface comes up. -/
def comesUp : List Op := .bringUp :: List.replicate 4 (.work true)

/-- The PHY changes, the handler notes it, and the task checks the link. -/
def changes (phy : Phy) : List Op :=
  [.phy phy, .interrupt, .handler true, .handler true, .handler true, .task] ++
    List.replicate 6 (.work true)

/-- The link is lost and comes back slower. -/
def slower : List Op := comesUp ++ changes unplugged ++ changes fastEthernet

theorem carrier_backed_slower :
    (link.run probed slower).mac = some (macSetting (link.run probed slower).mode) :=
  carrier_backed probed_probed (show link.Along Noticed probed ([.bringUp] ++ .work true ::
      (List.replicate 3 (.work true) ++ changes unplugged ++ changes fastEthernet)) by
      decide +kernel)
    (show (link.run probed [.bringUp]).worker = .configure .user by decide +kernel) rfl
    (by decide +kernel)

/-! ## A loss that a check finds first -/

/-- The handler has read that the link is gone. -/
def Handler.notesLoss : Handler → Bool
  | .notify bmsr => !linkUp bmsr
  | _ => false

def Worker.readsPssr : Worker → Bool
  | .readPssr _ => true
  | _ => false

/-- Nothing clears the record: the interface is not taken down, the card is not
reset, the handler notes no loss, and each link resolves to the same mode. -/
def Unchanging (mode : Mode) (world : World) : Op → Prop
  | .handler _ => world.handler.notesLoss = true → world.carrierOk = false
  | .work ok => (world.worker = .testReset → world.reset = false) ∧
      (world.worker.readsPssr = true → ok = true →
        getSpeedAndDuplex world.phy.pssr = none ∨ getSpeedAndDuplex world.phy.pssr = some mode)
  | .takeDown _ => False
  | _ => True

instance (mode : Mode) (world : World) : (op : Op) → Decidable (Unchanging mode world op)
  | .handler _ => inferInstanceAs (Decidable (_ → _))
  | .work _ => inferInstanceAs (Decidable (_ ∧ (_ → _ → _)))
  | .takeDown _ => isFalse not_false
  | .phy _ | .interrupt | .manual | .timeout | .task | .bringUp => isTrue trivial

/-- The MAC is stopped and the mode of the lost link is still recorded. -/
structure Wedged (mode : Mode) (world : World) : Prop where
  mac : world.mac = none
  recorded : world.mode = mode
  going : world.worker.isClosing = false

section Wedged

variable {mode : Mode} {world : World}

theorem Wedged.handlerStep (wedged : Wedged mode world) {ok : Bool}
    (unchanging : Unchanging mode world (.handler ok)) : Wedged mode (handlerStep world ok) := by
  unfold Link.handlerStep
  cases handler : world.handler with
  | idle => exact wedged
  | clearPhyInt => exact ⟨wedged.mac, wedged.recorded, wedged.going⟩
  | readBmsr => exact ⟨wedged.mac, wedged.recorded, wedged.going⟩
  | notify bmsr =>
      have kept : ¬ (linkUp bmsr = false ∧ world.carrierOk = true) := by
        rintro ⟨lost, on⟩
        have off : world.carrierOk = false := by
          apply unchanging
          rw [handler, Handler.notesLoss, lost]
          rfl
        exact absurd (off.symm.trans on) Bool.false_ne_true
      dsimp only
      rw [Link.notify, if_neg kept]
      exact ⟨wedged.mac, wedged.recorded, wedged.going⟩

/-- A link of the recorded mode turns the carrier on and starts nothing. -/
theorem linkFound_recorded (recorded : world.mode = mode) :
    linkFound world (some mode) = { world with carrierOk := true } := by
  have speed : world.linkSpeed = mode.1 := congrArg Prod.fst recorded
  have duplex : world.linkDuplex = mode.2 := congrArg Prod.snd recorded
  rw [linkFound, if_neg]
  exact not_or.mpr ⟨not_not.mpr speed, not_not.mpr duplex⟩

theorem Wedged.workerStep (wedged : Wedged mode world) {ok : Bool}
    (unchanging : Unchanging mode world (.work ok)) : Wedged mode (workerStep world ok) := by
  have going := wedged.going
  unfold Link.workerStep
  cases worker : world.worker with
  | idle => exact wedged
  | testReset =>
      dsimp only
      rw [unchanging.1 worker]
      exact ⟨wedged.mac, wedged.recorded, rfl⟩
  | testLink =>
      dsimp only
      split_ifs <;> exact ⟨wedged.mac, wedged.recorded, rfl⟩
  | sync =>
      dsimp only
      split_ifs
      · exact ⟨wedged.mac, wedged.recorded, rfl⟩
      · exact wedged
  | readBmsr caller =>
      dsimp only
      split_ifs
      · exact ⟨wedged.mac, wedged.recorded, rfl⟩
      · exact ⟨rfl, wedged.recorded, rfl⟩
  | readPssr caller =>
      dsimp only
      split_ifs with reads
      · rcases unchanging.2 (worker ▸ rfl) reads with none | same
        · rw [none]
          exact ⟨wedged.mac, wedged.recorded, rfl⟩
        · rw [same, linkFound_recorded wedged.recorded]
          exact ⟨wedged.mac, wedged.recorded, rfl⟩
      · exact ⟨wedged.mac, wedged.recorded, rfl⟩
  | enable caller =>
      rcases caller with _ | ⟨_ | _⟩ <;> exact ⟨wedged.mac, wedged.recorded, rfl⟩
  | closing opener =>
      rw [worker] at going
      cases going
  | syncDown opener =>
      rw [worker] at going
      cases going
  | configure opener =>
      dsimp only
      split_ifs
      · exact ⟨wedged.mac, wedged.recorded, rfl⟩
      · cases opener <;> exact ⟨wedged.mac, wedged.recorded, rfl⟩

theorem Wedged.step (wedged : Wedged mode world) {op : Op} (unchanging : Unchanging mode world op) :
    Wedged mode (step world op) := by
  cases op with
  | phy phy => exact ⟨wedged.mac, wedged.recorded, wedged.going⟩
  | interrupt =>
      unfold Link.step
      dsimp only
      split_ifs
      · exact ⟨wedged.mac, wedged.recorded, wedged.going⟩
      · exact wedged
  | manual =>
      unfold Link.step
      dsimp only
      split_ifs
      · exact ⟨wedged.mac, wedged.recorded, wedged.going⟩
      · exact wedged
  | handler ok => exact wedged.handlerStep unchanging
  | timeout => exact ⟨wedged.mac, wedged.recorded, wedged.going⟩
  | task =>
      unfold Link.step
      dsimp only
      split_ifs
      · exact ⟨wedged.mac, wedged.recorded, rfl⟩
      · exact ⟨wedged.mac, wedged.recorded, rfl⟩
      · exact wedged
  | work ok => exact wedged.workerStep unchanging
  | takeDown cancels => exact unchanging.elim
  | bringUp =>
      unfold Link.step
      dsimp only
      split_ifs
      · exact ⟨wedged.mac, wedged.recorded, rfl⟩
      · exact wedged

/-- When a check finds the link gone before the handler does, the MAC stays stopped
until something clears the record, and a check that finds the link again in the
recorded mode turns the carrier on all the same. -/
theorem unnoticed_loss_wedges {caller : Caller} (checking : world.worker = .readBmsr caller)
    {ok : Bool} (gone : linkUp (world.phy.readBmsr ok) = false) {ops : List Op}
    (unchanging : link.Along (Unchanging world.mode) (workerStep world ok) ops) {reached : World}
    (reaches : link.run (workerStep world ok) ops = reached) :
    reached.mac = none ∧ forall caller, reached.worker = .readPssr caller →
      getSpeedAndDuplex reached.phy.pssr = some world.mode →
      (workerStep reached true).carrierOk = true ∧ (workerStep reached true).mac = none := by
  have stopped : Wedged world.mode (workerStep world ok) := by
    rw [workerStep, checking]
    dsimp only
    rw [gone]
    exact ⟨rfl, rfl, rfl⟩
  have wedged : Wedged world.mode (link.run (workerStep world ok) ops) :=
    link.run_invariant (Wedged world.mode) (Unchanging world.mode)
      (fun _ _ wedged unchanging => wedged.step unchanging) stopped unchanging
  rw [reaches] at wedged
  refine ⟨wedged.mac, fun caller finds resolved => ?_⟩
  rw [workerStep, finds]
  dsimp only
  rw [if_pos rfl, resolved, linkFound_recorded wedged.recorded]
  exact ⟨rfl, wedged.mac⟩

end Wedged

/-- The link is lost while the task is about to read the PHY. -/
def lostInCheck : List Op :=
  comesUp ++ [.manual, .handler true, .handler true, .task, .work true, .work true, .work true,
    .phy unplugged]

/-- The check goes on, the handler and a second check run, and the link comes back. -/
def backAgain : List Op :=
  [.work true, .interrupt, .handler true, .handler true, .handler true, .task] ++
    List.replicate 5 (.work true) ++ [.phy gigabit, .interrupt, .handler true, .handler true,
      .handler true, .task] ++ List.replicate 4 (.work true)

theorem unnoticed_loss_wedges_gigabit :
    (workerStep (link.run (workerStep (link.run probed lostInCheck) true) backAgain) true).carrierOk =
        true ∧
      (workerStep (link.run (workerStep (link.run probed lostInCheck) true) backAgain) true).mac =
        none :=
  (unnoticed_loss_wedges (show (link.run probed lostInCheck).worker = .readBmsr .task by
      decide +kernel) (show linkUp ((link.run probed lostInCheck).phy.readBmsr true) = false by
      decide +kernel) (show link.Along (Unchanging (link.run probed lostInCheck).mode)
      (workerStep (link.run probed lostInCheck) true) backAgain by decide +kernel) rfl).2 .task
    (by decide +kernel) (by decide +kernel)

/-! ## No change of the link is missed -/

/-- The task has turned interrupts off for its check. -/
@[grind] def Worker.isChecking : Worker → Bool
  | .sync | .readBmsr .task | .readPssr .task | .enable .task => true
  | _ => false

/-- The worker is at the PHY, or about to turn interrupts on again. -/
@[grind] def Worker.isReading : Worker → Bool
  | .readBmsr _ | .readPssr _ | .enable _ => true
  | _ => false

/-- The interface is on its way down or up. -/
@[grind] def Worker.isMoving : Worker → Bool
  | .closing _ | .syncDown _ | .configure _ => true
  | .readBmsr (.up _) | .readPssr (.up _) | .enable (.up _) => true
  | _ => false

/-- Interrupts are still on. -/
@[grind] def Worker.isHeard : Worker → Bool
  | .closing _ => true
  | _ => false

/-- The carrier says what the PHY says, or the PHY has something to say. -/
@[grind] def Agrees (world : World) : Prop :=
  world.carrierOk = linkUp world.phy.bmsr ∨ world.phyInt = true

/-- What is known of the link, by what the worker is at. -/
@[grind] def Noted (world : World) : Prop :=
  match world.worker with
  | .idle => world.isDown = false →
      Agrees world ∨ world.handler ≠ .idle ∨ world.linkChange = true ∧ world.queued = true
  | .testReset | .testLink => world.isDown = false →
      Agrees world ∨ world.handler ≠ .idle ∨ world.linkChange = true
  | .readPssr _ => linkUp world.phy.bmsr = true ∨ world.phyInt = true
  | .enable _ => Agrees world
  | _ => True

/-- A PHY that reports a link has resolved its mode. -/
@[grind] def Resolves (phy : Phy) : Prop :=
  linkUp phy.bmsr = true → (getSpeedAndDuplex phy.pssr).isSome

instance (phy : Phy) : Decidable (Resolves phy) := inferInstanceAs (Decidable (_ → _))

/-- The PHY resolves a link when it reports it, and can be read. -/
def Readable (world : World) : Op → Prop
  | .phy phy => Resolves phy
  | .work ok => world.worker.isReading = true → ok = true
  | _ => True

instance (world : World) : (op : Op) → Decidable (Readable world op)
  | .phy phy => inferInstanceAs (Decidable (Resolves phy))
  | .work _ => inferInstanceAs (Decidable (_ → _))
  | .interrupt | .manual | .handler _ | .timeout | .task | .takeDown _ | .bringUp => isTrue trivial

structure Inv (world : World) : Prop where
  resolves : Resolves world.phy
  sem : world.irqSem = (if world.isDown && !world.worker.isHeard then 1 else 0) +
    (if world.worker.isChecking then 1 else 0)
  alone : world.worker.isReading = true ∨ world.isDown = true ∧ world.worker.isClosing = false →
    world.handler = .idle
  down : world.worker.isMoving = true → world.isDown = true
  up : world.worker = .testReset → world.isDown = false
  noted : Noted world

section Settling

variable {world : World}

theorem Inv.workerStep (inv : Inv world) {ok : Bool} (readable : Readable world (.work ok)) :
    Inv (workerStep world ok) := by
  rcases world with ⟨phy, phyInt, carrierOk, linkSpeed, linkDuplex, mac, isDown, reset, linkChange,
    queued, irqSem, handler, worker⟩
  rcases inv with ⟨resolves, sem, alone, down, up, noted⟩
  dsimp only at *
  unfold Link.workerStep
  cases worker with
  | idle => exact ⟨resolves, sem, alone, down, up, noted⟩
  | testReset =>
      dsimp only [beginDown]
      constructor <;> grind -ring -linarith
  | testLink =>
      dsimp only
      constructor <;> grind -ring -linarith
  | sync =>
      dsimp only
      constructor <;> grind -ring -linarith
  | readBmsr caller =>
      have reads : ok = true := readable rfl
      subst reads
      dsimp only [Phy.readBmsr, linkLost]
      cases caller <;> constructor <;> grind -ring -linarith
  | readPssr caller =>
      have reads : ok = true := readable rfl
      subst reads
      dsimp only
      rw [if_pos rfl]
      -- a link that is up has resolved, and turns the carrier on
      cases resolved : getSpeedAndDuplex phy.pssr with
      | none =>
          dsimp only [linkFound]
          cases caller <;> constructor <;> grind -ring -linarith
      | some mode =>
          dsimp only [linkFound]
          split_ifs <;> cases caller <;> constructor <;> grind -ring -linarith
  | enable caller =>
      rcases caller with _ | ⟨_ | _⟩ <;> dsimp only [Opener.next] <;> constructor <;>
        grind -ring -linarith
  | closing opener =>
      dsimp only
      constructor <;> grind -ring -linarith
  | syncDown opener =>
      dsimp only
      cases opener <;> constructor <;> grind -ring -linarith
  | configure opener =>
      cases opener <;> dsimp only [Opener.next] <;> constructor <;> grind -ring -linarith

theorem Inv.handlerStep (inv : Inv world) (ok : Bool) : Inv (handlerStep world ok) := by
  rcases world with ⟨phy, phyInt, carrierOk, linkSpeed, linkDuplex, mac, isDown, reset, linkChange,
    queued, irqSem, handler, worker⟩
  rcases inv with ⟨resolves, sem, alone, down, up, noted⟩
  dsimp only at *
  unfold Link.handlerStep
  cases handler with
  | idle => exact ⟨resolves, sem, alone, down, up, noted⟩
  | clearPhyInt =>
      dsimp only
      constructor <;> grind -ring -linarith
  | readBmsr =>
      dsimp only
      constructor <;> grind -ring -linarith
  | notify bmsr =>
      dsimp only [notify]
      split_ifs <;> constructor <;> grind -ring -linarith

/-- The handler is entered only when nobody is at the PHY. -/
theorem Inv.apart (inv : Inv world) (on : world.irqSem = 0) :
    world.worker.isReading = false ∧ (world.isDown = true → world.worker.isClosing = true) := by
  have sem := inv.sem
  have down := inv.down
  rw [on] at sem
  cases worker : world.worker with
  | readBmsr caller => cases caller <;> grind -ring -linarith
  | readPssr caller => cases caller <;> grind -ring -linarith
  | enable caller => cases caller <;> grind -ring -linarith
  | _ => grind -ring -linarith

theorem Inv.enter (inv : Inv world) (on : world.irqSem = 0) {handler : Handler}
    (busy : handler ≠ .idle) : Inv { world with handler := handler } := by
  have apart := inv.apart on
  have noted := inv.noted
  refine ⟨inv.resolves, inv.sem, fun quiet => ?_, inv.down, inv.up, ?_⟩
  · rcases quiet with reading | ⟨down, going⟩
    · exact absurd (apart.1.symm.trans reading) Bool.false_ne_true
    · exact absurd (going.symm.trans (apart.2 down)) Bool.false_ne_true
  · unfold Noted at noted ⊢
    dsimp only at noted ⊢
    cases worker : world.worker with
    | idle => exact fun _ => Or.inr (Or.inl busy)
    | testReset => exact fun _ => Or.inr (Or.inl busy)
    | testLink => exact fun _ => Or.inr (Or.inl busy)
    | readPssr caller =>
        rw [worker] at noted
        exact noted
    | enable caller =>
        rw [worker] at noted
        exact noted
    | _ => trivial

theorem Inv.step (inv : Inv world) {op : Op} (readable : Readable world op) :
    Inv (step world op) := by
  cases op with
  | handler ok => exact inv.handlerStep ok
  | work ok => exact inv.workerStep readable
  | interrupt =>
      dsimp only [Link.step]
      split_ifs with enters
      · exact inv.enter enters.1 Handler.noConfusion
      · exact inv
  | manual =>
      dsimp only [Link.step]
      split_ifs with enters
      · exact inv.enter enters.1 Handler.noConfusion
      · exact inv
  | _ =>
      rcases world with ⟨phy, phyInt, carrierOk, linkSpeed, linkDuplex, mac, isDown, reset,
        linkChange, queued, irqSem, handler, worker⟩
      rcases inv with ⟨resolves, sem, alone, down, up, noted⟩
      dsimp only [Readable] at *
      dsimp only [Link.step, beginDown]
      constructor <;> grind -ring -linarith

theorem Probed.inv (probed : Probed world) (resolves : Resolves world.phy) : Inv world where
  resolves := resolves
  sem := by
    rw [probed.irqSem, probed.isDown, probed.worker]
    rfl
  alone _ := probed.handler
  down _ := probed.isDown
  up resets := by
    rw [probed.worker] at resets
    cases resets
  noted := by
    unfold Noted
    rw [probed.worker]
    exact fun opened => absurd (probed.isDown.symm.trans opened) Bool.true_eq_false.mp

/-- Once the handler and the worker are at rest with nothing queued and the PHY has
nothing to say, the carrier of an interface that is up is what the PHY reports. -/
theorem carrier_settles (probed : Probed world) (resolves : Resolves world.phy) {ops : List Op}
    (readable : link.Along Readable world ops) {reached : World}
    (reaches : link.run world ops = reached) (up : reached.isDown = false)
    (worker : reached.worker = .idle) (handler : reached.handler = .idle)
    (queued : reached.queued = false) (phyInt : reached.phyInt = false) :
    reached.carrierOk = linkUp reached.phy.bmsr := by
  have inv : Inv (link.run world ops) :=
    link.run_invariant Inv Readable (fun _ _ inv readable => inv.step readable)
      (probed.inv resolves) readable
  rw [reaches] at inv
  have noted := inv.noted
  unfold Noted at noted
  rw [worker] at noted
  rcases noted up with (agrees | asks) | busy | ⟨_, waits⟩
  · exact agrees
  · exact absurd (phyInt.symm.trans asks) Bool.false_ne_true
  · exact absurd handler busy
  · exact absurd (queued.symm.trans waits) Bool.false_ne_true

theorem carrier_settles_slower :
    (link.run probed slower).carrierOk = linkUp (link.run probed slower).phy.bmsr :=
  carrier_settles probed_probed (show Resolves gigabit by decide +kernel)
    (show link.Along Readable probed slower by decide +kernel) rfl (by decide +kernel)
    (by decide +kernel) (by decide +kernel) (by decide +kernel) (by decide +kernel)

end Settling

end Link
end Atl1c
end KernelHacking
