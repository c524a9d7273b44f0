import KernelHacking.Foundations.Machine

namespace KernelHacking
namespace Atl1c

/-!
# From probe to remove in the `atl1c` driver

The driver takes what it needs in three rounds: for the card when it is probed,
for the rings when the interface is opened, and the interrupt when it is brought
up.  The interface is taken down and up again when its settings change or when
it is reset, and the driver then ignores whether that succeeds.

The kernel does not forgive a release of what is not held.  Freeing an interrupt
that was not requested is reported, disabling a poll that is not enabled waits
for ever, and removing a card without a network device follows a null pointer.
-/

namespace Lifecycle

/-! ## What is held -/

/-- What the driver holds for a card.  `isBound` and `isRunning` are kept by the
kernel, `haveMsi`, `irqSem` and `isDown` are fields of the adapter, and
`unmasked` says that the card may interrupt.  A caller that is `stuck` holds a
lock that all others need. -/
structure Card where
  isBound : Bool
  enabled : Bool
  regions : Bool
  netdev : Bool
  mapped : Bool
  registered : Bool
  isRunning : Bool
  rings : Bool
  irq : Bool
  msi : Bool
  haveMsi : Bool
  napi : Bool
  unmasked : Bool
  irqSem : Int
  isDown : Bool
  mtu : Int
  stuck : Bool
deriving DecidableEq, Repr

/-- A card that no driver has been bound to. -/
def Card.absent : Card where
  isBound := false
  enabled := false
  regions := false
  netdev := false
  mapped := false
  registered := false
  isRunning := false
  rings := false
  irq := false
  msi := false
  haveMsi := false
  napi := false
  unmasked := false
  irqSem := 0
  isDown := false
  mtu := 0
  stuck := false

inductive Fault
  | irqNotRequested
  | irqRequestedTwice
  | irqNotDisabled
  | msiNotEnabled
  | napiNotEnabled
  | napiEnabledTwice
  | ringsLost
  | ringsMissing
  | nullNetdev
deriving DecidableEq, Repr

/-- A result with the faults on the way to it. -/
abbrev Faulty (α : Type) := α × List Fault

/-- A caller that is stuck does not go on. -/
def Faulty.andThen (result : Faulty Card) (next : Card → Faulty Card) : Faulty Card :=
  if result.1.stuck then result
  else
    let later := next result.1
    (later.1, result.2 ++ later.2)

theorem Faulty.andThen_ne_nil {result : Faulty Card} (faulty : result.2 ≠ [])
    (next : Card → Faulty Card) : (result.andThen next).2 ≠ [] := by
  unfold Faulty.andThen
  split
  · exact faulty
  · exact fun none => faulty (List.append_eq_nil_iff.mp none).1

/-! ## Probing and removing -/

/-- How the calls in `atl1c_probe` end; those whose error is passed on return it. -/
structure Probing where
  enableDevice : Int
  dmaMask : Bool
  requestRegions : Int
  allocEtherdev : Bool
  ioremap : Bool
  swInit : Int
  resetMac : Bool
  phyInit : Bool
  registerNetdev : Int
deriving DecidableEq, Repr

/-- All calls succeed. -/
def Probing.ok (calls : Probing) : Bool :=
  decide (calls.enableDevice = 0) && calls.dmaMask && decide (calls.requestRegions = 0) &&
    calls.allocEtherdev && calls.ioremap && decide (calls.swInit = 0) && calls.resetMac &&
    calls.phyInit && decide (calls.registerNetdev = 0)

/-- How the calls in `atl1c_up` end. -/
structure Answers where
  configure : Bool
  enableMsi : Bool
  requestIrq : Bool
deriving DecidableEq, Repr

def Answers.ok (answers : Answers) : Bool := answers.configure && answers.requestIrq

def enomem : Int := 12
def eio : Int := 5

def ethDataLen : Int := 1500
def ethHlen : Int := 14
def vlanHlen : Int := 4
def ethFcsLen : Int := 4
def ethZlen : Int := 60
def maxJumboFrameSize : Int := 6 * 1024

namespace Card

/-- From label `err_dma` on. -/
def errDma (card : Card) (err : Int) : Int × Card := (err, { card with enabled := false })

def errAllocEtherdev (card : Card) (err : Int) : Int × Card :=
  { card with regions := false }.errDma err

def errIoremap (card : Card) (err : Int) : Int × Card :=
  { card with netdev := false }.errAllocEtherdev err

def errSwInit (card : Card) (err : Int) : Int × Card :=
  { card with mapped := false }.errIoremap err

/-- `atl1c_probe`. -/
def probe (card : Card) (calls : Probing) : Int × Card :=
  if calls.enableDevice ≠ 0 then (calls.enableDevice, card)
  else
    let card := { card with enabled := true }
    -- `err` is still zero from the call before
    if calls.dmaMask = false then card.errDma calls.enableDevice
    else if calls.requestRegions ≠ 0 then card.errDma calls.requestRegions
    else
      let card := { card with regions := true }
      if calls.allocEtherdev = false then card.errAllocEtherdev (-enomem)
      else
        let card := { card with
          netdev := true, isRunning := false, rings := false, irq := false, msi := false,
          haveMsi := false, napi := false, unmasked := false, irqSem := 0, isDown := false,
          mtu := ethDataLen }
        if calls.ioremap = false then card.errIoremap (-eio)
        else
          let card := { card with mapped := true }
          if calls.swInit ≠ 0 then card.errSwInit calls.swInit
          else
            let card := { card with irqSem := 1, isDown := true }
            if calls.resetMac = false then card.errSwInit (-eio)
            else if calls.phyInit = false then card.errSwInit (-eio)
            else if calls.registerNetdev ≠ 0 then card.errSwInit calls.registerNetdev
            else (0, { card with registered := true })

/-- The kernel binds the driver when its probe returns zero. -/
def bind (card : Card) (calls : Probing) : Card :=
  let probed := card.probe calls
  { probed.2 with isBound := probed.1 = 0 }

/-! ## Up and down -/

/-- `atl1c_irq_enable`, which takes back one `atl1c_irq_disable`. -/
def irqEnable (card : Card) : Faulty Card :=
  let irqSem := card.irqSem - 1
  ({ card with irqSem := irqSem, unmasked := if irqSem = 0 then true else card.unmasked },
    if card.irqSem ≤ 0 then [.irqNotDisabled] else [])

/-- `atl1c_irq_disable`. -/
def irqDisable (card : Card) : Card :=
  { card with irqSem := card.irqSem + 1, unmasked := false }

/-- `atl1c_free_irq`. -/
def freeIrq (card : Card) : Faulty Card :=
  ({ card with irq := false, msi := if card.haveMsi then false else card.msi },
    (if card.irq then [] else [.irqNotRequested]) ++
      if card.haveMsi = true ∧ card.msi = false then [.msiNotEnabled] else [])

/-- `atl1c_request_irq`, with whether it succeeds. -/
def requestIrq (card : Card) (answers : Answers) : Faulty (Bool × Card) :=
  let twice := if card.irq then [.irqRequestedTwice] else []
  let card := { card with haveMsi := answers.enableMsi, msi := card.msi || answers.enableMsi }
  if answers.requestIrq then ((true, { card with irq := true }), twice)
  else ((false, if answers.enableMsi then { card with msi := false } else card), twice)

/-- `atl1c_up`, with whether it succeeds. -/
def up (card : Card) (answers : Answers) : Faulty (Bool × Card) :=
  if answers.configure = false then ((false, card), [])
  else
    let requested := card.requestIrq answers
    if requested.1.1 = false then requested
    else
      let card := { requested.1.2 with isDown := false }
      let enabled := { card with napi := true }.irqEnable
      ((true, enabled.1),
        requested.2 ++ (if card.napi then [.napiEnabledTwice] else []) ++ enabled.2)

/-- `atl1c_down`.  `napi_disable` waits for a poll that is enabled. -/
def down (card : Card) : Faulty Card :=
  let card := { card with isDown := true }
  if card.napi = false then ({ card with stuck := true }, [.napiNotEnabled])
  else { card with napi := false }.irqDisable.freeIrq

/-- `atl1c_reinit_locked`, and the same two calls elsewhere. -/
def reinit (card : Card) (answers : Answers) : Faulty Card :=
  card.down.andThen fun card =>
    let upped := card.up answers
    (upped.1.2, upped.2)

/-- `atl1c_open`; `setup` says whether the rings could be allocated. -/
def openRun (card : Card) (setup : Bool) (answers : Answers) : Faulty Card :=
  if setup = false then (card, [])
  else
    let lost := if card.rings then [.ringsLost] else []
    let upped := { card with rings := true }.up answers
    if upped.1.1 then ({ upped.1.2 with isRunning := true }, lost ++ upped.2)
    else
      let freed := upped.1.2.freeIrq
      ({ freed.1 with rings := false }, lost ++ upped.2 ++ freed.2)

/-- `atl1c_close`. -/
def close (card : Card) : Faulty Card :=
  card.down.andThen fun card =>
    ({ card with rings := false, isRunning := false },
      if card.rings then [] else [.ringsMissing])

/-- The MTU that `atl1c_change_mtu` accepts, by whether the card is a Fast
Ethernet one. -/
def mtuAccepted (isFast : Bool) (mtu : Int) : Bool :=
  !(isFast && decide (ethDataLen < mtu) ||
    decide (mtu + ethHlen + ethFcsLen + vlanHlen < ethZlen + ethFcsLen) ||
    decide (maxJumboFrameSize < mtu + ethHlen + ethFcsLen + vlanHlen))

/-- `atl1c_change_mtu`, for an MTU that it accepts. -/
def changeMtu (card : Card) (mtu : Int) (answers : Answers) : Faulty Card :=
  if card.mtu ≠ mtu ∧ card.isRunning = true then { card with mtu := mtu }.reinit answers
  else (card, [])

/-- `atl1c_common_task`, with the events that are set.  Taking the interface down
clears the other event. -/
def commonTask (card : Card) (reset linkChange : Bool) (answers : Answers) : Faulty Card :=
  if card.isDown then (card, [])
  else if reset then card.reinit answers
  else if linkChange then card.irqDisable.irqEnable
  else (card, [])

/-- `atl1c_remove`.  The kernel closes the interface when it is unregistered. -/
def remove (card : Card) : Faulty Card :=
  if card.netdev = false then ({ card with stuck := true }, [.nullNetdev])
  else
    let closed := if card.isRunning then card.close else (card, [])
    closed.andThen fun card =>
      ({ card with
          registered := false, mapped := false, regions := false, enabled := false,
          netdev := false, isBound := false }, [])

end Card

/-! ## Histories of a card -/

inductive Op
  | probe (calls : Probing)
  | remove
  | openRun (setup : Bool) (answers : Answers)
  | close
  | reinit (answers : Answers)
  | changeMtu (isFast : Bool) (mtu : Int) (answers : Answers)
  | commonTask (reset linkChange : Bool) (answers : Answers)
deriving DecidableEq, Repr

/-- An operation that the kernel does not ask for in this state changes nothing. -/
def step (card : Card) (op : Op) : Faulty Card :=
  if card.stuck then (card, [])
  else
    match op with
    | .probe calls => if card.isBound then (card, []) else (card.bind calls, [])
    | .remove => if card.isBound then card.remove else (card, [])
    | .openRun setup answers =>
        if card.registered = true ∧ card.isRunning = false then card.openRun setup answers
        else (card, [])
    | .close => if card.isRunning then card.close else (card, [])
    | .reinit answers => if card.isRunning then card.reinit answers else (card, [])
    | .changeMtu isFast mtu answers =>
        if card.registered = true ∧ Card.mtuAccepted isFast mtu = true then
          card.changeMtu mtu answers
        else (card, [])
    | .commonTask reset linkChange answers =>
        if card.registered then card.commonTask reset linkChange answers else (card, [])

def lifecycle : Machine Card Op (List Fault) where
  step := step

/-! ## What is held between two operations -/

/-- The interface is down, or has never been up. -/
structure Lowered (card : Card) : Prop where
  napi : card.napi = false
  irq : card.irq = false
  msi : card.msi = false
  unmasked : card.unmasked = false
  irqSem : card.irqSem = 1
  isDown : card.isDown = true

/-- The interface is up, and the card may interrupt. -/
structure Raised (card : Card) : Prop where
  napi : card.napi = true
  irq : card.irq = true
  msi : card.msi = card.haveMsi
  unmasked : card.unmasked = true
  irqSem : card.irqSem = 0
  isDown : card.isDown = false

/-- What is held fits together. -/
structure Sound (card : Card) : Prop where
  stuck : card.stuck = false
  bound : card.registered = true → card.isBound = true
  enabled : card.enabled = card.registered
  regions : card.regions = card.registered
  netdev : card.netdev = card.registered
  mapped : card.mapped = card.registered
  running : card.isRunning = true → card.registered = true
  rings : card.rings = card.isRunning
  phase : card.registered = true → (card.isRunning = true ∧ Raised card) ∨ Lowered card
  off : card.registered = false →
    card.napi = false ∧ card.irq = false ∧ card.msi = false ∧ card.unmasked = false

/-- The driver holds nothing. -/
structure Bare (card : Card) : Prop where
  enabled : card.enabled = false
  regions : card.regions = false
  netdev : card.netdev = false
  mapped : card.mapped = false
  registered : card.registered = false
  isRunning : card.isRunning = false
  rings : card.rings = false
  napi : card.napi = false
  irq : card.irq = false
  msi : card.msi = false
  unmasked : card.unmasked = false
  stuck : card.stuck = false

/-- The interface is taken down only when it is up, an open that has its rings
succeeds, and a card that is removed has its network device. -/
def Orderly (card : Card) : Op → Prop
  | .openRun setup answers =>
      card.registered = true → card.isRunning = false → setup = true → answers.ok = true
  | .close => card.isRunning = true → card.isDown = false
  | .reinit _ => card.isRunning = true → card.isDown = false
  | .changeMtu isFast mtu _ =>
      Card.mtuAccepted isFast mtu = true → card.mtu ≠ mtu → card.isRunning = true →
        card.isDown = false
  | .remove =>
      card.isBound = true → card.netdev = true ∧ (card.isRunning = true → card.isDown = false)
  | _ => True

namespace Card

/-- The card after `atl1c_down`. -/
def lowered (card : Card) : Card :=
  { card with
    napi := false, irq := false, msi := false, unmasked := false, irqSem := 1, isDown := true }

/-- The card after `atl1c_up` has succeeded. -/
def raised (card : Card) (answers : Answers) : Card :=
  { card with
    napi := true, irq := true, msi := answers.enableMsi, haveMsi := answers.enableMsi,
    unmasked := true, irqSem := 0, isDown := false }

end Card

section Steps

variable {card : Card}

theorem lowered_lowered (card : Card) : Lowered card.lowered := ⟨rfl, rfl, rfl, rfl, rfl, rfl⟩

theorem raised_raised (card : Card) (answers : Answers) : Raised (card.raised answers) :=
  ⟨rfl, rfl, rfl, rfl, rfl, rfl⟩

theorem Raised.down (raised : Raised card) : card.down = (card.lowered, []) := by
  rcases card with ⟨isBound, enabled, regions, netdev, mapped, registered, isRunning, rings, irq,
    msi, haveMsi, napi, unmasked, irqSem, isDown, mtu, stuck⟩
  rcases raised with ⟨napi, irq, msi, unmasked, irqSem, isDown⟩
  dsimp only at *
  subst napi irq msi unmasked irqSem isDown
  cases msi <;> rfl

/-- A poll that is not enabled is waited for without end. -/
theorem Lowered.down (lowered : Lowered card) :
    card.down = ({ card with isDown := true, stuck := true }, [.napiNotEnabled]) := by
  rw [Card.down, if_pos lowered.napi]

theorem Lowered.up_ok (lowered : Lowered card) {answers : Answers} (ok : answers.ok = true) :
    card.up answers = ((true, card.raised answers), []) := by
  rcases card with ⟨isBound, enabled, regions, netdev, mapped, registered, isRunning, rings, irq,
    msi, haveMsi, napi, unmasked, irqSem, isDown, mtu, stuck⟩
  rcases lowered with ⟨napi, irq, msi, unmasked, irqSem, isDown⟩
  rcases answers with ⟨configure, enableMsi, requestIrq⟩
  dsimp only at *
  subst napi irq msi unmasked irqSem isDown
  rcases Bool.and_eq_true_iff.mp ok with ⟨configured, requested⟩
  dsimp only at configured requested
  subst configured requested
  rfl

/-- An up that fails leaves at most the note of whether the interrupt was a
message. -/
theorem Lowered.up_failed (lowered : Lowered card) {answers : Answers} (failed : answers.ok = false) :
    ∃ haveMsi, card.up answers = ((false, { card with haveMsi := haveMsi }), []) := by
  rcases card with ⟨isBound, enabled, regions, netdev, mapped, registered, isRunning, rings, irq,
    msi, haveMsi, napi, unmasked, irqSem, isDown, mtu, stuck⟩
  rcases lowered with ⟨napi, irq, msi, unmasked, irqSem, isDown⟩
  rcases answers with ⟨configure, enableMsi, requestIrq⟩
  dsimp only at *
  subst napi irq msi unmasked irqSem isDown
  cases configure with
  | false => exact ⟨haveMsi, rfl⟩
  | true =>
      have refused : requestIrq = false := failed
      subst refused
      cases enableMsi with
      | false => exact ⟨false, rfl⟩
      | true => exact ⟨true, rfl⟩

theorem Lowered.withHaveMsi (lowered : Lowered card) (haveMsi : Bool) :
    Lowered { card with haveMsi := haveMsi } :=
  ⟨lowered.napi, lowered.irq, lowered.msi, lowered.unmasked, lowered.irqSem, lowered.isDown⟩

/-- A step of this result has no fault exactly under this condition, and then
what is held fits together. -/
structure Keeps (good : Prop) (result : Faulty Card) : Prop where
  faultless : result.2 = [] ↔ good
  sound : good → Sound result.1

theorem Keeps.same (sound : Sound card) {good : Prop} (holds : good) : Keeps good (card, []) :=
  ⟨iff_of_true rfl holds, fun _ => sound⟩

theorem Keeps.of_fault {good : Prop} {result : Faulty Card} (fault : result.2 ≠ [])
    (bad : ¬ good) : Keeps good result :=
  ⟨iff_of_false fault bad, fun good => absurd good bad⟩

theorem Sound.raised (sound : Sound card) (running : card.isRunning = true) (answers : Answers) :
    Sound (card.raised answers) where
  stuck := sound.stuck
  bound := sound.bound
  enabled := sound.enabled
  regions := sound.regions
  netdev := sound.netdev
  mapped := sound.mapped
  running := sound.running
  rings := sound.rings
  phase _ := Or.inl ⟨running, raised_raised card answers⟩
  off unregistered := by
    change card.registered = false at unregistered
    exact absurd (sound.running running) (by rw [unregistered]; decide)

theorem Sound.lowered (sound : Sound card) : Sound card.lowered where
  stuck := sound.stuck
  bound := sound.bound
  enabled := sound.enabled
  regions := sound.regions
  netdev := sound.netdev
  mapped := sound.mapped
  running := sound.running
  rings := sound.rings
  phase _ := Or.inr (lowered_lowered card)
  off _ := ⟨rfl, rfl, rfl, rfl⟩

theorem Sound.withHaveMsi (sound : Sound card) (lowered : Lowered card) (haveMsi : Bool) :
    Sound { card with haveMsi := haveMsi } where
  stuck := sound.stuck
  bound := sound.bound
  enabled := sound.enabled
  regions := sound.regions
  netdev := sound.netdev
  mapped := sound.mapped
  running := sound.running
  rings := sound.rings
  phase _ := Or.inr (lowered.withHaveMsi haveMsi)
  off := sound.off

theorem keeps_reinit (sound : Sound card) (running : card.isRunning = true) (answers : Answers) :
    Keeps (card.isDown = false) (card.reinit answers) := by
  rcases sound.phase (sound.running running) with ⟨_, raised⟩ | lowered
  · have still : ¬ card.lowered.stuck = true := by
      change ¬ card.stuck = true
      rw [sound.stuck]
      decide
    rw [Card.reinit, raised.down, Faulty.andThen, if_neg still]
    cases ok : answers.ok with
    | true =>
        rw [(lowered_lowered card).up_ok ok]
        exact ⟨iff_of_true rfl raised.isDown, fun _ => sound.lowered.raised running answers⟩
    | false =>
        rcases (lowered_lowered card).up_failed ok with ⟨haveMsi, failed⟩
        rw [failed]
        exact ⟨iff_of_true rfl raised.isDown, fun _ =>
          sound.lowered.withHaveMsi (lowered_lowered card) haveMsi⟩
  · rw [Card.reinit, lowered.down, Faulty.andThen, if_pos rfl]
    exact Keeps.of_fault (List.cons_ne_nil _ _) (by rw [lowered.isDown]; decide)

/-- The card of a closed interface. -/
theorem keeps_close (sound : Sound card) (running : card.isRunning = true) :
    Keeps (card.isDown = false) card.close ∧
      (card.isDown = false → card.close.1 =
        { card.lowered with rings := false, isRunning := false }) := by
  rcases sound.phase (sound.running running) with ⟨_, raised⟩ | lowered
  · have still : ¬ card.lowered.stuck = true := by
      change ¬ card.stuck = true
      rw [sound.stuck]
      decide
    have rings : card.lowered.rings = true := sound.rings.trans running
    rw [Card.close, raised.down, Faulty.andThen, if_neg still]
    dsimp only
    rw [if_pos rings]
    refine ⟨⟨iff_of_true rfl raised.isDown, fun _ => ?_⟩, fun _ => rfl⟩
    exact {
      stuck := sound.stuck
      bound := sound.bound
      enabled := sound.enabled
      regions := sound.regions
      netdev := sound.netdev
      mapped := sound.mapped
      running := fun running => absurd running Bool.false_ne_true
      rings := rfl
      phase := fun _ => Or.inr ⟨rfl, rfl, rfl, rfl, rfl, rfl⟩
      off := fun _ => ⟨rfl, rfl, rfl, rfl⟩ }
  · have down : ¬ card.isDown = false := by rw [lowered.isDown]; decide
    rw [Card.close, lowered.down, Faulty.andThen, if_pos rfl]
    exact ⟨Keeps.of_fault (List.cons_ne_nil _ _) down, fun up => absurd up down⟩

theorem keeps_openRun (sound : Sound card) (registered : card.registered = true)
    (idle : card.isRunning = false) (setup : Bool) (answers : Answers) :
    Keeps (setup = true → answers.ok = true) (card.openRun setup answers) := by
  have lowered : Lowered card := by
    rcases sound.phase registered with ⟨running, _⟩ | lowered
    · rw [idle] at running
      cases running
    · exact lowered
  have withRings : Lowered { card with rings := true } :=
    ⟨lowered.napi, lowered.irq, lowered.msi, lowered.unmasked, lowered.irqSem, lowered.isDown⟩
  have none : ¬ card.rings = true := by
    rw [sound.rings, idle]
    decide
  cases setup with
  | false =>
      rw [Card.openRun, if_pos rfl]
      exact Keeps.same sound fun absent => absurd absent Bool.false_ne_true
  | true =>
      rw [Card.openRun, if_neg (Ne.symm Bool.false_ne_true), if_neg none]
      cases ok : answers.ok with
      | true =>
          rw [withRings.up_ok ok]
          refine ⟨iff_of_true rfl fun _ => rfl, fun _ => ?_⟩
          exact {
            stuck := sound.stuck
            bound := sound.bound
            enabled := sound.enabled
            regions := sound.regions
            netdev := sound.netdev
            mapped := sound.mapped
            running := fun _ => registered
            rings := rfl
            phase := fun _ => Or.inl ⟨rfl, rfl, rfl, rfl, rfl, rfl, rfl⟩
            off := fun unregistered => by
              change card.registered = false at unregistered
              exact absurd registered (by rw [unregistered]; decide) }
      | false =>
          rcases withRings.up_failed ok with ⟨haveMsi, failed⟩
          rw [failed]
          refine Keeps.of_fault ?_ fun good => absurd (good rfl) Bool.false_ne_true
          have free : card.irq = false := lowered.irq
          simp [Card.freeIrq, free]

theorem Sound.withMtu (sound : Sound card) (mtu : Int) : Sound { card with mtu := mtu } :=
  ⟨sound.stuck, sound.bound, sound.enabled, sound.regions, sound.netdev, sound.mapped,
    sound.running, sound.rings, fun registered => by
      rcases sound.phase registered with ⟨running, raised⟩ | lowered
      · exact Or.inl ⟨running, raised.napi, raised.irq, raised.msi, raised.unmasked,
          raised.irqSem, raised.isDown⟩
      · exact Or.inr ⟨lowered.napi, lowered.irq, lowered.msi, lowered.unmasked,
          lowered.irqSem, lowered.isDown⟩, sound.off⟩

theorem keeps_changeMtu (sound : Sound card) (mtu : Int) (answers : Answers) :
    Keeps (card.mtu ≠ mtu → card.isRunning = true → card.isDown = false)
      (card.changeMtu mtu answers) := by
  unfold Card.changeMtu
  split
  · next both =>
      have kept := keeps_reinit (sound.withMtu mtu) both.2 answers
      exact ⟨kept.faultless.trans ⟨fun up _ _ => up, fun good => good both.1 both.2⟩,
        fun good => kept.sound (good both.1 both.2)⟩
  · next neither =>
      exact Keeps.same sound fun differs running => absurd ⟨differs, running⟩ neither

theorem keeps_commonTask (sound : Sound card) (registered : card.registered = true)
    (reset linkChange : Bool) (answers : Answers) :
    Keeps True (card.commonTask reset linkChange answers) := by
  unfold Card.commonTask
  rcases sound.phase registered with ⟨running, raised⟩ | lowered
  · rw [raised.isDown, if_neg Bool.false_ne_true]
    cases reset with
    | true =>
        have kept := keeps_reinit sound running answers
        exact ⟨iff_of_true (kept.faultless.mpr raised.isDown) trivial,
          fun _ => kept.sound raised.isDown⟩
    | false =>
        cases linkChange with
        | false => exact Keeps.same sound trivial
        | true =>
            have disabled : ¬ card.irqSem + 1 ≤ 0 := by rw [raised.irqSem]; decide
            refine ⟨iff_of_true (if_neg disabled) trivial, fun _ => ?_⟩
            have level : card.irqSem + 1 - 1 = 0 := by rw [raised.irqSem]; rfl
            have again : Raised card.irqDisable.irqEnable.1 :=
              ⟨raised.napi, raised.irq, raised.msi, if_pos level, level, raised.isDown⟩
            exact ⟨sound.stuck, sound.bound, sound.enabled, sound.regions, sound.netdev,
              sound.mapped, sound.running, sound.rings, fun _ => Or.inl ⟨running, again⟩,
              fun unregistered => absurd registered (by
                change card.registered = false at unregistered
                rw [unregistered]
                decide)⟩
  · rw [lowered.isDown, if_pos rfl]
    exact Keeps.same sound trivial

theorem Sound.bare (sound : Sound card) (unregistered : card.registered = false) : Bare card := by
  have idle : card.isRunning = false := by
    by_contra running
    have registered := sound.running (Bool.not_eq_false _ ▸ running)
    rw [unregistered] at registered
    cases registered
  rcases sound.off unregistered with ⟨napi, irq, msi, unmasked⟩
  exact {
    enabled := sound.enabled.trans unregistered
    regions := sound.regions.trans unregistered
    netdev := sound.netdev.trans unregistered
    mapped := sound.mapped.trans unregistered
    registered := unregistered
    isRunning := idle
    rings := sound.rings.trans idle
    napi := napi
    irq := irq
    msi := msi
    unmasked := unmasked
    stuck := sound.stuck }

theorem Bare.sound (bare : Bare card) : Sound card where
  stuck := bare.stuck
  bound registered := absurd registered (by rw [bare.registered]; decide)
  enabled := bare.enabled.trans bare.registered.symm
  regions := bare.regions.trans bare.registered.symm
  netdev := bare.netdev.trans bare.registered.symm
  mapped := bare.mapped.trans bare.registered.symm
  running running := absurd running (by rw [bare.isRunning]; decide)
  rings := bare.rings.trans bare.isRunning.symm
  phase registered := absurd registered (by rw [bare.registered]; decide)
  off _ := ⟨bare.napi, bare.irq, bare.msi, bare.unmasked⟩

theorem Bare.withBound (bare : Bare card) (isBound : Bool) :
    Bare { card with isBound := isBound } :=
  ⟨bare.enabled, bare.regions, bare.netdev, bare.mapped, bare.registered, bare.isRunning,
    bare.rings, bare.napi, bare.irq, bare.msi, bare.unmasked, bare.stuck⟩

/-- A probe that fails gives everything back, and one that succeeds has all of it
and registers the network device.  The probe of a card without a DMA mask fails
and returns zero all the same. -/
theorem Bare.probe (bare : Bare card) (calls : Probing) :
    (Bare (card.probe calls).2 ∧
      ((card.probe calls).1 = 0 ↔ calls.enableDevice = 0 ∧ calls.dmaMask = false) ∧
      calls.ok = false) ∨
    ((card.probe calls).1 = 0 ∧ calls.ok = true ∧
      Sound { (card.probe calls).2 with isBound := true } ∧
      (card.probe calls).2.registered = true ∧ (card.probe calls).2.isRunning = false ∧
      (card.probe calls).2.mtu = ethDataLen) := by
  have noMemory : ¬ -enomem = 0 := by decide
  have noIo : ¬ -eio = 0 := by decide
  unfold Card.probe
  dsimp only
  by_cases enabled : calls.enableDevice = 0
  · rw [if_neg (not_not_intro enabled)]
    by_cases unmasked : calls.dmaMask = false
    · rw [if_pos unmasked]
      exact Or.inl ⟨⟨rfl, bare.regions, bare.netdev, bare.mapped, bare.registered, bare.isRunning,
        bare.rings, bare.napi, bare.irq, bare.msi, bare.unmasked, bare.stuck⟩,
        iff_of_true enabled ⟨enabled, unmasked⟩, by simp [Probing.ok, unmasked]⟩
    have masked : ¬ (calls.enableDevice = 0 ∧ calls.dmaMask = false) := fun both => unmasked both.2
    rw [if_neg unmasked]
    by_cases refused : calls.requestRegions ≠ 0
    · rw [if_pos refused]
      exact Or.inl ⟨⟨rfl, bare.regions, bare.netdev, bare.mapped, bare.registered, bare.isRunning,
        bare.rings, bare.napi, bare.irq, bare.msi, bare.unmasked, bare.stuck⟩,
        iff_of_false refused masked, by simp [Probing.ok, refused]⟩
    rw [if_neg refused]
    by_cases unallocated : calls.allocEtherdev = false
    · rw [if_pos unallocated]
      exact Or.inl ⟨⟨rfl, rfl, bare.netdev, bare.mapped, bare.registered, bare.isRunning,
        bare.rings, bare.napi, bare.irq, bare.msi, bare.unmasked, bare.stuck⟩,
        iff_of_false noMemory masked, by simp [Probing.ok, unallocated]⟩
    rw [if_neg unallocated]
    by_cases unmapped : calls.ioremap = false
    · rw [if_pos unmapped]
      exact Or.inl ⟨⟨rfl, rfl, rfl, bare.mapped, bare.registered, rfl, rfl, rfl, rfl, rfl, rfl,
        bare.stuck⟩, iff_of_false noIo masked, by simp [Probing.ok, unmapped]⟩
    rw [if_neg unmapped]
    by_cases uninit : calls.swInit ≠ 0
    · rw [if_pos uninit]
      exact Or.inl ⟨⟨rfl, rfl, rfl, rfl, bare.registered, rfl, rfl, rfl, rfl, rfl, rfl,
        bare.stuck⟩, iff_of_false uninit masked, by simp [Probing.ok, uninit]⟩
    rw [if_neg uninit]
    by_cases unreset : calls.resetMac = false
    · rw [if_pos unreset]
      exact Or.inl ⟨⟨rfl, rfl, rfl, rfl, bare.registered, rfl, rfl, rfl, rfl, rfl, rfl,
        bare.stuck⟩, iff_of_false noIo masked, by simp [Probing.ok, unreset]⟩
    rw [if_neg unreset]
    by_cases phyless : calls.phyInit = false
    · rw [if_pos phyless]
      exact Or.inl ⟨⟨rfl, rfl, rfl, rfl, bare.registered, rfl, rfl, rfl, rfl, rfl, rfl,
        bare.stuck⟩, iff_of_false noIo masked, by simp [Probing.ok, phyless]⟩
    rw [if_neg phyless]
    by_cases unregistered : calls.registerNetdev ≠ 0
    · rw [if_pos unregistered]
      exact Or.inl ⟨⟨rfl, rfl, rfl, rfl, bare.registered, rfl, rfl, rfl, rfl, rfl, rfl,
        bare.stuck⟩, iff_of_false unregistered masked, by simp [Probing.ok, unregistered]⟩
    rw [if_neg unregistered]
    have ok : calls.ok = true := by simp_all [Probing.ok]
    refine Or.inr ⟨rfl, ok, ?_, rfl, rfl, rfl⟩
    exact {
      stuck := bare.stuck
      bound := fun _ => rfl
      enabled := rfl
      regions := rfl
      netdev := rfl
      mapped := rfl
      running := fun running => absurd running Bool.false_ne_true
      rings := rfl
      phase := fun _ => Or.inr ⟨rfl, rfl, rfl, rfl, rfl, rfl⟩
      off := fun unregistered => absurd unregistered.symm Bool.false_ne_true }
  · rw [if_pos enabled]
    exact Or.inl ⟨bare, iff_of_false enabled fun both => enabled both.1, by
      simp [Probing.ok, enabled]⟩

/-- A probe leaves nothing behind unless it has registered the card. -/
theorem sound_bind (sound : Sound card) (unbound : card.isBound = false) (calls : Probing) :
    Sound (card.bind calls) := by
  have unregistered : card.registered = false := by
    by_contra registered
    have bound := sound.bound (Bool.not_eq_false _ ▸ registered)
    rw [unbound] at bound
    cases bound
  have bare := sound.bare unregistered
  rcases bare.probe calls with ⟨nothing, _, _⟩ | ⟨zero, _, all, _⟩
  · exact (nothing.withBound _).sound
  · have bound : decide ((card.probe calls).1 = 0) = true := decide_eq_true zero
    rw [Card.bind, bound]
    exact all

theorem keeps_remove (sound : Sound card) :
    Keeps (card.netdev = true ∧ (card.isRunning = true → card.isDown = false)) card.remove := by
  unfold Card.remove
  split
  · next none =>
      exact Keeps.of_fault (List.cons_ne_nil _ _) fun both => by
        rw [none] at both
        exact Bool.false_ne_true both.1
  · next some =>
      have netdev : card.netdev = true := Bool.not_eq_false _ ▸ some
      cases running : card.isRunning with
      | false =>
          have still : ¬ card.stuck = true := by
            rw [sound.stuck]
            decide
          have off : card.napi = false ∧ card.irq = false ∧ card.msi = false ∧
              card.unmasked = false := by
            rcases sound.phase (sound.netdev.symm.trans netdev) with ⟨busy, _⟩ | lowered
            · rw [running] at busy
              cases busy
            · exact ⟨lowered.napi, lowered.irq, lowered.msi, lowered.unmasked⟩
          rw [if_neg Bool.false_ne_true, Faulty.andThen, if_neg still]
          refine ⟨iff_of_true rfl ⟨netdev, fun busy => absurd busy Bool.false_ne_true⟩, fun _ => ?_⟩
          exact Bare.sound ⟨rfl, rfl, rfl, rfl, rfl, running, sound.rings.trans running, off.1,
            off.2.1, off.2.2.1, off.2.2.2, sound.stuck⟩
      | true =>
          rcases keeps_close sound running with ⟨closes, closed⟩
          rw [if_pos rfl]
          by_cases up : card.isDown = false
          · have result : card.close = ({ card.lowered with rings := false, isRunning := false }, []) :=
              Prod.ext (closed up) (closes.faultless.mpr up)
            have still : ¬ card.lowered.stuck = true := by
              change ¬ card.stuck = true
              rw [sound.stuck]
              decide
            rw [result, Faulty.andThen, if_neg still]
            exact ⟨iff_of_true rfl ⟨netdev, fun _ => up⟩, fun _ =>
              Bare.sound ⟨rfl, rfl, rfl, rfl, rfl, rfl, rfl, rfl, rfl, rfl, rfl, sound.stuck⟩⟩
          · refine Keeps.of_fault ?_ fun both => up (both.2 rfl)
            have faulty : card.close.2 ≠ [] := fun none => up (closes.faultless.mp none)
            exact Faulty.andThen_ne_nil faulty _

theorem keeps_step (sound : Sound card) (op : Op) : Keeps (Orderly card op) (step card op) := by
  have still : ¬ card.stuck = true := by
    rw [sound.stuck]
    decide
  unfold step
  rw [if_neg still]
  cases op with
  | probe calls =>
      dsimp only
      split
      · exact Keeps.same sound trivial
      · next unbound =>
          exact ⟨iff_of_true rfl trivial, fun _ =>
            sound_bind sound (Bool.not_eq_true _ ▸ unbound) calls⟩
  | remove =>
      dsimp only
      split
      · next bound =>
          have kept := keeps_remove sound
          exact ⟨kept.faultless.trans ⟨fun good _ => good, fun good => good bound⟩,
            fun good => kept.sound (good bound)⟩
      · next unbound => exact Keeps.same sound fun bound => absurd bound unbound
  | openRun setup answers =>
      dsimp only
      split
      · next ready =>
          have kept := keeps_openRun sound ready.1 ready.2 setup answers
          exact ⟨kept.faultless.trans ⟨fun good _ _ => good, fun good => good ready.1 ready.2⟩,
            fun good => kept.sound (good ready.1 ready.2)⟩
      · next busy => exact Keeps.same sound fun registered idle => absurd ⟨registered, idle⟩ busy
  | close =>
      dsimp only
      split
      · next running =>
          have kept := (keeps_close sound running).1
          exact ⟨kept.faultless.trans ⟨fun up _ => up, fun good => good running⟩,
            fun good => kept.sound (good running)⟩
      · next idle => exact Keeps.same sound fun running => absurd running idle
  | reinit answers =>
      dsimp only
      split
      · next running =>
          have kept := keeps_reinit sound running answers
          exact ⟨kept.faultless.trans ⟨fun up _ => up, fun good => good running⟩,
            fun good => kept.sound (good running)⟩
      · next idle => exact Keeps.same sound fun running => absurd running idle
  | changeMtu isFast mtu answers =>
      dsimp only
      split
      · next ready =>
          have kept := keeps_changeMtu sound mtu answers
          exact ⟨kept.faultless.trans ⟨fun good _ => good, fun good => good ready.2⟩,
            fun good => kept.sound (good ready.2)⟩
      · next refused =>
          refine Keeps.same sound fun accepted _ running => ?_
          exact absurd ⟨sound.running running, accepted⟩ refused
  | commonTask reset linkChange answers =>
      dsimp only
      split
      · next registered => exact keeps_commonTask sound registered reset linkChange answers
      · exact Keeps.same sound trivial

end Steps

/-! ## The order of the requests -/

/-- What the requests, and how they ended, have made of a card.  It is `kept` when its
probe has failed and returned zero, and `stranded` when its interface is open and could
not be brought up again. -/
inductive Phase
  | unbound
  | kept
  | closed
  | opened
  | stranded
deriving DecidableEq, Repr

structure Requested where
  phase : Phase
  mtu : Int
deriving DecidableEq, Repr

def Requested.nothing : Requested := ⟨.unbound, ethDataLen⟩

/-- After a probe. -/
def Phase.probed (calls : Probing) : Phase :=
  if calls.ok then .closed
  else if calls.enableDevice = 0 ∧ calls.dmaMask = false then .kept
  else .unbound

/-- After the interface has been taken down and up again. -/
def Phase.again (answers : Answers) : Phase := if answers.ok then .opened else .stranded

def Phase.isOpen : Phase → Bool
  | .opened | .stranded => true
  | _ => false

namespace Requested

/-- What a request makes of the card, by the way it ends. -/
def next (asked : Requested) : Op → Requested
  | .probe calls => if asked.phase = .unbound then ⟨.probed calls, ethDataLen⟩ else asked
  | .remove => { asked with phase := .unbound }
  | .openRun setup answers =>
      if asked.phase = .closed ∧ setup = true ∧ answers.ok = true then
        { asked with phase := .opened }
      else asked
  | .close => if asked.phase.isOpen then { asked with phase := .closed } else asked
  | .reinit answers => if asked.phase.isOpen then { asked with phase := .again answers } else asked
  | .changeMtu isFast mtu answers =>
      if asked.phase.isOpen = true ∧ Card.mtuAccepted isFast mtu = true ∧ asked.mtu ≠ mtu then
        ⟨.again answers, mtu⟩
      else asked
  | .commonTask reset _ answers =>
      if asked.phase = .opened ∧ reset = true then { asked with phase := .again answers } else asked

/-- Nothing is asked that takes a stranded interface down, or that removes the driver
from a card whose probe has failed, and an open that has its rings succeeds. -/
def Allows (asked : Requested) : Op → Prop
  | .remove => asked.phase ≠ .kept ∧ asked.phase ≠ .stranded
  | .openRun setup answers => asked.phase = .closed → setup = true → answers.ok = true
  | .close => asked.phase ≠ .stranded
  | .reinit _ => asked.phase ≠ .stranded
  | .changeMtu isFast mtu _ =>
      asked.phase = .stranded → Card.mtuAccepted isFast mtu = true → asked.mtu = mtu
  | _ => True

end Requested

/-- The requests alone. -/
def requests : Machine Requested Op Unit where
  step asked op := (asked.next op, ())

/-- Where a card has got to. -/
def Card.phase (card : Card) : Phase :=
  if card.isBound = false then .unbound
  else if card.registered = false then .kept
  else if card.isRunning = false then .closed
  else if card.isDown = false then .opened
  else .stranded

/-- A card has got where the requests have led it. -/
structure Follows (card : Card) (asked : Requested) : Prop where
  phase : card.phase = asked.phase
  mtu : card.registered = true → card.mtu = asked.mtu

section Requests

variable {card : Card} {asked : Requested}

theorem follows_absent : Follows Card.absent Requested.nothing :=
  ⟨rfl, fun registered => absurd registered Bool.false_ne_true⟩

theorem Card.phase_eq_unbound_iff : card.phase = .unbound ↔ card.isBound = false := by
  unfold Card.phase
  split_ifs with bound <;> simp [bound]

theorem Card.phase_eq_kept_iff :
    card.phase = .kept ↔ card.isBound = true ∧ card.registered = false := by
  unfold Card.phase
  split_ifs <;> simp_all

theorem Sound.phase_eq_closed_iff (sound : Sound card) :
    card.phase = .closed ↔ card.registered = true ∧ card.isRunning = false := by
  have bound := sound.bound
  unfold Card.phase
  split_ifs <;> simp_all

theorem Sound.phase_eq_opened_iff (sound : Sound card) :
    card.phase = .opened ↔ card.isRunning = true ∧ card.isDown = false := by
  have bound := sound.bound
  have running := sound.running
  unfold Card.phase
  split_ifs <;> simp_all

theorem Sound.phase_eq_stranded_iff (sound : Sound card) :
    card.phase = .stranded ↔ card.isRunning = true ∧ card.isDown = true := by
  have bound := sound.bound
  have running := sound.running
  unfold Card.phase
  split_ifs <;> simp_all

theorem Sound.isOpen_iff (sound : Sound card) :
    card.phase.isOpen = true ↔ card.isRunning = true := by
  have opened := sound.phase_eq_opened_iff
  have stranded := sound.phase_eq_stranded_iff
  cases down : card.isDown <;> cases phase : card.phase <;> simp_all [Phase.isOpen]

/-- The order of the requests is what each operation needs of the card. -/
theorem Follows.orderly_iff (follows : Follows card asked) (sound : Sound card) (op : Op) :
    Orderly card op ↔ asked.Allows op := by
  have taken : (card.isRunning = true → card.isDown = false) ↔ asked.phase ≠ .stranded := by
    rw [← follows.phase, Ne, sound.phase_eq_stranded_iff, not_and, Bool.not_eq_true]
  cases op with
  | probe calls => exact Iff.rfl
  | commonTask reset linkChange answers => exact Iff.rfl
  | close => exact taken
  | reinit answers => exact taken
  | remove =>
      have bound : (card.isBound = true → card.netdev = true) ↔ asked.phase ≠ .kept := by
        rw [← follows.phase, Ne, Card.phase_eq_kept_iff, not_and, Bool.not_eq_false, sound.netdev]
      have running : card.isRunning = true → card.isBound = true := fun running =>
        sound.bound (sound.running running)
      refine Iff.trans ?_ (and_congr bound taken)
      exact ⟨fun good => ⟨fun here => (good here).1, fun busy => (good (running busy)).2 busy⟩,
        fun good here => ⟨good.1 here, good.2⟩⟩
  | openRun setup answers =>
      change (_ → _ → _ → _) ↔ (asked.phase = .closed → _ → _)
      rw [← follows.phase, sound.phase_eq_closed_iff, and_imp]
  | changeMtu isFast mtu answers =>
      change (_ → _ → _ → _) ↔ (asked.phase = .stranded → _ → _)
      rw [← follows.phase, sound.phase_eq_stranded_iff]
      constructor
      · rintro good ⟨running, down⟩ accepted
        by_contra other
        rw [← follows.mtu (sound.running running)] at other
        rw [good accepted other running] at down
        cases down
      · intro good accepted other running
        by_contra down
        rw [follows.mtu (sound.running running)] at other
        exact other (good ⟨running, Bool.not_eq_false _ ▸ down⟩ accepted)

/-- A card that is bound and registered, and runs. -/
theorem Card.phase_of_running (bound : card.isBound = true) (registered : card.registered = true)
    (running : card.isRunning = true) :
    card.phase = if card.isDown = false then .opened else .stranded := by
  simp [Card.phase, bound, registered, running]

/-- Taking an interface down that is up, and up again. -/
theorem Follows.reinit (sound : Sound card) (running : card.isRunning = true)
    (up : card.isDown = false) (answers : Answers) :
    Follows (card.reinit answers).1 ⟨.again answers, card.mtu⟩ := by
  have registered := sound.running running
  have bound := sound.bound registered
  rcases sound.phase registered with ⟨_, raised⟩ | lowered
  · have still : ¬ card.lowered.stuck = true := by
      change ¬ card.stuck = true
      rw [sound.stuck]
      decide
    rw [Card.reinit, raised.down, Faulty.andThen, if_neg still]
    unfold Phase.again
    cases ok : answers.ok with
    | true =>
        rw [(lowered_lowered card).up_ok ok]
        exact ⟨@Card.phase_of_running (card.lowered.raised answers) bound registered running,
          fun _ => rfl⟩
    | false =>
        rcases (lowered_lowered card).up_failed ok with ⟨haveMsi, failed⟩
        rw [failed]
        exact ⟨@Card.phase_of_running { card.lowered with haveMsi := haveMsi } bound registered
          running, fun _ => rfl⟩
  · rw [lowered.isDown] at up
    cases up

/-- A probe binds the driver when all calls succeed, and also when the card has no DMA
mask. -/
theorem Follows.bind (bare : Bare card) (calls : Probing) :
    Follows (card.bind calls) ⟨.probed calls, ethDataLen⟩ := by
  rcases bare.probe calls with ⟨nothing, zero, failed⟩ | ⟨zero, ok, _, registered, idle, mtu⟩
  · have unregistered : (card.bind calls).registered = false := nothing.registered
    refine ⟨?_, fun registered => absurd (unregistered.symm.trans registered) Bool.false_ne_true⟩
    rw [Phase.probed, failed, if_neg Bool.false_ne_true]
    split_ifs with kept
    · exact Card.phase_eq_kept_iff.mpr ⟨decide_eq_true (zero.mpr kept), unregistered⟩
    · exact Card.phase_eq_unbound_iff.mpr (decide_eq_false fun same => kept (zero.mp same))
  · refine ⟨?_, fun _ => mtu⟩
    have bound : (card.bind calls).isBound = true := decide_eq_true zero
    have registered' : (card.bind calls).registered = true := registered
    have idle' : (card.bind calls).isRunning = false := idle
    rw [Phase.probed, ok, if_pos rfl]
    simp [Card.phase, bound, registered', idle']

theorem Follows.remove (follows : Follows card asked) (sound : Sound card)
    (bound : card.isBound = true) (allowed : asked.Allows .remove) :
    Follows card.remove.1 { asked with phase := .unbound } := by
  rcases (follows.orderly_iff sound .remove).mpr allowed bound with ⟨netdev, up⟩
  have some : ¬ card.netdev = false := by
    rw [netdev]
    decide
  have removed : card.remove.1.isBound = false ∧ card.remove.1.registered = false := by
    rw [Card.remove, if_neg some]
    cases running : card.isRunning with
    | false =>
        have still : ¬ card.stuck = true := by
          rw [sound.stuck]
          decide
        rw [if_neg Bool.false_ne_true, Faulty.andThen, if_neg still]
        exact ⟨rfl, rfl⟩
    | true =>
        have closed := (keeps_close sound running).2 (up running)
        have still : ¬ card.close.1.stuck = true := by
          rw [closed]
          change ¬ card.stuck = true
          rw [sound.stuck]
          decide
        rw [if_pos rfl, Faulty.andThen, if_neg still]
        exact ⟨rfl, rfl⟩
  exact ⟨Card.phase_eq_unbound_iff.mpr removed.1,
    fun registered => absurd (removed.2.symm.trans registered) Bool.false_ne_true⟩

theorem Follows.openRun (follows : Follows card asked) (sound : Sound card)
    (registered : card.registered = true) (idle : card.isRunning = false) {setup : Bool}
    {answers : Answers} (allowed : asked.Allows (.openRun setup answers)) :
    Follows (card.openRun setup answers).1 (asked.next (.openRun setup answers)) := by
  have closed : asked.phase = .closed :=
    follows.phase.symm.trans (sound.phase_eq_closed_iff.mpr ⟨registered, idle⟩)
  have bound := sound.bound registered
  cases setup with
  | false =>
      have same : asked.next (.openRun false answers) = asked :=
        if_neg fun both => Bool.false_ne_true both.2.1
      rw [Card.openRun, if_pos rfl, same]
      exact follows
  | true =>
      have ok := allowed closed rfl
      have opened : asked.next (.openRun true answers) = { asked with phase := .opened } :=
        if_pos ⟨closed, rfl, ok⟩
      have lowered : Lowered card := by
        rcases sound.phase registered with ⟨running, _⟩ | lowered
        · rw [idle] at running
          cases running
        · exact lowered
      have withRings : Lowered { card with rings := true } :=
        ⟨lowered.napi, lowered.irq, lowered.msi, lowered.unmasked, lowered.irqSem, lowered.isDown⟩
      rw [Card.openRun, if_neg (Ne.symm Bool.false_ne_true), withRings.up_ok ok, opened]
      exact ⟨@Card.phase_of_running
        { Card.raised { card with rings := true } answers with isRunning := true }
        bound registered rfl, fun _ => follows.mtu registered⟩

theorem Follows.close (follows : Follows card asked) (sound : Sound card)
    (running : card.isRunning = true) (up : card.isDown = false) :
    Follows card.close.1 { asked with phase := .closed } := by
  have registered := sound.running running
  have bound := sound.bound registered
  rw [(keeps_close sound running).2 up]
  refine ⟨?_, fun _ => follows.mtu registered⟩
  simp [Card.phase, Card.lowered, bound, registered]

/-- A reinitialisation of an interface that is up. -/
theorem Follows.again (follows : Follows card asked) (sound : Sound card)
    (running : card.isRunning = true) (up : card.isDown = false) (answers : Answers) :
    Follows (card.reinit answers).1 { asked with phase := .again answers } := by
  have again := Follows.reinit sound running up answers
  exact ⟨again.phase, fun registered =>
    (again.mtu registered).trans (follows.mtu (sound.running running))⟩

/-- Requests with an MTU that is not accepted or is the same change nothing. -/
theorem Follows.changeMtu (follows : Follows card asked) (sound : Sound card) {isFast : Bool}
    {mtu : Int} {answers : Answers} (orderly : Orderly card (.changeMtu isFast mtu answers)) :
    Follows
      (if card.registered = true ∧ Card.mtuAccepted isFast mtu = true then card.changeMtu mtu answers
        else (card, [])).1
      (asked.next (.changeMtu isFast mtu answers)) := by
  have isOpen := sound.isOpen_iff
  rw [follows.phase] at isOpen
  dsimp only [Requested.next]
  by_cases changes : card.isRunning = true ∧ Card.mtuAccepted isFast mtu = true ∧ card.mtu ≠ mtu
  · rcases changes with ⟨running, accepted, other⟩
    have registered := sound.running running
    have up := orderly accepted other running
    rw [if_pos ⟨registered, accepted⟩, Card.changeMtu, if_pos ⟨other, running⟩,
      if_pos ⟨isOpen.mpr running, accepted, follows.mtu registered ▸ other⟩]
    exact Follows.reinit (sound.withMtu mtu) running up answers
  · have same : ¬ (asked.phase.isOpen = true ∧ Card.mtuAccepted isFast mtu = true ∧
        asked.mtu ≠ mtu) := by
      rintro ⟨isOpened, accepted, other⟩
      have running := isOpen.mp isOpened
      rw [← follows.mtu (sound.running running)] at other
      exact changes ⟨running, accepted, other⟩
    rw [if_neg same]
    split_ifs with ready
    · have none : ¬ (card.mtu ≠ mtu ∧ card.isRunning = true) := fun both =>
        changes ⟨both.2, ready.2, both.1⟩
      rw [Card.changeMtu, if_neg none]
      exact follows
    · exact follows

/-- The task does something only for an interface that is up. -/
theorem Follows.commonTask (follows : Follows card asked) (sound : Sound card)
    (reset linkChange : Bool) (answers : Answers) :
    Follows
      (if card.registered then card.commonTask reset linkChange answers else (card, [])).1
      (asked.next (.commonTask reset linkChange answers)) := by
  have opened := sound.phase_eq_opened_iff
  rw [follows.phase] at opened
  dsimp only [Requested.next]
  by_cases busy : card.registered = true ∧ card.isDown = false
  · have running : card.isRunning = true := by
      rcases sound.phase busy.1 with ⟨running, _⟩ | lowered
      · exact running
      · rw [lowered.isDown] at busy
        cases busy.2
    have notDown : ¬ card.isDown = true := by
      rw [busy.2]
      decide
    rw [if_pos busy.1, Card.commonTask, if_neg notDown]
    cases reset with
    | true =>
        rw [if_pos rfl, if_pos ⟨opened.mpr ⟨running, busy.2⟩, rfl⟩]
        exact follows.again sound running busy.2 answers
    | false =>
        have none : ¬ (asked.phase = .opened ∧ false = true) := fun both =>
          Bool.false_ne_true both.2
        rw [if_neg none, if_neg Bool.false_ne_true]
        cases linkChange with
        | true => exact ⟨follows.phase, follows.mtu⟩
        | false => exact follows
  · have same : ¬ (asked.phase = .opened ∧ reset = true) := fun both =>
      busy ⟨sound.running (opened.mp both.1).1, (opened.mp both.1).2⟩
    rw [if_neg same]
    split_ifs with registered
    · have down : card.isDown = true := by
        by_contra up
        exact busy ⟨registered, Bool.not_eq_true _ ▸ up⟩
      rw [Card.commonTask, if_pos down]
      exact follows
    · exact follows

/-- Requests in order lead the card where they should. -/
theorem Follows.step (follows : Follows card asked) (sound : Sound card) {op : Op}
    (orderly : Orderly card op) : Follows (lifecycle.next card op) (requests.next asked op) := by
  have still : ¬ card.stuck = true := by
    rw [sound.stuck]
    decide
  have allowed := (follows.orderly_iff sound op).mp orderly
  have isOpen := sound.isOpen_iff
  rw [follows.phase] at isOpen
  change Follows (Lifecycle.step card op).1 (asked.next op)
  unfold Lifecycle.step
  rw [if_neg still]
  cases op with
  | probe calls =>
      have unbound : card.phase = .unbound ↔ card.isBound = false := Card.phase_eq_unbound_iff
      rw [follows.phase] at unbound
      dsimp only [Requested.next]
      cases bound : card.isBound with
      | true =>
          rw [if_pos rfl, if_neg fun same => absurd (bound.symm.trans (unbound.mp same)) (by decide)]
          exact follows
      | false =>
          have unregistered : card.registered = false := by
            by_contra registered
            have contra := sound.bound (Bool.not_eq_false _ ▸ registered)
            rw [bound] at contra
            cases contra
          rw [if_neg Bool.false_ne_true, if_pos (unbound.mpr bound)]
          exact Follows.bind (sound.bare unregistered) calls
  | remove =>
      dsimp only
      cases bound : card.isBound with
      | true => exact follows.remove sound bound allowed
      | false =>
          refine ⟨Card.phase_eq_unbound_iff.mpr bound, follows.mtu⟩
  | openRun setup answers =>
      dsimp only
      split_ifs with ready
      · exact follows.openRun sound ready.1 ready.2 allowed
      · have same : asked.next (.openRun setup answers) = asked := if_neg fun both =>
          ready (sound.phase_eq_closed_iff.mp (follows.phase.trans both.1))
        rw [same]
        exact follows
  | close =>
      dsimp only [Requested.next]
      split_ifs with running busy busy
      · exact follows.close sound running (orderly running)
      · exact absurd (isOpen.mpr running) busy
      · exact absurd (isOpen.mp busy) running
      · exact follows
  | reinit answers =>
      dsimp only [Requested.next]
      split_ifs with running busy busy
      · exact follows.again sound running (orderly running) answers
      · exact absurd (isOpen.mpr running) busy
      · exact absurd (isOpen.mp busy) running
      · exact follows
  | changeMtu isFast mtu answers => exact follows.changeMtu sound orderly
  | commonTask reset linkChange answers => exact follows.commonTask sound reset linkChange answers

end Requests

/-! ## Whole histories -/

theorem sound_absent : Sound Card.absent :=
  Bare.sound ⟨rfl, rfl, rfl, rfl, rfl, rfl, rfl, rfl, rfl, rfl, rfl, rfl⟩

/-- A history of a card has no fault exactly when its requests come in order. -/
theorem faultless_iff_orderly (ops : List Op) :
    (forall faults, faults ∈ lifecycle.trace Card.absent ops → faults = []) ↔
      requests.Along Requested.Allows Requested.nothing ops := by
  rw [lifecycle.forall_trace_iff_along (fun faults => faults = [])]
  have along : forall card asked, Sound card → Follows card asked →
      (lifecycle.Along (fun card op => lifecycle.out card op = []) card ops ↔
        requests.Along Requested.Allows asked ops) := by
    induction ops with
    | nil => exact fun _ _ _ _ => Iff.rfl
    | cons op ops ih =>
        intro card asked sound follows
        have kept := keeps_step sound op
        have same := follows.orderly_iff sound op
        rw [Machine.along_cons, Machine.along_cons]
        constructor
        · rintro ⟨here, later⟩
          have good := kept.faultless.mp here
          exact ⟨same.mp good, (ih _ _ (kept.sound good) (follows.step sound good)).mp later⟩
        · rintro ⟨allowed, later⟩
          have good := same.mpr allowed
          exact ⟨kept.faultless.mpr good,
            (ih _ _ (kept.sound good) (follows.step sound good)).mpr later⟩
  exact along Card.absent Requested.nothing sound_absent follows_absent

/-- Along a history without fault, what is held fits together: without a
registered network device nothing is, a closed interface has no interrupt and no
rings, and an interface that is not down may be interrupted. -/
theorem held_of_orderly {ops : List Op} (orderly : lifecycle.Along Orderly Card.absent ops)
    {card : Card} (reaches : lifecycle.run Card.absent ops = card) :
    (card.registered = false → Bare card) ∧
      (card.registered = true →
        (card.isRunning = true ∧ card.rings = true ∧ Raised card) ∨
          (card.rings = card.isRunning ∧ Lowered card)) := by
  have sound : Sound (lifecycle.run Card.absent ops) :=
    lifecycle.run_invariant Sound Orderly
      (fun _ op sound good => (keeps_step sound op).sound good) sound_absent orderly
  rw [reaches] at sound
  refine ⟨sound.bare, fun registered => ?_⟩
  rcases sound.phase registered with ⟨running, raised⟩ | lowered
  · exact Or.inl ⟨running, sound.rings.trans running, raised⟩
  · exact Or.inr ⟨sound.rings, lowered⟩

def goodProbing : Probing := ⟨0, true, 0, true, true, 0, true, true, 0⟩

/-- The interface is opened, and a reinitialisation then fails. -/
def stranded : List Op :=
  [.probe goodProbing, .openRun true ⟨true, true, true⟩, .reinit ⟨false, true, true⟩]

theorem orderly_stranded : lifecycle.Along Orderly Card.absent stranded :=
  ⟨trivial, fun _ _ _ => rfl, fun _ => rfl, trivial⟩

theorem held_of_orderly_stranded :
    (lifecycle.run Card.absent stranded).rings = true ∧
      Lowered (lifecycle.run Card.absent stranded) := by
  have held := (held_of_orderly orderly_stranded rfl).2 rfl
  rcases held with ⟨_, _, raised⟩ | ⟨rings, lowered⟩
  · exact absurd raised.napi (by decide)
  · exact ⟨rings, lowered⟩

/-- Then closing the interface waits without end. -/
example : lifecycle.out (lifecycle.run Card.absent stranded) .close = [.napiNotEnabled] := rfl

end Lifecycle
end Atl1c
end KernelHacking
