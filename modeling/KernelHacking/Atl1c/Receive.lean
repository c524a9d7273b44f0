import KernelHacking.Atl1c.Ring

namespace KernelHacking
namespace Atl1c

/-!
# The receive rings of the `atl1c` driver

The driver posts empty buffers in the ring of receive free descriptors and tells
the card with the producer register how far it may go.  The card fills the
buffers one after another, and for each one it writes a return status into a
second ring of the same size.  The driver goes through the return statuses,
hands the buffers up and posts new ones.

A place of a ring is a number, as in the source, and the two rings and the
`buffer_info` beside them are memory that is indexed by it.  What the kernel
answers to a request for a buffer comes from outside.
-/

namespace Receive

/-! ## Return statuses -/

/-- `struct atl1c_recv_ret_status`. -/
structure RecvRetStatus where
  word0 : BitVec 32
  rssHash : BitVec 32
  vlanTag : BitVec 16
  flag : BitVec 16
  word3 : BitVec 32
deriving DecidableEq, Repr

def rrsVlanIns : BitVec 32 := 0x00010000
def rrsRxErrSum : BitVec 32 := 0x00100000
def rrs8023LenErr : BitVec 32 := 0x40000000
def rrsRxdUpdated : BitVec 32 := 0x80000000

def ethFcsLen : Nat := 4

/-- `AT_TAG_TO_VLAN`. -/
def tagToVlan (tag : BitVec 16) : BitVec 16 :=
  (tag >>> 8 &&& 0xFF) ||| ((tag &&& 0xFF) <<< 8)

namespace RecvRetStatus

/-- What `memset` leaves of a return status. -/
def zero : RecvRetStatus := ⟨0, 0, 0, 0, 0⟩

/-- `RRS_RXD_IS_VALID`. -/
def isValid (rrs : RecvRetStatus) : Prop := rrs.word3 >>> 31 &&& 1 = 1

instance (rrs : RecvRetStatus) : Decidable rrs.isValid := inferInstanceAs (Decidable (_ = _))

/-- `rfd_num` of a return status. -/
def rfdCnt (rrs : RecvRetStatus) : Nat := (rrs.word0 >>> 16 &&& 0x000F).toNat

/-- `rfd_index` of a return status. -/
def rfdIndex (rrs : RecvRetStatus) : Nat := (rrs.word0 >>> 20 &&& 0x0FFF).toNat

/-- `length` of a return status. -/
def pktSize (rrs : RecvRetStatus) : Nat := (rrs.word3 &&& 0x3FFF).toNat

/-- The card has marked the packet as wrong. -/
def isWrong (rrs : RecvRetStatus) : Prop := rrs.word3 &&& (rrsRxErrSum ||| rrs8023LenErr) ≠ 0

instance (rrs : RecvRetStatus) : Decidable rrs.isWrong := inferInstanceAs (Decidable (_ ≠ _))

/-- The tag that is put beside the packet. -/
def vlan (rrs : RecvRetStatus) : Option (BitVec 16) :=
  if rrs.word3 &&& rrsVlanIns ≠ 0 then some (tagToVlan rrs.vlanTag) else none

/-- `word3 &= ~RRS_RXD_UPDATED`. -/
def clearUpdated (rrs : RecvRetStatus) : RecvRetStatus :=
  { rrs with word3 := rrs.word3 &&& ~~~rrsRxdUpdated }

end RecvRetStatus

/-- A frame as it arrives from the net, with what the card reports of it.  The
size that it reports is that of the frame, the check sequence included, which no
frame is without. -/
structure Frame where
  data : List (BitVec 8)
  csum : BitVec 16
  rssHash : BitVec 32
  vlanTag : BitVec 16
  flag : BitVec 16
  word3 : BitVec 32
  checked : ethFcsLen ≤ data.length
  size : (word3 &&& 0x3FFF).toNat = data.length
deriving DecidableEq, Repr

/-- The return status that the card writes for a frame it has put into the buffer
at a place, one buffer for each frame. -/
def Frame.status (frame : Frame) (place : Nat) : RecvRetStatus where
  word0 := frame.csum.setWidth 32 ||| ((1 : BitVec 32) <<< 16) ||| (BitVec.ofNat 32 place <<< 20)
  rssHash := frame.rssHash
  vlanTag := frame.vlanTag
  flag := frame.flag
  word3 := frame.word3 ||| rrsRxdUpdated

/-! ## The rings -/

/-- `rfd_ring` and `rrd_ring` of the adapter, with the producer register of the
card.  The rings have `count` places; what lies behind is other memory. -/
structure Rings where
  rfdDesc : Nat → BitVec 64
  bufferInfo : Nat → TxBuffer
  rfdNextToUse : Nat
  rfdNextToClean : Nat
  rrdDesc : Nat → RecvRetStatus
  rrdNextToClean : Nat
  rfdProdIdx : Nat
  rxBufferLen : BitVec 16

/-- What happens to buffers and packets, in order. -/
inductive RxEvent
  | accept (frame : Frame)
  | allocSkb (skb : Nat)
  | freeSkb (skb : Nat)
  | unmapSingle (dma : BitVec 64) (length : BitVec 16)
  | unmapPage (dma : BitVec 64) (length : BitVec 16)
  | wrongPacket (word3 : BitVec 32)
  | receiveSkb (skb : Option Nat) (data : List (BitVec 8)) (vlan : Option (BitVec 16))
deriving DecidableEq, Repr

def toEvent : Release → RxEvent
  | .unmapSingle dma length => .unmapSingle dma length
  | .unmapPage dma length => .unmapPage dma length
  | .consume skb => .freeSkb skb

def pcimapFromdevice : BitVec 16 := 0x0020
def mbRfdxProdIdxMask : BitVec 16 := 0xFFFF

namespace Rings

def setInfo (rings : Rings) (place : Nat) (info : TxBuffer) : Rings :=
  { rings with bufferInfo := Function.update rings.bufferInfo place info }

def setRfd (rings : Rings) (place : Nat) (address : BitVec 64) : Rings :=
  { rings with rfdDesc := Function.update rings.rfdDesc place address }

def setRrd (rings : Rings) (place : Nat) (rrs : RecvRetStatus) : Rings :=
  { rings with rrdDesc := Function.update rings.rrdDesc place rrs }

def isFree (rings : Rings) (place : Nat) : Prop :=
  (rings.bufferInfo place).flags &&& bufferFree ≠ 0

instance (rings : Rings) (place : Nat) : Decidable (rings.isFree place) :=
  inferInstanceAs (Decidable (_ ≠ _))

end Rings

/-! ## Posting buffers -/

/-- What the kernel answers in one turn of the loop that posts buffers:
`atl1c_alloc_skb` fails, the buffer cannot be mapped, or it is mapped. -/
inductive Allocation
  | noSkb
  | unmappable (skb : Nat)
  | mapped (skb : Nat) (dma : BitVec 64)
deriving DecidableEq, Repr

/-- The buffer at `rfd_next_to_use` is filled in and mapped. -/
def postBuffer (rings : Rings) (place skb : Nat) (dma : BitVec 64) : Rings :=
  (rings.setInfo place
    { skb := some skb
      length := rings.rxBufferLen
      flags := setPcimapType (setBufferState (rings.bufferInfo place).flags bufferBusy)
        pcimapSingle pcimapFromdevice
      dma := dma }).setRfd place dma

/-- The buffer at `rfd_next_to_use` is given back, as it cannot be mapped. -/
def unpostBuffer (rings : Rings) (place : Nat) : Rings :=
  rings.setInfo place
    { rings.bufferInfo place with
      skb := none
      length := 0
      flags := setBufferState (setBufferState (rings.bufferInfo place).flags bufferBusy)
        bufferFree }

/-- The loop of `atl1c_alloc_rx_buffer`, with `rfd_next_to_use`, `next_next` and
`num_alloc`.  When the answers are used up the next request fails. -/
def allocLoop (count : Nat) :
    List Allocation → Rings → Nat → Nat → Nat → (Rings × Nat × Nat) × List RxEvent
  | [], rings, place, _, numAlloc => ((rings, place, numAlloc), [])
  | allocation :: rest, rings, place, nextNext, numAlloc =>
      if rings.isFree nextNext then
        match allocation with
        | .noSkb => ((rings, place, numAlloc), [])
        | .unmappable skb =>
            ((unpostBuffer rings place, place, numAlloc), [.allocSkb skb, .freeSkb skb])
        | .mapped skb dma =>
            let later := allocLoop count rest (postBuffer rings place skb dma) nextNext
              (Cyclic.wrap count nextNext) (numAlloc + 1)
            (later.1, .allocSkb skb :: later.2)
      else ((rings, place, numAlloc), [])

/-- `atl1c_alloc_rx_buffer`, with the number of buffers that it returns. -/
def allocRxBuffer (count : Nat) (allocations : List Allocation) (rings : Rings) :
    (Rings × Nat) × List RxEvent :=
  let done := allocLoop count allocations rings rings.rfdNextToUse
    (Cyclic.wrap count rings.rfdNextToUse) 0
  let rings := done.1.1
  let place := done.1.2.1
  let numAlloc := done.1.2.2
  if numAlloc ≠ 0 then
    (({ rings with
        rfdNextToUse := place
        rfdProdIdx := (BitVec.ofNat 16 place &&& mbRfdxProdIdxMask).toNat }, numAlloc), done.2)
  else ((rings, numAlloc), done.2)

/-! ## Going through the return statuses -/

/-- `atl1c_clean_rrd`; `rrs` is the place of the return status. -/
def cleanRrd (count : Nat) : Nat → Nat → Rings → Rings
  | 0, _, rings => rings
  | num + 1, rrs, rings =>
      let rings := rings.setRrd rrs (rings.rrdDesc rrs).clearUpdated
      let rings := { rings with rrdNextToClean := Cyclic.wrap count rings.rrdNextToClean }
      cleanRrd count num rings.rrdNextToClean rings

/-- The loop of `atl1c_clean_rfd`. -/
def cleanRfdLoop (count : Nat) : Nat → Nat → Rings → Rings
  | 0, rfdIndex, rings => { rings with rfdNextToClean := rfdIndex }
  | num + 1, rfdIndex, rings =>
      cleanRfdLoop count num (Cyclic.wrap count rfdIndex)
        (rings.setInfo rfdIndex
          { rings.bufferInfo rfdIndex with
            skb := none
            flags := setBufferState (rings.bufferInfo rfdIndex).flags bufferFree })

/-- `atl1c_clean_rfd`. -/
def cleanRfd (count : Nat) (rrs : RecvRetStatus) (num : Nat) (rings : Rings) : Rings :=
  cleanRfdLoop count num rrs.rfdIndex rings

/-- How a turn of the loop of `atl1c_clean_rx_irq` ends. -/
inductive RxTurn
  | leave
  | wrong
  | received
deriving DecidableEq, Repr

/-- One turn of the loop of `atl1c_clean_rx_irq`, after its test of the budget.
The packet is read in the memory to which its buffer is mapped. -/
def cleanRxTurn (count : Nat) (memory : BitVec 64 → List (BitVec 8)) (rings : Rings) :
    (RxTurn × Rings) × List RxEvent :=
  let place := rings.rrdNextToClean
  if (rings.rrdDesc place).isValid then
    let rfdNum := (rings.rrdDesc place).rfdCnt
    let rings := cleanRrd count rfdNum place rings
    let rrs := rings.rrdDesc place
    if rrs.isWrong then
      ((.wrong, cleanRfd count rrs rfdNum rings), [.wrongPacket rrs.word3])
    else if rfdNum = 1 then
      let info := rings.bufferInfo rrs.rfdIndex
      ((.received, cleanRfd count rrs rfdNum rings),
        [.unmapSingle info.dma info.length,
          .receiveSkb info.skb ((memory info.dma).take (rrs.pktSize - ethFcsLen)) rrs.vlan])
    else ((.leave, rings), [])
  else ((.leave, rings), [])

/-! ## Emptying the rings -/

/-- The loops over all buffers. -/
def eachBuffer (act : TxBuffer → TxBuffer × List Release) :
    Nat → Rings → Rings × List RxEvent
  | 0, rings => (rings, [])
  | place + 1, rings =>
      let earlier := eachBuffer act place rings
      let cleaned := act (earlier.1.bufferInfo place)
      (earlier.1.setInfo place cleaned.1, earlier.2 ++ cleaned.2.map toEvent)

/-- `atl1c_clean_rx_ring`; it does not touch the return statuses. -/
def cleanRxRing (count : Nat) (rings : Rings) : Rings × List RxEvent :=
  let cleaned := eachBuffer cleanBuffer count rings
  ({ cleaned.1 with
      rfdDesc := fun place => if place < count then 0 else cleaned.1.rfdDesc place
      rfdNextToClean := 0
      rfdNextToUse := 0
      rrdNextToClean := 0 }, cleaned.2)

/-- `ATL1C_SET_BUFFER_STATE(buffer_info, ATL1C_BUFFER_FREE)`. -/
def markFree (info : TxBuffer) : TxBuffer × List Release :=
  ({ info with flags := setBufferState info.flags bufferFree }, [])

/-- The receive side of `atl1c_init_ring_ptrs`. -/
def initRingPtrs (count : Nat) (rings : Rings) : Rings × List RxEvent :=
  eachBuffer markFree count
    { rings with rfdNextToUse := 0, rfdNextToClean := 0, rrdNextToClean := 0 }

/-! ## Flags and words -/

theorem and_one_ne_zero_iff {width : Nat} (word : BitVec (width + 1)) :
    word &&& 1 ≠ 0 ↔ word.getLsbD 0 = true := by
  constructor
  · intro nonzero
    by_contra unset
    apply nonzero
    apply BitVec.eq_of_getLsbD_eq
    intro i inside
    rcases Nat.eq_zero_or_pos i with zero | positive
    · subst zero
      simpa using unset
    · simp [BitVec.getLsbD_one, Nat.ne_of_gt positive]
  · intro set zero
    have bit := congrArg (fun word => word.getLsbD 0) zero
    simp at bit
    rw [BitVec.getLsbD_eq_getElem (Nat.succ_pos width), bit] at set
    cases set

theorem and_one_eq_one_iff {width : Nat} (word : BitVec (width + 1)) :
    word &&& 1 = 1 ↔ word.getLsbD 0 = true := by
  constructor
  · intro one
    have bit := congrArg (fun word => word.getLsbD 0) one
    simpa using bit
  · intro set
    apply BitVec.eq_of_getLsbD_eq
    intro i inside
    rcases Nat.eq_zero_or_pos i with zero | positive
    · subst zero
      simpa using set
    · simp [BitVec.getLsbD_one, Nat.ne_of_gt positive]

theorem free_setBufferState (flags : BitVec 16) :
    setBufferState flags bufferFree &&& bufferFree ≠ 0 := by
  apply (and_one_ne_zero_iff _).mpr
  simp [setBufferState, bufferFree, bufferStateMask]

theorem not_free_mapped (flags : BitVec 16) :
    ¬ setPcimapType (setBufferState flags bufferBusy) pcimapSingle pcimapFromdevice &&& bufferFree
      ≠ 0 := by
  intro free
  have bit := (and_one_ne_zero_iff _).mp free
  simp [setPcimapType, setBufferState, bufferBusy, bufferStateMask, pcimapSingle,
    pcimapFromdevice, pcimapTypeMask, pcimapDirectionMask] at bit

theorem RecvRetStatus.isValid_iff (rrs : RecvRetStatus) :
    rrs.isValid ↔ rrs.word3.getLsbD 31 = true := by
  unfold RecvRetStatus.isValid
  rw [and_one_eq_one_iff, BitVec.getLsbD_ushiftRight]

theorem RecvRetStatus.not_isValid_clearUpdated (rrs : RecvRetStatus) :
    ¬ rrs.clearUpdated.isValid := by
  rw [isValid_iff]
  simp [clearUpdated, rrsRxdUpdated]

/-! ## Which buffers stand in the ring -/

/-- A buffer and the address that the card knows it by. -/
abbrev Buffer := Nat × BitVec 64

/-- This buffer stands at a place of the ring, mapped for the card. -/
structure Posted (rings : Rings) (place : Nat) (buffer : Buffer) : Prop where
  skb : (rings.bufferInfo place).skb = some buffer.1
  dma : (rings.bufferInfo place).dma = buffer.2
  busy : ¬ rings.isFree place
  desc : rings.rfdDesc place = buffer.2

/-- Nothing stands at a place of the ring. -/
structure Vacant (rings : Rings) (place : Nat) : Prop where
  skb : (rings.bufferInfo place).skb = none
  free : rings.isFree place

/-- The buffers stand one after another from a place on, and the rest of the
ring is vacant. -/
structure Holds (count : Nat) (rings : Rings) (start : Nat) (buffers : List Buffer) : Prop where
  posted : forall i buffer, buffers[i]? = some buffer → Posted rings ((start + i) % count) buffer
  vacant : forall i, buffers.length ≤ i → i < count → Vacant rings ((start + i) % count)

section Standing

variable {count : Nat} {rings rings' : Rings} {start place : Nat} {buffers : List Buffer}
  {buffer : Buffer}

theorem Posted.congr (infos : rings'.bufferInfo place = rings.bufferInfo place)
    (descs : rings'.rfdDesc place = rings.rfdDesc place) (posted : Posted rings place buffer) :
    Posted rings' place buffer where
  skb := by rw [infos, posted.skb]
  dma := by rw [infos, posted.dma]
  busy := by
    rw [Rings.isFree, infos]
    exact posted.busy
  desc := by rw [descs, posted.desc]

theorem Vacant.congr (infos : rings'.bufferInfo place = rings.bufferInfo place)
    (vacant : Vacant rings place) : Vacant rings' place where
  skb := by rw [infos, vacant.skb]
  free := by
    rw [Rings.isFree, infos]
    exact vacant.free

theorem Holds.congr (holds : Holds count rings start buffers) (rings' : Rings)
    (infos : rings'.bufferInfo = rings.bufferInfo) (descs : rings'.rfdDesc = rings.rfdDesc) :
    Holds count rings' start buffers where
  posted i buffer found :=
    (holds.posted i buffer found).congr (congrFun infos _) (congrFun descs _)
  vacant i behind inside := (holds.vacant i behind inside).congr (congrFun infos _)

theorem Posted.postBuffer (skb : Nat) (dma : BitVec 64) :
    Posted (postBuffer rings place skb dma) place (skb, dma) where
  skb := by
    change (Function.update rings.bufferInfo place _ place).skb = some skb
    rw [Function.update_self]
  dma := by
    change (Function.update rings.bufferInfo place _ place).dma = dma
    rw [Function.update_self]
  busy := by
    change ¬ (Function.update rings.bufferInfo place _ place).flags &&& bufferFree ≠ 0
    rw [Function.update_self]
    exact not_free_mapped _
  desc := Function.update_self ..

/-- A buffer posted behind the last one. -/
theorem Holds.postBuffer (holds : Holds count rings start buffers) (room : buffers.length < count)
    (skb : Nat) (dma : BitVec 64) :
    Holds count (postBuffer rings ((start + buffers.length) % count) skb dma) start
      (buffers ++ [(skb, dma)]) where
  posted i buffer found := by
    rcases Nat.lt_trichotomy i buffers.length with before | last | after
    · have elsewhere : (start + i) % count ≠ (start + buffers.length) % count := fun same =>
        absurd (Cyclic.add_mod_injective (by omega) room same) (by omega)
      rw [List.getElem?_append_left before] at found
      exact (holds.posted i buffer found).congr (Function.update_of_ne elsewhere ..)
        (Function.update_of_ne elsewhere ..)
    · subst last
      rw [List.getElem?_concat_length] at found
      rw [← Option.some.inj found]
      exact Posted.postBuffer skb dma
    · rw [List.getElem?_eq_none (by simp; omega)] at found
      cases found
  vacant i behind inside := by
    rw [List.length_append, List.length_singleton] at behind
    have elsewhere : (start + i) % count ≠ (start + buffers.length) % count := fun same =>
      absurd (Cyclic.add_mod_injective inside room same) (by omega)
    exact (holds.vacant i (by omega) inside).congr (Function.update_of_ne elsewhere ..)

/-- A buffer that could not be mapped leaves its place vacant. -/
theorem Holds.unpostBuffer (holds : Holds count rings start buffers)
    (room : buffers.length < count) :
    Holds count (unpostBuffer rings ((start + buffers.length) % count)) start buffers where
  posted i buffer found := by
    have before : i < buffers.length := (List.getElem?_eq_some_iff.mp found).1
    have elsewhere : (start + i) % count ≠ (start + buffers.length) % count := fun same =>
      absurd (Cyclic.add_mod_injective (by omega) room same) (by omega)
    exact (holds.posted i buffer found).congr (Function.update_of_ne elsewhere ..) rfl
  vacant i behind inside := by
    rcases Nat.eq_or_lt_of_le behind with last | after
    · subst last
      refine ⟨?_, ?_⟩
      · change (Function.update rings.bufferInfo _ _ _).skb = none
        rw [Function.update_self]
      · change (Function.update rings.bufferInfo _ _ _).flags &&& bufferFree ≠ 0
        rw [Function.update_self]
        exact free_setBufferState _
    · have elsewhere : (start + i) % count ≠ (start + buffers.length) % count := fun same =>
        absurd (Cyclic.add_mod_injective inside room same) (by omega)
      exact (holds.vacant i behind inside).congr (Function.update_of_ne elsewhere ..)

/-- The first buffer taken away, its place marked as free. -/
theorem Holds.tail {buffer : Buffer} (holds : Holds count rings start (buffer :: buffers))
    (inside : start < count) (room : buffers.length < count)
    (others : forall place, place ≠ start →
      rings'.bufferInfo place = rings.bufferInfo place ∧ rings'.rfdDesc place = rings.rfdDesc place)
    (freed : Vacant rings' start) :
    Holds count rings' (Cyclic.wrap count start) buffers where
  posted i later found := by
    have before : i < buffers.length := (List.getElem?_eq_some_iff.mp found).1
    have elsewhere : (start + (i + 1)) % count ≠ start := by
      intro same
      have zero : (start + (i + 1)) % count = (start + 0) % count := by
        rw [same, Nat.add_zero, Nat.mod_eq_of_lt inside]
      exact absurd (Cyclic.add_mod_injective (by omega) (by omega) zero) (by omega)
    rw [Cyclic.wrap_add_mod inside]
    exact (holds.posted (i + 1) later found).congr (others _ elsewhere).1 (others _ elsewhere).2
  vacant i behind within := by
    rw [Cyclic.wrap_add_mod inside]
    rcases Nat.lt_or_ge (i + 1) count with less | around
    · have elsewhere : (start + (i + 1)) % count ≠ start := by
        intro same
        have zero : (start + (i + 1)) % count = (start + 0) % count := by
          rw [same, Nat.add_zero, Nat.mod_eq_of_lt inside]
        exact absurd (Cyclic.add_mod_injective less (by omega) zero) (by omega)
      exact (holds.vacant (i + 1) (Nat.succ_le_succ behind) less).congr (others _ elsewhere).1
    · have whole : i + 1 = count := by omega
      rw [whole, Nat.add_mod_right, Nat.mod_eq_of_lt inside]
      exact freed

end Standing

/-! ## What posting does -/

/-- The buffers that the answers give before one of them fails. -/
def mappings : List Allocation → List Buffer
  | [] => []
  | .noSkb :: _ => []
  | .unmappable _ :: _ => []
  | .mapped skb dma :: rest => (skb, dma) :: mappings rest

/-- The buffers that are posted when so many stand in the ring already. -/
def granted (count standing : Nat) (allocations : List Allocation) : List Buffer :=
  (mappings allocations).take (count - 1 - standing)

theorem length_granted_le (count standing : Nat) (allocations : List Allocation) :
    (granted count standing allocations).length ≤ count - 1 - standing := by
  rw [granted, List.length_take]
  exact Nat.min_le_left _ _

theorem granted_of_full {count standing : Nat} (full : count ≤ standing + 1)
    (allocations : List Allocation) : granted count standing allocations = [] := by
  have none : count - 1 - standing = 0 := by omega
  rw [granted, none, List.take_zero]

theorem granted_mapped {count standing : Nat} (room : standing + 1 < count) (skb : Nat)
    (dma : BitVec 64) (rest : List Allocation) :
    granted count standing (.mapped skb dma :: rest) =
      (skb, dma) :: granted count (standing + 1) rest := by
  have one : count - 1 - standing = count - 1 - (standing + 1) + 1 := by omega
  rw [granted, one, mappings, List.take_succ_cons, granted]

namespace RxEvent

/-- The buffer that the kernel has given to the driver. -/
def allocated? : RxEvent → Option Nat
  | .allocSkb skb => some skb
  | _ => none

/-- The buffer that the driver has given away. -/
def released? : RxEvent → Option Nat
  | .freeSkb skb => some skb
  | .receiveSkb skb _ _ => skb
  | _ => none

/-- The event is about a packet, and not only about memory. -/
def isTraffic : RxEvent → Bool
  | .accept _ => true
  | .wrongPacket _ => true
  | .receiveSkb _ _ _ => true
  | _ => false

end RxEvent

/-- The driver has posted more buffers and touched nothing else. -/
structure Refill (count start : Nat) (rings after : Rings)
    (buffers more : List Buffer) (log : List RxEvent) : Prop where
  holds : Holds count after start (buffers ++ more)
  rrdDesc : after.rrdDesc = rings.rrdDesc
  rrdNextToClean : after.rrdNextToClean = rings.rrdNextToClean
  rxBufferLen : after.rxBufferLen = rings.rxBufferLen
  rfdProdIdx : more = [] → after.rfdProdIdx = rings.rfdProdIdx
  ledger : (log.filterMap RxEvent.allocated?).Perm
    (log.filterMap RxEvent.released? ++ more.map Prod.fst)
  quiet : forall event, event ∈ log → event.isTraffic = false

section Posting

variable {count start : Nat} {rings : Rings} {buffers : List Buffer}

/-- In a full ring the next place is the first one. -/
theorem Holds.isFree_next_iff (holds : Holds count rings start buffers) (two : 2 ≤ count)
    (room : buffers.length < count) :
    rings.isFree ((start + buffers.length + 1) % count) ↔ buffers.length + 1 < count := by
  constructor
  · intro free
    by_contra full
    have around : start + buffers.length + 1 = start + count := by omega
    have nonempty : 0 < buffers.length := by omega
    have first := holds.posted 0 buffers[0] (List.getElem?_eq_getElem nonempty)
    rw [around, Nat.add_mod_right] at free
    exact first.busy free
  · intro less
    rw [Nat.add_assoc]
    exact (holds.vacant (buffers.length + 1) (Nat.le_succ _) less).free

theorem Refill.refl (holds : Holds count rings start buffers) :
    Refill count start rings rings buffers [] [] where
  holds := by rwa [List.append_nil]
  rrdDesc := rfl
  rrdNextToClean := rfl
  rxBufferLen := rfl
  rfdProdIdx _ := rfl
  ledger := List.Perm.refl _
  quiet event member := absurd member List.not_mem_nil

/-- The loop posts what is granted behind the buffers that stand in the ring. -/
theorem allocLoop_spec (two : 2 ≤ count) (allocations : List Allocation)
    (holds : Holds count rings start buffers) (room : buffers.length < count) (numAlloc : Nat) :
    ∃ after log,
      allocLoop count allocations rings ((start + buffers.length) % count)
          ((start + buffers.length + 1) % count) numAlloc =
        ((after,
          (start + buffers.length + (granted count buffers.length allocations).length) % count,
          numAlloc + (granted count buffers.length allocations).length), log) ∧
      Refill count start rings after buffers (granted count buffers.length allocations) log ∧
      after.rfdNextToUse = rings.rfdNextToUse ∧ after.rfdProdIdx = rings.rfdProdIdx := by
  induction allocations generalizing rings buffers numAlloc with
  | nil =>
      have none : granted count buffers.length [] = [] := by rw [granted, mappings, List.take_nil]
      rw [none]
      exact ⟨rings, [], rfl, Refill.refl holds, rfl, rfl⟩
  | cons allocation rest ih =>
      have step := holds.isFree_next_iff two room
      by_cases less : buffers.length + 1 < count
      · have free := step.mpr less
        cases allocation with
        | noSkb =>
            have none : granted count buffers.length (.noSkb :: rest) = [] := by
              rw [granted, mappings, List.take_nil]
            rw [allocLoop, if_pos free, none]
            exact ⟨rings, [], rfl, Refill.refl holds, rfl, rfl⟩
        | unmappable skb =>
            have none : granted count buffers.length (.unmappable skb :: rest) = [] := by
              rw [granted, mappings, List.take_nil]
            rw [allocLoop, if_pos free, none]
            refine ⟨unpostBuffer rings ((start + buffers.length) % count),
              [.allocSkb skb, .freeSkb skb], rfl, ?_, rfl, rfl⟩
            refine ⟨?_, rfl, rfl, rfl, fun _ => rfl, List.Perm.refl _,
              by simp [RxEvent.isTraffic]⟩
            rw [List.append_nil]
            exact holds.unpostBuffer room
        | mapped skb dma =>
            have posted := holds.postBuffer room skb dma
            have length : (buffers ++ [(skb, dma)]).length = buffers.length + 1 := by simp
            rcases ih posted (by rwa [length]) (numAlloc + 1) with
              ⟨after, log, same, refill, use, prod⟩
            rw [length] at same refill
            rw [← Nat.add_assoc start] at same
            rw [allocLoop, if_pos free, Cyclic.wrap_mod (by omega), granted_mapped less]
            dsimp only
            rw [same]
            refine ⟨after, .allocSkb skb :: log, ?_, ?_, use, prod⟩
            · rw [List.length_cons, Nat.add_assoc (start + buffers.length) 1, Nat.add_comm 1,
                Nat.add_assoc numAlloc 1, Nat.add_comm 1]
            · refine ⟨?_, refill.rrdDesc, refill.rrdNextToClean, refill.rxBufferLen,
                fun none => absurd none (List.cons_ne_nil _ _), ?_, ?_⟩
              · have holds := refill.holds
                rwa [List.append_assoc] at holds
              · exact (refill.ledger.cons skb).trans List.perm_middle.symm
              · intro event member
                rcases List.mem_cons.mp member with same | later
                · rw [same]
                  rfl
                · exact refill.quiet event later
      · have full : ¬ rings.isFree ((start + buffers.length + 1) % count) := fun free =>
          less (step.mp free)
        have stopped : allocLoop count (allocation :: rest) rings
            ((start + buffers.length) % count) ((start + buffers.length + 1) % count) numAlloc =
              ((rings, (start + buffers.length) % count, numAlloc), []) := by
          cases allocation <;> rw [allocLoop, if_neg full]
        rw [stopped, granted_of_full (by omega)]
        exact ⟨rings, [], rfl, Refill.refl holds, rfl, rfl⟩

/-- `atl1c_alloc_rx_buffer` posts what is granted and moves the producer register
when it has posted anything. -/
theorem allocRxBuffer_spec (two : 2 ≤ count) (small : count ≤ 2 ^ 16)
    (allocations : List Allocation) (inside : start < count)
    (holds : Holds count rings start buffers) (room : buffers.length < count)
    (use : rings.rfdNextToUse = (start + buffers.length) % count) :
    ∃ after log,
      allocRxBuffer count allocations rings =
        ((after, (granted count buffers.length allocations).length), log) ∧
      Refill count start rings after buffers (granted count buffers.length allocations) log ∧
      after.rfdNextToUse =
        (start + (buffers ++ granted count buffers.length allocations).length) % count ∧
      (granted count buffers.length allocations ≠ [] → after.rfdProdIdx = after.rfdNextToUse) := by
  rcases allocLoop_spec two allocations holds room 0 with
    ⟨after, log, same, refill, sameUse, prod⟩
  have total : start + buffers.length + (granted count buffers.length allocations).length =
      start + (buffers ++ granted count buffers.length allocations).length := by
    rw [List.length_append, Nat.add_assoc]
  rw [allocRxBuffer, use, Cyclic.wrap_mod (by omega), same, Nat.zero_add, total]
  by_cases some : (granted count buffers.length allocations).length ≠ 0
  · have nonempty : granted count buffers.length allocations ≠ [] := fun none =>
      some (List.length_eq_zero_iff.mpr none)
    have less := Nat.mod_lt (start + (buffers ++ granted count buffers.length allocations).length)
      (Nat.zero_lt_of_lt inside)
    rw [if_pos some]
    refine ⟨_, log, rfl, ?_, rfl, fun _ => ?_⟩
    · exact ⟨refill.holds.congr _ rfl rfl, refill.rrdDesc, refill.rrdNextToClean,
        refill.rxBufferLen, fun none => absurd none nonempty, refill.ledger, refill.quiet⟩
    · change (BitVec.ofNat 16 _ &&& BitVec.allOnes 16).toNat = _
      rw [BitVec.and_allOnes, BitVec.toNat_ofNat]
      exact Nat.mod_eq_of_lt (Nat.lt_of_lt_of_le less small)
  · have none : granted count buffers.length allocations = [] :=
      List.eq_nil_of_length_eq_zero (not_not.mp some)
    rw [if_neg some]
    refine ⟨after, log, rfl, refill, ?_, fun nonempty => absurd none nonempty⟩
    rw [sameUse, use, none, List.append_nil]

end Posting

/-! ## What emptying the rings does -/

/-- Nothing stands anywhere in the ring. -/
def Bare (count : Nat) (rings : Rings) : Prop :=
  forall place, place < count → (rings.bufferInfo place).skb = none

section Emptying

variable {count start : Nat} {rings : Rings} {buffers : List Buffer}

theorem eachBuffer_eq (act : TxBuffer → TxBuffer × List Release) (turns : Nat) (rings : Rings) :
    eachBuffer act turns rings =
      ({ rings with
          bufferInfo := fun place =>
            if place < turns then (act (rings.bufferInfo place)).1 else rings.bufferInfo place },
        (List.range turns).flatMap fun place =>
          (act (rings.bufferInfo place)).2.map toEvent) := by
  induction turns with
  | zero => simp [eachBuffer]
  | succ turns ih =>
      have infos : Function.update
          (fun place => if place < turns then (act (rings.bufferInfo place)).1
            else rings.bufferInfo place) turns (act (rings.bufferInfo turns)).1 =
          fun place => if place < turns + 1 then (act (rings.bufferInfo place)).1
            else rings.bufferInfo place := by
        funext place
        rcases Nat.lt_trichotomy place turns with before | same | after
        · rw [Function.update_of_ne (Nat.ne_of_lt before), if_pos before, if_pos (by omega)]
        · rw [same, Function.update_self, if_pos (Nat.lt_succ_self turns)]
        · rw [Function.update_of_ne (Nat.ne_of_gt after), if_neg (by omega), if_neg (by omega)]
      rw [eachBuffer, ih]
      dsimp only
      rw [if_neg (Nat.lt_irrefl turns), List.range_succ, List.flatMap_append,
        List.flatMap_singleton, Rings.setInfo, infos]

theorem cleanBuffer_bare (info : TxBuffer) (bare : info.flags &&& bufferFree ≠ 0 → info.skb = none) :
    (cleanBuffer info).1.skb = none := by
  unfold cleanBuffer
  split
  · next free => exact bare (by simpa using free)
  · rfl

/-- What `atl1c_clean_buffer` gives back of a posted buffer is that buffer. -/
theorem released_cleanBuffer_of_posted {place : Nat} {buffer : Buffer}
    (posted : Posted rings place buffer) :
    ((cleanBuffer (rings.bufferInfo place)).2.map toEvent).filterMap
      RxEvent.released? = [buffer.1] := by
  have busy : ¬ ((rings.bufferInfo place).flags &&& bufferFree != 0) = true := fun free =>
    posted.busy (bne_iff_ne.mp free)
  rw [cleanBuffer, if_neg busy, posted.skb, TxBuffer.unmap]
  split_ifs <;> rfl

theorem cleanBuffer_of_vacant {place : Nat} (vacant : Vacant rings place) :
    cleanBuffer (rings.bufferInfo place) = (rings.bufferInfo place, []) := by
  have free : ((rings.bufferInfo place).flags &&& bufferFree != 0) = true :=
    bne_iff_ne.mpr vacant.free
  rw [cleanBuffer, if_pos free]

theorem toEvent_quiet (release : Release) :
    (toEvent release).isTraffic = false ∧
      (toEvent release).allocated? = none := by
  cases release <;> exact ⟨rfl, rfl⟩

/-- The return statuses are left as they are, marked or not. -/
theorem cleanRxRing_rrdDesc (count : Nat) (rings : Rings) :
    (cleanRxRing count rings).1.rrdDesc = rings.rrdDesc := by
  rw [cleanRxRing, eachBuffer_eq]

theorem cleanRxRing_rxBufferLen (count : Nat) (rings : Rings) :
    (cleanRxRing count rings).1.rxBufferLen = rings.rxBufferLen := by
  rw [cleanRxRing, eachBuffer_eq]

/-- The ring is bare after `atl1c_clean_rx_ring`, and every buffer that stood in
it has been freed. -/
theorem cleanRxRing_spec (inside : start < count) (room : buffers.length < count)
    (holds : Holds count rings start buffers) :
    Bare count (cleanRxRing count rings).1 ∧
      ((cleanRxRing count rings).2.filterMap RxEvent.released?).Perm
        (buffers.map Prod.fst) ∧
      (forall event, event ∈ (cleanRxRing count rings).2 →
        event.isTraffic = false ∧ event.allocated? = none) := by
  rw [cleanRxRing, eachBuffer_eq]
  refine ⟨?_, ?_, ?_⟩
  · intro place less
    rcases Cyclic.exists_add_mod inside less with ⟨i, iLess, rfl⟩
    change (if _ then _ else _ : TxBuffer).skb = none
    rw [if_pos less]
    apply cleanBuffer_bare
    intro free
    rcases Nat.lt_or_ge i buffers.length with before | behind
    · exact absurd free (holds.posted i _ (List.getElem?_eq_getElem before)).busy
    · exact (holds.vacant i behind iLess).skb
  · have gathered := Cyclic.flatMap_around (fun buffer : Buffer => [buffer.1])
      (fun place => ((cleanBuffer (rings.bufferInfo place)).2.map
        toEvent).filterMap RxEvent.released?)
      inside (Nat.le_of_lt room)
      (fun i buffer found => released_cleanBuffer_of_posted (holds.posted i buffer found))
      (fun i behind less => by rw [cleanBuffer_of_vacant (holds.vacant i behind less)]; rfl)
    rw [List.filterMap_flatMap]
    rwa [← List.map_eq_flatMap] at gathered
  · intro event member
    rcases List.mem_flatMap.mp member with ⟨place, _, given⟩
    rcases List.mem_map.mp given with ⟨release, _, rfl⟩
    exact toEvent_quiet release

/-- Marking every buffer of a bare ring as free makes it vacant. -/
theorem initRingPtrs_spec (bare : Bare count rings) :
    ∃ after, initRingPtrs count rings = (after, []) ∧
      Holds count after 0 [] ∧ after.rrdDesc = rings.rrdDesc ∧
      after.rxBufferLen = rings.rxBufferLen ∧
      after.rfdNextToUse = 0 ∧ after.rrdNextToClean = 0 := by
  rw [initRingPtrs, eachBuffer_eq]
  refine ⟨_, Prod.ext rfl (by simp [markFree]), ⟨?_, ?_⟩, rfl, rfl, rfl, rfl⟩
  · intro i buffer found
    cases found
  · intro i _ less
    have same : (0 + i) % count = i := by rw [Nat.zero_add, Nat.mod_eq_of_lt less]
    rw [same]
    refine ⟨?_, ?_⟩
    · change (if _ then _ else _ : TxBuffer).skb = none
      rw [if_pos less]
      exact bare i less
    · change (if _ then _ else _ : TxBuffer).flags &&& bufferFree ≠ 0
      rw [if_pos less]
      exact free_setBufferState _

end Emptying

end Receive
end Atl1c
end KernelHacking
