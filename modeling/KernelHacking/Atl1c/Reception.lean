import KernelHacking.Atl1c.Receive
import KernelHacking.Foundations.Machine

namespace KernelHacking
namespace Atl1c

/-!
# Receiving between the `atl1c` driver and its card

Frames arrive at any time, also between two turns of the driver's loop.  The
card uses the posted buffers in the order of the ring, one for each frame, and
drops a frame when there is none and a frame that is longer than a buffer.  The
driver is polled, posts new buffers at the end of a poll, and is taken down and
up again.

As long as the interface is up, the rings are known by the buffers that stand in
them and by the frames that the driver has not read yet.
-/

namespace Receive

/-! ## What the driver reads in a return status -/

theorem getLsbD_rrsRxdUpdated (i : Nat) : rrsRxdUpdated.getLsbD i = decide (i = 31) := by
  rw [show rrsRxdUpdated = BitVec.twoPow 32 31 from rfl, BitVec.getLsbD_twoPow]
  rcases Nat.decEq i 31 with different | same
  · simp [different, Ne.symm different]
  · simp [same]

theorem masked_word3 (word mask : BitVec 32) (apart : mask.getLsbD 31 = false) :
    ((word ||| rrsRxdUpdated) &&& ~~~ rrsRxdUpdated) &&& mask = word &&& mask := by
  apply BitVec.eq_of_getLsbD_eq
  intro i inside
  by_cases top : i = 31
  · rw [top, BitVec.getLsbD_and, apart, Bool.and_false, BitVec.getLsbD_and, apart, Bool.and_false]
  · simp [BitVec.getLsbD_and, BitVec.getLsbD_or, BitVec.getLsbD_not, getLsbD_rrsRxdUpdated, top,
      inside, -BitVec.getLsbD_eq_getElem]

/-- A mask of the lowest bits. -/
theorem getLsbD_lowMask (n i : Nat) :
    (BitVec.ofNat 32 (2 ^ n - 1)).getLsbD i = (decide (i < 32) && decide (i < n)) := by
  rw [BitVec.getLsbD_ofNat, Nat.testBit_two_pow_sub_one]

theorem getLsbD_word0 (frame : Frame) (place i : Nat) :
    (frame.status place).word0.getLsbD i =
      (decide (i < 32) && (frame.csum.getLsbD i || decide (i = 16) ||
        (decide (20 ≤ i) && place.testBit (i - 20)))) := by
  have one : ((1 : BitVec 32) <<< 16).getLsbD i = (decide (i < 32) && decide (i = 16)) := by
    rw [show ((1 : BitVec 32) <<< 16) = BitVec.twoPow 32 16 from rfl, BitVec.getLsbD_twoPow]
    by_cases sixteen : i = 16
    · rw [sixteen]
    · simp [sixteen, Ne.symm sixteen]
  change (frame.csum.setWidth 32 ||| ((1 : BitVec 32) <<< 16) |||
    (BitVec.ofNat 32 place <<< 20)).getLsbD i = _
  rw [BitVec.getLsbD_or, BitVec.getLsbD_or, one, BitVec.getLsbD_shiftLeft, BitVec.getLsbD_setWidth,
    BitVec.getLsbD_ofNat]
  by_cases inside : i < 32
  · have lower : i - 20 < 32 := by omega
    by_cases high : 20 ≤ i
    · simp [inside, high, lower, Nat.not_lt.mpr high]
    · simp [inside, high, Nat.not_le.mp high]
  · simp [inside]

theorem rfdCnt_status (frame : Frame) (place : Nat) : (frame.status place).rfdCnt = 1 := by
  have one : (frame.status place).word0 >>> 16 &&& 0x000F = 1 := by
    apply BitVec.eq_of_getLsbD_eq
    intro i inside
    rw [BitVec.getLsbD_and, BitVec.getLsbD_ushiftRight, getLsbD_word0,
      show (0x000F : BitVec 32) = BitVec.ofNat 32 (2 ^ 4 - 1) from rfl, getLsbD_lowMask,
      show (1 : BitVec 32) = BitVec.twoPow 32 0 from rfl, BitVec.getLsbD_twoPow]
    have csum : frame.csum.getLsbD (16 + i) = false := BitVec.getLsbD_of_ge _ _ (by omega)
    rw [csum]
    by_cases low : i < 4
    · have outside : ¬ 20 ≤ 16 + i := by omega
      have reach : 16 + i < 32 := by omega
      simp [low, outside, reach, inside, eq_comm]
    · have nonzero : i ≠ 0 := by omega
      simp [low, nonzero, Ne.symm nonzero]
  rw [RecvRetStatus.rfdCnt, one]
  rfl

theorem rfdIndex_status (frame : Frame) {place : Nat} (small : place < 4096) :
    (frame.status place).rfdIndex = place := by
  have index : (frame.status place).word0 >>> 20 &&& 0x0FFF = BitVec.ofNat 32 place := by
    apply BitVec.eq_of_getLsbD_eq
    intro i inside
    rw [BitVec.getLsbD_and, BitVec.getLsbD_ushiftRight, getLsbD_word0,
      show (0x0FFF : BitVec 32) = BitVec.ofNat 32 (2 ^ 12 - 1) from rfl, getLsbD_lowMask,
      BitVec.getLsbD_ofNat]
    have csum : frame.csum.getLsbD (20 + i) = false := BitVec.getLsbD_of_ge _ _ (by omega)
    have apart : ¬ 20 + i = 16 := by omega
    rw [csum]
    by_cases low : i < 12
    · have reach : 20 + i < 32 := by omega
      simp [low, apart, reach, inside]
    · have unset : place.testBit i = false :=
        Nat.testBit_lt_two_pow (Nat.lt_of_lt_of_le small
          (Nat.pow_le_pow_right (n := 2) (i := 12) (Nat.succ_pos 1) (Nat.not_lt.mp low)))
      simp [low, unset]
  rw [RecvRetStatus.rfdIndex, index, BitVec.toNat_ofNat, Nat.mod_eq_of_lt (by omega)]

/-- What is handed up of a packet: its bytes and the VLAN tag beside it. -/
abbrev Payload := List (BitVec 8) × Option (BitVec 16)

namespace Frame

/-- The card marks the frame as wrong. -/
def isWrong (frame : Frame) : Prop := frame.word3 &&& (rrsRxErrSum ||| rrs8023LenErr) ≠ 0

instance (frame : Frame) : Decidable frame.isWrong := inferInstanceAs (Decidable (_ ≠ _))

/-- A good frame is worth its bytes without the check sequence. -/
def payload? (frame : Frame) : Option Payload :=
  if frame.isWrong then none
  else some (frame.data.take (frame.data.length - ethFcsLen),
    if frame.word3 &&& rrsVlanIns ≠ 0 then some (tagToVlan frame.vlanTag) else none)

variable (frame : Frame) (place : Nat)

theorem isValid_status : (frame.status place).isValid := by
  rw [RecvRetStatus.isValid_iff]
  change (frame.word3 ||| rrsRxdUpdated).getLsbD 31 = true
  rw [BitVec.getLsbD_or, getLsbD_rrsRxdUpdated]
  simp

theorem isWrong_clearUpdated : (frame.status place).clearUpdated.isWrong ↔ frame.isWrong := by
  have same := masked_word3 frame.word3 (rrsRxErrSum ||| rrs8023LenErr) (by decide)
  change (frame.word3 ||| rrsRxdUpdated) &&& ~~~ rrsRxdUpdated &&& _ ≠ 0 ↔ _
  rw [same, isWrong]

theorem pktSize_clearUpdated : (frame.status place).clearUpdated.pktSize = frame.data.length := by
  have same := masked_word3 frame.word3 0x3FFF (by decide)
  change ((frame.word3 ||| rrsRxdUpdated) &&& ~~~ rrsRxdUpdated &&& 0x3FFF).toNat = _
  rw [same, frame.size]

theorem vlan_clearUpdated : (frame.status place).clearUpdated.vlan =
    if frame.word3 &&& rrsVlanIns ≠ 0 then some (tagToVlan frame.vlanTag) else none := by
  have same := masked_word3 frame.word3 rrsVlanIns (by decide)
  change (if (frame.word3 ||| rrsRxdUpdated) &&& ~~~ rrsRxdUpdated &&& rrsVlanIns ≠ 0 then _
    else _) = _
  rw [same]
  rfl

end Frame

/-- The rings after the turn that deals with the first unread return status. -/
def retire (count : Nat) (rings : Rings) : Rings :=
  { rings with
    bufferInfo := Function.update rings.bufferInfo rings.rrdNextToClean
      { rings.bufferInfo rings.rrdNextToClean with
        skb := none
        flags := setBufferState (rings.bufferInfo rings.rrdNextToClean).flags bufferFree }
    rfdNextToClean := Cyclic.wrap count rings.rrdNextToClean
    rrdDesc := Function.update rings.rrdDesc rings.rrdNextToClean
      (rings.rrdDesc rings.rrdNextToClean).clearUpdated
    rrdNextToClean := Cyclic.wrap count rings.rrdNextToClean }

/-- What a turn hands up or warns about, when it finds the status of a frame. -/
def turnLog (memory : BitVec 64 → List (BitVec 8)) (rings : Rings) (frame : Frame) :
    List RxEvent :=
  let info := rings.bufferInfo rings.rrdNextToClean
  if frame.isWrong then
    [.wrongPacket (frame.status rings.rrdNextToClean).clearUpdated.word3]
  else
    [.unmapSingle info.dma info.length,
      .receiveSkb info.skb ((memory info.dma).take (frame.data.length - ethFcsLen))
        (if frame.word3 &&& rrsVlanIns ≠ 0 then some (tagToVlan frame.vlanTag) else none)]

/-- A turn that finds the status of a frame deals with the buffer at the same
place of the other ring. -/
theorem cleanRxTurn_status (count : Nat) (memory : BitVec 64 → List (BitVec 8)) (rings : Rings)
    {frame : Frame} (small : rings.rrdNextToClean < 4096)
    (status : rings.rrdDesc rings.rrdNextToClean = frame.status rings.rrdNextToClean) :
    cleanRxTurn count memory rings =
      ((if frame.isWrong then .wrong else .received, retire count rings),
        turnLog memory rings frame) := by
  have valid : (rings.rrdDesc rings.rrdNextToClean).isValid :=
    status ▸ frame.isValid_status rings.rrdNextToClean
  have one : (rings.rrdDesc rings.rrdNextToClean).rfdCnt = 1 :=
    status ▸ rfdCnt_status frame rings.rrdNextToClean
  have index : (rings.rrdDesc rings.rrdNextToClean).clearUpdated.rfdIndex = rings.rrdNextToClean :=
    status ▸ rfdIndex_status frame small
  have read : (cleanRrd count 1 rings.rrdNextToClean rings).rrdDesc rings.rrdNextToClean =
      (rings.rrdDesc rings.rrdNextToClean).clearUpdated := Function.update_self ..
  have cleaned : cleanRfd count (rings.rrdDesc rings.rrdNextToClean).clearUpdated 1
      (cleanRrd count 1 rings.rrdNextToClean rings) = retire count rings := by
    rw [cleanRfd, index]
    rfl
  rw [cleanRxTurn, if_pos valid, one]
  dsimp only
  by_cases wrong : frame.isWrong
  · have marked : (rings.rrdDesc rings.rrdNextToClean).clearUpdated.isWrong :=
      status ▸ (frame.isWrong_clearUpdated rings.rrdNextToClean).mpr wrong
    rw [if_pos (read ▸ marked), turnLog, if_pos wrong, if_pos wrong, read, cleaned, status]
  · have unmarked : ¬ (rings.rrdDesc rings.rrdNextToClean).clearUpdated.isWrong := fun marked =>
      wrong ((frame.isWrong_clearUpdated rings.rrdNextToClean).mp (status ▸ marked))
    rw [if_neg (read ▸ unmarked), if_pos rfl, turnLog, if_neg wrong, if_neg wrong, read, cleaned,
      index, status, frame.pktSize_clearUpdated, frame.vlan_clearUpdated]
    rfl

theorem cleanRxTurn_unmarked (count : Nat) (memory : BitVec 64 → List (BitVec 8)) (rings : Rings)
    (unmarked : ¬ (rings.rrdDesc rings.rrdNextToClean).isValid) :
    cleanRxTurn count memory rings = ((.leave, rings), []) := by
  rw [cleanRxTurn, if_neg unmarked]

/-! ## The card, the poll and the interface -/

/-- The variables of `atl1c_clean_rx_irq`; `leaving` is set once it has left its
loop. -/
structure Poll where
  workDone : Nat
  count : BitVec 16
  workToDo : Nat
  leaving : Bool
deriving DecidableEq, Repr

/-- The rings, the memory that the card writes, how far the card has got in the
two rings, and the poll that is going on. -/
structure World where
  rings : Rings
  memory : BitVec 64 → List (BitVec 8)
  isUp : Bool
  rfdConsumer : Nat
  rrdProducer : Nat
  poll : Option Poll

inductive RxOp
  | up (allocations : List Allocation) (ok : Bool)
  | down
  | frame (frame : Frame)
  | pollStart (budget : Nat)
  | pollTurn
  | pollEnd (allocations : List Allocation)

/-- The card puts a frame into the next posted buffer. -/
def fillBuffer (count : Nat) (world : World) (frame : Frame) : World :=
  { world with
    memory := Function.update world.memory (world.rings.rfdDesc world.rfdConsumer) frame.data
    rings := world.rings.setRrd world.rrdProducer (frame.status world.rfdConsumer)
    rfdConsumer := Cyclic.wrap count world.rfdConsumer
    rrdProducer := Cyclic.wrap count world.rrdProducer }

/-- The frame is not longer than the posted buffers. -/
def Frame.Fits (frame : Frame) (rings : Rings) : Prop :=
  frame.data.length ≤ rings.rxBufferLen.toNat

instance (frame : Frame) (rings : Rings) : Decidable (frame.Fits rings) :=
  inferInstanceAs (Decidable (_ ≤ _))

/-- A frame arrives. -/
def acceptFrame (count : Nat) (world : World) (frame : Frame) : World × List RxEvent :=
  if world.isUp = true ∧ world.rfdConsumer ≠ world.rings.rfdProdIdx ∧ frame.Fits world.rings then
    (fillBuffer count world frame, [.accept frame])
  else (world, [])

/-- The receive side of `atl1c_up`.  `atl1c_configure` fails when no buffer can be
posted; `ok` says whether `atl1c_configure_mac` and `atl1c_request_irq` succeed after
that.  The card starts from the first descriptors. -/
def interfaceUp (count : Nat) (world : World) (allocations : List Allocation) (ok : Bool) :
    World × List RxEvent :=
  if world.isUp then (world, [])
  else
    let marked := initRingPtrs count world.rings
    let filled := allocRxBuffer count allocations marked.1
    if filled.1.2 = 0 ∨ ok = false then
      let emptied := cleanRxRing count filled.1.1
      ({ world with rings := emptied.1 }, marked.2 ++ filled.2 ++ emptied.2)
    else
      ({ world with rings := filled.1.1, isUp := true, rfdConsumer := 0, rrdProducer := 0 },
        marked.2 ++ filled.2)

/-- The receive side of `atl1c_down`, which waits for the end of a poll. -/
def interfaceDown (count : Nat) (world : World) : World × List RxEvent :=
  if world.isUp = true ∧ world.poll = none then
    let emptied := cleanRxRing count world.rings
    ({ world with rings := emptied.1, isUp := false }, emptied.2)
  else (world, [])

/-- One turn of the loop of `atl1c_clean_rx_irq`, its test of the budget included. -/
def pollTurn (count : Nat) (world : World) (poll : Poll) : World × List RxEvent :=
  if poll.leaving then (world, [])
  else if poll.workToDo ≤ poll.workDone then
    ({ world with poll := some { poll with leaving := true } }, [])
  else
    let turn := cleanRxTurn count world.memory world.rings
    let poll :=
      match turn.1.1 with
      | .leave => { poll with leaving := true }
      | .wrong => poll
      | .received => { poll with workDone := poll.workDone + 1, count := poll.count + 1 }
    ({ world with rings := turn.1.2, poll := some poll }, turn.2)

/-- What follows the loop of `atl1c_clean_rx_irq`. -/
def pollEnd (count : Nat) (world : World) (poll : Poll) (allocations : List Allocation) :
    World × List RxEvent :=
  if poll.leaving then
    if poll.count ≠ 0 then
      let filled := allocRxBuffer count allocations world.rings
      ({ world with rings := filled.1.1, poll := none }, filled.2)
    else ({ world with poll := none }, [])
  else (world, [])

/-- A step that does not fit the state leaves it as it is. -/
def rxStep (count : Nat) (world : World) : RxOp → World × List RxEvent
  | .up allocations ok => interfaceUp count world allocations ok
  | .down => interfaceDown count world
  | .frame frame => acceptFrame count world frame
  | .pollStart budget =>
      if world.isUp = true ∧ world.poll = none then
        ({ world with poll := some ⟨0, 0, budget, false⟩ }, [])
      else (world, [])
  | .pollTurn =>
      match world.poll with
      | none => (world, [])
      | some poll => pollTurn count world poll
  | .pollEnd allocations =>
      match world.poll with
      | none => (world, [])
      | some poll => pollEnd count world poll allocations

/-- The driver and the card, for rings of this size. -/
def reception (count : Nat) : Machine World RxOp (List RxEvent) where
  step := rxStep count

/-! ## What holds while the interface is up -/

/-- The posted buffers, oldest first, and the frames that the driver has not read
yet.  The frames are in the first of the buffers. -/
structure Synced (count : Nat) (world : World) (buffers : List Buffer) (unread : List Frame) :
    Prop where
  inside : world.rings.rrdNextToClean < count
  room : buffers.length < count
  holds : Holds count world.rings world.rings.rrdNextToClean buffers
  use : world.rings.rfdNextToUse = (world.rings.rrdNextToClean + buffers.length) % count
  prod : world.rings.rfdProdIdx = world.rings.rfdNextToUse
  behind : unread.length ≤ buffers.length
  consumer : world.rfdConsumer = (world.rings.rrdNextToClean + unread.length) % count
  rrdProducer : world.rrdProducer = world.rfdConsumer
  status : forall (i : Nat) (frame : Frame), unread[i]? = some frame →
    world.rings.rrdDesc ((world.rings.rrdNextToClean + i) % count) =
      frame.status ((world.rings.rrdNextToClean + i) % count)
  data : forall (i : Nat) (frame : Frame) (buffer : Buffer), unread[i]? = some frame →
    buffers[i]? = some buffer →
    world.memory buffer.2 = frame.data
  apart : (buffers.map Prod.snd).Nodup

/-- No return status is marked as updated behind the unread ones. -/
def Unmarked (count : Nat) (rings : Rings) (unread : List Frame) : Prop :=
  forall i, unread.length ≤ i → i < count →
    ¬ (rings.rrdDesc ((rings.rrdNextToClean + i) % count)).isValid

namespace Synced

variable {count : Nat} {world : World} {buffers : List Buffer} {unread : List Frame}

/-- The card finds a buffer exactly when a posted one is unused. -/
theorem consumer_ne_prodIdx_iff (synced : Synced count world buffers unread) :
    world.rfdConsumer ≠ world.rings.rfdProdIdx ↔ unread.length < buffers.length := by
  have room := synced.room
  have behind := synced.behind
  rw [synced.prod, synced.use, synced.consumer]
  constructor
  · intro different
    rcases Nat.lt_or_eq_of_le behind with less | same
    · exact less
    · exact absurd (by rw [same]) different
  · intro less same
    exact absurd (Cyclic.add_mod_injective (by omega) room same) (by omega)

/-- Posted buffers have different addresses. -/
theorem place_of_address (synced : Synced count world buffers unread) {i j : Nat}
    {first second : Buffer} (atFirst : buffers[i]? = some first)
    (atSecond : buffers[j]? = some second) (same : first.2 = second.2) : i = j := by
  have firstAddress : (buffers.map Prod.snd)[i]? = some first.2 := by
    rw [List.getElem?_map, atFirst]
    rfl
  have secondAddress : (buffers.map Prod.snd)[j]? = some first.2 := by
    rw [List.getElem?_map, atSecond, same]
    rfl
  have bound : i < (buffers.map Prod.snd).length := (List.getElem?_eq_some_iff.mp firstAddress).1
  exact (List.getElem?_inj bound synced.apart).mp (firstAddress.trans secondAddress.symm)

/-- The card has filled one more buffer. -/
theorem fillBuffer (synced : Synced count world buffers unread)
    (less : unread.length < buffers.length) (frame : Frame) :
    Synced count (fillBuffer count world frame) buffers (unread ++ [frame]) where
  inside := synced.inside
  room := synced.room
  holds := synced.holds.congr _ rfl rfl
  use := synced.use
  prod := synced.prod
  behind := by
    rw [List.length_append]
    exact less
  consumer := by
    change Cyclic.wrap count world.rfdConsumer = _
    rw [synced.consumer, Cyclic.wrap_mod (Nat.zero_lt_of_lt synced.inside), List.length_append]
    rfl
  rrdProducer := by
    change Cyclic.wrap count world.rrdProducer = Cyclic.wrap count world.rfdConsumer
    rw [synced.rrdProducer]
  status i other found := by
    change Function.update world.rings.rrdDesc world.rrdProducer (frame.status world.rfdConsumer)
        ((world.rings.rrdNextToClean + i) % count) =
      other.status ((world.rings.rrdNextToClean + i) % count)
    have room := synced.room
    rw [synced.rrdProducer, synced.consumer]
    rcases Nat.lt_or_ge i unread.length with before | behind
    · have elsewhere : (world.rings.rrdNextToClean + i) % count ≠
          (world.rings.rrdNextToClean + unread.length) % count := fun same =>
        absurd (Cyclic.add_mod_injective (by omega) (by omega) same) (Nat.ne_of_lt before)
      rw [List.getElem?_append_left before] at found
      rw [Function.update_of_ne elsewhere]
      exact synced.status i other found
    · have last : i = unread.length := by
        have bound := (List.getElem?_eq_some_iff.mp found).1
        rw [List.length_append, List.length_singleton] at bound
        omega
      subst last
      rw [List.getElem?_concat_length] at found
      rw [Option.some.inj found]
      exact Function.update_self ..
  data i other buffer found standing := by
    change Function.update world.memory (world.rings.rfdDesc world.rfdConsumer) frame.data
      buffer.2 = other.data
    have next := synced.holds.posted unread.length _ (List.getElem?_eq_getElem less)
    rw [synced.consumer, next.desc]
    rcases Nat.lt_or_ge i unread.length with before | behind
    · have elsewhere : buffer.2 ≠ buffers[unread.length].2 := fun same =>
        absurd (synced.place_of_address standing (List.getElem?_eq_getElem less) same)
          (Nat.ne_of_lt before)
      rw [List.getElem?_append_left before] at found
      rw [Function.update_of_ne elsewhere]
      exact synced.data i other buffer found standing
    · have last : i = unread.length := by
        have bound := (List.getElem?_eq_some_iff.mp found).1
        rw [List.length_append, List.length_singleton] at bound
        omega
      subst last
      rw [List.getElem?_concat_length] at found
      rw [List.getElem?_eq_getElem less] at standing
      rw [Option.some.inj found, Option.some.inj standing]
      exact Function.update_self ..
  apart := synced.apart

/-- The first unread status names the first posted buffer, which holds its frame. -/
theorem first {frame : Frame} {buffer : Buffer}
    (synced : Synced count world (buffer :: buffers) (frame :: unread)) :
    world.rings.rrdDesc world.rings.rrdNextToClean =
        frame.status world.rings.rrdNextToClean ∧
      Posted world.rings world.rings.rrdNextToClean buffer ∧
      world.memory buffer.2 = frame.data := by
  have status := synced.status 0 frame rfl
  have posted := synced.holds.posted 0 buffer rfl
  rw [Nat.add_zero, Nat.mod_eq_of_lt synced.inside] at status posted
  exact ⟨status, posted, synced.data 0 frame buffer rfl rfl⟩

/-- The driver has dealt with the first unread status. -/
theorem retire {frame : Frame} {buffer : Buffer}
    (synced : Synced count world (buffer :: buffers) (frame :: unread)) (poll : Option Poll) :
    Synced count { world with rings := retire count world.rings, poll := poll } buffers unread where
  inside := Cyclic.wrap_lt synced.inside
  room := Nat.lt_of_succ_lt synced.room
  holds := by
    apply synced.holds.tail synced.inside (Nat.lt_of_succ_lt synced.room)
    · intro place elsewhere
      exact ⟨Function.update_of_ne elsewhere .., rfl⟩
    · refine ⟨?_, ?_⟩
      · change (Function.update world.rings.bufferInfo _ _ _).skb = none
        rw [Function.update_self]
      · change (Function.update world.rings.bufferInfo _ _ _).flags &&& bufferFree ≠ 0
        rw [Function.update_self]
        exact free_setBufferState _
  use := by
    change world.rings.rfdNextToUse = (Cyclic.wrap count world.rings.rrdNextToClean + _) % count
    rw [synced.use, Cyclic.wrap_add_mod synced.inside]
    rfl
  prod := synced.prod
  behind := Nat.le_of_succ_le_succ synced.behind
  consumer := by
    change world.rfdConsumer = (Cyclic.wrap count world.rings.rrdNextToClean + _) % count
    rw [synced.consumer, Cyclic.wrap_add_mod synced.inside]
    rfl
  rrdProducer := synced.rrdProducer
  status i other found := by
    change Function.update world.rings.rrdDesc world.rings.rrdNextToClean _
        ((Cyclic.wrap count world.rings.rrdNextToClean + i) % count) =
      other.status ((Cyclic.wrap count world.rings.rrdNextToClean + i) % count)
    have room := synced.room
    have behind := synced.behind
    have before : i < unread.length := (List.getElem?_eq_some_iff.mp found).1
    rw [List.length_cons] at room behind
    rw [List.length_cons] at behind
    rw [Cyclic.wrap_add_mod synced.inside]
    have elsewhere : (world.rings.rrdNextToClean + (i + 1)) % count ≠
        world.rings.rrdNextToClean := by
      intro same
      have zero : (world.rings.rrdNextToClean + (i + 1)) % count =
          (world.rings.rrdNextToClean + 0) % count := by
        rw [same, Nat.add_zero, Nat.mod_eq_of_lt synced.inside]
      exact absurd (Cyclic.add_mod_injective (by omega) (by omega) zero) (Nat.succ_ne_zero i)
    rw [Function.update_of_ne elsewhere]
    exact synced.status (i + 1) other found
  data i other buffer found standing := synced.data (i + 1) other buffer found standing
  apart := (List.nodup_cons.mp synced.apart).2

end Synced

theorem Unmarked.fillBuffer {count : Nat} {world : World} {buffers : List Buffer}
    {unread : List Frame} (unmarked : Unmarked count world.rings unread)
    (synced : Synced count world buffers unread) (less : unread.length < buffers.length)
    (frame : Frame) : Unmarked count (fillBuffer count world frame).rings (unread ++ [frame]) := by
  intro i behind inside
  rw [List.length_append, List.length_singleton] at behind
  have room := synced.room
  have elsewhere : (world.rings.rrdNextToClean + i) % count ≠
      (world.rings.rrdNextToClean + unread.length) % count := fun same =>
    absurd (Cyclic.add_mod_injective inside (by omega) same) (by omega)
  change ¬ (Function.update world.rings.rrdDesc world.rrdProducer _
    ((world.rings.rrdNextToClean + i) % count)).isValid
  rw [synced.rrdProducer, synced.consumer, Function.update_of_ne elsewhere]
  exact unmarked i (by omega) inside

theorem Unmarked.retire {count : Nat} {rings : Rings} {frame : Frame} {unread : List Frame}
    (unmarked : Unmarked count rings (frame :: unread)) (inside : rings.rrdNextToClean < count) :
    Unmarked count (retire count rings) unread := by
  intro i behind less
  change ¬ (Function.update rings.rrdDesc rings.rrdNextToClean
    (rings.rrdDesc rings.rrdNextToClean).clearUpdated
    ((Cyclic.wrap count rings.rrdNextToClean + i) % count)).isValid
  rw [Cyclic.wrap_add_mod inside]
  rcases Nat.eq_or_lt_of_le (Nat.succ_le_of_lt less) with whole | within
  · rw [Nat.succ_eq_add_one] at whole
    have around : (rings.rrdNextToClean + (i + 1)) % count = rings.rrdNextToClean := by
      rw [whole, Nat.add_mod_right, Nat.mod_eq_of_lt inside]
    rw [around, Function.update_self]
    exact RecvRetStatus.not_isValid_clearUpdated _
  · have elsewhere : (rings.rrdNextToClean + (i + 1)) % count ≠ rings.rrdNextToClean := by
      intro same
      have zero : (rings.rrdNextToClean + (i + 1)) % count = (rings.rrdNextToClean + 0) % count := by
        rw [same, Nat.add_zero, Nat.mod_eq_of_lt inside]
      exact absurd (Cyclic.add_mod_injective within (by omega) zero) (Nat.succ_ne_zero i)
    rw [Function.update_of_ne elsewhere]
    exact unmarked (i + 1) (Nat.succ_le_succ behind) within

/-- The next return status is marked exactly when a frame is unread. -/
theorem Unmarked.isValid_iff {count : Nat} {world : World} {buffers : List Buffer}
    {unread : List Frame} (unmarked : Unmarked count world.rings unread)
    (synced : Synced count world buffers unread) :
    (world.rings.rrdDesc world.rings.rrdNextToClean).isValid ↔ unread ≠ [] := by
  have head : (world.rings.rrdNextToClean + 0) % count = world.rings.rrdNextToClean := by
    rw [Nat.add_zero, Nat.mod_eq_of_lt synced.inside]
  cases unread with
  | nil =>
      have unset := unmarked 0 (Nat.le_refl 0) (Nat.zero_lt_of_lt synced.inside)
      rw [head] at unset
      exact ⟨fun valid => absurd valid unset, fun nonempty => absurd rfl nonempty⟩
  | cons frame unread =>
      have status := synced.status 0 frame rfl
      rw [head] at status
      rw [status]
      exact ⟨fun _ => List.cons_ne_nil _ _, fun _ => frame.isValid_status _⟩

end Receive
end Atl1c
end KernelHacking
