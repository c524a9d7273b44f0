import KernelHacking.Atl1c.Reception
import KernelHacking.Foundations.Conservation

namespace KernelHacking
namespace Atl1c

/-!
# What the `atl1c` driver hands up and what becomes of its buffers

The receive path is a queue: what it hands up is what the card has accepted, in
order and unchanged, less the frames marked as wrong.  It is also a store of
buffers, and every buffer that the kernel has given is handed up, freed or still
in the ring.  A wrong packet is the exception: its buffer is forgotten in its
place and never freed.
-/

namespace Receive

/-! ## The account of the driver -/

namespace RxEvent

def accepted? : RxEvent → Option Payload
  | .accept frame => frame.payload?
  | _ => none

def received? : RxEvent → Option Payload
  | .receiveSkb _ data vlan => some (data, vlan)
  | _ => none

def isWrong : RxEvent → Bool
  | .wrongPacket _ => true
  | _ => false

/-- No packet is handed up without a buffer. -/
def isBacked : RxEvent → Bool
  | .receiveSkb skb _ _ => skb.isSome
  | _ => true

theorem of_not_isTraffic {event : RxEvent} (quiet : event.isTraffic = false) :
    event.accepted? = none ∧ event.received? = none ∧ event.isWrong = false ∧
      event.isBacked = true := by
  cases event <;> first | exact ⟨rfl, rfl, rfl, rfl⟩ | cases quiet

end RxEvent

/-- The buffers in the ring, the frames in them that are unread, and the buffers
that the driver has forgotten. -/
structure Account where
  buffers : List Buffer
  unread : List Frame
  lost : List Nat

namespace Account

def payloads (account : Account) : List Payload := account.unread.filterMap Frame.payload?

def owned (account : Account) : List Nat := account.buffers.map Prod.fst ++ account.lost

end Account

structure Balance (held : Account) (log : List RxEvent) (after : Account) : Prop where
  packets : InOrder RxEvent.accepted? RxEvent.received? held.payloads log after.payloads
  memory : Accounted RxEvent.allocated? RxEvent.released? held.owned log after.owned
  wrong : after.lost.length = held.lost.length + log.countP RxEvent.isWrong
  backed : forall event, event ∈ log → event.isBacked = true

namespace Balance

variable {held middle after : Account} {first second log : List RxEvent}

theorem refl (held : Account) : Balance held [] held where
  packets := InOrder.refl _
  memory := Accounted.refl _
  wrong := rfl
  backed _ member := absurd member List.not_mem_nil

theorem trans (here : Balance held first middle) (later : Balance middle second after) :
    Balance held (first ++ second) after where
  packets := here.packets.trans later.packets
  memory := here.memory.trans later.memory
  wrong := by
    rw [later.wrong, here.wrong, List.countP_append, Nat.add_assoc]
  backed event member := by
    rcases List.mem_append.mp member with earlier | later'
    · exact here.backed event earlier
    · exact later.backed event later'

/-- Events about memory alone leave the packets as they are. -/
theorem of_quiet (quiet : forall event, event ∈ log → event.isTraffic = false)
    (packets : after.unread = held.unread) (lost : after.lost = held.lost)
    (memory : Accounted RxEvent.allocated? RxEvent.released? held.owned log after.owned) :
    Balance held log after where
  packets := by
    have none : log.filterMap RxEvent.accepted? = [] ∧ log.filterMap RxEvent.received? = [] :=
      ⟨List.filterMap_eq_nil_iff.mpr fun event member =>
          (RxEvent.of_not_isTraffic (quiet event member)).1,
        List.filterMap_eq_nil_iff.mpr fun event member =>
          (RxEvent.of_not_isTraffic (quiet event member)).2.1⟩
    rw [InOrder, none.1, none.2, List.append_nil, Account.payloads, Account.payloads, packets]
    rfl
  memory := memory
  wrong := by
    have none : log.countP RxEvent.isWrong = 0 := List.countP_eq_zero.mpr fun event member set =>
      absurd ((RxEvent.of_not_isTraffic (quiet event member)).2.2.1) (by rw [set]; decide)
    rw [none, lost, Nat.add_zero]
  backed event member := (RxEvent.of_not_isTraffic (quiet event member)).2.2.2

end Balance

/-- The state of the driver and the card, with what the driver accounts for.
Between two ups of the interface no status is left marked. -/
inductive Live (count : Nat) (world : World) : Account → Prop
  | up {account : Account} (isUp : world.isUp = true)
      (synced : Synced count world account.buffers account.unread)
      (unmarked : Unmarked count world.rings account.unread) : Live count world account
  | down {lost : List Nat} (isDown : world.isUp = false) (idle : world.poll = none)
      (bare : Bare count world.rings)
      (unmarked : forall place, place < count → ¬ (world.rings.rrdDesc place).isValid) :
      Live count world ⟨[], [], lost⟩

/-- The kernel maps buffers at addresses of their own. -/
structure Fresh (count : Nat) (rings : Rings) (allocations : List Allocation) : Prop where
  apart : ((mappings allocations).map Prod.snd).Nodup
  unused : forall place, place < count → ¬ rings.isFree place →
    (rings.bufferInfo place).dma ∉ (mappings allocations).map Prod.snd

/-- Buffers are mapped at addresses of their own, and the interface is not taken
down while a return status is unread. -/
def Orderly (count : Nat) (world : World) : RxOp → Prop
  | .up allocations _ => ((mappings allocations).map Prod.snd).Nodup
  | .down => world.poll = none → ¬ (world.rings.rrdDesc world.rings.rrdNextToClean).isValid
  | .pollEnd allocations => Fresh count world.rings allocations
  | _ => True

section Steps

variable {count : Nat} {world : World} {held : Account}

/-- A step of this result keeps the account. -/
def Keeps (count : Nat) (held : Account) (result : World × List RxEvent) : Prop :=
  ∃ after, Live count result.1 after ∧ Balance held result.2 after

theorem Keeps.same (live : Live count world held) : Keeps count held (world, []) :=
  ⟨held, live, Balance.refl held⟩

theorem mem_granted {standing : Nat} {allocations : List Allocation} {address : BitVec 64}
    (member : address ∈ (granted count standing allocations).map Prod.snd) :
    address ∈ (mappings allocations).map Prod.snd := by
  rcases List.mem_map.mp member with ⟨buffer, given, rfl⟩
  exact List.mem_map_of_mem (List.mem_of_mem_take given)

theorem nodup_granted {allocations : List Allocation} (standing : Nat)
    (apart : ((mappings allocations).map Prod.snd).Nodup) :
    ((granted count standing allocations).map Prod.snd).Nodup := by
  rw [granted, List.map_take]
  exact apart.sublist (List.take_sublist _ _)

/-- Posting balances the buffers in the ring with those that the kernel has given. -/
theorem Refill.accounted {start : Nat} {rings after : Rings} {buffers more : List Buffer}
    {log : List RxEvent} (refill : Refill count start rings after buffers more log)
    (lost : List Nat) :
    Accounted RxEvent.allocated? RxEvent.released? (buffers.map Prod.fst ++ lost) log
      ((buffers ++ more).map Prod.fst ++ lost) := by
  rw [Accounted, List.perm_iff_count]
  intro skb
  have counted := refill.ledger.count_eq skb
  rw [List.count_append] at counted
  rw [List.map_append]
  simp only [List.count_append]
  omega

/-- Emptying the ring balances the buffers that stood in it with those freed. -/
theorem emptied_accounted {buffers : List Buffer} {log : List RxEvent} (lost : List Nat)
    (ledger : (log.filterMap RxEvent.released?).Perm (buffers.map Prod.fst))
    (quiet : forall event, event ∈ log → event.isTraffic = false ∧ event.allocated? = none) :
    Accounted RxEvent.allocated? RxEvent.released? (buffers.map Prod.fst ++ lost) log
      (([] : List Buffer).map Prod.fst ++ lost) := by
  have none : log.filterMap RxEvent.allocated? = [] :=
    List.filterMap_eq_nil_iff.mpr fun event member => (quiet event member).2
  rw [Accounted, none, List.append_nil]
  exact (ledger.symm.append_right lost)

theorem keeps_frame (live : Live count world held) (frame : Frame) :
    Keeps count held (acceptFrame count world frame) := by
  unfold acceptFrame
  split
  · next ready =>
      cases live with
      | down isDown => exact absurd ready.1 (by rw [isDown]; decide)
      | up isUp synced unmarked =>
          have less := synced.consumer_ne_prodIdx_iff.mp ready.2.1
          refine ⟨⟨held.buffers, held.unread ++ [frame], held.lost⟩,
            .up isUp (synced.fillBuffer less frame) (unmarked.fillBuffer synced less frame), ?_⟩
          refine ⟨?_, Accounted.of_silent held.owned rfl rfl, rfl, by simp [RxEvent.isBacked]⟩
          rw [InOrder, Account.payloads, Account.payloads, List.filterMap_append]
          rfl
  · exact Keeps.same live

theorem keeps_down (live : Live count world held) (orderly : Orderly count world .down) :
    Keeps count held (interfaceDown count world) := by
  unfold interfaceDown
  split
  · next ready =>
      cases live with
      | down isDown => exact absurd ready.1 (by rw [isDown]; decide)
      | up isUp synced unmarked =>
          have read : held.unread = [] := by
            by_contra some
            exact orderly ready.2 ((unmarked.isValid_iff synced).mpr some)
          have emptied := cleanRxRing_spec synced.inside synced.room synced.holds
          refine ⟨⟨[], [], held.lost⟩, .down rfl ready.2 emptied.1 ?_, ?_⟩
          · intro place inside
            rcases Cyclic.exists_add_mod synced.inside inside with ⟨i, less, rfl⟩
            dsimp only
            rw [cleanRxRing_rrdDesc]
            exact unmarked i (by rw [read]; exact Nat.zero_le i) less
          · exact Balance.of_quiet (fun event member => (emptied.2.2 event member).1) read.symm rfl
              (emptied_accounted held.lost emptied.2.1 emptied.2.2)
  · exact Keeps.same live

theorem Synced.withPoll {buffers : List Buffer} {unread : List Frame}
    (synced : Synced count world buffers unread) (poll : Option Poll) :
    Synced count { world with poll := poll } buffers unread :=
  ⟨synced.inside, synced.room, synced.holds, synced.use, synced.prod, synced.behind,
    synced.consumer, synced.rrdProducer, synced.status, synced.data, synced.apart⟩

theorem keeps_pollStart (live : Live count world held) (budget : Nat) :
    Keeps count held
      (if world.isUp = true ∧ world.poll = none then
        ({ world with poll := some ⟨0, 0, budget, false⟩ }, []) else (world, [])) := by
  split
  · next ready =>
      cases live with
      | down isDown => exact absurd ready.1 (by rw [isDown]; decide)
      | up isUp synced unmarked =>
          exact ⟨held, .up isUp (synced.withPoll _) unmarked, Balance.refl held⟩
  · exact Keeps.same live

/-- The account after a turn that has dealt with the first unread frame. -/
def Account.dealt (account : Account) (frame : Frame) : Account where
  buffers := account.buffers.tail
  unread := account.unread.tail
  lost := if frame.isWrong then account.lost ++ (account.buffers.head?.map Prod.fst).toList
    else account.lost

theorem turnLog_balance {buffer : Buffer} {buffers : List Buffer} {frame : Frame}
    {unread : List Frame} (lost : List Nat)
    (synced : Synced count world (buffer :: buffers) (frame :: unread)) :
    Balance ⟨buffer :: buffers, frame :: unread, lost⟩ (turnLog world.memory world.rings frame)
      (Account.dealt ⟨buffer :: buffers, frame :: unread, lost⟩ frame) := by
  rcases synced.first with ⟨_, posted, filled⟩
  by_cases wrong : frame.isWrong
  · have worthless : frame.payload? = none := by rw [Frame.payload?, if_pos wrong]
    rw [turnLog, if_pos wrong, Account.dealt, if_pos wrong]
    refine ⟨?_, ?_, ?_, by simp [RxEvent.isBacked]⟩
    · rw [InOrder, Account.payloads, List.filterMap_cons_none worthless, Account.payloads]
      exact List.append_nil _
    · rw [Accounted, Account.owned, Account.owned]
      change ((buffer.1 :: (buffers.map Prod.fst ++ lost)) ++ []).Perm
        (buffers.map Prod.fst ++ (lost ++ [buffer.1]))
      rw [List.append_nil, ← List.append_assoc]
      exact (List.perm_append_singleton _ _).symm
    · rw [List.length_append]
      rfl
  · have worth : frame.payload? = some (frame.data.take (frame.data.length - ethFcsLen),
        if frame.word3 &&& rrsVlanIns ≠ 0 then some (tagToVlan frame.vlanTag) else none) := by
      rw [Frame.payload?, if_neg wrong]
    rw [turnLog, if_neg wrong, Account.dealt, if_neg wrong, posted.skb, posted.dma, filled]
    refine ⟨?_, ?_, rfl, by simp [RxEvent.isBacked]⟩
    · rw [InOrder, Account.payloads, List.filterMap_cons_some worth]
      exact List.append_nil _
    · rw [Accounted]
      exact (List.append_nil _).symm ▸ List.Perm.refl _

/-- A turn hands up the first unread frame, or forgets its buffer when the frame
is wrong. -/
theorem keeps_pollTurn (small : count ≤ 4096) (live : Live count world held) {poll : Poll}
    (going : world.poll = some poll) : Keeps count held (pollTurn count world poll) := by
  cases live with
  | down _ idle =>
      rw [idle] at going
      cases going
  | up isUp synced unmarked =>
      unfold pollTurn
      split
      · exact Keeps.same (.up isUp synced unmarked)
      · split
        · exact ⟨held, .up isUp (synced.withPoll _) unmarked, Balance.refl held⟩
        · rcases held with ⟨buffers, unread, lost⟩
          cases unread with
          | nil =>
              have unset : ¬ (world.rings.rrdDesc world.rings.rrdNextToClean).isValid := fun set =>
                (unmarked.isValid_iff synced).mp set rfl
              rw [cleanRxTurn_unmarked count world.memory world.rings unset]
              exact ⟨⟨buffers, [], lost⟩, .up isUp (synced.withPoll _) unmarked, Balance.refl _⟩
          | cons frame unread =>
              cases buffers with
              | nil => exact absurd synced.behind (Nat.not_succ_le_zero _)
              | cons buffer buffers =>
                  have first := synced.first
                  have inside : world.rings.rrdNextToClean < 4096 :=
                    Nat.lt_of_lt_of_le synced.inside small
                  rw [cleanRxTurn_status count world.memory world.rings inside first.1]
                  have balanced := turnLog_balance lost synced
                  by_cases wrong : frame.isWrong
                  · refine ⟨_, .up isUp ?_ ?_, balanced⟩
                    · rw [if_pos wrong]
                      exact synced.retire (some poll)
                    · exact unmarked.retire synced.inside
                  · refine ⟨_, .up isUp ?_ ?_, balanced⟩
                    · rw [if_neg wrong]
                      exact synced.retire _
                    · exact unmarked.retire synced.inside

/-- New buffers are posted behind those in the ring. -/
theorem Synced.refill {buffers : List Buffer} {unread : List Frame} {allocations : List Allocation}
    {after : Rings} {log : List RxEvent} (synced : Synced count world buffers unread)
    (fresh : Fresh count world.rings allocations)
    (refill : Refill count world.rings.rrdNextToClean world.rings after buffers
      (granted count buffers.length allocations) log)
    (use : after.rfdNextToUse = (world.rings.rrdNextToClean +
      (buffers ++ granted count buffers.length allocations).length) % count)
    (prod : granted count buffers.length allocations ≠ [] →
      after.rfdProdIdx = after.rfdNextToUse) (poll : Option Poll) :
    Synced count { world with rings := after, poll := poll }
      (buffers ++ granted count buffers.length allocations) unread where
  inside := by
    change after.rrdNextToClean < count
    rw [refill.rrdNextToClean]
    exact synced.inside
  room := by
    have room := synced.room
    have bound := length_granted_le count buffers.length allocations
    rw [List.length_append]
    omega
  holds := by
    change Holds count after after.rrdNextToClean _
    rw [refill.rrdNextToClean]
    exact refill.holds
  use := by
    change after.rfdNextToUse = (after.rrdNextToClean + _) % count
    rw [refill.rrdNextToClean, use]
  prod := by
    by_cases none : granted count buffers.length allocations = []
    · change after.rfdProdIdx = after.rfdNextToUse
      rw [use, refill.rfdProdIdx none, synced.prod, synced.use, none, List.append_nil]
    · exact prod none
  behind := by
    have behind := synced.behind
    rw [List.length_append]
    omega
  consumer := by
    change world.rfdConsumer = (after.rrdNextToClean + _) % count
    rw [refill.rrdNextToClean, synced.consumer]
  rrdProducer := synced.rrdProducer
  status i frame found := by
    change after.rrdDesc ((after.rrdNextToClean + i) % count) =
      frame.status ((after.rrdNextToClean + i) % count)
    rw [refill.rrdNextToClean, refill.rrdDesc]
    exact synced.status i frame found
  data i frame buffer found standing := by
    have behind := synced.behind
    have bound := (List.getElem?_eq_some_iff.mp found).1
    rw [List.getElem?_append_left (by omega)] at standing
    exact synced.data i frame buffer found standing
  apart := by
    rw [List.map_append, List.nodup_append]
    refine ⟨synced.apart, nodup_granted _ fresh.apart, ?_⟩
    rintro address old other new rfl
    rcases List.mem_map.mp old with ⟨buffer, member, rfl⟩
    rcases List.getElem?_of_mem member with ⟨i, found⟩
    have posted := synced.holds.posted i buffer found
    have inside := Nat.mod_lt (world.rings.rrdNextToClean + i) (Nat.zero_lt_of_lt synced.inside)
    exact fresh.unused _ inside posted.busy (posted.dma.symm ▸ mem_granted new)

theorem keeps_pollEnd (two : 2 ≤ count) (small : count ≤ 4096) (live : Live count world held)
    {poll : Poll} (going : world.poll = some poll) {allocations : List Allocation}
    (fresh : Fresh count world.rings allocations) :
    Keeps count held (pollEnd count world poll allocations) := by
  cases live with
  | down _ idle =>
      rw [idle] at going
      cases going
  | up isUp synced unmarked =>
      unfold pollEnd
      split
      · split
        · rcases allocRxBuffer_spec two (by omega) allocations synced.inside synced.holds synced.room
            synced.use with ⟨after, log, same, refill, use, prod⟩
          rw [same]
          refine ⟨⟨held.buffers ++ granted count held.buffers.length allocations, held.unread,
            held.lost⟩, .up isUp (synced.refill fresh refill use prod none) ?_, ?_⟩
          · intro i behind inside
            dsimp only
            rw [refill.rrdDesc, refill.rrdNextToClean]
            exact unmarked i behind inside
          · exact Balance.of_quiet refill.quiet rfl rfl (refill.accounted held.lost)
        · exact ⟨held, .up isUp (synced.withPoll none) unmarked, Balance.refl held⟩
      · exact Keeps.same (.up isUp synced unmarked)

/-- The interface comes up with the buffers that the kernel grants; the return
statuses are as they were. -/
theorem interfaceUp_granted (two : 2 ≤ count) (small : count ≤ 4096) (isDown : world.isUp = false)
    (bare : Bare count world.rings) {allocations : List Allocation}
    (apart : ((mappings allocations).map Prod.snd).Nodup)
    (something : granted count 0 allocations ≠ []) :
    ∃ after log,
      interfaceUp count world allocations true =
        ({ world with rings := after, isUp := true, rfdConsumer := 0, rrdProducer := 0 }, log) ∧
      Synced count
        { world with rings := after, isUp := true, rfdConsumer := 0, rrdProducer := 0 }
        (granted count 0 allocations) [] ∧
      after.rrdDesc = world.rings.rrdDesc ∧ after.rxBufferLen = world.rings.rxBufferLen ∧
      after.rrdNextToClean = 0 ∧
      (forall event, event ∈ log → event.isTraffic = false) ∧
      forall lost, Accounted RxEvent.allocated? RxEvent.released? lost log
        ((granted count 0 allocations).map Prod.fst ++ lost) := by
  have positive : 0 < count := by omega
  have room : ([] : List Buffer).length < count := positive
  have bound := length_granted_le count 0 allocations
  rcases initRingPtrs_spec bare with ⟨marked, same, holds, statuses, len, use, clean⟩
  rcases allocRxBuffer_spec two (by omega) allocations positive holds room
    (by rw [use]; exact (Nat.zero_mod count).symm) with
    ⟨after, log, filled, refill, filledUse, prod⟩
  have started : ¬ ((granted count ([] : List Buffer).length allocations).length = 0 ∨
      true = false) := by
    rintro (none | never)
    · exact something (List.length_eq_zero_iff.mp none)
    · cases never
  have start : after.rrdNextToClean = 0 := refill.rrdNextToClean.trans clean
  refine ⟨after, log, ?_, ?_, refill.rrdDesc.trans statuses, refill.rxBufferLen.trans len,
    start, refill.quiet,
    fun lost => refill.accounted lost⟩
  · rw [interfaceUp, if_neg (by rw [isDown]; decide), same]
    dsimp only
    rw [filled]
    dsimp only
    rw [if_neg started]
    rfl
  · exact {
      inside := by
        change after.rrdNextToClean < count
        rw [start]
        exact positive
      room := by omega
      holds := by
        change Holds count after after.rrdNextToClean _
        rw [start]
        exact refill.holds
      use := by
        change after.rfdNextToUse = (after.rrdNextToClean + _) % count
        rw [start, filledUse, List.nil_append]
        rfl
      prod := prod something
      behind := Nat.zero_le _
      consumer := by
        change 0 = (after.rrdNextToClean + 0) % count
        rw [start]
        exact (Nat.zero_mod count).symm
      rrdProducer := rfl
      status := by
        intro i frame found
        cases found
      data := by
        intro i frame buffer found
        cases found
      apart := nodup_granted _ apart }

/-- Without any buffer, or when a later step fails, the interface stays down, and
the ring is bare again. -/
theorem interfaceUp_refused (two : 2 ≤ count) (small : count ≤ 4096) (isDown : world.isUp = false)
    (bare : Bare count world.rings) {allocations : List Allocation} {ok : Bool}
    (refused : granted count 0 allocations = [] ∨ ok = false) :
    ∃ after log,
      interfaceUp count world allocations ok = ({ world with rings := after }, log) ∧
      Bare count after ∧ after.rrdDesc = world.rings.rrdDesc ∧
      (forall event, event ∈ log → event.isTraffic = false) ∧
      forall lost, Accounted RxEvent.allocated? RxEvent.released? lost log lost := by
  have positive : 0 < count := by omega
  have room : ([] : List Buffer).length < count := positive
  have bound := length_granted_le count 0 allocations
  have within : (granted count 0 allocations).length < count := by omega
  rcases initRingPtrs_spec bare with ⟨marked, same, holds, statuses, _, use, clean⟩
  rcases allocRxBuffer_spec two (by omega) allocations positive holds room
    (by rw [use]; exact (Nat.zero_mod count).symm) with
    ⟨after, log, filled, refill, filledUse, prod⟩
  change Refill count 0 marked after [] (granted count 0 allocations) log at refill
  have emptied := cleanRxRing_spec positive within refill.holds
  have stopped : (granted count ([] : List Buffer).length allocations).length = 0 ∨ ok = false :=
    refused.imp_left fun nothing => List.length_eq_zero_iff.mpr nothing
  refine ⟨(cleanRxRing count after).1, log ++ (cleanRxRing count after).2, ?_, emptied.1, ?_, ?_,
    fun lost => ?_⟩
  · rw [interfaceUp, if_neg (by rw [isDown]; decide), same]
    dsimp only
    rw [filled]
    dsimp only
    rw [if_pos stopped]
    rfl
  · rw [cleanRxRing_rrdDesc, refill.rrdDesc, statuses]
  · intro event member
    rcases List.mem_append.mp member with filling | emptying
    · exact refill.quiet event filling
    · exact (emptied.2.2 event emptying).1
  · exact (refill.accounted lost).trans (emptied_accounted lost emptied.2.1 emptied.2.2)

/-- The interface comes up with the buffers that the kernel grants, or stays down. -/
theorem keeps_up (two : 2 ≤ count) (small : count ≤ 4096) (live : Live count world held)
    {allocations : List Allocation} (apart : ((mappings allocations).map Prod.snd).Nodup)
    (ok : Bool) : Keeps count held (interfaceUp count world allocations ok) := by
  cases live with
  | up isUp synced unmarked =>
      rw [interfaceUp, if_pos isUp]
      exact Keeps.same (.up isUp synced unmarked)
  | @down lost isDown idle bare unmarked =>
      by_cases refused : granted count 0 allocations = [] ∨ ok = false
      · rcases interfaceUp_refused two small isDown bare refused with
          ⟨after, log, same, still, statuses, quiet, accounted⟩
        rw [same]
        refine ⟨⟨[], [], lost⟩, .down isDown idle still ?_,
          Balance.of_quiet quiet rfl rfl (accounted lost)⟩
        intro place inside
        dsimp only
        rw [statuses]
        exact unmarked place inside
      · obtain ⟨something, goes⟩ := not_or.mp refused
        rw [Bool.of_not_eq_false goes]
        rcases interfaceUp_granted two small isDown bare apart something with
          ⟨after, log, same, synced, statuses, _, _, quiet, accounted⟩
        rw [same]
        refine ⟨⟨granted count 0 allocations, [], lost⟩, .up rfl synced ?_,
          Balance.of_quiet quiet rfl rfl (accounted lost)⟩
        intro i _ inside
        change ¬ (after.rrdDesc ((after.rrdNextToClean + i) % count)).isValid
        rw [statuses]
        exact unmarked _ (Nat.mod_lt _ (Nat.zero_lt_of_lt inside))

/-- Every step of the driver and of the card keeps the account. -/
theorem keeps_step (two : 2 ≤ count) (small : count ≤ 4096) (live : Live count world held)
    (op : RxOp) (orderly : Orderly count world op) : Keeps count held (rxStep count world op) := by
  cases op with
  | up allocations ok => exact keeps_up two small live orderly ok
  | down => exact keeps_down live orderly
  | frame frame => exact keeps_frame live frame
  | pollStart budget => exact keeps_pollStart live budget
  | pollTurn =>
      rw [rxStep]
      split
      · exact Keeps.same live
      · next poll going => exact keeps_pollTurn small live going
  | pollEnd allocations =>
      rw [rxStep]
      split
      · exact Keeps.same live
      · next poll going => exact keeps_pollEnd two small live going orderly

end Steps

/-! ## Whole runs -/

/-- The adapter before the interface comes up for the first time: the rings and
their buffers are zeroed memory, as far as the driver looks at them. -/
structure PoweredOn (count : Nat) (world : World) : Prop where
  isDown : world.isUp = false
  idle : world.poll = none
  bare : Bare count world.rings
  unmarked : forall place, place < count → ¬ (world.rings.rrdDesc place).isValid

/-- The buffers that stand in the ring. -/
def standing (count : Nat) (rings : Rings) : List Nat :=
  (List.range count).flatMap fun place => (rings.bufferInfo place).skb.toList

section Runs

variable {count : Nat} {world : World}

theorem run_live (two : 2 ≤ count) (small : count ≤ 4096) (start : PoweredOn count world)
    {ops : List RxOp} (orderly : (reception count).Along (Orderly count) world ops) :
    ∃ after, Live count ((reception count).run world ops) after ∧
      Balance ⟨[], [], []⟩ ((reception count).events world ops) after :=
  (reception count).run_balance (Live count) (Orderly count) Balance Balance.refl
    (fun here later => here.trans later)
    (fun _ op _ live orderly => keeps_step two small live op orderly)
    (.down start.isDown start.idle start.bare start.unmarked) orderly

/-- What is handed up is what the card has accepted, in order, unchanged and each
packet once, less the frames marked as wrong; and nothing is missing when no
return status is unread. -/
theorem received_in_order (two : 2 ≤ count) (small : count ≤ 4096)
    (start : PoweredOn count world) {ops : List RxOp}
    (orderly : (reception count).Along (Orderly count) world ops) :
    ((reception count).events world ops).filterMap RxEvent.received? <+:
        ((reception count).events world ops).filterMap RxEvent.accepted? ∧
      (¬ (((reception count).run world ops).rings.rrdDesc
          ((reception count).run world ops).rings.rrdNextToClean).isValid →
        ((reception count).events world ops).filterMap RxEvent.received? =
          ((reception count).events world ops).filterMap RxEvent.accepted?) := by
  rcases run_live two small start orderly with ⟨after, live, balance⟩
  have packets : ((reception count).events world ops).filterMap RxEvent.accepted? =
      ((reception count).events world ops).filterMap RxEvent.received? ++ after.payloads :=
    balance.packets
  refine ⟨⟨after.payloads, packets.symm⟩, fun read => ?_⟩
  have none : after.payloads = [] := by
    cases live with
    | down => rfl
    | up isUp synced unmarked =>
        have unread : after.unread = [] := by
          by_contra some
          exact read ((unmarked.isValid_iff synced).mpr some)
        rw [Account.payloads, unread]
        rfl
  rw [packets, none, List.append_nil]

/-- A frame of one byte and its check sequence. -/
def shortFrame : Frame := ⟨[1, 2, 3, 4, 5], 0, 0, 0, 0, 5, by decide, rfl⟩

/-- The adapter with all its memory zeroed. -/
def switchedOn : World where
  rings := ⟨fun _ => 0, fun _ => ⟨none, 0, 0, 0⟩, 0, 0, fun _ => RecvRetStatus.zero, 0, 0, 1536⟩
  memory _ := []
  isUp := false
  rfdConsumer := 0
  rrdProducer := 0
  poll := none

theorem poweredOn_switchedOn (count : Nat) : PoweredOn count switchedOn where
  isDown := rfl
  idle := rfl
  bare _ _ := rfl
  unmarked _ _ := by
    change ¬ RecvRetStatus.zero.isValid
    decide

/-- One buffer is posted, and one frame arrives and is handed up. -/
def shortRun : List RxOp := [.up [.mapped 7 4096] true, .frame shortFrame, .pollStart 2, .pollTurn]

theorem orderly_shortRun : (reception 2).Along (Orderly 2) switchedOn shortRun :=
  ⟨List.nodup_singleton _, trivial, trivial, trivial, trivial⟩

theorem received_in_order_short :
    ((reception 2).events switchedOn shortRun).filterMap RxEvent.received? =
      ((reception 2).events switchedOn shortRun).filterMap RxEvent.accepted? :=
  (received_in_order (by decide) (by decide) (poweredOn_switchedOn 2) orderly_shortRun).2
    (by decide)

theorem Live.standing_perm {held : Account} (live : Live count world held) :
    (standing count world.rings).Perm (held.buffers.map Prod.fst) := by
  cases live with
  | down isDown idle bare =>
      have empty : standing count world.rings = [] := by
        rw [standing, List.flatMap_eq_nil_iff]
        intro place member
        rw [bare place (List.mem_range.mp member)]
        rfl
      rw [empty]
      exact List.Perm.refl _
  | up isUp synced unmarked =>
      have gathered := Cyclic.flatMap_around (fun buffer : Buffer => [buffer.1])
        (fun place => (world.rings.bufferInfo place).skb.toList)
        synced.inside (Nat.le_of_lt synced.room)
        (fun i buffer found => by rw [(synced.holds.posted i buffer found).skb]; rfl)
        (fun i behind less => by rw [(synced.holds.vacant i behind less).skb]; rfl)
      rwa [← List.map_eq_flatMap] at gathered

/-- Every buffer that the kernel has given is handed up once, or freed once, or
still stands in the ring, or has been forgotten in its place by a wrong packet:
one for each of them. -/
theorem buffers_accounted (two : 2 ≤ count) (small : count ≤ 4096)
    (start : PoweredOn count world) {ops : List RxOp}
    (orderly : (reception count).Along (Orderly count) world ops) :
    (∃ lost : List Nat,
      (((reception count).events world ops).filterMap RxEvent.allocated?).Perm
          (((reception count).events world ops).filterMap RxEvent.released? ++
            (standing count ((reception count).run world ops).rings ++ lost)) ∧
        lost.length = ((reception count).events world ops).countP RxEvent.isWrong) ∧
      forall event, event ∈ (reception count).events world ops → event.isBacked = true := by
  rcases run_live two small start orderly with ⟨after, live, balance⟩
  refine ⟨⟨after.lost, ?_, ?_⟩, balance.backed⟩
  · have memory : ([] ++ ((reception count).events world ops).filterMap RxEvent.allocated?).Perm
        (((reception count).events world ops).filterMap RxEvent.released? ++ after.owned) :=
      balance.memory
    exact memory.trans ((live.standing_perm.symm.append_right after.lost).append_left _)
  · rw [balance.wrong]
    exact Nat.zero_add _

theorem buffers_accounted_short :
    (∃ lost : List Nat,
      (((reception 2).events switchedOn shortRun).filterMap RxEvent.allocated?).Perm
          (((reception 2).events switchedOn shortRun).filterMap RxEvent.released? ++
            (standing 2 ((reception 2).run switchedOn shortRun).rings ++ lost)) ∧
        lost.length = ((reception 2).events switchedOn shortRun).countP RxEvent.isWrong) ∧
      forall event, event ∈ (reception 2).events switchedOn shortRun → event.isBacked = true :=
  buffers_accounted (by decide) (by decide) (poweredOn_switchedOn 2) orderly_shortRun

/-- In every state that is reached, each marked status names the buffer at its
own place, and the card writes its next frame into a buffer that stands in the
ring, at an address where no unread frame lies, and its status over one that
has been read. -/
theorem card_writes_unused (two : 2 ≤ count) (small : count ≤ 4096)
    (start : PoweredOn count world) {ops : List RxOp}
    (orderly : (reception count).Along (Orderly count) world ops) {reached : World}
    (reaches : (reception count).run world ops = reached) (isUp : reached.isUp = true) :
    (forall place, place < count → (reached.rings.rrdDesc place).isValid →
      (reached.rings.rrdDesc place).rfdIndex = place) ∧
    (reached.rfdConsumer ≠ reached.rings.rfdProdIdx →
      ¬ (reached.rings.rrdDesc reached.rrdProducer).isValid ∧
      (∃ skb, (reached.rings.bufferInfo reached.rfdConsumer).skb = some skb) ∧
      ¬ reached.rings.isFree reached.rfdConsumer ∧
      (reached.rings.bufferInfo reached.rfdConsumer).dma =
        reached.rings.rfdDesc reached.rfdConsumer ∧
      forall place, place < count → (reached.rings.rrdDesc place).isValid →
        (reached.rings.bufferInfo place).dma ≠ reached.rings.rfdDesc reached.rfdConsumer) := by
  rcases run_live two small start orderly with ⟨after, live, _⟩
  rw [reaches] at live
  cases live with
  | down isDown => exact absurd isUp (by rw [isDown]; decide)
  | up _ synced unmarked =>
      have marked : forall place, place < count → (reached.rings.rrdDesc place).isValid →
          ∃ i frame, (reached.rings.rrdNextToClean + i) % count = place ∧
            after.unread[i]? = some frame := by
        intro place inside valid
        rcases Cyclic.exists_add_mod synced.inside inside with ⟨i, less, rfl⟩
        rcases Nat.lt_or_ge i after.unread.length with before | behind
        · exact ⟨i, _, rfl, List.getElem?_eq_getElem before⟩
        · exact absurd valid (unmarked i behind less)
      have room := synced.room
      refine ⟨?_, fun ready => ?_⟩
      · intro place inside valid
        rcases marked place inside valid with ⟨i, frame, rfl, found⟩
        rw [synced.status i frame found]
        exact rfdIndex_status frame (Nat.lt_of_lt_of_le inside small)
      · have less := synced.consumer_ne_prodIdx_iff.mp ready
        have next := List.getElem?_eq_getElem less
        have posted := synced.holds.posted after.unread.length _ next
        rw [← synced.consumer] at posted
        refine ⟨?_, ⟨_, posted.skb⟩, posted.busy, posted.dma.trans posted.desc.symm, ?_⟩
        · rw [synced.rrdProducer, synced.consumer]
          exact unmarked _ (Nat.le_refl _) (by omega)
        · intro place inside valid same
          rcases marked place inside valid with ⟨i, frame, rfl, found⟩
          have before : i < after.unread.length := (List.getElem?_eq_some_iff.mp found).1
          have behind := synced.behind
          have standing := List.getElem?_eq_getElem (Nat.lt_of_lt_of_le before behind)
          have holder := synced.holds.posted i _ standing
          rw [holder.dma, posted.desc] at same
          exact absurd (synced.place_of_address standing next same) (Nat.ne_of_lt before)

/-- A frame is unread, and a buffer is left for the next one. -/
def waitingRun : List RxOp := [.up [.mapped 7 4096, .mapped 8 8192] true, .frame shortFrame]

theorem orderly_waitingRun : (reception 3).Along (Orderly 3) switchedOn waitingRun := by
  have apart : ((mappings [.mapped 7 4096, .mapped 8 8192]).map Prod.snd).Nodup := by decide
  exact ⟨apart, trivial, trivial⟩

theorem card_writes_unused_short :
    (((reception 3).run switchedOn waitingRun).rings.rrdDesc 0).rfdIndex = 0 ∧
      ∃ skb, (((reception 3).run switchedOn waitingRun).rings.bufferInfo 1).skb = some skb :=
  have unused := card_writes_unused (by decide) (by decide) (poweredOn_switchedOn 3)
    orderly_waitingRun rfl rfl
  ⟨unused.1 0 (by decide) (by decide), (unused.2 (by decide)).2.1⟩

end Runs

end Receive
end Atl1c
end KernelHacking
