import KernelHacking.Atl1c.Delivery

namespace KernelHacking
namespace Atl1c

/-!
# When the receive path of the `atl1c` driver goes wrong

Buffers are posted only at the end of a poll that has handed up a packet.  A
wrong packet uses a buffer and does not count, so a row of wrong packets as long
as the ring leaves the card without a buffer, and no poll will post one.

Taking the interface down empties the ring of buffers and leaves the return
statuses as they are.  A status that was unread then is found again after the
next up, at its old place, before the card has come there: the driver hands up a
buffer that the card has not filled.
-/

namespace Receive

/-! ## A row of wrong packets -/

def RxEvent.acceptedFrame? : RxEvent → Option Frame
  | .accept frame => some frame
  | _ => none

/-- The card has so many posted buffers left, and all that the driver has to read
is wrong packets. -/
structure Waning (count : Nat) (world : World) (left : Nat) : Prop where
  isUp : world.isUp = true
  rings : ∃ buffers unread, Synced count world buffers unread ∧
    Unmarked count world.rings unread ∧ (forall frame, frame ∈ unread → frame.isWrong) ∧
    buffers.length = unread.length + left
  idle : forall poll, world.poll = some poll → poll.count = 0

/-- The events that only pass wrong packets by. -/
def RxEvent.isIdle : RxEvent → Bool
  | .wrongPacket _ => true
  | _ => false

/-- A step of this result passes wrong packets by and uses no buffer. -/
structure Idles (count left : Nat) (result : World × List RxEvent) : Prop where
  waning : Waning count result.1 left
  idle : forall event, event ∈ result.2 → event.isIdle = true

section Steps

variable {count : Nat} {world : World} {left : Nat}

theorem Waning.idles (waning : Waning count world left) : Idles count left (world, []) :=
  ⟨waning, fun _ member => absurd member List.not_mem_nil⟩

theorem Waning.withPoll (waning : Waning count world left) {poll : Option Poll}
    (idle : forall next, poll = some next → next.count = 0) :
    Waning count { world with poll := poll } left where
  isUp := waning.isUp
  rings := by
    rcases waning.rings with ⟨buffers, unread, synced, unmarked, wrong, length⟩
    exact ⟨buffers, unread, synced.withPoll poll, unmarked, wrong, length⟩
  idle := idle

theorem Waning.frame_none (waning : Waning count world 0) (frame : Frame) :
    acceptFrame count world frame = (world, []) := by
  rcases waning.rings with ⟨buffers, unread, synced, _, _, length⟩
  rw [acceptFrame, if_neg]
  rintro ⟨_, ready, _⟩
  exact absurd (synced.consumer_ne_prodIdx_iff.mp ready) (by omega)

theorem Waning.frame_wrong (waning : Waning count world (left + 1)) {frame : Frame}
    (wrong : frame.isWrong) : Waning count (fillBuffer count world frame) left := by
  rcases waning.rings with ⟨buffers, unread, synced, unmarked, all, length⟩
  have less : unread.length < buffers.length := by omega
  refine ⟨waning.isUp, ⟨buffers, unread ++ [frame], synced.fillBuffer less frame,
    unmarked.fillBuffer synced less frame, ?_, ?_⟩, waning.idle⟩
  · intro other member
    rcases List.mem_append.mp member with old | new
    · exact all other old
    · rw [List.mem_singleton.mp new]
      exact wrong
  · rw [List.length_append, List.length_singleton]
    omega

theorem Waning.acceptFrame_eq (waning : Waning count world (left + 1)) {frame : Frame}
    (fits : frame.Fits world.rings) :
    acceptFrame count world frame = (fillBuffer count world frame, [.accept frame]) := by
  rcases waning.rings with ⟨buffers, unread, synced, _, _, length⟩
  rw [acceptFrame, if_pos ⟨waning.isUp, synced.consumer_ne_prodIdx_iff.mpr (by omega), fits⟩]

theorem Waning.pollTurn (waning : Waning count world left) (small : count ≤ 4096) {poll : Poll}
    (going : world.poll = some poll) : Idles count left (pollTurn count world poll) := by
  have zero := waning.idle poll going
  have same : forall {other : Poll}, other.count = 0 →
      forall next, some other = some next → next.count = 0 := by
    intro other none next equal
    rw [← Option.some.inj equal]
    exact none
  have left : ({ poll with leaving := true } : Poll).count = 0 := zero
  unfold Receive.pollTurn
  split
  · exact waning.idles
  · split
    · exact (waning.withPoll (same left)).idles
    · rcases waning.rings with ⟨buffers, unread, synced, unmarked, all, length⟩
      cases unread with
      | nil =>
          have unset : ¬ (world.rings.rrdDesc world.rings.rrdNextToClean).isValid := fun set =>
            (unmarked.isValid_iff synced).mp set rfl
          rw [cleanRxTurn_unmarked count world.memory world.rings unset]
          exact (waning.withPoll (same left)).idles
      | cons frame unread =>
          cases buffers with
          | nil => exact absurd synced.behind (Nat.not_succ_le_zero _)
          | cons buffer buffers =>
              have wrong := all frame List.mem_cons_self
              rw [cleanRxTurn_status count world.memory world.rings
                (Nat.lt_of_lt_of_le synced.inside small) synced.first.1, if_pos wrong, turnLog,
                if_pos wrong]
              refine ⟨⟨waning.isUp, ⟨buffers, unread, synced.retire (some poll),
                unmarked.retire synced.inside,
                fun other member => all other (List.mem_cons_of_mem _ member), ?_⟩, same zero⟩, ?_⟩
              · rw [List.length_cons, List.length_cons] at length
                omega
              · intro event member
                rw [List.mem_singleton.mp member]
                rfl

theorem Waning.pollEnd (waning : Waning count world left) {poll : Poll}
    (going : world.poll = some poll) (allocations : List Allocation) :
    Idles count left (pollEnd count world poll allocations) := by
  have zero := waning.idle poll going
  unfold Receive.pollEnd
  split
  · rw [if_neg (not_not_intro zero)]
    exact (waning.withPoll fun _ none => absurd none.symm (Option.some_ne_none _)).idles
  · exact waning.idles

/-- A step accepts a frame and uses one of the buffers that are left, or passes
wrong packets by. -/
theorem Waning.step (waning : Waning count world left) (small : count ≤ 4096) {op : RxOp}
    (stays : op ≠ .down) :
    (∃ frame, 0 < left ∧ (rxStep count world op).2 = [.accept frame] ∧
        (frame.isWrong → Waning count (rxStep count world op).1 (left - 1))) ∨
      Idles count left (rxStep count world op) := by
  cases op with
  | up allocations ok =>
      right
      rw [rxStep, interfaceUp, if_pos waning.isUp]
      exact waning.idles
  | down => exact absurd rfl stays
  | frame frame =>
      cases left with
      | zero =>
          right
          rw [rxStep, waning.frame_none frame]
          exact waning.idles
      | succ left =>
          by_cases fits : frame.Fits world.rings
          · left
            rw [rxStep, waning.acceptFrame_eq fits]
            exact ⟨frame, Nat.succ_pos left, rfl, fun wrong => waning.frame_wrong wrong⟩
          · right
            rw [rxStep, acceptFrame, if_neg fun ready => fits ready.2.2]
            exact waning.idles
  | pollStart budget =>
      right
      rw [rxStep]
      split
      · apply Waning.idles
        apply waning.withPoll
        intro next same
        rw [← Option.some.inj same]
      · exact waning.idles
  | pollTurn =>
      right
      rw [rxStep]
      split
      · exact waning.idles
      · next poll going => exact waning.pollTurn small going
  | pollEnd allocations =>
      right
      rw [rxStep]
      split
      · exact waning.idles
      · next poll going => exact waning.pollEnd going allocations

end Steps

theorem RxEvent.of_isIdle {event : RxEvent} (idle : event.isIdle = true) :
    event.acceptedFrame? = none ∧ event.received? = none ∧ event.allocated? = none := by
  cases event <;> first | exact ⟨rfl, rfl, rfl⟩ | cases idle

/-- Over a run, too: when the frames that use up the buffers are wrong, no
further one is accepted, and nothing is handed up or allocated. -/
theorem Waning.run {count : Nat} (small : count ≤ 4096) {world : World} {left : Nat}
    (waning : Waning count world left) {ops : List RxOp}
    (stays : forall op, op ∈ ops → op ≠ .down)
    (wrong : forall frame, frame ∈ (((reception count).events world ops).filterMap
      RxEvent.acceptedFrame?).take left → frame.isWrong) :
    (((reception count).events world ops).filterMap RxEvent.acceptedFrame?).length ≤ left ∧
      ((reception count).events world ops).filterMap RxEvent.received? = [] ∧
      ((reception count).events world ops).filterMap RxEvent.allocated? = [] := by
  induction ops generalizing world left with
  | nil => exact ⟨Nat.zero_le left, rfl, rfl⟩
  | cons op ops ih =>
      have later : forall op, op ∈ ops → op ≠ .down := fun other member =>
        stays other (List.mem_cons_of_mem _ member)
      rw [Machine.events_cons, List.filterMap_append] at wrong ⊢
      rw [List.filterMap_append, List.filterMap_append]
      rcases waning.step small (stays op List.mem_cons_self) with ⟨frame, some, out, next⟩ | idle
      · change (reception count).out world op = _ at out
        rw [out] at wrong ⊢
        have one : left = left - 1 + 1 := by omega
        have first : [RxEvent.accept frame].filterMap RxEvent.acceptedFrame? = [frame] := rfl
        rw [first, one, List.singleton_append, List.take_succ_cons] at wrong
        change frame.isWrong → Waning count ((reception count).next world op) _ at next
        have rest := ih (next (wrong frame List.mem_cons_self)) later fun other member =>
          wrong other (List.mem_cons_of_mem _ member)
        refine ⟨?_, rest.2.1, rest.2.2⟩
        rw [first, List.singleton_append, List.length_cons]
        omega
      · change Idles count left ((reception count).next world op, (reception count).out world op) at idle
        have accepted : ((reception count).out world op).filterMap RxEvent.acceptedFrame? = [] :=
          List.filterMap_eq_nil_iff.mpr fun event member =>
            (RxEvent.of_isIdle (idle.idle event member)).1
        have received : ((reception count).out world op).filterMap RxEvent.received? = [] :=
          List.filterMap_eq_nil_iff.mpr fun event member =>
            (RxEvent.of_isIdle (idle.idle event member)).2.1
        have allocated : ((reception count).out world op).filterMap RxEvent.allocated? = [] :=
          List.filterMap_eq_nil_iff.mpr fun event member =>
            (RxEvent.of_isIdle (idle.idle event member)).2.2
        rw [accepted, List.nil_append] at wrong ⊢
        rw [received, allocated, List.nil_append, List.nil_append]
        exact ih idle.waning later wrong

/-- From any state that is reached with the interface up, nothing unread and no poll
going on that has handed up a packet: if the next frames that the card accepts, as
many as buffers stand in the ring, are all wrong, then it accepts no other frame, and
nothing is handed up and no buffer requested, whatever else happens until the
interface is taken down. -/
theorem wrong_frames_starve {count : Nat} (two : 2 ≤ count) (small : count ≤ 4096)
    {world : World} (start : PoweredOn count world) {before after : List RxOp}
    (orderly : (reception count).Along (Orderly count) world before) {reached : World}
    (reaches : (reception count).run world before = reached) (isUp : reached.isUp = true)
    (idle : forall poll, reached.poll = some poll → poll.count = 0)
    (read : ¬ (reached.rings.rrdDesc reached.rings.rrdNextToClean).isValid)
    (stays : forall op, op ∈ after → op ≠ .down)
    (wrong : forall frame, frame ∈ (((reception count).events reached after).filterMap
      RxEvent.acceptedFrame?).take (standing count reached.rings).length → frame.isWrong) :
    (((reception count).events reached after).filterMap RxEvent.acceptedFrame?).length ≤
        (standing count reached.rings).length ∧
      ((reception count).events reached after).filterMap RxEvent.received? = [] ∧
      ((reception count).events reached after).filterMap RxEvent.allocated? = [] := by
  rcases run_live two small start orderly with ⟨held, live, _⟩
  rw [reaches] at live
  have length := live.standing_perm.length_eq
  rw [List.length_map] at length
  cases live with
  | down isDown => exact absurd isUp (by rw [isDown]; decide)
  | up _ synced unmarked =>
      have none : held.unread = [] := by
        by_contra some
        exact read ((unmarked.isValid_iff synced).mpr some)
      have waning : Waning count reached (standing count reached.rings).length := by
        refine ⟨isUp, ⟨held.buffers, held.unread, synced, unmarked, ?_, ?_⟩, idle⟩
        · intro frame member
          rw [none] at member
          cases member
        · rw [none, length]
          exact (Nat.zero_add _).symm
      exact waning.run small stays wrong

/-- The short frame with a wrong check sequence. -/
def brokenFrame : Frame := { shortFrame with word3 := 0x00100005, size := rfl }

/-- The one posted buffer is used up, and the next frame is not accepted. -/
def starvingRun : List RxOp :=
  [.frame brokenFrame, .pollStart 2, .pollTurn, .pollTurn, .pollEnd [.mapped 8 8192],
    .frame shortFrame]

theorem wrong_frames_starve_short :
    (((reception 2).events ((reception 2).run switchedOn [.up [.mapped 7 4096] true])
      starvingRun).filterMap RxEvent.acceptedFrame?).length ≤ 1 :=
  (wrong_frames_starve (by decide) (by decide) (poweredOn_switchedOn 2)
    (show (reception 2).Along (Orderly 2) switchedOn [.up [.mapped 7 4096] true] from
      ⟨List.nodup_singleton _, trivial⟩)
    rfl rfl (fun _ none => absurd none.symm (Option.some_ne_none _)) (by decide)
    (by simp [starvingRun]) (by decide)).1

/-! ## A status that is found again -/

section Stale

variable {count : Nat} {world : World}

/-- A poll is at a place before that of a status left from before the interface
went down, and everything that the card has accepted since is handed up. -/
structure Catching (count : Nat) (world : World) (place left : Nat) (stale : Frame) : Prop where
  isUp : world.isUp = true
  rings : ∃ buffers, Synced count world buffers [] ∧ left ≤ buffers.length
  behind : world.rings.rrdNextToClean + left = place
  inside : place < count
  stale : world.rings.rrdDesc place = stale.status place
  poll : ∃ poll, world.poll = some poll ∧ poll.leaving = false ∧
    poll.workDone + left < poll.workToDo

theorem received_turnLog {buffer : Buffer} {buffers : List Buffer} {frame : Frame}
    {unread : List Frame} (synced : Synced count world (buffer :: buffers) (frame :: unread)) :
    (turnLog world.memory world.rings frame).filterMap RxEvent.received? =
      frame.payload?.toList := by
  rcases synced.first with ⟨_, posted, filled⟩
  rw [turnLog, Frame.payload?, posted.dma, filled]
  split <;> rfl

theorem accepted_turnLog (memory : BitVec 64 → List (BitVec 8)) (rings : Rings) (frame : Frame) :
    (turnLog memory rings frame).filterMap RxEvent.accepted? = [] := by
  rw [turnLog]
  split <;> rfl

/-- A good frame is accepted and handed up at once, and the old status is one
place nearer. -/
theorem Catching.step {place left : Nat} {stale frame : Frame}
    (catching : Catching count world place (left + 1) stale) (small : count ≤ 4096)
    (good : ¬ frame.isWrong) (fits : frame.Fits world.rings) :
    Catching count ((reception count).run world [.frame frame, .pollTurn]) place left stale ∧
      ((reception count).run world [.frame frame, .pollTurn]).rings.rxBufferLen =
        world.rings.rxBufferLen ∧
      ((reception count).events world [.frame frame, .pollTurn]).filterMap RxEvent.accepted? =
        frame.payload?.toList ∧
      ((reception count).events world [.frame frame, .pollTurn]).filterMap RxEvent.received? =
        frame.payload?.toList := by
  rcases catching.rings with ⟨buffers, synced, enough⟩
  rcases catching.poll with ⟨poll, going, stays, budget⟩
  have behind := catching.behind
  have inside := catching.inside
  cases buffers with
  | nil => exact absurd enough (Nat.not_succ_le_zero _)
  | cons buffer buffers =>
      have less : ([] : List Frame).length < (buffer :: buffers).length := Nat.succ_pos _
      have accepted : acceptFrame count world frame =
          (fillBuffer count world frame, [.accept frame]) := by
        rw [acceptFrame,
          if_pos ⟨catching.isUp, synced.consumer_ne_prodIdx_iff.mpr less, fits⟩]
      have filled := synced.fillBuffer less frame
      have turned := cleanRxTurn_status count (fillBuffer count world frame).memory
        (fillBuffer count world frame).rings
        (Nat.lt_of_lt_of_le filled.inside small) filled.first.1
      rw [if_neg good] at turned
      have polled : pollTurn count (fillBuffer count world frame) poll =
          ({ fillBuffer count world frame with
              rings := retire count (fillBuffer count world frame).rings
              poll := some { poll with workDone := poll.workDone + 1, count := poll.count + 1 } },
            turnLog (fillBuffer count world frame).memory (fillBuffer count world frame).rings
              frame) := by
        rw [pollTurn, stays, if_neg Bool.false_ne_true, if_neg (by omega), turned]
      have handed : rxStep count (fillBuffer count world frame) .pollTurn =
          pollTurn count (fillBuffer count world frame) poll := by
        have same : (fillBuffer count world frame).poll = some poll := going
        rw [rxStep, same]
      have first : (reception count).step world (.frame frame) =
          (fillBuffer count world frame, [.accept frame]) := accepted
      have second := handed.trans polled
      have next : (reception count).run world [.frame frame, .pollTurn] =
          { fillBuffer count world frame with
            rings := retire count (fillBuffer count world frame).rings
            poll := some { poll with workDone := poll.workDone + 1, count := poll.count + 1 } } := by
        rw [Machine.run_cons, Machine.next, first]
        exact congrArg Prod.fst second
      have log : (reception count).events world [.frame frame, .pollTurn] =
          [.accept frame] ++ (turnLog (fillBuffer count world frame).memory
            (fillBuffer count world frame).rings frame ++ []) := by
        rw [Machine.events_cons, Machine.out, Machine.next, first, Machine.events_cons]
        exact congrArg (fun result => [.accept frame] ++ (result.2 ++ [])) second
      rw [next, log, List.append_nil, List.filterMap_append, List.filterMap_append,
        accepted_turnLog, received_turnLog filled]
      refine ⟨?_, rfl, ?_, rfl⟩
      · have here : world.rrdProducer = world.rings.rrdNextToClean := by
          rw [synced.rrdProducer, synced.consumer]
          exact Nat.mod_eq_of_lt synced.inside
        have forward : Cyclic.wrap count world.rings.rrdNextToClean =
            world.rings.rrdNextToClean + 1 := by
          rw [Cyclic.wrap_eq_mod synced.inside]
          exact Nat.mod_eq_of_lt (by omega)
        refine ⟨catching.isUp, ⟨buffers, filled.retire _, Nat.le_of_succ_le_succ enough⟩, ?_,
          inside, ?_, ⟨_, rfl, stays, ?_⟩⟩
        · change Cyclic.wrap count world.rings.rrdNextToClean + left = place
          rw [forward]
          omega
        · change Function.update (Function.update world.rings.rrdDesc world.rrdProducer _)
            world.rings.rrdNextToClean _ place = _
          rw [Function.update_of_ne (by omega), Function.update_of_ne (by omega)]
          exact catching.stale
        · dsimp only
          omega
      · rw [List.append_nil]
        rfl

/-- At the place of the old status a turn hands up what lies in the buffer there. -/
theorem Catching.last {place : Nat} {stale : Frame}
    (catching : Catching count world place 0 stale) (small : count ≤ 4096)
    (good : ¬ stale.isWrong) :
    ((reception count).events world [.pollTurn]).filterMap RxEvent.accepted? = [] ∧
      ∃ found, ((reception count).events world [.pollTurn]).filterMap RxEvent.received? =
        [found] := by
  rcases catching.poll with ⟨poll, going, stays, budget⟩
  have here : world.rings.rrdNextToClean = place := catching.behind
  have inside := catching.inside
  have status : world.rings.rrdDesc world.rings.rrdNextToClean =
      stale.status world.rings.rrdNextToClean := by
    rw [here]
    exact catching.stale
  have turned := cleanRxTurn_status count world.memory world.rings (by omega) status
  have polled : (rxStep count world .pollTurn).2 = turnLog world.memory world.rings stale := by
    rw [rxStep, going]
    dsimp only
    rw [pollTurn, stays, if_neg Bool.false_ne_true, if_neg (by omega), turned]
  have log : (reception count).events world [.pollTurn] =
      turnLog world.memory world.rings stale ++ [] :=
    congrArg (fun events => events ++ []) polled
  rw [log, List.append_nil, accepted_turnLog]
  refine ⟨rfl, ?_⟩
  rw [turnLog, if_neg good]
  exact ⟨_, rfl⟩

theorem Catching.run {place : Nat} {stale : Frame} (small : count ≤ 4096)
    (good : ¬ stale.isWrong) {frames : List Frame}
    (catching : Catching count world place frames.length stale)
    (allGood : forall frame, frame ∈ frames → ¬ frame.isWrong)
    (allFit : forall frame, frame ∈ frames → frame.Fits world.rings) :
    ∃ found,
      ((reception count).events world
          (frames.flatMap (fun frame => [.frame frame, .pollTurn]) ++ [.pollTurn])).filterMap
          RxEvent.received? =
        ((reception count).events world
          (frames.flatMap (fun frame => [.frame frame, .pollTurn]) ++ [.pollTurn])).filterMap
          RxEvent.accepted? ++ [found] := by
  induction frames generalizing world with
  | nil =>
      rcases catching.last small good with ⟨none, found, one⟩
      refine ⟨found, ?_⟩
      rw [List.flatMap_nil, List.nil_append, none, one]
      rfl
  | cons frame frames ih =>
      rcases catching.step small (allGood frame List.mem_cons_self) (allFit frame List.mem_cons_self)
        with ⟨next, len, accepted, received⟩
      have fit : forall other, other ∈ frames →
          other.Fits ((reception count).run world [.frame frame, .pollTurn]).rings := by
        intro other member
        rw [Frame.Fits, len]
        exact allFit other (List.mem_cons_of_mem _ member)
      rcases ih next (fun other member => allGood other (List.mem_cons_of_mem _ member)) fit with
        ⟨found, later⟩
      refine ⟨found, ?_⟩
      rw [List.flatMap_cons, List.append_assoc, Machine.events_append, List.filterMap_append,
        List.filterMap_append, accepted, received, later, List.append_assoc]

theorem Frame.isWrong_status (frame : Frame) (place : Nat) :
    (frame.status place).isWrong ↔ frame.isWrong := by
  have same : (frame.word3 ||| rrsRxdUpdated) &&& (rrsRxErrSum ||| rrs8023LenErr) =
      frame.word3 &&& (rrsRxErrSum ||| rrs8023LenErr) := by
    have apart : rrsRxdUpdated &&& (rrsRxErrSum ||| rrs8023LenErr) = 0 := by decide
    rw [BitVec.and_or_distrib_right, apart]
    exact BitVec.or_zero
  rw [RecvRetStatus.isWrong, Frame.isWrong]
  change (frame.word3 ||| rrsRxdUpdated) &&& _ ≠ 0 ↔ _
  rw [same]

/-- Nothing is accepted or handed up while the interface goes down and up. -/
theorem quiet_packets {log : List RxEvent}
    (quiet : forall event, event ∈ log → event.isTraffic = false) :
    log.filterMap RxEvent.accepted? = [] ∧ log.filterMap RxEvent.received? = [] :=
  ⟨List.filterMap_eq_nil_iff.mpr fun event member =>
      (RxEvent.of_not_isTraffic (quiet event member)).1,
    List.filterMap_eq_nil_iff.mpr fun event member =>
      (RxEvent.of_not_isTraffic (quiet event member)).2.1⟩

/-- Taking the interface down and up again leaves the first unread status where it
was, and the next poll starts from the first place. -/
theorem Catching.restart (two : 2 ≤ count) (small : count ≤ 4096) {buffers : List Buffer}
    {stale : Frame} {rest : List Frame} (synced : Synced count world buffers (stale :: rest))
    (isUp : world.isUp = true) (idle : world.poll = none) {allocations : List Allocation}
    (apart : ((mappings allocations).map Prod.snd).Nodup)
    (enough : count ≤ (mappings allocations).length + 1) {budget : Nat}
    (large : world.rings.rrdNextToClean < budget) :
    Catching count ((reception count).run world [.down, .up allocations true, .pollStart budget])
        world.rings.rrdNextToClean world.rings.rrdNextToClean stale ∧
      ((reception count).run world [.down, .up allocations true, .pollStart budget]).rings.rxBufferLen =
        world.rings.rxBufferLen ∧
      forall event, event ∈ (reception count).events world
        [.down, .up allocations true, .pollStart budget] → event.isTraffic = false := by
  have inside := synced.inside
  have status := synced.status 0 stale rfl
  rw [Nat.add_zero, Nat.mod_eq_of_lt inside] at status
  have emptied := cleanRxRing_spec inside synced.room synced.holds
  have down : (reception count).step world .down =
      ({ world with rings := (cleanRxRing count world.rings).1, isUp := false },
        (cleanRxRing count world.rings).2) := by
    change interfaceDown count world = _
    rw [interfaceDown, if_pos ⟨isUp, idle⟩]
  have all : (granted count 0 allocations).length = count - 1 := by
    rw [granted, List.length_take]
    omega
  have isDown : { world with
      rings := (cleanRxRing count world.rings).1, isUp := false }.isUp = false := rfl
  rcases interfaceUp_granted two small isDown emptied.1 apart
    (List.ne_nil_of_length_pos (by omega)) with 
    ⟨after, log, up, again, statuses, len, zero, quiet, _⟩
  have polled : (reception count).step
      { world with rings := after, isUp := true, rfdConsumer := 0, rrdProducer := 0 }
      (.pollStart budget) =
      ({ world with
          rings := after
          isUp := true
          rfdConsumer := 0
          rrdProducer := 0
          poll := some ⟨0, 0, budget, false⟩ }, []) := by
    change (if _ then _ else _) = _
    rw [if_pos ⟨rfl, idle⟩]
  have upped : (reception count).step
      { world with rings := (cleanRxRing count world.rings).1, isUp := false }
      (.up allocations true) =
      ({ world with rings := after, isUp := true, rfdConsumer := 0, rrdProducer := 0 }, log) := up
  have next : (reception count).run world [.down, .up allocations true, .pollStart budget] =
      { world with
        rings := after
        isUp := true
        rfdConsumer := 0
        rrdProducer := 0
        poll := some ⟨0, 0, budget, false⟩ } := by
    rw [Machine.run_cons, Machine.run_cons, Machine.run_cons, Machine.next, Machine.next,
      Machine.next, down, upped, polled]
    rfl
  have events : (reception count).events world [.down, .up allocations true, .pollStart budget] =
      (cleanRxRing count world.rings).2 ++ (log ++ ([] ++ [])) := by
    rw [Machine.events_cons, Machine.events_cons, Machine.events_cons, Machine.out, Machine.out,
      Machine.out, Machine.next, Machine.next, down, upped, polled]
    rfl
  rw [next, events]
  refine ⟨⟨rfl, ⟨_, again.withPoll _, by omega⟩, ?_, inside, ?_, ⟨_, rfl, rfl, ?_⟩⟩,
    len.trans (cleanRxRing_rxBufferLen count world.rings), ?_⟩
  · dsimp only
    rw [zero, Nat.zero_add]
  · dsimp only
    rw [statuses, cleanRxRing_rrdDesc]
    exact status
  · dsimp only
    omega
  · intro event member
    rcases List.mem_append.mp member with emptying | filling
    · exact (emptied.2.2 event emptying).1
    · exact quiet event (by rwa [List.append_nil, List.append_nil] at filling)

/-- The interface is taken down while a good frame is unread, and comes up again
with a buffer for each place but one.  As soon as so many good frames that fit a
buffer have come, each followed by a turn of the poll, that it is at the old place,
it hands up a packet more than the card has accepted since. -/
theorem stale_status_handed_up {count : Nat} (two : 2 ≤ count) (small : count ≤ 4096)
    {world : World} (start : PoweredOn count world) {before : List RxOp}
    (orderly : (reception count).Along (Orderly count) world before) {reached : World}
    (reaches : (reception count).run world before = reached) (isUp : reached.isUp = true)
    (idle : reached.poll = none)
    (unread : (reached.rings.rrdDesc reached.rings.rrdNextToClean).isValid)
    (good : ¬ (reached.rings.rrdDesc reached.rings.rrdNextToClean).isWrong)
    {allocations : List Allocation} (apart : ((mappings allocations).map Prod.snd).Nodup)
    (enough : count ≤ (mappings allocations).length + 1)
    {frames : List Frame} (reach : frames.length = reached.rings.rrdNextToClean)
    (allGood : forall frame, frame ∈ frames → ¬ frame.isWrong)
    (allFit : forall frame, frame ∈ frames → frame.Fits reached.rings)
    {budget : Nat} (large : frames.length < budget) :
    ∃ found,
      ((reception count).events reached ([.down, .up allocations true, .pollStart budget] ++
          (frames.flatMap (fun frame => [.frame frame, .pollTurn]) ++ [.pollTurn]))).filterMap
          RxEvent.received? =
        ((reception count).events reached ([.down, .up allocations true, .pollStart budget] ++
          (frames.flatMap (fun frame => [.frame frame, .pollTurn]) ++ [.pollTurn]))).filterMap
          RxEvent.accepted? ++ [found] := by
  rcases run_live two small start orderly with ⟨held, live, _⟩
  rw [reaches] at live
  rw [reach] at large
  cases live with
  | down isDown => exact absurd isUp (by rw [isDown]; decide)
  | up _ synced unmarked =>
      have some : held.unread ≠ [] := (unmarked.isValid_iff synced).mp unread
      rcases List.exists_cons_of_ne_nil some with ⟨stale, rest, first⟩
      rw [first] at synced
      have status := synced.status 0 stale rfl
      rw [Nat.add_zero, Nat.mod_eq_of_lt synced.inside] at status
      have staleGood : ¬ stale.isWrong := fun wrong =>
        good (by rw [status]; exact (stale.isWrong_status _).mpr wrong)
      rcases Catching.restart two small synced isUp idle apart enough large with
        ⟨catching, len, quiet⟩
      have fit : forall frame, frame ∈ frames → frame.Fits ((reception count).run reached
          [.down, .up allocations true, .pollStart budget]).rings := by
        intro frame member
        rw [Frame.Fits, len]
        exact allFit frame member
      have silent := quiet_packets quiet
      rw [← reach] at catching
      rcases catching.run small staleGood allGood fit with ⟨found, handed⟩
      refine ⟨found, ?_⟩
      rw [Machine.events_append, List.filterMap_append, List.filterMap_append, silent.1, silent.2,
        List.nil_append, List.nil_append, handed]

/-- One frame has been handed up and a second one is unread. -/
def unreadRun : List RxOp :=
  [.up [.mapped 7 4096, .mapped 8 8192] true, .frame shortFrame, .frame shortFrame, .pollStart 1,
    .pollTurn, .pollTurn, .pollEnd []]

theorem orderly_unreadRun : (reception 3).Along (Orderly 3) switchedOn unreadRun := by
  have apart : ((mappings [.mapped 7 4096, .mapped 8 8192]).map Prod.snd).Nodup := by decide
  refine ⟨apart, trivial, trivial, trivial, trivial, trivial, ⟨List.nodup_nil, ?_⟩, trivial⟩
  intro place _ _ member
  cases member

theorem stale_status_handed_up_short :
    ∃ found,
      ((reception 3).events ((reception 3).run switchedOn unreadRun)
          ([.down, .up [.mapped 9 12288, .mapped 10 16384] true, .pollStart 2] ++
            ([shortFrame].flatMap (fun frame => [.frame frame, .pollTurn]) ++
              [.pollTurn]))).filterMap RxEvent.received? =
        ((reception 3).events ((reception 3).run switchedOn unreadRun)
          ([.down, .up [.mapped 9 12288, .mapped 10 16384] true, .pollStart 2] ++
            ([shortFrame].flatMap (fun frame => [.frame frame, .pollTurn]) ++
              [.pollTurn]))).filterMap RxEvent.accepted? ++ [found] :=
  stale_status_handed_up (by decide) (by decide) (poweredOn_switchedOn 3) orderly_unreadRun rfl
    rfl rfl (by decide) (by decide) (by decide) (by decide) rfl (by decide) (by decide)
    (by decide)

end Stale

end Receive
end Atl1c
end KernelHacking
