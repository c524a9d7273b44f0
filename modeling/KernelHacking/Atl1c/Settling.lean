import KernelHacking.Atl1c.Ledger

namespace KernelHacking
namespace Atl1c

/-!
# How the two drivers settle what they take

Over whole runs of packets, reports of the card and restarts, the driver with
`atl1c_tx_rollback` frees every packet that it takes and undoes every mapping that
it makes, or holds it in the ring.  The fork does so as long as no mapping is
refused.
-/

variable {count : Nat}

/-! ## Giving up -/

section Rollback

variable (turns : Nat) (index : Fin count) (ring : Ring count)

theorem rollbackLoop_frame :
    (rollbackLoop turns index ring).1.nextToUse = ring.nextToUse ∧
      (rollbackLoop turns index ring).1.nextToClean = ring.nextToClean ∧
      (rollbackLoop turns index ring).1.producer = ring.producer := by
  induction turns generalizing index ring with
  | zero => exact ⟨rfl, rfl, rfl⟩
  | succ turns ih => exact ih (Cyclic.next index) _

theorem rollbackLoop_balance :
    ((rollbackLoop turns index ring).2 ++ (rollbackLoop turns index ring).1.owed).Perm ring.owed := by
  induction turns generalizing index ring with
  | zero => exact List.Perm.refl _
  | succ turns ih =>
      change ((ring.bufferInfo index).owed ++ _ ++ _).Perm _
      rw [List.append_assoc]
      exact ((ih _ _).append_left _).trans (ring.owed_cleaned index)

theorem rollbackLoop_tidy (tidy : forall place, (ring.bufferInfo place).Tidy) (place : Fin count) :
    ((rollbackLoop turns index ring).1.bufferInfo place).Tidy := by
  induction turns generalizing index ring with
  | zero => exact tidy place
  | succ turns ih =>
      apply ih
      intro other
      change ((ring.setInfo index _).bufferInfo other).Tidy
      by_cases same : other = index
      · rw [same, Ring.setInfo_self]
        exact (tidy index).clean
      · rw [Ring.setInfo_of_ne _ _ _ same]
        exact tidy other

/-- The loop leaves the places alone that it does not visit. -/
theorem rollbackLoop_others {place : Fin count}
    (outside : forall j, j < turns → place ≠ Cyclic.next^[j] index) :
    (rollbackLoop turns index ring).1.bufferInfo place = ring.bufferInfo place := by
  induction turns generalizing index ring with
  | zero => rfl
  | succ turns ih =>
      have later := ih (Cyclic.next index)
        ((ring.setInfo index (cleanBuffer (ring.bufferInfo index)).1).setDesc index Tpd.zero)
        fun j less => outside (j + 1) (Nat.succ_lt_succ less)
      exact later.trans (Ring.setInfo_of_ne _ _ _ (outside 0 (Nat.succ_pos turns)))

/-- Nothing is owed for the places that the loop visits. -/
theorem rollbackLoop_visited {j : Nat} (less : j < turns) :
    ((rollbackLoop turns index ring).1.bufferInfo (Cyclic.next^[j] index)).owed = [] := by
  induction turns generalizing index ring j with
  | zero => exact absurd less (Nat.not_lt_zero j)
  | succ turns ih =>
      rcases j with _ | j
      · by_cases again : ∃ k, k < turns ∧ index = Cyclic.next^[k] (Cyclic.next index)
        · rcases again with ⟨k, below, same⟩
          have cleaned := ih (Cyclic.next index)
            ((ring.setInfo index (cleanBuffer (ring.bufferInfo index)).1).setDesc index Tpd.zero) below
          rw [← same] at cleaned
          exact cleaned
        · have kept := rollbackLoop_others turns (Cyclic.next index)
            ((ring.setInfo index (cleanBuffer (ring.bufferInfo index)).1).setDesc index Tpd.zero)
            fun k below same => again ⟨k, below, same⟩
          have cleaned := TxBuffer.owed_clean (ring.bufferInfo index)
          rw [← Ring.setInfo_self ring index (cleanBuffer (ring.bufferInfo index)).1] at cleaned
          exact (congrArg TxBuffer.owed kept).trans cleaned
      · exact ih (Cyclic.next index) _ (Nat.lt_of_succ_lt_succ less)

end Rollback

/-- What a way to give up has to do about a packet that the driver took, so that
nothing is owed for it twice or for ever. -/
def GiveUp.Settles (giveUp : GiveUp count) : Prop :=
  forall (start : Ring count) (base last : Nat) (log : List Release) (m : Mapping count) (skb : Nat),
    start.Roomy → Owing start base last last log m.ring → last + 1 ≤ start.tpdAvail →
    let left := giveUp m (Cyclic.next^[base] start.nextToUse) skb
    left.1.Roomy ∧ Accounted Event.put Event.get (m.ring.owed ++ [.consume skb]) left.2 left.1.owed

theorem Fork.settles : (Fork.giveUp : GiveUp count).Settles := by
  intro start base last log m skb _ owing less
  have roomy := Owing.roomy { owing with quiet := fun j above => owing.quiet j (by omega) } less
  refine ⟨roomy.txQueue, ?_⟩
  change (m.ring.owed ++ [Release.consume skb] ++ []).Perm ([Release.consume skb] ++ m.ring.owed)
  rw [List.append_nil]
  exact List.perm_append_comm

/-- Taking back leaves the places of the data as they were before the call. -/
theorem Owing.rollback {start ring : Ring count} {base last : Nat} {log : List Release}
    (roomy : start.Roomy) (owing : Owing start base last last log ring)
    (less : last + 1 ≤ start.tpdAvail) :
    let undone := txRollback ring (Cyclic.next^[base] start.nextToUse)
    undone.1.Roomy ∧ undone.1.owed = start.owed ∧ (undone.2 ++ undone.1.owed).Perm ring.owed ∧
      undone.1.producer = start.producer ∧
      forall j, j < base → undone.1.bufferInfo (Cyclic.next^[j] start.nextToUse) =
        start.bufferInfo (Cyclic.next^[j] start.nextToUse) := by
  intro undone
  have bound := start.tpdAvail_lt
  have baseLe := owing.base_le
  let first := Cyclic.next^[base] start.nextToUse
  have reached : forall j, Cyclic.next^[base + j] start.nextToUse = Cyclic.next^[j] first := by
    intro j
    rw [Nat.add_comm, Function.iterate_add_apply]
  have turns : Cyclic.distance first ring.nextToUse = last + 1 - base := by
    have place : ring.nextToUse = Cyclic.next^[last + 1 - base] first := by
      rw [owing.nextToUse, ← reached, Nat.add_sub_cancel' (Nat.le_succ_of_le baseLe)]
    rw [place, Cyclic.distance_iterate _ (by omega)]
  have loop : undone.1.bufferInfo = (rollbackLoop (last + 1 - base) first ring).1.bufferInfo := by
    rw [← turns]
    rfl
  have frame := rollbackLoop_frame (Cyclic.distance first ring.nextToUse) first ring
  have visited : forall j, base ≤ j → j ≤ last →
      (undone.1.bufferInfo (Cyclic.next^[j] start.nextToUse)).owed = [] := by
    intro j above below
    have cleaned := rollbackLoop_visited (last + 1 - base) first ring (j := j - base) (by omega)
    rwa [← reached, Nat.add_sub_cancel' above, ← loop] at cleaned
  have others : forall place, (forall j, base ≤ j → j ≤ last →
      place ≠ Cyclic.next^[j] start.nextToUse) →
      undone.1.bufferInfo place = ring.bufferInfo place := by
    intro place outside
    rw [loop]
    apply rollbackLoop_others
    intro j less
    rw [← reached]
    exact outside (base + j) (Nat.le_add_right ..) (by omega)
  refine ⟨⟨?_, ?_⟩, ?_, ?_, frame.2.2.trans owing.producer, ?_⟩
  · exact rollbackLoop_tidy _ _ _ owing.tidy
  · intro j few
    rw [Ring.tpdAvail_moved (by omega) (show undone.1.nextToUse = _ from rfl)
      (frame.2.1.trans owing.nextToClean)] at few
    change (undone.1.bufferInfo (Cyclic.next^[j] first)).owed = []
    rw [← reached]
    rcases Nat.lt_or_ge last (base + j) with behind | inside
    · rw [others _ fun i _ below => Cyclic.iterate_ne (by omega) (by omega) (by omega)]
      exact owing.quiet _ (Nat.le_of_lt behind) (by omega)
    · exact visited _ (Nat.le_add_right ..) inside
  · apply Ring.owed_congr
    intro place
    by_cases taken : ∃ j, base ≤ j ∧ j ≤ last ∧ place = Cyclic.next^[j] start.nextToUse
    · rcases taken with ⟨j, above, below, rfl⟩
      rw [visited j above below, roomy.quiet j (by omega)]
    · have outside : forall j, base ≤ j → j ≤ last → place ≠ Cyclic.next^[j] start.nextToUse :=
        fun j above below same => taken ⟨j, above, below, same⟩
      rw [others place outside, owing.others place outside]
  · exact rollbackLoop_balance _ _ _
  · intro j before
    have outside : forall i, base ≤ i → i ≤ last →
        Cyclic.next^[j] start.nextToUse ≠ Cyclic.next^[i] start.nextToUse :=
      fun i above below => Cyclic.iterate_ne (by omega) (by omega) (by omega)
    rw [others _ outside, owing.others _ outside]

theorem filterMap_put_gave (releases : List Release) :
    (releases.map Event.gave).filterMap Event.put = [] := by
  rw [List.filterMap_map, List.filterMap_eq_nil_iff]
  exact fun _ _ => rfl

theorem filterMap_get_gave (releases : List Release) :
    (releases.map Event.gave).filterMap Event.get = releases := by
  rw [List.filterMap_map]
  exact List.filterMap_some

theorem Edited.settles : (Edited.giveUp : GiveUp count).Settles := by
  intro start base last log m skb roomy owing less
  rcases owing.rollback roomy less with ⟨kept, -, balance, -, -⟩
  refine ⟨kept, ?_⟩
  change Accounted Event.put Event.get _ (_ ++ [Event.freed skb]) _
  rw [Accounted, List.filterMap_append, List.filterMap_append, filterMap_put_gave,
    filterMap_get_gave]
  change (m.ring.owed ++ [Release.consume skb] ++ []).Perm (_ ++ [Release.consume skb] ++ _)
  rw [List.append_nil, List.append_assoc]
  refine (balance.symm.append_right _).trans ?_
  rw [List.append_assoc]
  exact List.perm_append_comm.append_left _

/-! ## One call -/

section Call

variable {ring : Ring count} {env : Env} {skb : SkBuff} {giveUp : GiveUp count}

/-- `atl1c_tso_csum` does not touch the buffers. -/
theorem tsoCsum_frame (env : Env) (ring : Ring count) (tpd : Fin count) (skb : SkBuff) :
    let prepared := tsoCsum env ring tpd skb
    prepared.ring.bufferInfo = ring.bufferInfo ∧ prepared.ring.nextToClean = ring.nextToClean ∧
      prepared.ring.producer = ring.producer := by
  unfold tsoCsum tsoV6 largeSend checkSum
  dsimp only
  split_ifs <;> exact ⟨rfl, rfl, rfl⟩

/-- What stands before the first mapping. -/
theorem Begun.owing {begun : Ring count} {base : Nat} {tso : Bool} {tpd : Fin count}
    (begins : Begun ring base tso begun tpd) (roomy : ring.Roomy)
    (info : begun.bufferInfo = ring.bufferInfo) (nextToClean : begun.nextToClean = ring.nextToClean)
    (producer : begun.producer = ring.producer) :
    Owing ring base base base [] begun where
  base_le := Nat.le_refl _
  nextToUse := begins.nextToUse
  nextToClean := nextToClean
  producer := producer
  tidy place := by
    rw [info]
    exact roomy.tidy place
  quiet j _ few := by
    rw [info]
    exact roomy.quiet j few
  others place _ := by rw [info]
  owed := by
    have same : begun.owed = ring.owed := Ring.owed_congr fun place => by rw [info]
    rw [same]
    exact List.Perm.refl _

theorem Owing.weaken {start : Ring count} {base last : Nat} {log : List Release}
    (owing : Owing start base last last log ring) : Owing start base (last + 1) last log ring :=
  { owing with quiet := fun j above => owing.quiet j (Nat.le_of_succ_le above) }

/-- A packet that is freed by the call that took it. -/
theorem accounted_freed (held : List Release) (skb : Nat) :
    Accounted Event.put Event.get held [.took skb, .freed skb] held := List.perm_append_comm

theorem accounted_taken (skb : Nat) (maps : List Release) {before after : List Release}
    (owed : after.Perm (maps ++ [.consume skb] ++ before)) :
    Accounted Event.put Event.get before (.took skb :: maps.map .mapped) after := by
  have put : (Event.took skb :: maps.map Event.mapped).filterMap Event.put =
      .consume skb :: maps := by
    rw [List.filterMap_cons, List.filterMap_map]
    exact congrArg (Release.consume skb :: ·) List.filterMap_some
  have get : (Event.took skb :: maps.map Event.mapped).filterMap Event.get = [] := by
    rw [List.filterMap_cons, List.filterMap_map]
    exact List.filterMap_eq_nil_iff.mpr fun _ _ => rfl
  rw [Accounted, put, get]
  refine List.perm_append_comm.trans (List.Perm.trans ?_ owed.symm)
  exact (List.perm_append_singleton (Release.consume skb) _).symm.append_right before

/-- The mappings of a prepared packet. -/
theorem Begun.served (real : env.Real) {prepared : Prepared count} {base : Nat} {tso : Bool}
    (begins : Begun ring base tso prepared.ring prepared.tpd)
    (owing : Owing ring base base base [] prepared.ring)
    (header : tso = true → prepared.skb.hdrLen ≠ 0)
    (less : base + prepared.skb.moreTpds tso ≤ ring.tpdAvail) :
    (prepared.tagged.desc prepared.tpd).lsoEn = tso ∧
      Served ring base (base + prepared.skb.moreTpds tso) [] env 0 (prepared.skb.requests tso)
        (Mapping.all env prepared.tpd prepared.skb ⟨prepared.tagged, none, 0, []⟩) := by
  have lsoEn : (prepared.tagged.desc prepared.tpd).lsoEn = tso := by
    rw [Prepared.tagged, Ring.setDesc_self, tagTpd_lsoEn]
    exact begins.lsoEn
  refine ⟨lsoEn, ?_⟩
  have written : Owing ring base base base [] prepared.tagged :=
    ⟨owing.base_le, owing.nextToUse, owing.nextToClean, owing.producer, owing.tidy, owing.quiet,
      owing.others, owing.owed⟩
  rw [begins.place] at lsoEn ⊢
  exact written.all (m := ⟨prepared.tagged, none, 0, []⟩) rfl real prepared.skb lsoEn header less

/-- What becomes of a prepared packet. -/
theorem sendPrepared_balance (settles : giveUp.Settles) (roomy : ring.Roomy) (real : env.Real)
    {prepared : Prepared count} {base : Nat} {tso : Bool}
    (begins : Begun ring base tso prepared.ring prepared.tpd)
    (owing : Owing ring base base base [] prepared.ring)
    (header : tso = true → prepared.skb.hdrLen ≠ 0)
    (less : base + prepared.skb.moreTpds tso + 1 ≤ ring.tpdAvail) :
    let sending := sendPrepared giveUp env prepared.skb.id prepared
    sending.ring.Roomy ∧
      Accounted Event.put Event.get ring.owed sending.events sending.ring.owed := by
  rcases begins.served real owing header (Nat.le_of_succ_le less) with ⟨lsoEn, served⟩
  unfold sendPrepared
  dsimp only
  rw [lsoEn]
  generalize Mapping.all env prepared.tpd prepared.skb ⟨prepared.tagged, none, 0, []⟩ =
    outcome at served ⊢
  cases outcome with
  | ok m =>
      rcases served with ⟨reached, below, backed⟩
      rcases backed.finish (by omega) prepared.skb with ⟨kept, owed⟩
      exact ⟨kept, accounted_taken prepared.skb.id _ owed⟩
  | error m =>
      rcases served with ⟨reached, below, stopped⟩
      rcases settles ring base reached _ m prepared.skb.id roomy stopped (by omega) with
        ⟨kept, settled⟩
      rw [← begins.place] at kept settled
      refine ⟨kept, (accounted_taken prepared.skb.id _ ?_).trans settled⟩
      have added := stopped.owed.append_right [Release.consume prepared.skb.id]
      rw [List.nil_append, List.append_assoc] at added
      rw [List.append_assoc]
      exact added.trans (List.perm_append_comm.append_left _)

/-- What is asked of the packets and of the kernel's answers: a large packet has a
header, and no mapping is at address zero. -/
def Fair (env : Env) (skb : SkBuff) : Prop :=
  env.Real ∧ (skb.isGso = true → skb.hdrLen ≠ 0)

/-- Whatever `atl1c_tso_csum` decides, it has taken descriptors that were there. -/
theorem tsoCsum_begun (enough : skb.calTpdReq ≤ ring.tpdAvail) :
    let prepared := tsoCsum env ring.getTpd ring.nextToUse skb
    ∃ base tso, Begun ring base tso prepared.ring prepared.tpd ∧ base + 1 ≤ ring.tpdAvail ∧
      prepared.error = checksumFails env skb ∧
      (prepared.error = false → prepared.skb = skb.final env ∧ base = (skb.final env).base ∧
        tso = (!(skb.final env).plain) ∧
        base + (skb.final env).moreTpds tso + 1 ≤ ring.tpdAvail) := by
  have few := Nat.le_trans (skb.tpds_le_req env) enough
  have bound := ring.tpdAvail_lt
  intro prepared
  cases cow : skb.isGso && env.cowFails with
  | true =>
      rcases (Bool.and_eq_true ..).mp cow with ⟨gso, fails⟩
      have stopped : prepared = ⟨ring.getTpd, ring.nextToUse, skb, true⟩ := by
        change tsoCsum env ring.getTpd ring.nextToUse skb = _
        rw [tsoCsum, gso, fails]
        rfl
      rw [stopped, checksumFails, cow]
      exact ⟨0, false, begun_getTpd ring, by omega, rfl, fun fine => absurd fine Bool.true_eq_false.mp⟩
  | false =>
      rcases tsoCsum_ends ring env skb (by omega) cow with ⟨_, ends, -⟩
      refine ⟨_, _, ends.begins, by omega, ?_, fun _ => ⟨ends.packet, rfl, rfl, few⟩⟩
      rw [show prepared.error = _ from ends.error, checksumFails, cow, Bool.not_not]
      rfl

theorem Fair.header (fair : Fair env skb) (large : (!(skb.final env).plain) = true) :
    (skb.final env).hdrLen ≠ 0 := by
  have same := skb.final_same env
  rw [same.2.2.2]
  apply fair.2
  rw [SkBuff.plain, same.2.1] at large
  cases gso : skb.isGso with
  | true => rfl
  | false =>
      rw [gso] at large
      cases large

/-- What is known when the mappings begin. -/
structure Readied (ring : Ring count) (env : Env) (skb : SkBuff) (prepared : Prepared count)
    (tso : Bool) : Prop where
  id : prepared.skb.id = skb.id
  begins : Begun ring (skb.final env).base tso prepared.ring prepared.tpd
  owing : Owing ring (skb.final env).base (skb.final env).base (skb.final env).base [] prepared.ring
  header : tso = true → prepared.skb.hdrLen ≠ 0
  less : (skb.final env).base + prepared.skb.moreTpds tso + 1 ≤ ring.tpdAvail

/-- Unless it fails, `atl1c_tso_csum` leaves a packet ready, and a packet that it
fails for owes nothing. -/
theorem tsoCsum_readied (enough : skb.calTpdReq ≤ ring.tpdAvail) (roomy : ring.Roomy)
    (fair : Fair env skb) :
    let prepared := tsoCsum env ring.getTpd ring.nextToUse skb
    (prepared.error = false → ∃ tso, Readied ring env skb prepared tso) ∧
      prepared.ring.Roomy ∧ prepared.ring.owed = ring.owed := by
  have frame := tsoCsum_frame env ring.getTpd ring.nextToUse skb
  rcases @tsoCsum_begun _ _ env _ enough with ⟨base, tso, begins, inside, -, fine⟩
  generalize tsoCsum env ring.getTpd ring.nextToUse skb = prepared at frame begins fine
  have owing : Owing ring base base base [] prepared.ring :=
    begins.owing roomy frame.1 frame.2.1 frame.2.2
  refine ⟨fun error => ?_, owing.weaken.roomy inside, ?_⟩
  · rcases fine error with ⟨packet, rfl, rfl, less⟩
    exact ⟨_, packet ▸ (skb.final_same env).1, begins, owing, fun large => packet ▸ fair.header large,
      packet ▸ less⟩
  · apply Ring.owed_congr
    intro place
    rw [frame.1]
    rfl

/-- A call settles what it takes, or leaves it to be settled by cleaning the ring. -/
theorem sendFrame_balance (settles : giveUp.Settles) (roomy : ring.Roomy) (fair : Fair env skb) :
    let sending := sendFrame giveUp ring env skb
    sending.ring.Roomy ∧
      Accounted Event.put Event.get ring.owed sending.events sending.ring.owed := by
  unfold sendFrame
  split_ifs with down locked full
  · exact ⟨roomy, accounted_freed _ _⟩
  · exact ⟨roomy, Accounted.refl _⟩
  · exact ⟨roomy, Accounted.refl _⟩
  · have ready := tsoCsum_readied (Nat.le_of_not_lt full) roomy fair
    generalize tsoCsum env ring.getTpd ring.nextToUse skb = prepared at ready
    dsimp only at ready ⊢
    cases error : prepared.error with
    | true =>
        rw [if_pos rfl, ready.2.2]
        exact ⟨ready.2.1, accounted_freed _ _⟩
    | false =>
        rcases ready.1 error with ⟨tso, readied⟩
        rw [← readied.id]
        exact sendPrepared_balance settles roomy fair.1 readied.begins readied.owing readied.header
          readied.less

end Call

/-! ## Runs -/

/-- `atl1c_clean_tx_ring`. -/
def cleanTxRing (ring : Ring count) : Ring count × List Release :=
  let zero : Fin count := ⟨0, Nat.zero_lt_of_lt ring.nextToUse.isLt⟩
  ({ ring with
      desc := fun _ => Tpd.zero
      bufferInfo := fun place => (cleanBuffer (ring.bufferInfo place)).1
      nextToUse := zero
      nextToClean := zero },
    (List.finRange count).flatMap fun place => (cleanBuffer (ring.bufferInfo place)).2)

/-- `atl1c_init_ring_ptrs`, for the first queue.  Its loop marks the same buffer as
free each time; the reset before it has cleared the register of the card. -/
def initRingPtrs (ring : Ring count) : Ring count :=
  let zero : Fin count := ⟨0, Nat.zero_lt_of_lt ring.nextToUse.isLt⟩
  let info := ring.bufferInfo zero
  { ring.setInfo zero { info with flags := setBufferState info.flags bufferFree } with
    nextToUse := zero
    nextToClean := zero
    producer := zero }

/-- A packet to send, an interrupt when the card has reported up to a place, or
the interface taken down and up again. -/
inductive Call (count : Nat) where
  | xmit (env : Env) (skb : SkBuff)
  | clean (hwNextToClean : Fin count)
  | restart

/-- The transmit side, with all that it takes and gives back. -/
def transmitter (giveUp : GiveUp count) : Machine (Ring count) (Call count) (List Event) where
  step ring
    | .xmit env skb =>
        let sending := sendFrame giveUp ring env skb
        (sending.ring, sending.events)
    | .clean hwNextToClean =>
        let cleaned := ring.cleanTxIrq hwNextToClean
        (cleaned.1, cleaned.2.map .gave)
    | .restart =>
        let cleaned := cleanTxRing ring
        (initRingPtrs cleaned.1, cleaned.2.map .gave)

def Call.Fair : Call count → Prop
  | .xmit env skb => Atl1c.Fair env skb
  | _ => True

/-- The memory of the buffers as it is allocated. -/
def Ring.Blank (ring : Ring count) : Prop := forall place, ring.bufferInfo place = ⟨none, 0, 0, 0⟩

section Runs

variable {ring : Ring count} {giveUp : GiveUp count}

/-- The pointers are set on a ring for which nothing is owed. -/
theorem roomy_initRingPtrs (tidy : forall place, (ring.bufferInfo place).Tidy)
    (quiet : forall place, (ring.bufferInfo place).owed = []) :
    (initRingPtrs ring).Roomy ∧ (initRingPtrs ring).owed = [] := by
  let zero : Fin count := ⟨0, Nat.zero_lt_of_lt ring.nextToUse.isLt⟩
  let info : TxBuffer := { ring.bufferInfo zero with
    flags := setBufferState (ring.bufferInfo zero).flags bufferFree }
  have infos : (initRingPtrs ring).bufferInfo = (ring.setInfo zero info).bufferInfo := rfl
  have free : info.isFree = true := TxBuffer.isFree_setBufferState _
  have empty : info.skb = none := (tidy zero).skb (quiet zero)
  have every : forall place, ((initRingPtrs ring).bufferInfo place).Tidy ∧
      ((initRingPtrs ring).bufferInfo place).owed = [] := by
    intro place
    rw [infos]
    by_cases same : place = zero
    · rw [same, Ring.setInfo_self]
      exact ⟨fun _ => empty, TxBuffer.owed_of_free free⟩
    · rw [Ring.setInfo_of_ne _ _ _ same]
      exact ⟨tidy place, quiet place⟩
  exact ⟨⟨fun place => (every place).1, fun j _ => (every _).2⟩,
    inPlaces_eq_nil fun place => (every place).2⟩

theorem Ring.Blank.ready (blank : ring.Blank) :
    (initRingPtrs ring).Roomy ∧ (initRingPtrs ring).owed = [] := by
  apply roomy_initRingPtrs
  · intro place free
    rw [blank place]
  · intro place
    rw [blank place]
    rfl

/-- A restart leaves nothing owed. -/
theorem Ring.Roomy.restart (roomy : ring.Roomy) :
    (initRingPtrs (cleanTxRing ring).1).Roomy ∧ (initRingPtrs (cleanTxRing ring).1).owed = [] :=
  roomy_initRingPtrs (fun place => (roomy.tidy place).clean) fun _ => TxBuffer.owed_clean _

/-- What is given back was owed. -/
theorem accounted_gave {releases before after : List Release} (owed : (releases ++ after).Perm before) :
    Accounted Event.put Event.get before (releases.map .gave) after := by
  rw [Accounted, filterMap_put_gave, filterMap_get_gave, List.append_nil]
  exact owed.symm

/-- Every call settles what it takes, or leaves it in the ring. -/
theorem transmitter_balance (settles : giveUp.Settles) (roomy : ring.Roomy) {call : Call count}
    (fair : call.Fair) :
    ((transmitter giveUp).next ring call).Roomy ∧
      Accounted Event.put Event.get ring.owed ((transmitter giveUp).out ring call)
        ((transmitter giveUp).next ring call).owed := by
  cases call with
  | xmit env skb => exact sendFrame_balance settles roomy fair
  | clean hwNextToClean =>
      have balance := Ring.cleanLoop_balance (Cyclic.distance ring.nextToClean hwNextToClean) roomy
      exact ⟨balance.1, accounted_gave balance.2⟩
  | restart =>
      have ready := roomy.restart
      refine ⟨ready.1, accounted_gave ?_⟩
      change (_ ++ (initRingPtrs (cleanTxRing ring).1).owed).Perm _
      rw [ready.2, List.append_nil]
      exact List.Perm.refl ring.owed

/-- What a run takes it settles, gives up, or leaves in the ring. -/
theorem transmitter_accounted (settles : giveUp.Settles) (blank : ring.Blank)
    {calls : List (Call count)} (fair : forall call, call ∈ calls → call.Fair) :
    ((transmitter giveUp).run (initRingPtrs ring) calls).Roomy ∧
      Accounted Event.put Event.get [] ((transmitter giveUp).events (initRingPtrs ring) calls)
        ((transmitter giveUp).run (initRingPtrs ring) calls).owed := by
  have ready := blank.ready
  have along := (transmitter giveUp).along_of_forall_mem Call.Fair (initRingPtrs ring) fair
  have step : forall (state : Ring count) call held, (state.Roomy ∧ held = state.owed) →
      call.Fair → ∃ after, (((transmitter giveUp).next state call).Roomy ∧
        after = ((transmitter giveUp).next state call).owed) ∧
        Accounted Event.put Event.get held ((transmitter giveUp).out state call) after := by
    rintro state call held ⟨roomy, rfl⟩ here
    have balance := transmitter_balance settles roomy here
    exact ⟨_, ⟨balance.1, rfl⟩, balance.2⟩
  rcases (transmitter giveUp).run_balance (fun state held => state.Roomy ∧ held = state.owed)
    (fun _ call => call.Fair) (Accounted Event.put Event.get) Accounted.refl Accounted.trans step
    ⟨ready.1, ready.2.symm⟩ along with ⟨after, ⟨roomy, rfl⟩, balance⟩
  exact ⟨roomy, balance⟩

theorem get_split (events : List Event) :
    (events.filterMap Event.get).Perm
      (events.filterMap Event.settle ++ events.filterMap Event.lose) := by
  induction events with
  | nil => exact List.Perm.refl _
  | cons event events ih =>
      cases event with
      | took skb => exact ih
      | mapped undo => exact ih
      | gave release => exact ih.cons release
      | freed skb => exact ih.cons (.consume skb)
      | forgot skb => exact (ih.cons (.consume skb)).trans List.perm_middle.symm

/-- The account is right without what was given up exactly when nothing was. -/
theorem accounted_iff {held after : List Release} {events : List Event}
    (balance : Accounted Event.put Event.get held events after) :
    Accounted Event.put Event.settle held events after ↔
      forall event, event ∈ events → event.lose = none := by
  have split := (get_split events).append_right after
  have whole := List.Perm.trans balance split
  rw [← List.filterMap_eq_nil_iff]
  constructor
  · intro settled
    have lengths := (settled.symm.trans whole).length_eq
    rw [List.length_append, List.length_append, List.length_append] at lengths
    exact List.length_eq_zero_iff.mp (by omega)
  · intro none
    rw [none, List.append_nil] at whole
    exact whole

end Runs

/-! ## Which calls give up -/

/-- The call gets as far as the mappings, and one of them is refused. -/
def Refused (ring : Ring count) (env : Env) (skb : SkBuff) : Prop :=
  Attempted ring env skb ∧ env.down = false ∧ checksumFails env skb = false ∧
    ∃ i, i < (skb.final env).mapCount (!(skb.final env).plain) ∧ env.dma i = none

def Call.Refused (ring : Ring count) : Call count → Prop
  | .xmit env skb => Atl1c.Refused ring env skb
  | _ => False

instance (ring : Ring count) (env : Env) (skb : SkBuff) : Decidable (Refused ring env skb) :=
  inferInstanceAs (Decidable (_ ∧ _ ∧ _ ∧ _))

instance (ring : Ring count) : (call : Call count) → Decidable (call.Refused ring)
  | .xmit env skb => inferInstanceAs (Decidable (Atl1c.Refused ring env skb))
  | .clean _ | .restart => inferInstanceAs (Decidable False)

/-- The packet of a call that has a mapping refused. -/
def Call.lost (ring : Ring count) : Call count → List Release
  | .xmit env skb => if Atl1c.Refused ring env skb then [.consume skb.id] else []
  | _ => []

/-- The fork again, seen only for these packets. -/
def Fork.losses : Machine (Ring count) (Call count) (List Release) where
  step ring call := ((transmitter Fork.giveUp).next ring call, call.lost ring)

section GivingUp

variable {ring : Ring count} {env : Env} {skb : SkBuff} {giveUp : GiveUp count}

/-- The mappings of a prepared packet stop exactly when one is refused. -/
theorem Begun.built {prepared : Prepared count} {base : Nat} {tso : Bool}
    (begins : Begun ring base tso prepared.ring prepared.tpd)
    (less : base + prepared.skb.moreTpds tso < count) (env : Env) :
    Built ⟨prepared.tagged, ring.nextToUse, base⟩ env (base + prepared.skb.moreTpds tso) 0
      (prepared.skb.mapCount tso)
      (Mapping.all env prepared.tpd prepared.skb ⟨prepared.tagged, none, 0, []⟩) := by
  have lsoEn : (prepared.tagged.desc prepared.tpd).lsoEn = tso := by
    rw [Prepared.tagged, Ring.setDesc_self, tagTpd_lsoEn]
    exact begins.lsoEn
  rw [begins.place] at lsoEn
  have built := begins.taken.all env rfl prepared.skb lsoEn less
  rw [begins.place]
  exact built

theorem lose_taken (skb : Nat) (maps : List Release) (event : Event)
    (member : event ∈ .took skb :: maps.map .mapped) : event.lose = none := by
  rcases List.mem_cons.mp member with rfl | later
  · rfl
  · rcases List.mem_map.mp later with ⟨undo, _, rfl⟩
    rfl

theorem lose_freed (skb : Nat) (event : Event) (member : event ∈ [.took skb, .freed skb]) :
    event.lose = none := by
  rcases List.mem_cons.mp member with rfl | later
  · rfl
  · rw [List.mem_singleton.mp later]
    rfl

/-- How a call that takes the packet goes on, by whether a mapping is refused. -/
theorem sendPrepared_cases {prepared : Prepared count} {base : Nat} {tso : Bool}
    (begins : Begun ring base tso prepared.ring prepared.tpd)
    (less : base + prepared.skb.moreTpds tso < count) (env : Env) (id : Nat) :
    ∃ before, (forall event, event ∈ before → event.lose = none) ∧
      (((forall i, i < prepared.skb.mapCount tso → (env.dma i).isSome) ∧
        ∃ ring' made, forall giveUp : GiveUp count,
          sendPrepared giveUp env id prepared = ⟨ring', .ok, made, before⟩) ∨
      ((∃ i, i < prepared.skb.mapCount tso ∧ env.dma i = none) ∧
        ∃ m, Mapping.all env prepared.tpd prepared.skb ⟨prepared.tagged, none, 0, []⟩ = .error m ∧
          forall giveUp : GiveUp count, sendPrepared giveUp env id prepared =
            ⟨(giveUp m prepared.tpd id).1, .ok, m.held,
              before ++ (giveUp m prepared.tpd id).2⟩)) := by
  refine ⟨_, lose_taken id
    (granted env 0 (prepared.skb.requests (prepared.tagged.desc prepared.tpd).lsoEn)), ?_⟩
  have built := begins.built less env
  unfold sendPrepared
  dsimp only
  generalize Mapping.all env prepared.tpd prepared.skb ⟨prepared.tagged, none, 0, []⟩ =
    outcome at built ⊢
  cases outcome with
  | ok m => exact Or.inl ⟨fun i few => built.2.2 i (Nat.zero_le i) few, _, _, fun _ => rfl⟩
  | error m =>
      rcases built.2 with ⟨i, -, few, refused⟩
      exact Or.inr ⟨⟨i, few, refused⟩, m, rfl, fun _ => rfl⟩

/-- Where the mappings of the call have stopped. -/
def StopsAt (ring : Ring count) (env : Env) (skb : SkBuff) (m : Mapping count) : Prop :=
  let prepared := tsoCsum env ring.getTpd ring.nextToUse skb
  Mapping.all env prepared.tpd prepared.skb ⟨prepared.tagged, none, 0, []⟩ = .error m

/-- A call does not depend on the way to give up, or it ends that way, which is
when a mapping is refused. -/
theorem sendFrame_cases (ring : Ring count) (env : Env) (skb : SkBuff) :
    ∃ before, (forall event, event ∈ before → event.lose = none) ∧
      ((¬ Refused ring env skb ∧ ∃ ring' result made, forall giveUp : GiveUp count,
          sendFrame giveUp ring env skb = ⟨ring', result, made, before⟩) ∨
      (Refused ring env skb ∧ ∃ m, StopsAt ring env skb m ∧
        forall giveUp : GiveUp count, sendFrame giveUp ring env skb =
          ⟨(giveUp m (Cyclic.next^[(skb.final env).base] ring.nextToUse) skb.id).1, .ok, m.held,
            before ++ (giveUp m (Cyclic.next^[(skb.final env).base] ring.nextToUse) skb.id).2⟩)) := by
  unfold sendFrame StopsAt
  split_ifs with down locked full
  · exact ⟨_, lose_freed skb.id, Or.inl ⟨fun refused => absurd (down.symm.trans refused.2.1)
      Bool.true_eq_false.mp, _, _, _, fun _ => rfl⟩⟩
  · exact ⟨[], fun _ none => absurd none List.not_mem_nil, Or.inl ⟨fun refused =>
      absurd (locked.symm.trans refused.1.1) Bool.true_eq_false.mp, _, _, _, fun _ => rfl⟩⟩
  · exact ⟨[], fun _ none => absurd none List.not_mem_nil, Or.inl ⟨fun refused =>
      absurd refused.1.2 (Nat.not_le.mpr full), _, _, _, fun _ => rfl⟩⟩
  · have attempted : Attempted ring env skb :=
      ⟨Bool.eq_false_iff.mpr locked, Nat.le_of_not_lt full⟩
    have up : env.down = false := Bool.eq_false_iff.mpr down
    have bound := ring.tpdAvail_lt
    rcases tsoCsum_begun attempted.2 with ⟨base, tso, begins, -, fails, fine⟩
    generalize tsoCsum env ring.getTpd ring.nextToUse skb = prepared at begins fails fine
    dsimp only
    cases error : prepared.error with
    | true =>
        refine ⟨_, lose_freed skb.id, Or.inl ⟨fun refused => ?_, _, _, _, fun _ => rfl⟩⟩
        rw [error, refused.2.2.1] at fails
        cases fails
    | false =>
        rcases fine error with ⟨packet, rfl, rfl, less⟩
        have inside : (skb.final env).base + prepared.skb.moreTpds (!(skb.final env).plain) < count := by
          rw [packet]
          omega
        rcases sendPrepared_cases begins inside env skb.id with ⟨before, silent, answered | refused⟩
        · refine ⟨before, silent, Or.inl ⟨fun refused => ?_, ?_⟩⟩
          · rcases refused.2.2.2 with ⟨i, few, none⟩
            have some := answered.1 i (packet ▸ few)
            rw [none] at some
            cases some
          · rcases answered.2 with ⟨ring', made, same⟩
            exact ⟨ring', .ok, made, same⟩
        · refine ⟨before, silent, Or.inr ⟨⟨attempted, up, fails.symm.trans error, ?_⟩, ?_⟩⟩
          · rcases refused.1 with ⟨i, few, none⟩
            exact ⟨i, packet ▸ few, none⟩
          · rcases refused.2 with ⟨m, stopped, same⟩
            rw [← begins.place]
            exact ⟨m, stopped, same⟩

/-- What the driver has taken when the mappings stop. -/
theorem StopsAt.owing {m : Mapping count} (stops : StopsAt ring env skb m)
    (refused : Refused ring env skb) (roomy : ring.Roomy) (fair : Fair env skb) :
    ∃ last log, Owing ring (skb.final env).base last last log m.ring ∧
      last + 1 ≤ ring.tpdAvail := by
  have ready := tsoCsum_readied refused.1.2 roomy fair
  rcases @tsoCsum_begun _ _ env _ refused.1.2 with ⟨base, tso, -, -, fails, -⟩
  unfold StopsAt at stops
  generalize tsoCsum env ring.getTpd ring.nextToUse skb = prepared at ready fails stops
  dsimp only at ready stops
  rcases ready.1 (fails.trans refused.2.2.1) with ⟨tso, readied⟩
  have served := readied.begins.served fair.1 readied.owing readied.header
    (Nat.le_of_succ_le readied.less)
  rw [stops] at served
  rcases served.2 with ⟨last, below, stopped⟩
  exact ⟨last, _, stopped, Nat.le_trans (Nat.succ_le_succ below) readied.less⟩

theorem filterMap_lose_silent {events : List Event}
    (silent : forall event, event ∈ events → event.lose = none) :
    events.filterMap Event.lose = [] := List.filterMap_eq_nil_iff.mpr silent

/-- The fork loses the packet of each call that has a mapping refused, and no other. -/
theorem Fork.lose_eq (ring : Ring count) (call : Call count) :
    ((transmitter Fork.giveUp).out ring call).filterMap Event.lose = call.lost ring := by
  cases call with
  | xmit env skb =>
      change (sendFrame Fork.giveUp ring env skb).events.filterMap Event.lose =
        if Refused ring env skb then [.consume skb.id] else []
      rcases sendFrame_cases ring env skb with
        ⟨before, silent, ⟨fine, _, _, _, same⟩ | ⟨refused, m, -, same⟩⟩
      · rw [same, if_neg fine]
        exact filterMap_lose_silent silent
      · rw [same, if_pos refused, List.filterMap_append, filterMap_lose_silent silent]
        rfl
  | clean hwNextToClean =>
      apply filterMap_lose_silent
      intro event member
      rcases List.mem_map.mp member with ⟨release, _, rfl⟩
      rfl
  | restart =>
      apply filterMap_lose_silent
      intro event member
      rcases List.mem_map.mp member with ⟨release, _, rfl⟩
      rfl

/-- Only the fork loses a packet, and only when a mapping is refused. -/
theorem Fork.lose_iff (ring : Ring count) (call : Call count) :
    (forall event, event ∈ (transmitter Fork.giveUp).out ring call → event.lose = none) ↔
      ¬ call.Refused ring := by
  rw [← List.filterMap_eq_nil_iff, Fork.lose_eq]
  cases call with
  | xmit env skb =>
      change (if Refused ring env skb then [Release.consume skb.id] else []) = [] ↔
        ¬ Refused ring env skb
      by_cases refused : Refused ring env skb
      · rw [if_pos refused]
        exact iff_of_false (List.cons_ne_nil _ _) (not_not_intro refused)
      · rw [if_neg refused]
        exact iff_of_true rfl refused
  | clean hwNextToClean => exact iff_of_true rfl not_false
  | restart => exact iff_of_true rfl not_false

theorem Edited.lose_none (ring : Ring count) (call : Call count) (event : Event)
    (member : event ∈ (transmitter Edited.giveUp).out ring call) : event.lose = none := by
  have gave : forall releases : List Release, event ∈ releases.map Event.gave → event.lose = none := by
    intro releases inside
    rcases List.mem_map.mp inside with ⟨release, _, rfl⟩
    rfl
  cases call with
  | xmit env skb =>
      change event ∈ (sendFrame Edited.giveUp ring env skb).events at member
      rcases sendFrame_cases ring env skb with
        ⟨before, silent, ⟨_, _, _, _, same⟩ | ⟨_, m, -, same⟩⟩
      · rw [same] at member
        exact silent event member
      · rw [same] at member
        rcases List.mem_append.mp member with early | late
        · exact silent event early
        · rcases List.mem_append.mp late with undone | freed
          · exact gave _ undone
          · rw [List.mem_singleton.mp freed]
            rfl
  | clean hwNextToClean => exact gave _ member
  | restart => exact gave _ member

end GivingUp

/-- Over any run of the driver with `atl1c_tx_rollback`, every packet that it takes
is freed once and every mapping that it makes is undone once as it was made, or
they stand in the ring, and a restart leaves nothing. -/
theorem Edited.settled {ring : Ring count} (blank : ring.Blank) {calls : List (Call count)}
    (fair : forall call, call ∈ calls → call.Fair) :
    Accounted Event.put Event.settle []
        ((transmitter Edited.giveUp).events (initRingPtrs ring) calls)
        ((transmitter Edited.giveUp).run (initRingPtrs ring) calls).owed ∧
      (((transmitter Edited.giveUp).events (initRingPtrs ring) (calls ++ [.restart])).filterMap
        Event.put).Perm
        (((transmitter Edited.giveUp).events (initRingPtrs ring) (calls ++ [.restart])).filterMap
          Event.settle) := by
  have settled : forall calls : List (Call count), (forall call, call ∈ calls → call.Fair) →
      Accounted Event.put Event.settle []
        ((transmitter Edited.giveUp).events (initRingPtrs ring) calls)
        ((transmitter Edited.giveUp).run (initRingPtrs ring) calls).owed := by
    intro calls fair
    apply (accounted_iff (transmitter_accounted Edited.settles blank fair).2).mpr
    rw [Machine.forall_events_iff_along]
    exact (transmitter Edited.giveUp).along_of_invariant_of_step (fun _ => True) _
      (fun _ _ _ => trivial) (fun state call _ => Edited.lose_none state call) trivial calls
  refine ⟨settled calls fair, ?_⟩
  have last := settled (calls ++ [.restart]) fun call member => by
    rcases List.mem_append.mp member with early | late
    · exact fair call early
    · rw [List.mem_singleton.mp late]
      trivial
  have nothing : ((transmitter Edited.giveUp).run (initRingPtrs ring) (calls ++ [.restart])).owed =
      [] := by
    rw [Machine.run_append]
    exact (transmitter_accounted Edited.settles blank fair).1.restart.2
  rwa [nothing, Accounted, List.nil_append, List.append_nil] at last

/-- A ring of twelve places as it is allocated. -/
def blankRing : Ring 12 where
  desc _ := Tpd.zero
  bufferInfo _ := ⟨none, 0, 0, 0⟩
  nextToUse := 0
  nextToClean := 0
  producer := 0

/-- The last mapping of the first packet is refused, and the second is sent. -/
def refusedRun : List (Call 12) :=
  [.xmit (mapsFirst 2) twoFragments, .xmit (mapsFirst 3) largePacket, .clean 3]

theorem blank_blankRing : blankRing.Blank := fun _ => rfl

theorem real_mapsFirst {mappings : Nat} (few : mappings ≤ 3) : (mapsFirst mappings).Real := by
  intro i zero
  change (if i < mappings then some (BitVec.ofNat 64 (4096 * (i + 1))) else none) = some 0 at zero
  split_ifs at zero with inside
  have bound : i < 3 := Nat.lt_of_lt_of_le inside few
  interval_cases i <;> cases zero

theorem fair_refusedRun (call : Call 12) (member : call ∈ refusedRun) : call.Fair := by
  simp only [refusedRun, List.mem_cons, List.not_mem_nil, or_false] at member
  rcases member with rfl | rfl | rfl
  · exact ⟨real_mapsFirst (by decide), by decide⟩
  · exact ⟨real_mapsFirst (by decide), by decide⟩
  · trivial

theorem Edited.settled_refusedRun :
    (((transmitter Edited.giveUp).events (initRingPtrs blankRing)
      (refusedRun ++ [.restart])).filterMap Event.put).Perm
      (((transmitter Edited.giveUp).events (initRingPtrs blankRing)
        (refusedRun ++ [.restart])).filterMap Event.settle) :=
  (Edited.settled blank_blankRing fair_refusedRun).2

theorem Fork.losses_events (ring : Ring count) (calls : List (Call count)) :
    ((transmitter Fork.giveUp).events ring calls).filterMap Event.lose =
      Fork.losses.events ring calls := by
  induction calls generalizing ring with
  | nil => rfl
  | cons call calls ih =>
      rw [Machine.events_cons, Machine.events_cons, List.filterMap_append, Fork.lose_eq, ih]
      rfl

/-- The fork settles all that it takes exactly when no mapping is refused.  What it
takes is settled, or stands in the ring, or is the packet of a call that had a mapping
refused: that packet is lost, once for each such call. -/
theorem Fork.settled_iff {ring : Ring count} (blank : ring.Blank) {calls : List (Call count)}
    (fair : forall call, call ∈ calls → call.Fair) :
    (Accounted Event.put Event.settle []
        ((transmitter Fork.giveUp).events (initRingPtrs ring) calls)
        ((transmitter Fork.giveUp).run (initRingPtrs ring) calls).owed ↔
      (transmitter Fork.giveUp).Along (fun state call => ¬ call.Refused state) (initRingPtrs ring)
        calls) ∧
      (((transmitter Fork.giveUp).events (initRingPtrs ring) calls).filterMap Event.put).Perm
        (((transmitter Fork.giveUp).events (initRingPtrs ring) calls).filterMap Event.settle ++
          Fork.losses.events (initRingPtrs ring) calls ++
          ((transmitter Fork.giveUp).run (initRingPtrs ring) calls).owed) := by
  have balance := (transmitter_accounted Fork.settles blank fair).2
  constructor
  · rw [accounted_iff balance, Machine.forall_events_iff_along]
    exact (transmitter Fork.giveUp).along_congr Fork.lose_iff _ _
  · rw [← Fork.losses_events]
    exact List.Perm.trans balance ((get_split _).append_right _)

/-- The fork never frees the first packet. -/
theorem Fork.not_settled_refusedRun :
    ¬ Accounted Event.put Event.settle []
      ((transmitter Fork.giveUp).events (initRingPtrs blankRing) refusedRun)
      ((transmitter Fork.giveUp).run (initRingPtrs blankRing) refusedRun).owed := fun settled =>
  absurd ((Fork.settled_iff blank_blankRing fair_refusedRun).1.mp settled) (by decide +kernel)

/-! ## What a call leaves -/

/-- The packet was built and shown to the card. -/
def Whole (ring : Ring count) (skb : SkBuff) (sending : Sending count) : Prop :=
  Chain sending.ring sending.made skb ring.nextToUse sending.ring.nextToUse ∧
    sending.ring.producer = sending.ring.nextToUse

/-- Nothing is left of the call: both indices are as before, all that it took is
settled, and the ring owes what it did. -/
structure Restored (ring : Ring count) (sending : Sending count) : Prop where
  nextToUse : sending.ring.nextToUse = ring.nextToUse
  producer : sending.ring.producer = ring.producer
  owed : sending.ring.owed = ring.owed
  settled : (sending.events.filterMap Event.put).Perm (sending.events.filterMap Event.settle)

/-- What stands in the place before the data is no packet. -/
theorem not_chain_of_empty {ring : Ring count} {made : List (Fin count × BitVec 64)} {skb : SkBuff}
    {first : Fin count} {base : Nat} (baseLe : base ≤ 1) (less : 1 < count)
    (empty : forall j, j < base → (ring.bufferInfo (Cyclic.next^[j] first)).skb = none) :
    ¬ Chain ring made skb first (Cyclic.next^[base] first) := by
  intro chain
  rcases chain.last with ⟨last, same, -, owner⟩
  rcases base with _ | base
  · rw [Cyclic.between_iterate first (Nat.lt_trans Nat.zero_lt_one less)] at same
    cases same
  · rw [Cyclic.getLast?_between first (by omega)] at same
    rw [← Option.some.inj same, empty base (Nat.lt_succ_self base)] at owner
    cases owner

section Ends

variable {ring : Ring count} {env : Env} {skb : SkBuff}

theorem Restored.not_moved {sending : Sending count} {k : Nat} (less : k + 1 < count)
    (moved : sending.ring.nextToUse = Cyclic.next^[k + 1] ring.nextToUse) :
    ¬ Restored ring sending := fun restored =>
  Cyclic.iterate_ne (k := 0) less (Nat.zero_lt_of_lt less) (Nat.succ_ne_zero k)
    (moved.symm.trans restored.nextToUse)

/-- A refused mapping leaves the ring as it was, unless an extension was taken. -/
theorem Edited.restored_iff (roomy : ring.Roomy) (fair : Fair env skb)
    (refused : Refused ring env skb) :
    (Whole ring (skb.final env) (sendFrame Edited.giveUp ring env skb) ∨
        Restored ring (sendFrame Edited.giveUp ring env skb)) ↔
      (skb.final env).extended = false := by
  have bound := ring.tpdAvail_lt
  have balance := (sendFrame_balance Edited.settles roomy fair).2
  have silent := Edited.lose_none ring (.xmit env skb)
  change forall event, event ∈ (sendFrame Edited.giveUp ring env skb).events → _ at silent
  rcases sendFrame_cases ring env skb with ⟨before, -, ⟨fine, -⟩ | ⟨-, m, stops, same⟩⟩
  · exact absurd refused fine
  · rcases stops.owing refused roomy fair with ⟨last, log, owing, less⟩
    have baseLe := owing.base_le
    rcases owing.rollback roomy less with ⟨kept, owed, -, producer, earlier⟩
    have result := same Edited.giveUp
    generalize sendFrame Edited.giveUp ring env skb = sending at result balance silent ⊢
    have left : sending.ring =
        (txRollback m.ring (Cyclic.next^[(skb.final env).base] ring.nextToUse)).1 := by
      rw [result]
      rfl
    have moved : sending.ring.nextToUse = Cyclic.next^[(skb.final env).base] ring.nextToUse := by
      rw [left]
      rfl
    rw [← left] at kept owed producer earlier
    have notWhole : ¬ Whole ring (skb.final env) sending := by
      rintro ⟨chain, -⟩
      rw [moved] at chain
      have one : (skb.final env).base ≤ 1 := by
        unfold SkBuff.base
        split_ifs <;> omega
      refine not_chain_of_empty one (by omega) (fun j below => ?_) chain
      rw [earlier j below]
      exact (roomy.tidy _).skb (roomy.quiet j (by omega))
    rw [or_iff_right notWhole]
    constructor
    · intro restored
      by_contra extended
      have base : (skb.final env).base = 0 + 1 := if_pos (Bool.not_eq_false _ ▸ extended)
      rw [base] at moved
      exact Restored.not_moved (by omega) moved restored
    · intro plain
      have base : (skb.final env).base = 0 := by
        rw [SkBuff.base, plain]
        rfl
      rw [base] at moved
      refine ⟨moved, producer, owed, ?_⟩
      have settled := (accounted_iff balance).mpr silent
      rw [owed] at settled
      exact (List.perm_append_right_iff _).mp (List.perm_append_comm.trans settled)

/-- The two good ends of a call. -/
theorem Edited.whole_or_restored_iff (roomy : ring.Roomy) (fair : Fair env skb)
    (attempted : Attempted ring env skb) :
    (Whole ring (skb.final env) (sendFrame Edited.giveUp ring env skb) ∨
        Restored ring (sendFrame Edited.giveUp ring env skb)) ↔
      env.down = true ∨ Carried env skb ∨
        Refused ring env skb ∧ (skb.final env).extended = false := by
  cases down : env.down with
  | true =>
      refine iff_of_true (Or.inr ?_) (Or.inl rfl)
      rw [sendFrame, if_pos down]
      exact ⟨rfl, rfl, rfl, List.Perm.refl _⟩
  | false =>
      rw [or_iff_right Bool.false_ne_true]
      by_cases refused : Refused ring env skb
      · have notCarried : ¬ Carried env skb := by
          intro carried
          rcases refused.2.2.2 with ⟨i, few, none⟩
          have some := carried.2.2 i few
          rw [none] at some
          cases some
        rw [Edited.restored_iff roomy fair refused, or_iff_right notCarried, and_iff_right refused]
      · rcases sendFrame_cases ring env skb with
          ⟨before, -, ⟨-, ring', result, made, same⟩ | ⟨refused', -⟩⟩
        · have fork := sendFrame_fork ring env skb
          rw [same] at fork
          rw [same]
          rcases fork with ⟨rfl, rfl, rfl⟩
          rcases xmitFrame_attempted attempted down with ⟨k, less, moved, whole⟩
          rw [or_iff_left (Restored.not_moved less moved)]
          rw [or_iff_left fun both => refused both.1]
          exact whole
        · exact absurd refused' refused

end Ends

/-- In every state that the driver with `atl1c_tx_rollback` gets to, a call leaves a
whole packet or nothing exactly when every step goes well, or only a mapping is
refused and no extension was taken by then. -/
theorem Edited.transmits_iff {ring : Ring count} (blank : ring.Blank) {calls : List (Call count)}
    (fair : forall call, call ∈ calls → call.Fair) {reached : Ring count}
    (reaches : (transmitter Edited.giveUp).run (initRingPtrs ring) calls = reached)
    {env : Env} {skb : SkBuff} (fairCall : Fair env skb) (attempted : Attempted reached env skb) :
    (Whole reached (skb.final env) (sendFrame Edited.giveUp reached env skb) ∨
        Restored reached (sendFrame Edited.giveUp reached env skb)) ↔
      env.down = true ∨ Carried env skb ∨
        Refused reached env skb ∧ (skb.final env).extended = false := by
  have roomy := (transmitter_accounted Edited.settles blank fair).1
  rw [reaches] at roomy
  exact Edited.whole_or_restored_iff roomy fairCall attempted

/-- A large packet of which the second mapping is refused leaves its extension. -/
theorem Edited.transmits_refusedRun :
    ¬ (Whole ((transmitter Edited.giveUp).run (initRingPtrs blankRing) refusedRun)
          (largePacket.final (mapsFirst 1))
          (sendFrame Edited.giveUp ((transmitter Edited.giveUp).run (initRingPtrs blankRing)
            refusedRun) (mapsFirst 1) largePacket) ∨
        Restored ((transmitter Edited.giveUp).run (initRingPtrs blankRing) refusedRun)
          (sendFrame Edited.giveUp ((transmitter Edited.giveUp).run (initRingPtrs blankRing)
            refusedRun) (mapsFirst 1) largePacket)) := fun left =>
  absurd
    ((Edited.transmits_iff blank_blankRing fair_refusedRun rfl
      ⟨real_mapsFirst (by decide), by decide⟩ (by decide +kernel)).mp left)
    (by decide +kernel)

end Atl1c
end KernelHacking
