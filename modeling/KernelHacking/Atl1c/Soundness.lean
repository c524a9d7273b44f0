import KernelHacking.Atl1c.Prepare

namespace KernelHacking
namespace Atl1c

/-!
# Which calls leave a whole packet

A call that finds enough descriptors should leave the ring with one whole packet
more, or leave it as it was.  The driver does not look at the result of
`atl1c_tx_map` and never takes back a descriptor, so that this depends on every
step going well.
-/

variable {count : Nat}

/-- The descriptor announces a large IPv6 packet and its length. -/
structure IsExtension (tpd : Tpd) (skb : SkBuff) : Prop where
  isGso : skb.isGso = true
  gsoTcpV6 : skb.gsoTcpV6 = true
  lsoEn : tpd.lsoEn = true
  lsoVer : tpd.word1.getLsbD 13 = true
  pktLen : tpd.bufferAddr.setWidth 32 = BitVec.ofNat 32 skb.len

/-- The places from one up to another hold one packet from its start to its end. -/
structure Chain (ring : Ring count) (held : List (Fin count × BitVec 64)) (skb : SkBuff)
    (first next : Fin count) : Prop where
  places : forall place, place ∈ Cyclic.between first next →
    Mapped ring held place ∨ place = first ∧ IsExtension (ring.desc place) skb
  last : ∃ last, (Cyclic.between first next).getLast? = some last ∧
    (ring.desc last).eop = true ∧ (ring.bufferInfo last).skb = some skb.id

/-- The packet was built and shown to the card. -/
def Complete (ring : Ring count) (skb : SkBuff) (sent : Sent count) : Prop :=
  Chain sent.ring sent.held skb ring.nextToUse sent.ring.nextToUse ∧
    sent.ring.producer = sent.ring.nextToUse

/-- The packet was freed with no mapping left, and both indices are as before. -/
def Undone (ring : Ring count) (sent : Sent count) : Prop :=
  sent.ring.nextToUse = ring.nextToUse ∧ sent.ring.producer = ring.producer ∧
    sent.held = [] ∧ sent.freed = true

/-- The call gets the lock and finds enough descriptors. -/
def Attempted (ring : Ring count) (env : Env) (skb : SkBuff) : Prop :=
  env.locked = false ∧ skb.calTpdReq ≤ ring.tpdAvail

/-- Every step of sending the packet goes well: the checksum step does not fail,
an extension is filled in, and all mappings are answered. -/
def Carried (env : Env) (skb : SkBuff) : Prop :=
  checksumFails env skb = false ∧
    ((skb.final env).extended && (skb.final env).zeroData) = false ∧
    forall i, i < (skb.final env).mapCount (!(skb.final env).plain) → (env.dma i).isSome

instance (ring : Ring count) (env : Env) (skb : SkBuff) : Decidable (Attempted ring env skb) :=
  inferInstanceAs (Decidable (_ ∧ _))

instance (env : Env) (skb : SkBuff) : Decidable (Carried env skb) :=
  inferInstanceAs (Decidable (_ ∧ _ ∧ _))

/-! ## Chains -/

theorem SkBuff.isExtension_extend (skb : SkBuff) (isGso : skb.isGso = true)
    (v6 : skb.gsoTcpV6 = true) : IsExtension (skb.extend Tpd.zero) skb where
  isGso := isGso
  gsoTcpV6 := v6
  lsoEn := by
    change (0#32 ||| 1#32 <<< 12 ||| 1#32 <<< 13).getLsbD 12 = true
    rfl
  lsoVer := by
    change (0#32 ||| 1#32 <<< 12 ||| 1#32 <<< 13).getLsbD 13 = true
    rfl
  pktLen := BitVec.setWidth_append_eq_right

theorem not_chain_of_noEnd {ring : Ring count} {held : List (Fin count × BitVec 64)}
    {skb : SkBuff} {first next : Fin count} {k : Nat} (less : k + 1 < count)
    (place : next = Cyclic.next^[k + 1] first)
    (noEnd : (ring.desc (Cyclic.next^[k] first)).eop = false) :
    ¬ Chain ring held skb first next := by
  intro chain
  rcases chain.last with ⟨last, same, ends, -⟩
  rw [place, Cyclic.getLast?_between first less] at same
  rw [← Option.some.inj same, noEnd] at ends
  exact Bool.false_ne_true ends

/-- A built chain is a whole packet exactly when its extension is filled in. -/
theorem Chained.chain_iff {site : Site count} {last : Nat} {skb : SkBuff} {m : Mapping count}
    (chained : Chained site last skb m) (less : last + 1 < count) (base : site.base = skb.base)
    (extension : skb.extended = true → site.ring.desc site.start =
      if skb.zeroData then Tpd.zero else skb.extend Tpd.zero) :
    Chain m.ring m.held skb site.start m.ring.nextToUse ↔
      (skb.extended && skb.zeroData) = false := by
  have inside : forall place, place ∈ Cyclic.between site.start m.ring.nextToUse ↔
      ∃ j, j < last + 1 ∧ place = site.place j := fun place => by
    rw [chained.nextToUse]
    exact Cyclic.mem_between_iterate _ less place
  constructor
  · intro chain
    apply Bool.eq_false_iff.mpr
    intro both
    rcases (Bool.and_eq_true ..).mp both with ⟨extended, empty⟩
    have one : site.base = 1 := by rw [base, SkBuff.base, if_pos extended]
    have zero : m.ring.desc site.start = Tpd.zero := by
      have kept := chained.kept 0 (by omega)
      change m.ring.desc site.start = site.ring.desc site.start at kept
      rw [kept, extension extended, if_pos empty]
    rcases chain.places site.start ((inside _).mpr ⟨0, Nat.succ_pos _, rfl⟩) with
      mapped | ⟨-, filled⟩
    · rcases chained.heldAt _ mapped.held with ⟨j, above, below, same⟩
      have apart : site.place 0 ≠ site.place j :=
        Site.place_ne (by omega) (by omega) (by omega)
      exact apart same
    · have lsoEn := filled.lsoEn
      rw [zero] at lsoEn
      exact Bool.false_ne_true lsoEn
  · intro filled
    constructor
    · intro place member
      rcases (inside place).mp member with ⟨j, below, rfl⟩
      rcases Nat.lt_or_ge j site.base with before | after
      · right
        have extended : skb.extended = true := by
          by_contra other
          rw [base, SkBuff.base, if_neg other] at before
          exact Nat.not_lt_zero j before
        have first : j = 0 := by
          rw [base, SkBuff.base, if_pos extended] at before
          exact Nat.lt_one_iff.mp before
        subst first
        rw [extended, Bool.true_and] at filled
        have written : m.ring.desc (site.place 0) = skb.extend Tpd.zero := by
          have kept := chained.kept 0 before
          change _ = site.ring.desc site.start at kept
          rw [kept, extension extended, filled]
          rfl
        have large := (Bool.and_eq_true ..).mp ((Bool.and_eq_true ..).mp extended).1
        exact ⟨rfl, written ▸ skb.isExtension_extend large.1 large.2⟩
      · exact Or.inl (chained.mapped j after (Nat.le_of_lt_succ below))
    · refine ⟨site.place last, ?_, chained.ends, chained.owned⟩
      rw [chained.nextToUse]
      exact Cyclic.getLast?_between site.start less

/-! ## One call -/

/-- Tagging a frame changes two bits of the first word only. -/
theorem tagTpd_bit (skb : SkBuff) (tpd : Tpd) {i : Nat} (insVtag : (1#32 <<< 15).getLsbD i = false)
    (ethType : (1#32 <<< 17).getLsbD i = false) :
    (tagTpd skb tpd).word1.getLsbD i = tpd.word1.getLsbD i := by
  have inserted : (tpd.word1 ||| 1#32 <<< 15).getLsbD i = tpd.word1.getLsbD i := by
    rw [BitVec.getLsbD_or, insVtag, Bool.or_false]
  have typed : forall word : BitVec 32, (word ||| 1#32 <<< 17).getLsbD i = word.getLsbD i := by
    intro word
    rw [BitVec.getLsbD_or, ethType, Bool.or_false]
  rw [tagTpd]
  cases skb.vlanTag with
  | none =>
      split_ifs
      · exact typed tpd.word1
      · rfl
  | some vlan =>
      split_ifs
      · exact (typed _).trans inserted
      · exact inserted

theorem tagTpd_eop (skb : SkBuff) (tpd : Tpd) : (tagTpd skb tpd).eop = tpd.eop :=
  tagTpd_bit skb tpd rfl rfl

theorem tagTpd_lsoEn (skb : SkBuff) (tpd : Tpd) : (tagTpd skb tpd).lsoEn = tpd.lsoEn :=
  tagTpd_bit skb tpd rfl rfl

section Call

variable {ring begun : Ring count} {base : Nat} {tso : Bool} {prepared : Prepared count}

/-- The mappings of a prepared packet begin with its first descriptor. -/
theorem Begun.taken (begins : Begun ring base tso prepared.ring prepared.tpd) :
    Taken ⟨prepared.tagged, ring.nextToUse, base⟩ base ⟨prepared.tagged, none, 0, []⟩ where
  base_le := Nat.le_refl _
  nextToUse := begins.nextToUse
  noEnd := by
    intro j above below
    have only : j = base := Nat.le_antisymm below above
    change (prepared.tagged.desc (Cyclic.next^[j] ring.nextToUse)).eop = false
    rw [only, ← begins.place, Prepared.tagged, Ring.setDesc_self, tagTpd_eop]
    exact begins.noEnd
  kept := fun _ _ => rfl
  heldAt := fun _ member => nomatch member
  mapped := fun _ above below => absurd below (Nat.not_lt.mpr above)

/-- What the mappings leave of a ring that `atl1c_tso_csum` prepared. -/
theorem Ends.txMap {skb : SkBuff} (ends : Ends ring prepared.skb.base tso begun skb prepared)
    (env : Env) (less : prepared.skb.base + prepared.skb.moreTpds tso + 1 < count)
    (extension : prepared.skb.extended = true → begun.desc ring.nextToUse =
      if prepared.skb.zeroData then Tpd.zero else prepared.skb.extend Tpd.zero) :
    let mapped := txMap env prepared.tagged prepared.tpd prepared.skb
    ∃ k, k + 1 < count ∧ mapped.ring.nextToUse = Cyclic.next^[k + 1] ring.nextToUse ∧
      (Chain mapped.ring mapped.held prepared.skb ring.nextToUse mapped.ring.nextToUse ↔
        (prepared.skb.extended && prepared.skb.zeroData) = false ∧
          forall i, i < prepared.skb.mapCount tso → (env.dma i).isSome) := by
  intro mapped
  have begins := ends.begins
  let site : Site count := ⟨prepared.tagged, ring.nextToUse, prepared.skb.base⟩
  have tpd : prepared.tpd = site.place site.base := begins.place
  have lsoEn : (prepared.tagged.desc (site.place site.base)).lsoEn = tso := by
    rw [← tpd, Prepared.tagged, Ring.setDesc_self, tagTpd_lsoEn]
    exact begins.lsoEn
  have built : Built site env _ _ _ _ :=
    begins.taken.all env rfl prepared.skb lsoEn (Nat.lt_of_succ_lt less)
  have result : mapped = Atl1c.txMap env prepared.tagged (site.place site.base) prepared.skb :=
    congrArg (Atl1c.txMap env prepared.tagged · prepared.skb) tpd
  unfold Atl1c.txMap at result
  generalize Mapping.all env (site.place site.base) prepared.skb ⟨prepared.tagged, none, 0, []⟩ =
    outcome at built result
  clear_value mapped
  cases outcome with
  | error m =>
      change mapped = m at result
      subst result
      rcases built with ⟨⟨last, below, stopped⟩, i, -, few, refused⟩
      have inside : last + 1 < count := Nat.lt_of_le_of_lt (Nat.succ_le_succ below) less
      refine ⟨last, inside, stopped.nextToUse, ?_⟩
      constructor
      · intro chain
        exact absurd chain (not_chain_of_noEnd inside stopped.nextToUse
          (stopped.noEnd last stopped.base_le (Nat.le_refl _)))
      · rintro ⟨-, answered⟩
        have some := answered i few
        rw [refused] at some
        exact nomatch some
  | ok m =>
      change mapped = m.finish prepared.skb at result
      subst result
      rcases built with ⟨laid, -, answered⟩
      have chained := laid.finish (Nat.lt_of_succ_lt less) prepared.skb
      have first : prepared.skb.extended = true → prepared.tagged.desc ring.nextToUse =
          if prepared.skb.zeroData then Tpd.zero else prepared.skb.extend Tpd.zero := by
        intro extended
        have one : prepared.skb.base = 1 := if_pos extended
        have apart : ring.nextToUse ≠ prepared.tpd := by
          rw [begins.place, one]
          exact Cyclic.iterate_ne (j := 0) (by omega) (by omega) (by omega)
        rw [Prepared.tagged, Ring.setDesc_of_ne _ _ _ apart, ends.others _ apart,
          extension extended]
      refine ⟨_, less, chained.nextToUse, (chained.chain_iff less rfl first).trans ?_⟩
      exact ⟨fun filled => ⟨filled, fun i few => answered i (Nat.zero_le _) few⟩, And.left⟩

end Call

theorem Chain.congr {ring ring' : Ring count} {held : List (Fin count × BitVec 64)}
    {skb : SkBuff} {first next : Fin count} (chain : Chain ring held skb first next)
    (desc : ring'.desc = ring.desc) (info : ring'.bufferInfo = ring.bufferInfo) :
    Chain ring' held skb first next where
  places := fun place member => (chain.places place member).imp
    (fun mapped => mapped.congr (congrFun desc _) (congrFun info _) (List.Subset.refl _))
    (fun extension => by rwa [desc])
  last := by
    rw [desc, info]
    exact chain.last

/-- Showing the card how far it may read does not change what is there. -/
theorem chain_txQueue {ring : Ring count} {held : List (Fin count × BitVec 64)} {skb : SkBuff}
    {first next : Fin count} :
    Chain (txQueue ring) held skb first next ↔ Chain ring held skb first next :=
  ⟨fun chain => chain.congr rfl rfl, fun chain => chain.congr rfl rfl⟩

section Call

variable {ring : Ring count} {env : Env} {skb : SkBuff}

theorem xmitFrame_down (down : env.down = true) : xmitFrame ring env skb = ⟨ring, .ok, [], true⟩ :=
  if_pos down

/-- A call without the lock or without enough descriptors changes nothing. -/
theorem xmitFrame_refused (refused : ¬ Attempted ring env skb) :
    (xmitFrame ring env skb).ring = ring := by
  unfold xmitFrame
  split_ifs with down locked full
  · rfl
  · rfl
  · rfl
  · exact absurd ⟨Bool.eq_false_iff.mpr locked, Nat.le_of_not_lt full⟩ refused

/-- A call that stops before the mappings leaves descriptors that nothing ends. -/
theorem Begun.stopped {begun : Ring count} {base : Nat} {tso : Bool} {tpd : Fin count}
    (begins : Begun ring base tso begun tpd) (less : base + 1 < count) (sent : SkBuff)
    (result : NetdevTx) (freed : Bool) :
    ∃ k, k + 1 < count ∧ begun.nextToUse = Cyclic.next^[k + 1] ring.nextToUse ∧
      ¬ Complete ring sent ⟨begun, result, [], freed⟩ := by
  refine ⟨base, less, begins.nextToUse, fun complete => ?_⟩
  refine not_chain_of_noEnd less begins.nextToUse ?_ complete.1
  rw [← begins.place]
  exact begins.noEnd

/-- A call that takes descriptors moves on, and leaves a whole packet exactly
when every step went well. -/
theorem xmitFrame_attempted (attempted : Attempted ring env skb) (up : env.down = false) :
    ∃ k, k + 1 < count ∧
      (xmitFrame ring env skb).ring.nextToUse = Cyclic.next^[k + 1] ring.nextToUse ∧
      (Complete ring (skb.final env) (xmitFrame ring env skb) ↔ Carried env skb) := by
  have less : (skb.final env).base + (skb.final env).moreTpds (!(skb.final env).plain) + 1 <
      count :=
    Nat.lt_of_le_of_lt (Nat.le_trans (skb.tpds_le_req env) attempted.2) ring.tpdAvail_lt
  have enough : ¬ ring.tpdAvail < skb.calTpdReq := Nat.not_lt.mpr attempted.2
  rw [xmitFrame, if_neg (Bool.eq_false_iff.mp up), if_neg (Bool.eq_false_iff.mp attempted.1),
    if_neg enough]
  cases cow : skb.isGso && env.cowFails with
  | true =>
      rcases (Bool.and_eq_true ..).mp cow with ⟨gso, fails⟩
      have stopped : tsoCsum env ring.getTpd ring.nextToUse skb =
          ⟨ring.getTpd, ring.nextToUse, skb, true⟩ := by
        rw [tsoCsum, gso, fails]
        rfl
      rw [stopped]
      rcases (begun_getTpd ring).stopped (by omega) (skb.final env) .ok true with
        ⟨k, few, place, broken⟩
      refine ⟨k, few, place, iff_of_false broken fun carried => ?_⟩
      have fine := carried.1
      rw [checksumFails, cow] at fine
      exact Bool.noConfusion fine
  | false =>
      rcases tsoCsum_ends ring env skb (by omega) cow with ⟨begun, ends, extension⟩
      generalize tsoCsum env ring.getTpd ring.nextToUse skb = prepared at ends ⊢
      have packet := ends.packet
      have error : checksumFails env skb = prepared.error := by
        rw [ends.error, checksumFails, cow, Bool.not_not]
        rfl
      rw [Carried, error]
      rw [← packet] at ends extension less ⊢
      dsimp only
      cases prepared.error with
      | true =>
          rcases ends.begins.stopped (by omega) prepared.skb .ok true with
            ⟨k, few, place, broken⟩
          exact ⟨k, few, place, iff_of_false broken fun carried => Bool.noConfusion carried.1⟩
      | false =>
          rcases ends.txMap env less extension with ⟨k, few, place, whole⟩
          refine ⟨k, few, place, ?_⟩
          constructor
          · intro complete
            exact ⟨rfl, whole.mp (chain_txQueue.mp complete.1)⟩
          · intro carried
            exact ⟨chain_txQueue.mpr (whole.mpr carried.2), rfl⟩

/-- The two good ends of a call. -/
theorem sound_iff (attempted : Attempted ring env skb) :
    (Complete ring (skb.final env) (xmitFrame ring env skb) ∨
        Undone ring (xmitFrame ring env skb)) ↔
      env.down = true ∨ Carried env skb := by
  cases down : env.down with
  | true =>
      rw [xmitFrame_down down]
      exact ⟨fun _ => Or.inl rfl, fun _ => Or.inr ⟨rfl, rfl, rfl, rfl⟩⟩
  | false =>
      rcases xmitFrame_attempted attempted down with ⟨k, less, place, whole⟩
      have moved : ¬ Undone ring (xmitFrame ring env skb) := by
        intro undone
        rw [Undone, place] at undone
        exact Cyclic.iterate_ne (k := 0) less (Nat.zero_lt_of_lt less) (Nat.succ_ne_zero k)
          undone.1
      rw [or_iff_left moved, or_iff_right Bool.false_ne_true, whole]

end Call

/-! ## Runs -/

/-- What the operation newly shows to the card is one whole packet, if anything. -/
def Op.ShowsWhole (ring : Ring count) : Op count → Prop
  | .xmit env skb =>
      let sent := xmitFrame ring env skb
      sent.ring.producer = ring.producer ∨
        Chain sent.ring sent.held (skb.final env) ring.producer sent.ring.producer
  | .clean hwNextToClean => (ring.cleanTxIrq hwNextToClean).1.producer = ring.producer

/-- A call that takes the packet leaves it whole, or leaves nothing of it. -/
def Op.Sound (ring : Ring count) : Op count → Prop
  | .xmit env skb => Attempted ring env skb →
      Complete ring (skb.final env) (xmitFrame ring env skb) ∨
        Undone ring (xmitFrame ring env skb)
  | .clean _ => True

/-- No step of sending goes wrong in a call that takes the packet. -/
def Op.GoesWell (ring : Ring count) : Op count → Prop
  | .xmit env skb => Attempted ring env skb → env.down = true ∨ Carried env skb
  | .clean _ => True

instance (ring : Ring count) : (op : Op count) → Decidable (op.GoesWell ring)
  | .xmit _ _ => inferInstanceAs (Decidable (_ → _))
  | .clean _ => inferInstanceAs (Decidable True)

/-- The card has been shown all that was built. -/
def InStep (ring : Ring count) : Prop := ring.producer = ring.nextToUse

theorem goesWell_iff_sound (ring : Ring count) (op : Op count) :
    op.Sound ring ↔ op.GoesWell ring := by
  cases op with
  | xmit env skb => exact forall_congr' fun attempted => sound_iff attempted
  | clean hwNextToClean => exact Iff.rfl

/-- A sound operation keeps the card in step and shows it whole packets only. -/
theorem InStep.sound {ring : Ring count} (inStep : InStep ring) {op : Op count}
    (sound : op.Sound ring) : InStep (driver.next ring op) ∧ op.ShowsWhole ring := by
  cases op with
  | clean hwNextToClean =>
      have frame := Ring.cleanLoop_frame (Cyclic.distance ring.nextToClean hwNextToClean) ring
      refine ⟨?_, frame.2.1⟩
      change (ring.cleanTxIrq hwNextToClean).1.producer = _
      exact frame.2.1.trans (inStep.trans frame.1.symm)
  | xmit env skb =>
      change (xmitFrame ring env skb).ring.producer = (xmitFrame ring env skb).ring.nextToUse ∧
        ((xmitFrame ring env skb).ring.producer = ring.producer ∨ _)
      by_cases attempted : Attempted ring env skb
      · rcases sound attempted with ⟨chain, shown⟩ | ⟨same, hidden, -⟩
        · refine ⟨shown, Or.inr ?_⟩
          rw [shown, inStep]
          exact chain
        · exact ⟨hidden.trans (inStep.trans same.symm), Or.inl hidden⟩
      · rw [xmitFrame_refused attempted]
        exact ⟨inStep, Or.inl rfl⟩

/-- A call leaves a whole packet or nothing exactly when no step of sending goes
wrong.  In a run, this is when only whole packets are shown to the card. -/
theorem transmits_iff_goesWell (ring : Ring count) :
    (forall env skb, Attempted ring env skb →
      (Complete ring (skb.final env) (xmitFrame ring env skb) ∨
          Undone ring (xmitFrame ring env skb) ↔
        env.down = true ∨ Carried env skb)) ∧
      (InStep ring → forall ops,
        (driver.Along (fun state op => op.Sound state ∧ op.ShowsWhole state) ring ops ↔
          driver.Along (fun state op => op.GoesWell state) ring ops)) := by
  refine ⟨fun env skb attempted => sound_iff attempted, fun inStep ops => ?_⟩
  constructor
  · apply driver.along_of_invariant (fun _ => True) _ _ (fun _ _ _ _ => trivial) _ trivial
    intro state op _ sound
    exact (goesWell_iff_sound state op).mp sound.1
  · apply driver.along_of_invariant InStep _ _ _ _ inStep
    · intro state op inStep goesWell
      exact (inStep.sound ((goesWell_iff_sound state op).mpr goesWell)).1
    · intro state op inStep goesWell
      have sound := (goesWell_iff_sound state op).mpr goesWell
      exact ⟨sound, (inStep.sound sound).2⟩

/-- A ring of eight places that nothing has used yet. -/
def idleRing : Ring 8 where
  desc _ := Tpd.zero
  bufferInfo _ := ⟨none, 0, bufferFree, 0⟩
  nextToUse := 0
  nextToClean := 0
  producer := 0

/-- The kernel maps the first so many buffers of each call. -/
def mapsFirst (mappings : Nat) : Env where
  down := false
  locked := false
  cowFails := false
  trimFails := false
  dma i := if i < mappings then some (BitVec.ofNat 64 (4096 * (i + 1))) else none

/-- A packet with two fragments behind its headers, sent in one piece. -/
def twoFragments : SkBuff where
  id := 1
  headlen := 54
  frags := [1000, 400]
  networkOffset := 14
  transportOffset := 34
  tcpHdrlen := 20
  gsoSize := 0
  gsoTcpV4 := false
  gsoTcpV6 := false
  totLen := 1440
  checksumPartial := true
  checksumStart := 34
  csumOffset := 16
  vlanTag := none
  headlen_pos := by decide
  headlen_lt := by decide
  nrFrags_lt := by decide
  network_pos := nofun

/-- A large IPv6 packet. -/
def largePacket : SkBuff :=
  { twoFragments with id := 2, gsoSize := 1000, gsoTcpV6 := true, network_pos := nofun }

/-- Two packets, and the interrupt for the first of them. -/
def wholeSession : List (Op 8) :=
  [.xmit (mapsFirst 3) twoFragments, .clean 3, .xmit (mapsFirst 3) largePacket]

theorem wholeSession_sound :
    (Complete idleRing (largePacket.final (mapsFirst 3))
          (xmitFrame idleRing (mapsFirst 3) largePacket) ∨
        Undone idleRing (xmitFrame idleRing (mapsFirst 3) largePacket)) ∧
      driver.Along (fun state op => op.Sound state ∧ op.ShowsWhole state) idleRing wholeSession :=
  ⟨((transmits_iff_goesWell idleRing).1 _ _ (by decide)).mpr (Or.inr (by decide)),
    ((transmits_iff_goesWell idleRing).2 rfl _).mpr (by decide +kernel)⟩

/-- The second fragment cannot be mapped, and the card is shown the packet
without its end. -/
theorem refusedFragment_not_sound :
    Attempted idleRing (mapsFirst 2) twoFragments ∧
      ¬ (Complete idleRing (twoFragments.final (mapsFirst 2))
            (xmitFrame idleRing (mapsFirst 2) twoFragments) ∨
          Undone idleRing (xmitFrame idleRing (mapsFirst 2) twoFragments)) ∧
      ¬ (Op.xmit (mapsFirst 2) twoFragments).ShowsWhole idleRing := by
  have attempted : Attempted idleRing (mapsFirst 2) twoFragments := by decide
  refine ⟨attempted, ?_, ?_⟩
  · rw [sound_iff attempted]
    decide
  · rintro (hidden | chain)
    · revert hidden
      decide +kernel
    · refine not_chain_of_noEnd (k := 2) ?_ ?_ ?_ chain
      · decide
      · decide +kernel
      · decide +kernel

end Atl1c
end KernelHacking
