import KernelHacking.Atl1c.Building

namespace KernelHacking
namespace Atl1c

/-!
# What `atl1c_tso_csum` decides

It is known before the call whether the step will fail, whether the packet is a
large one, and whether an extension descriptor is taken.  These conditions are
stated on the packet as `pskb_trim` leaves it.
-/

variable {count : Nat}

namespace SkBuff

/-- The packet with what stands behind an IPv4 packet cut off. -/
def final (skb : SkBuff) (env : Env) : SkBuff :=
  if skb.isGso then skb.trimToIp env.trimFails else skb

/-- The packet is sent in one piece. -/
def plain (skb : SkBuff) : Bool :=
  !skb.isGso || (skb.gsoTcpV4 || skb.gsoTcpV6) && skb.zeroData

/-- A descriptor is taken for the extension. -/
def extended (skb : SkBuff) : Bool :=
  skb.isGso && skb.gsoTcpV6 && !(skb.gsoTcpV4 && skb.zeroData)

/-- How many places after the first one the data begins. -/
def base (skb : SkBuff) : Nat := if skb.extended then 1 else 0

theorem trim_le (skb : SkBuff) (length : Nat) (positive : 0 < length) :
    (skb.trim length positive).headlen ≤ skb.headlen ∧
      (skb.trim length positive).frags.length ≤ skb.frags.length := by
  unfold trim
  split
  · next linear => exact ⟨linear, Nat.zero_le _⟩
  · exact ⟨Nat.le_refl _, length_trimFrags_le ..⟩

theorem trim_same (skb : SkBuff) (length : Nat) (positive : 0 < length) :
    (skb.trim length positive).id = skb.id ∧
      (skb.trim length positive).isGso = skb.isGso ∧
      (skb.trim length positive).gsoTcpV6 = skb.gsoTcpV6 ∧
      (skb.trim length positive).hdrLen = skb.hdrLen := by
  unfold trim
  split <;> exact ⟨rfl, rfl, rfl, rfl⟩

/-- Cutting a packet does not make it need more. -/
theorem final_le (skb : SkBuff) (env : Env) :
    (skb.final env).headlen ≤ skb.headlen ∧
      (skb.final env).frags.length ≤ skb.frags.length := by
  have same : skb.headlen ≤ skb.headlen ∧ skb.frags.length ≤ skb.frags.length :=
    ⟨Nat.le_refl _, Nat.le_refl _⟩
  unfold final trimToIp
  split_ifs
  · exact trim_le ..
  · exact same
  · exact same
  · exact same

theorem final_same (skb : SkBuff) (env : Env) :
    (skb.final env).id = skb.id ∧ (skb.final env).isGso = skb.isGso ∧
      (skb.final env).gsoTcpV6 = skb.gsoTcpV6 ∧ (skb.final env).hdrLen = skb.hdrLen := by
  unfold final trimToIp
  split_ifs
  · exact trim_same ..
  · exact ⟨rfl, rfl, rfl, rfl⟩
  · exact ⟨rfl, rfl, rfl, rfl⟩
  · exact ⟨rfl, rfl, rfl, rfl⟩

theorem moreTpds_le (skb : SkBuff) (tso : Bool) :
    skb.moreTpds tso ≤ skb.remainder + skb.frags.length := by
  unfold moreTpds extraTpd
  split_ifs <;> omega

theorem base_le (skb : SkBuff) : skb.base ≤ if skb.gsoTcpV6 then 1 else 0 := by
  unfold base extended
  cases skb.gsoTcpV6
  · rw [Bool.and_false, Bool.false_and]
  · change _ ≤ 1
    split_ifs <;> decide

/-- The descriptors taken are among those that were asked for. -/
theorem tpds_le_req (skb : SkBuff) (env : Env) :
    (skb.final env).base + (skb.final env).moreTpds (!(skb.final env).plain) + 1 ≤
      skb.calTpdReq := by
  have shorter := skb.final_le env
  have same := skb.final_same env
  generalize skb.final env = sent at shorter same ⊢
  rcases same with ⟨-, isGso, v6, hdrLen⟩
  rw [calTpdReq]
  cases gso : skb.isGso with
  | false =>
      have none : sent.base = 0 := by
        rw [base, extended, isGso, gso]
        rfl
      have only : sent.moreTpds (!sent.plain) = sent.frags.length := by
        rw [moreTpds, plain, isGso, gso]
        exact Nat.zero_add _
      have few : (if false = true then (if skb.hdrLen < skb.headlen then 1 else 0) +
          (if skb.gsoTcpV6 = true then 1 else 0) else 0) = 0 := rfl
      omega
  | true =>
      have first := sent.base_le
      have more := sent.moreTpds_le (!sent.plain)
      have linear : sent.remainder ≤ if skb.hdrLen < skb.headlen then 1 else 0 := by
        rw [remainder, hdrLen]
        split_ifs <;> omega
      rw [v6] at first
      rw [if_pos rfl]
      omega

end SkBuff

/-- The call fails before anything is mapped. -/
def checksumFails (env : Env) (skb : SkBuff) : Bool :=
  skb.isGso && env.cowFails || (skb.final env).plain && (skb.final env).oddChecksum

/-- The state of the ring when the data will begin at a descriptor: it and those
before it are taken, and it does not end a chain. -/
structure Begun (ring : Ring count) (base : Nat) (tso : Bool) (begun : Ring count)
    (tpd : Fin count) : Prop where
  place : tpd = Cyclic.next^[base] ring.nextToUse
  nextToUse : begun.nextToUse = Cyclic.next^[base + 1] ring.nextToUse
  noEnd : (begun.desc tpd).eop = false
  lsoEn : (begun.desc tpd).lsoEn = tso

/-- What the end of `atl1c_tso_csum` makes of such a ring. -/
structure Ends (ring : Ring count) (base : Nat) (tso : Bool) (begun : Ring count) (skb : SkBuff)
    (prepared : Prepared count) : Prop where
  begins : Begun ring base tso prepared.ring prepared.tpd
  packet : prepared.skb = skb
  error : prepared.error = (!tso && skb.oddChecksum)
  others : forall place, place ≠ prepared.tpd → prepared.ring.desc place = begun.desc place

section Begin

variable {ring begun : Ring count} {base : Nat} {tso : Bool} {tpd : Fin count}

theorem Begun.orWord1 (start : Begun ring base tso begun tpd) {bits : BitVec 32}
    (noEnd : bits.getLsbD 31 = false) :
    Begun ring base (tso || bits.getLsbD 12) (begun.orWord1 tpd bits) tpd where
  place := start.place
  nextToUse := start.nextToUse
  noEnd := by rw [Ring.orWord1_self, Tpd.eop_orWord1, start.noEnd, noEnd, Bool.or_false]
  lsoEn := by rw [Ring.orWord1_self, Tpd.lsoEn_orWord1, start.lsoEn]

theorem SkBuff.checksumBits_eop (skb : SkBuff) : skb.checksumBits.getLsbD 31 = false := by
  simp [checksumBits]

theorem SkBuff.checksumBits_lsoEn (skb : SkBuff) : skb.checksumBits.getLsbD 12 = false := by
  simp [checksumBits]

theorem SkBuff.largeSendBits_eop (skb : SkBuff) : skb.largeSendBits.getLsbD 31 = false := by
  simp [largeSendBits]

theorem SkBuff.largeSendBits_lsoEn (skb : SkBuff) : skb.largeSendBits.getLsbD 12 = true := by
  simp [largeSendBits]

theorem Begun.checkSum (start : Begun ring base false begun tpd) (skb : SkBuff) :
    Ends ring base false begun skb (checkSum begun tpd skb) := by
  unfold Atl1c.checkSum
  split_ifs with odd offloaded
  · exact ⟨start, rfl, odd.symm, fun _ _ => rfl⟩
  · have written := start.orWord1 skb.checksumBits_eop
    rw [skb.checksumBits_lsoEn] at written
    exact ⟨written, rfl, (Bool.eq_false_iff.mpr odd).symm,
      fun _ different => Ring.orWord1_of_ne _ _ _ different⟩
  · exact ⟨start, rfl, (Bool.eq_false_iff.mpr odd).symm, fun _ _ => rfl⟩

theorem Begun.largeSend (start : Begun ring base tso begun tpd) (skb : SkBuff) :
    Ends ring base true begun skb (largeSend begun tpd skb) := by
  have written := start.orWord1 skb.largeSendBits_eop
  rw [skb.largeSendBits_lsoEn, Bool.or_true] at written
  exact ⟨written, rfl, rfl, fun _ different => Ring.orWord1_of_ne _ _ _ different⟩

/-- The first place becomes the extension, and the data begins at the next one. -/
theorem Begun.tsoV6 (start : Begun ring 0 false begun tpd) (less : 1 < count) (skb : SkBuff) :
    ∃ begun', Ends ring 1 (!skb.zeroData) begun' skb (tsoV6 begun tpd skb) ∧
      begun'.desc tpd = if skb.zeroData then Tpd.zero else skb.extend Tpd.zero := by
  have apart : tpd ≠ begun.nextToUse := by
    rw [start.place, start.nextToUse]
    exact Cyclic.iterate_ne (Nat.lt_trans Nat.zero_lt_one less) less Nat.zero_ne_one
  let taken := (begun.setDesc tpd Tpd.zero).getTpd
  have cleared : taken.desc tpd = Tpd.zero :=
    (Ring.getTpd_of_ne (begun.setDesc tpd Tpd.zero) apart).trans (Ring.setDesc_self ..)
  have fresh : taken.desc begun.nextToUse = Tpd.zero := Ring.getTpd_self _
  have begins : Begun ring 1 false taken begun.nextToUse := by
    constructor
    · exact start.nextToUse
    · change Cyclic.next begun.nextToUse = _
      rw [start.nextToUse]
      rfl
    · rw [fresh]
      rfl
    · rw [fresh]
      rfl
  unfold Atl1c.tsoV6
  cases empty : skb.zeroData with
  | true => exact ⟨taken, begins.checkSum skb, cleared⟩
  | false =>
      let extended := taken.setDesc tpd (skb.extend (taken.desc tpd))
      have kept : extended.desc begun.nextToUse = taken.desc begun.nextToUse :=
        Ring.setDesc_of_ne _ _ _ apart.symm
      have moved : Begun ring 1 false extended begun.nextToUse :=
        ⟨begins.place, begins.nextToUse, kept ▸ begins.noEnd,
          kept ▸ begins.lsoEn⟩
      refine ⟨extended.orWord1 begun.nextToUse (1#32 <<< 13),
        (moved.orWord1 rfl).largeSend skb, ?_⟩
      rw [Ring.orWord1_of_ne _ _ _ apart, Ring.setDesc_self, cleared]
      rfl

/-- The branches for a large packet that was cut already. -/
theorem Begun.large (start : Begun ring 0 false begun tpd) (skb : SkBuff) (gso : skb.isGso = true)
    (less : skb.base < count) :
    ∃ begun', Ends ring skb.base (!skb.plain) begun' skb
        (if skb.gsoTcpV4 && skb.zeroData then Atl1c.checkSum begun tpd skb
          else
            let marked := if skb.gsoTcpV4 then begun.orWord1 tpd (1#32 <<< 16) else begun
            if skb.gsoTcpV6 then Atl1c.tsoV6 marked tpd skb else Atl1c.largeSend marked tpd skb) ∧
      (skb.extended = true → begun'.desc tpd =
        if skb.zeroData then Tpd.zero else skb.extend Tpd.zero) := by
  have marked : Begun ring 0 false
      (if skb.gsoTcpV4 then begun.orWord1 tpd (1#32 <<< 16) else begun) tpd := by
    split_ifs
    · exact start.orWord1 (show (1#32 <<< 16).getLsbD 31 = false from rfl)
    · exact start
  cases cut : skb.gsoTcpV4 && skb.zeroData with
  | true =>
      have plain : skb.plain = true := by
        rcases (Bool.and_eq_true ..).mp cut with ⟨v4, empty⟩
        rw [SkBuff.plain, v4, empty]
        exact Bool.or_true _
      have extended : skb.extended = false := by
        rw [SkBuff.extended, cut]
        exact Bool.and_false _
      rw [SkBuff.base, plain, extended]
      exact ⟨_, start.checkSum skb, fun taken => nomatch taken⟩
  | false =>
      cases v6 : skb.gsoTcpV6 with
      | true =>
          have plain : skb.plain = skb.zeroData := by
            rw [SkBuff.plain, gso, v6, Bool.or_true]
            rfl
          have extended : skb.extended = true := by
            rw [SkBuff.extended, gso, v6, cut]
            rfl
          rw [SkBuff.base, extended] at less ⊢
          rw [plain]
          rcases marked.tsoV6 less skb with ⟨begun', ends, first⟩
          exact ⟨begun', ends, fun _ => first⟩
      | false =>
          have plain : skb.plain = false := by
            rw [SkBuff.plain, gso, v6, Bool.or_false, cut]
            rfl
          have extended : skb.extended = false := by
            rw [SkBuff.extended, v6, Bool.and_false]
            rfl
          rw [SkBuff.base, plain, extended]
          exact ⟨_, marked.largeSend skb, fun taken => nomatch taken⟩

end Begin

theorem begun_getTpd (ring : Ring count) : Begun ring 0 false ring.getTpd ring.nextToUse where
  place := rfl
  nextToUse := rfl
  noEnd := by
    rw [Ring.getTpd_self]
    rfl
  lsoEn := by
    rw [Ring.getTpd_self]
    rfl

/-- Unless the headers cannot be made writable, the step ends as the packet
decides. -/
theorem tsoCsum_ends (ring : Ring count) (env : Env) (skb : SkBuff)
    (less : (skb.final env).base < count) (writable : (skb.isGso && env.cowFails) = false) :
    ∃ begun, Ends ring (skb.final env).base (!(skb.final env).plain) begun (skb.final env)
        (tsoCsum env ring.getTpd ring.nextToUse skb) ∧
      ((skb.final env).extended = true → begun.desc ring.nextToUse =
        if (skb.final env).zeroData then Tpd.zero else (skb.final env).extend Tpd.zero) := by
  have start := begun_getTpd ring
  have isGso := (skb.final_same env).2.1
  rw [tsoCsum]
  cases gso : skb.isGso with
  | false =>
      have same : skb.final env = skb := by
        rw [SkBuff.final, gso]
        rfl
      have plain : skb.plain = true := by
        rw [SkBuff.plain, gso]
        rfl
      have extended : skb.extended = false := by
        rw [SkBuff.extended, gso]
        rfl
      rw [same, SkBuff.base, plain, extended]
      exact ⟨_, start.checkSum skb, fun taken => nomatch taken⟩
  | true =>
      have cow : env.cowFails = false := by
        rw [gso] at writable
        exact writable
      have same : skb.final env = skb.trimToIp env.trimFails := by
        rw [SkBuff.final, gso]
        rfl
      rw [gso] at isGso
      rw [same] at less isGso ⊢
      rw [cow]
      exact start.large (skb.trimToIp env.trimFails) isGso less

end Atl1c
end KernelHacking
