import Mathlib.Algebra.Ring.Nat
import KernelHacking.Atl1c.Ring
import KernelHacking.Foundations.Machine

namespace KernelHacking
namespace Atl1c

/-!
# Handing a packet to the card

`atl1c_xmit_frame` takes descriptors for a packet one by one: for the extension
of a large IPv6 packet, for the packet's headers, for the rest of its linear part
and for each fragment.  The kernel may refuse to make the headers writable and
may refuse any DMA mapping; these answers are read from an environment.
-/

variable {count : Nat}

/-- What the driver reads of a `struct sk_buff`.  The link header is in the
linear part, and the IP header stands behind it. -/
structure SkBuff where
  id : Nat
  headlen : Nat
  frags : List Nat
  networkOffset : Nat
  transportOffset : Nat
  tcpHdrlen : Nat
  gsoSize : BitVec 16
  gsoTcpV4 : Bool
  gsoTcpV6 : Bool
  totLen : BitVec 16
  checksumPartial : Bool
  checksumStart : Nat
  csumOffset : Nat
  vlanTag : Option (BitVec 16)
  headlen_pos : 0 < headlen
  headlen_lt : headlen < 65536
  nrFrags_lt : frags.length < 256
  network_pos : gsoTcpV4 = true → 0 < networkOffset
deriving DecidableEq

namespace SkBuff

/-- `skb->len`. -/
def len (skb : SkBuff) : Nat := skb.headlen + skb.frags.sum

/-- `skb_is_gso`. -/
def isGso (skb : SkBuff) : Bool := skb.gsoSize != 0

/-- The end of the TCP header, in the sixteen bits of `proto_hdr_len` and of the
`hdr_len` of `atl1c_tx_map`. -/
def hdrLen (skb : SkBuff) : Nat := (skb.transportOffset + skb.tcpHdrlen) % 65536

/-- The packet ends with its header; `hdr_len` has eight bits in `atl1c_tso_csum`. -/
def zeroData (skb : SkBuff) : Bool :=
  skb.len == (skb.transportOffset + skb.tcpHdrlen) % 256

/-- The fragments that `pskb_trim` leaves, the last of them shortened. -/
def trimFrags : Nat → List Nat → List Nat
  | _, [] => []
  | room, size :: rest =>
      if size < room then size :: trimFrags (room - size) rest else [room]

theorem length_trimFrags_le (room : Nat) (frags : List Nat) :
    (trimFrags room frags).length ≤ frags.length := by
  induction frags generalizing room with
  | nil => exact Nat.le_refl _
  | cons size rest ih =>
      rw [trimFrags]
      split
      · exact Nat.succ_le_succ (ih _)
      · exact Nat.succ_le_succ (Nat.zero_le _)

/-- `pskb_trim`. -/
def trim (skb : SkBuff) (length : Nat) (positive : 0 < length) : SkBuff :=
  if linear : length ≤ skb.headlen then
    { skb with
      headlen := length
      frags := []
      headlen_pos := positive
      headlen_lt := Nat.lt_of_le_of_lt linear skb.headlen_lt
      nrFrags_lt := Nat.zero_lt_succ _ }
  else
    { skb with
      frags := trimFrags (length - skb.headlen) skb.frags
      nrFrags_lt := Nat.lt_of_le_of_lt (length_trimFrags_le ..) skb.nrFrags_lt }

/-- What stands behind the IPv4 packet is cut off, unless the kernel cannot. -/
def trimToIp (skb : SkBuff) (trimFails : Bool) : SkBuff :=
  if v4 : skb.gsoTcpV4 = true then
    if skb.networkOffset + skb.totLen.toNat < skb.len ∧ trimFails = false then
      skb.trim (skb.networkOffset + skb.totLen.toNat)
        (Nat.add_pos_left (skb.network_pos v4) _)
    else skb
  else skb

/-- `atl1c_cal_tpd_req`. -/
def calTpdReq (skb : SkBuff) : Nat :=
  skb.frags.length + 1 +
    if skb.isGso then
      (if skb.hdrLen < skb.headlen then 1 else 0) + (if skb.gsoTcpV6 then 1 else 0)
    else 0

/-- The low bits of where the checksum starts, the `cso` of `atl1c_tso_csum`. -/
def cso (skb : SkBuff) : BitVec 8 := BitVec.ofNat 8 skb.checksumStart

def css (skb : SkBuff) : BitVec 8 := skb.cso + BitVec.ofNat 8 skb.csumOffset

/-- The checksum is left to the card and starts at an odd place. -/
def oddChecksum (skb : SkBuff) : Bool := skb.checksumPartial && skb.cso.getLsbD 0

/-- Where the checksum starts and where it goes, and `TPD_CCSUM_EN`. -/
def checksumBits (skb : SkBuff) : BitVec 32 :=
  (((skb.cso >>> 1).setWidth 32 &&& 0xFF#32) <<< 0) |||
    (((skb.css >>> 1).setWidth 32 &&& 0xFF#32) <<< 18) ||| (1#32 <<< 8)

/-- `TPD_LSO_EN`, where the TCP header is, and the segment size. -/
def largeSendBits (skb : SkBuff) : BitVec 32 :=
  (1#32 <<< 12) ||| ((BitVec.ofNat 32 skb.transportOffset &&& 0xFF#32) <<< 0) |||
    ((skb.gsoSize.setWidth 32 &&& 0x1FFF#32) <<< 18)

/-- What is written into the extension: `TPD_LSO_EN`, `TPD_LSO_VER`, and the length
of the packet in `pkt_len`, the low half of the address field. -/
def extend (skb : SkBuff) (etpd : Tpd) : Tpd :=
  { (etpd.orWord1 (1#32 <<< 12)).orWord1 (1#32 <<< 13) with
    bufferAddr := etpd.bufferAddr.extractLsb' 32 32 ++ BitVec.ofNat 32 skb.len }

end SkBuff

/-- The flag `__AT_DOWN`, and the answers of the kernel during one call: whether
the lock is taken, whether `skb_cow_head` and `pskb_trim` fail, and what each
DMA mapping returns. -/
structure Env where
  down : Bool
  locked : Bool
  cowFails : Bool
  trimFails : Bool
  dma : Nat → Option (BitVec 64)

/-- What `atl1c_tso_csum` leaves. -/
structure Prepared (count : Nat) where
  ring : Ring count
  tpd : Fin count
  skb : SkBuff
  error : Bool

/-- The label `check_sum`. -/
def checkSum (ring : Ring count) (tpd : Fin count) (skb : SkBuff) : Prepared count :=
  if skb.oddChecksum then ⟨ring, tpd, skb, true⟩
  else if skb.checksumPartial then ⟨ring.orWord1 tpd skb.checksumBits, tpd, skb, false⟩
  else ⟨ring, tpd, skb, false⟩

def largeSend (ring : Ring count) (tpd : Fin count) (skb : SkBuff) : Prepared count :=
  ⟨ring.orWord1 tpd skb.largeSendBits, tpd, skb, false⟩

/-- The branch for `SKB_GSO_TCPV6`: the descriptor at hand becomes the extension. -/
def tsoV6 (ring : Ring count) (etpd : Fin count) (skb : SkBuff) : Prepared count :=
  let cleared := ring.setDesc etpd Tpd.zero
  let tpd := cleared.nextToUse
  let taken := cleared.getTpd
  if skb.zeroData then checkSum taken tpd skb
  else
    let extended := taken.setDesc etpd (skb.extend (taken.desc etpd))
    largeSend (extended.orWord1 tpd (1#32 <<< 13)) tpd skb

/-- `atl1c_tso_csum`. -/
def tsoCsum (env : Env) (ring : Ring count) (tpd : Fin count) (skb : SkBuff) : Prepared count :=
  if skb.isGso then
    if env.cowFails then ⟨ring, tpd, skb, true⟩
    else
      let trimmed := skb.trimToIp env.trimFails
      if trimmed.gsoTcpV4 && trimmed.zeroData then checkSum ring tpd trimmed
      else
        let marked := if trimmed.gsoTcpV4 then ring.orWord1 tpd (1#32 <<< 16) else ring
        if trimmed.gsoTcpV6 then tsoV6 marked tpd trimmed else largeSend marked tpd trimmed
  else checkSum ring tpd skb

/-- `AT_VLAN_TO_TAG`. -/
def vlanToTag (vlan : BitVec 16) : BitVec 16 :=
  (vlan >>> 8 &&& 0xFF#16) ||| (vlan &&& 0xFF#16) <<< 8

/-- The tag and the frame type. -/
def tagTpd (skb : SkBuff) (tpd : Tpd) : Tpd :=
  let tagged := match skb.vlanTag with
    | some vlan => { tpd.orWord1 (1#32 <<< 15) with vlanTag := vlanToTag vlan }
    | none => tpd
  if skb.networkOffset ≠ 14 then tagged.orWord1 (1#32 <<< 17) else tagged

/-- The ring when both are written, between the two steps. -/
def Prepared.tagged (prepared : Prepared count) : Ring count :=
  prepared.ring.setDesc prepared.tpd (tagTpd prepared.skb (prepared.ring.desc prepared.tpd))

/-- The variables of `atl1c_tx_map`, how often a mapping was asked for, and the
mappings that the call holds, each with the buffer it is for. -/
structure Mapping (count : Nat) where
  ring : Ring count
  useTpd : Option (Fin count)
  attempts : Nat
  held : List (Fin count × BitVec 64)

namespace Mapping

/-- One mapping.  Where it is refused, the buffer is marked at `err_dma`. -/
def map (env : Env) (place : Fin count) (length type : BitVec 16) (m : Mapping count) :
    Except (Mapping count) (Mapping count) :=
  let info := m.ring.bufferInfo place
  match env.dma m.attempts with
  | none => .error
      { ring := m.ring.setInfo place { info with length := 0, dma := 0 }
        useTpd := some place
        attempts := m.attempts + 1
        held := m.held }
  | some address => .ok
      { ring := (m.ring.setInfo place
            { info with
              length := length
              dma := address
              flags := setPcimapType (setBufferState info.flags bufferBusy) type
                pcimapTodevice }).setDesc place
          { m.ring.desc place with bufferAddr := address, bufferLen := length }
        useTpd := some place
        attempts := m.attempts + 1
        held := (place, address) :: m.held }

/-- A new descriptor that starts as a copy of the first one. -/
def takeCopy (tpd : Fin count) (m : Mapping count) : Mapping count :=
  let taken := m.ring.getTpd
  { m with ring := taken.setDesc m.ring.nextToUse (taken.desc tpd) }

/-- The header of a large packet, in the first descriptor. -/
def header (env : Env) (tpd : Fin count) (skb : SkBuff) (m : Mapping count) :
    Except (Mapping count) (Mapping count) :=
  m.map env tpd (BitVec.ofNat 16 skb.hdrLen) pcimapSingle

/-- The linear part behind `mappedLen` bytes. -/
def linear (env : Env) (tpd : Fin count) (skb : SkBuff) (mappedLen : Nat) (m : Mapping count) :
    Except (Mapping count) (Mapping count) :=
  if mappedLen < skb.headlen then
    let length := BitVec.ofNat 16 (skb.headlen - mappedLen)
    if mappedLen = 0 then m.map env tpd length pcimapSingle
    else (m.takeCopy tpd).map env m.ring.nextToUse length pcimapSingle
  else .ok m

/-- The loop over the fragments. -/
def fragments (env : Env) (tpd : Fin count) : List Nat → Mapping count →
    Except (Mapping count) (Mapping count)
  | [], m => .ok m
  | size :: rest, m =>
      ((m.takeCopy tpd).map env m.ring.nextToUse (BitVec.ofNat 16 size) pcimapPage).bind
        (fragments env tpd rest)

/-- All mappings of `atl1c_tx_map`. -/
def all (env : Env) (tpd : Fin count) (skb : SkBuff) (m : Mapping count) :
    Except (Mapping count) (Mapping count) :=
  if (m.ring.desc tpd).lsoEn then
    ((m.header env tpd skb).bind (linear env tpd skb skb.hdrLen)).bind
      (fragments env tpd skb.frags)
  else (m.linear env tpd skb 0).bind (fragments env tpd skb.frags)

/-- The last descriptor ends the packet, and its buffer owns the packet. -/
def finish (skb : SkBuff) (m : Mapping count) : Mapping count :=
  match m.useTpd with
  | some last =>
      { m with
        ring := (m.ring.orWord1 last (1#32 <<< 31)).setInfo last
          { m.ring.bufferInfo last with skb := some skb.id } }
  | none => m

end Mapping

/-- `atl1c_tx_map`; its caller does not look at the result. -/
def txMap (env : Env) (ring : Ring count) (tpd : Fin count) (skb : SkBuff) : Mapping count :=
  match Mapping.all env tpd skb ⟨ring, none, 0, []⟩ with
  | .ok m => m.finish skb
  | .error m => m

/-- `atl1c_tx_queue`. -/
def txQueue (ring : Ring count) : Ring count := { ring with producer := ring.nextToUse }

inductive NetdevTx where
  | ok
  | busy
  | locked
deriving DecidableEq, Repr

/-- What one call leaves: the ring, the result, the mappings that it made and did
not give back, and whether it freed the packet. -/
structure Sent (count : Nat) where
  ring : Ring count
  result : NetdevTx
  held : List (Fin count × BitVec 64)
  freed : Bool

/-- `atl1c_xmit_frame`. -/
def xmitFrame (ring : Ring count) (env : Env) (skb : SkBuff) : Sent count :=
  if env.down then ⟨ring, .ok, [], true⟩
  else if env.locked then ⟨ring, .locked, [], false⟩
  else if ring.tpdAvail < skb.calTpdReq then ⟨ring, .busy, [], false⟩
  else
    let prepared := tsoCsum env ring.getTpd ring.nextToUse skb
    if prepared.error then ⟨prepared.ring, .ok, [], true⟩
    else
      let mapped := txMap env prepared.tagged prepared.tpd prepared.skb
      ⟨txQueue mapped.ring, .ok, mapped.held, false⟩

/-- A packet to send, or an interrupt when the card has reported up to a place. -/
inductive Op (count : Nat) where
  | xmit (env : Env) (skb : SkBuff)
  | clean (hwNextToClean : Fin count)

/-- The transmit side of the driver. -/
def driver : Machine (Ring count) (Op count) Unit where
  step ring op :=
    match op with
    | .xmit env skb => ((xmitFrame ring env skb).ring, ())
    | .clean hwNextToClean => ((ring.cleanTxIrq hwNextToClean).1, ())

end Atl1c
end KernelHacking
