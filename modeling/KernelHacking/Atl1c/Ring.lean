import KernelHacking.Foundations.Cyclic

namespace KernelHacking
namespace Atl1c

/-!
# The transmit descriptor ring of the `atl1c` driver

The driver hands buffers to the card in a ring of descriptors.  Beside each
descriptor stands a `buffer_info` with what is needed to give the buffer back.
`next_to_use` is where the driver builds next, `next_to_clean` where the card
has not reported yet, and the producer register tells the card how far it may
read.
-/

variable {count : Nat}

/-- `struct atl1c_tpd_desc`. -/
structure Tpd where
  bufferLen : BitVec 16
  vlanTag : BitVec 16
  word1 : BitVec 32
  bufferAddr : BitVec 64
deriving DecidableEq, Repr

/-- What `memset` leaves of a descriptor. -/
def Tpd.zero : Tpd := ⟨0, 0, 0, 0⟩

/-- Bit 31 of the first word, `TPD_EOP`. -/
def Tpd.eop (tpd : Tpd) : Bool := tpd.word1.getLsbD 31

/-- Bit 12 of the first word, `TPD_LSO_EN`. -/
def Tpd.lsoEn (tpd : Tpd) : Bool := tpd.word1.getLsbD 12

/-- `word1 |= bits`. -/
def Tpd.orWord1 (tpd : Tpd) (bits : BitVec 32) : Tpd :=
  { tpd with word1 := tpd.word1 ||| bits }

theorem Tpd.eop_orWord1 (tpd : Tpd) (bits : BitVec 32) :
    (tpd.orWord1 bits).eop = (tpd.eop || bits.getLsbD 31) := BitVec.getLsbD_or

theorem Tpd.lsoEn_orWord1 (tpd : Tpd) (bits : BitVec 32) :
    (tpd.orWord1 bits).lsoEn = (tpd.lsoEn || bits.getLsbD 12) := BitVec.getLsbD_or

/-- `struct atl1c_buffer`; a packet is known by a number. -/
structure TxBuffer where
  skb : Option Nat
  length : BitVec 16
  flags : BitVec 16
  dma : BitVec 64
deriving DecidableEq, Repr

def bufferFree : BitVec 16 := 0x0001
def bufferBusy : BitVec 16 := 0x0002
def bufferStateMask : BitVec 16 := 0x0003
def pcimapSingle : BitVec 16 := 0x0004
def pcimapPage : BitVec 16 := 0x0008
def pcimapTypeMask : BitVec 16 := 0x000C
def pcimapTodevice : BitVec 16 := 0x0010
def pcimapDirectionMask : BitVec 16 := 0x0030

/-- `ATL1C_SET_BUFFER_STATE`. -/
def setBufferState (flags state : BitVec 16) : BitVec 16 :=
  flags &&& ~~~bufferStateMask ||| state

/-- `ATL1C_SET_PCIMAP_TYPE`. -/
def setPcimapType (flags type direction : BitVec 16) : BitVec 16 :=
  (flags &&& ~~~pcimapTypeMask ||| type) &&& ~~~pcimapDirectionMask ||| direction

/-- Bit 1 of the flags, `ATL1C_BUFFER_BUSY`. -/
def TxBuffer.busy (info : TxBuffer) : Bool := info.flags.getLsbD 1

/-- What `atl1c_clean_buffer` gives back to the kernel. -/
inductive Release where
  | unmapSingle (dma : BitVec 64) (length : BitVec 16)
  | unmapPage (dma : BitVec 64) (length : BitVec 16)
  | consume (skb : Nat)
deriving DecidableEq, Repr

def TxBuffer.unmap (info : TxBuffer) : List Release :=
  if info.dma = 0 then []
  else if info.flags &&& pcimapSingle != 0 then [.unmapSingle info.dma info.length]
  else if info.flags &&& pcimapPage != 0 then [.unmapPage info.dma info.length]
  else []

/-- `atl1c_clean_buffer`. -/
def cleanBuffer (info : TxBuffer) : TxBuffer × List Release :=
  if info.flags &&& bufferFree != 0 then (info, [])
  else
    ({ info with dma := 0, skb := none, flags := setBufferState info.flags bufferFree },
      info.unmap ++ info.skb.toList.map .consume)

/-- `struct atl1c_tpd_ring`, with the producer register of the card. -/
structure Ring (count : Nat) where
  desc : Fin count → Tpd
  bufferInfo : Fin count → TxBuffer
  nextToUse : Fin count
  nextToClean : Fin count
  producer : Fin count

namespace Ring

def setDesc (ring : Ring count) (place : Fin count) (tpd : Tpd) : Ring count :=
  { ring with desc := Function.update ring.desc place tpd }

def setInfo (ring : Ring count) (place : Fin count) (info : TxBuffer) : Ring count :=
  { ring with bufferInfo := Function.update ring.bufferInfo place info }

def orWord1 (ring : Ring count) (place : Fin count) (bits : BitVec 32) : Ring count :=
  ring.setDesc place ((ring.desc place).orWord1 bits)

section Updates

variable (ring : Ring count) (place : Fin count) (tpd : Tpd) (info : TxBuffer) (bits : BitVec 32)

@[simp] theorem setDesc_bufferInfo : (ring.setDesc place tpd).bufferInfo = ring.bufferInfo := rfl

@[simp] theorem setDesc_self : (ring.setDesc place tpd).desc place = tpd :=
  Function.update_self ..

theorem setDesc_of_ne {other : Fin count} (different : other ≠ place) :
    (ring.setDesc place tpd).desc other = ring.desc other :=
  Function.update_of_ne different ..

@[simp] theorem setInfo_desc : (ring.setInfo place info).desc = ring.desc := rfl

@[simp] theorem setInfo_self : (ring.setInfo place info).bufferInfo place = info :=
  Function.update_self ..

theorem setInfo_of_ne {other : Fin count} (different : other ≠ place) :
    (ring.setInfo place info).bufferInfo other = ring.bufferInfo other :=
  Function.update_of_ne different ..

@[simp] theorem orWord1_self :
    (ring.orWord1 place bits).desc place = (ring.desc place).orWord1 bits :=
  Function.update_self ..

theorem orWord1_of_ne {other : Fin count} (different : other ≠ place) :
    (ring.orWord1 place bits).desc other = ring.desc other :=
  Function.update_of_ne different ..

end Updates

/-- `atl1c_tpd_avail`. -/
def tpdAvail (ring : Ring count) : Nat :=
  if ring.nextToUse.val < ring.nextToClean.val then
    ring.nextToClean.val - ring.nextToUse.val - 1
  else count + ring.nextToClean.val - ring.nextToUse.val - 1

/-- One descriptor is never given out. -/
theorem tpdAvail_lt (ring : Ring count) : ring.tpdAvail < count := by
  have use := ring.nextToUse.isLt
  have clean := ring.nextToClean.isLt
  unfold tpdAvail
  split <;> omega

/-- `atl1c_get_tpd`. -/
def getTpd (ring : Ring count) : Ring count :=
  { ring.setDesc ring.nextToUse Tpd.zero with nextToUse := Cyclic.next ring.nextToUse }

@[simp] theorem getTpd_self (ring : Ring count) :
    ring.getTpd.desc ring.nextToUse = Tpd.zero := Function.update_self ..

theorem getTpd_of_ne (ring : Ring count) {other : Fin count} (different : other ≠ ring.nextToUse) :
    ring.getTpd.desc other = ring.desc other := Function.update_of_ne different ..

/-- One turn of the loop of `atl1c_clean_tx_irq`. -/
def cleanOne (ring : Ring count) : Ring count :=
  { ring.setInfo ring.nextToClean (cleanBuffer (ring.bufferInfo ring.nextToClean)).1 with
    nextToClean := Cyclic.next ring.nextToClean }

/-- The loop of `atl1c_clean_tx_irq`, with what it gives back. -/
def cleanLoop : Nat → Ring count → Ring count × List Release
  | 0, ring => (ring, [])
  | turns + 1, ring =>
      let rest := cleanLoop turns ring.cleanOne
      (rest.1, (cleanBuffer (ring.bufferInfo ring.nextToClean)).2 ++ rest.2)

/-- `atl1c_clean_tx_irq`, when the card has reported up to a place. -/
def cleanTxIrq (ring : Ring count) (hwNextToClean : Fin count) : Ring count × List Release :=
  cleanLoop (Cyclic.distance ring.nextToClean hwNextToClean) ring

theorem cleanLoop_frame (turns : Nat) (ring : Ring count) :
    (cleanLoop turns ring).1.nextToUse = ring.nextToUse ∧
      (cleanLoop turns ring).1.producer = ring.producer ∧
      (cleanLoop turns ring).1.nextToClean = Cyclic.next^[turns] ring.nextToClean := by
  induction turns generalizing ring with
  | zero => exact ⟨rfl, rfl, rfl⟩
  | succ turns ih => exact ih ring.cleanOne

/-- The loop stops where the card has reported to. -/
theorem cleanTxIrq_nextToClean (ring : Ring count) (hwNextToClean : Fin count) :
    (ring.cleanTxIrq hwNextToClean).1.nextToClean = hwNextToClean := by
  rw [cleanTxIrq, (cleanLoop_frame _ ring).2.2, Cyclic.iterate_distance]

end Ring
end Atl1c
end KernelHacking
