import Mathlib.Data.BitVec
import Mathlib.Data.List.Basic
import Mathlib.Data.Fin.VecNotation
import Mathlib.Logic.Function.Basic
import Mathlib.Tactic.FinCases

namespace KernelHacking
namespace Atl1c

/-!
# The station address from probe to removal

The card keeps its address in two registers.  A probe reads them, remembers
what it read as the permanent address, and writes the address that the network
is to use.  The address can be changed while the driver is loaded, and the
removal writes the permanent one back.  In `4-atl1c` the reading of a valid
address was edited.  Whether an allocation or a kernel service fails, and what
the card loads from its EEPROM, are read from an environment.
-/

namespace StationAddress

/-! ## Addresses and registers -/

/-- The bytes of an address in the order in which they are sent. -/
abbrev MacAddr := Fin 6 → BitVec 8

def isMulticastEtherAddr (addr : MacAddr) : Bool := addr 0 &&& 0x01 != 0

def isZeroEtherAddr (addr : MacAddr) : Bool := decide (forall i, addr i = 0)

def isValidEtherAddr (addr : MacAddr) : Bool :=
  !isMulticastEtherAddr addr && !isZeroEtherAddr addr

/-- The registers at `REG_MAC_STA_ADDR`. -/
structure Station where
  low : BitVec 32
  high : BitVec 32
deriving DecidableEq, Repr

/-- What `atl1c_hw_set_mac_addr` writes. -/
def hwSetMacAddr (macAddr : MacAddr) : Station where
  low := (macAddr 2).setWidth 32 <<< 24 ||| (macAddr 3).setWidth 32 <<< 16 |||
    (macAddr 4).setWidth 32 <<< 8 ||| (macAddr 5).setWidth 32
  high := (macAddr 0).setWidth 32 <<< 8 ||| (macAddr 1).setWidth 32

/-- Byte `i` of what storing `htonl` of a number puts in memory. -/
def htonl (value : BitVec 32) (i : Nat) : BitVec 8 := value.extractLsb' (8 * (3 - i)) 8

/-- Byte `i` of what storing `htons` of a number puts in memory. -/
def htons (value : BitVec 16) (i : Nat) : BitVec 8 := value.extractLsb' (8 * (1 - i)) 8

/-- The address that `atl1c_read_current_addr` stores in `eth_addr`. -/
def Station.address (station : Station) : MacAddr :=
  ![htons (station.high.setWidth 16) 0, htons (station.high.setWidth 16) 1,
    htonl station.low 0, htonl station.low 1, htonl station.low 2, htonl station.low 3]

/-- The registers hold an address.  The upper half of the second one is not used. -/
def Station.Encodes (station : Station) (macAddr : MacAddr) : Prop := station.address = macAddr

/-! ## What is written is read back -/

/-- A byte that was shifted into a word stands in one byte of it. -/
theorem extractLsb_shifted (byte : BitVec 8) {shift start : Nat} (inside : start + 8 ≤ 32)
    (apart : shift = start ∨ shift + 8 ≤ start ∨ start + 8 ≤ shift) :
    (byte.setWidth 32 <<< shift).extractLsb' start 8 = if shift = start then byte else 0 := by
  apply BitVec.eq_of_getLsbD_eq
  intro i small
  simp only [BitVec.getLsbD_extractLsb', BitVec.getLsbD_shiftLeft, BitVec.getLsbD_setWidth]
  rcases apart with same | below | above
  · rw [if_pos same]
    have range : start + i < 32 := by omega
    have reach : ¬ start + i < shift := by omega
    have back : start + i - shift = i := by omega
    have wide : i < 32 := by omega
    simp [small, range, reach, back, wide]
  · have beyond : byte.getLsbD (start + i - shift) = false :=
      BitVec.getLsbD_of_ge _ _ (by omega)
    have other : ¬ shift = start := by omega
    simp [beyond, other]
  · have under : start + i < shift := by omega
    have other : ¬ shift = start := by omega
    simp [under, other]

theorem htonl_low (macAddr : MacAddr) (i : Fin 4) :
    htonl (hwSetMacAddr macAddr).low i = ![macAddr 2, macAddr 3, macAddr 4, macAddr 5] i := by
  rw [htonl, hwSetMacAddr, ← BitVec.shiftLeft_zero ((macAddr 5).setWidth 32)]
  simp only [BitVec.extractLsb'_or]
  rw [extractLsb_shifted _ (by omega) (by omega), extractLsb_shifted _ (by omega) (by omega),
    extractLsb_shifted _ (by omega) (by omega), extractLsb_shifted _ (by omega) (by omega)]
  fin_cases i <;> simp

theorem htons_high (macAddr : MacAddr) (i : Fin 2) :
    htons ((hwSetMacAddr macAddr).high.setWidth 16) i = ![macAddr 0, macAddr 1] i := by
  rw [htons, BitVec.extractLsb'_setWidth_of_le (by omega), hwSetMacAddr,
    ← BitVec.shiftLeft_zero ((macAddr 1).setWidth 32)]
  simp only [BitVec.extractLsb'_or]
  rw [extractLsb_shifted _ (by omega) (by omega), extractLsb_shifted _ (by omega) (by omega)]
  fin_cases i <;> simp

theorem address_hwSetMacAddr (macAddr : MacAddr) : (hwSetMacAddr macAddr).address = macAddr := by
  funext i
  fin_cases i
  · exact htons_high macAddr 0
  · exact htons_high macAddr 1
  · exact htonl_low macAddr 0
  · exact htonl_low macAddr 1
  · exact htonl_low macAddr 2
  · exact htonl_low macAddr 3

theorem encodes_hwSetMacAddr_iff (written macAddr : MacAddr) :
    (hwSetMacAddr written).Encodes macAddr ↔ written = macAddr := by
  rw [Station.Encodes, address_hwSetMacAddr]

/-! ## Reading the address -/

/-- The addresses of `struct atl1c_hw`. -/
structure Hw where
  macAddr : MacAddr
  permMacAddr : MacAddr

/-- `atl1c_read_current_addr`, which is called for the permanent address only,
and overwrites the other one before it has been set. -/
def readCurrentAddr (station : Station) : Bool × Hw :=
  (isValidEtherAddr station.address,
    { macAddr := fun _ => 0xff
      permMacAddr := station.address })

/-- What comes of `atl1c_check_eeprom_exist` and of starting a load, which fills
the registers. -/
inductive Eeprom
  | absent
  | loaded (station : Station)
  | timeout (station : Station)

/-- `atl1c_get_permanent_address`: its error, and the registers and addresses
that it leaves. -/
def getPermanentAddress (eeprom : Eeprom) (station : Station) : Int × Station × Hw :=
  let second (station : Station) : Int × Station × Hw :=
    let (valid, hw) := readCurrentAddr station
    (if valid then 0 else -1, station, hw)
  let (valid, hw) := readCurrentAddr station
  -- what the BIOS has left in the registers
  if valid then
    (0, station, { hw with permMacAddr := Function.update hw.permMacAddr 0 0x08 })
  else
    match eeprom with
    | .absent => second station
    | .loaded station => second station
    | .timeout station => (-1, station, hw)

def ethRandomAddr (bytes : MacAddr) : MacAddr :=
  Function.update bytes 0 (bytes 0 &&& 0xfe ||| 0x02)

def readMacAddr (eeprom : Eeprom) (bytes : MacAddr) (station : Station) : Int × Station × Hw :=
  let (err, station, hw) := getPermanentAddress eeprom station
  let hw := if err ≠ 0 then { hw with permMacAddr := ethRandomAddr bytes } else hw
  (err, station, { hw with macAddr := hw.permMacAddr })

/-- The permanent address after the registers held a valid one: its first byte
is not the one that was read. -/
theorem readMacAddr_of_valid (eeprom : Eeprom) (bytes : MacAddr) {station : Station}
    {macAddr : MacAddr} (held : station.Encodes macAddr)
    (valid : isValidEtherAddr macAddr = true) :
    (readMacAddr eeprom bytes station).2.2.permMacAddr = Function.update macAddr 0 0x08 := by
  have read : isValidEtherAddr station.address = true := held ▸ valid
  simp only [readMacAddr, getPermanentAddress, readCurrentAddr, read, if_true, ne_eq,
    not_true_eq_false, if_false]
  rw [held]

/-! ## The life of the driver -/

/-- What the driver keeps for one card. -/
structure Adapter where
  hw : Hw
  devAddr : MacAddr
  addrRandom : Bool

/-- The registers, and the adapter when one is bound to the card. -/
structure Card where
  station : Station
  adapter : Option Adapter

def enomem : Int := 12
def eio : Int := 5
def ebusy : Int := 16
def eaddrnotavail : Int := 99

/-- The answers that a probe gets, zero where nothing fails. -/
structure ProbeEnv where
  enableDeviceMem : Int
  setDmaMask : Int
  setConsistentDmaMask : Int
  requestRegions : Int
  allocEtherdev : Bool
  ioremap : Bool
  swInit : Int
  resetMac : Int
  phyInit : Int
  eeprom : Eeprom
  randomBytes : MacAddr
  registerNetdev : Int

/-- The kernel grants both masks for 32 bits. -/
def ProbeEnv.DmaGranted (env : ProbeEnv) : Prop :=
  env.setDmaMask = 0 ∧ env.setConsistentDmaMask = 0

instance (env : ProbeEnv) : Decidable env.DmaGranted := inferInstanceAs (Decidable (_ ∧ _))

/-- The part of `atl1c_probe` before the address is read: what it returns when
it goes no further.  None of these steps writes the registers of the address. -/
def ProbeEnv.setup (env : ProbeEnv) : Option Int :=
  if env.enableDeviceMem ≠ 0 then some env.enableDeviceMem
  -- `err` is zero here and is what `err_dma` returns
  else if ¬ env.DmaGranted then some 0
  else if env.requestRegions ≠ 0 then some env.requestRegions
  else if ¬ env.allocEtherdev then some (-enomem)
  else if ¬ env.ioremap then some (-eio)
  else if env.swInit ≠ 0 then some env.swInit
  else if env.resetMac ≠ 0 then some (-eio)
  else if env.phyInit ≠ 0 then some (-eio)
  else none

/-- `atl1c_probe`. -/
def probe (env : ProbeEnv) (station : Station) : Int × Card :=
  match env.setup with
  | some err => (err, ⟨station, none⟩)
  | none =>
      let (err, _, hw) := readMacAddr env.eeprom env.randomBytes station
      let station := hwSetMacAddr hw.macAddr
      if env.registerNetdev ≠ 0 then (env.registerNetdev, ⟨station, none⟩)
      else (0, ⟨station, some { hw := hw, devAddr := hw.macAddr, addrRandom := err ≠ 0 }⟩)

/-- A request for another address, and whether the interface is up. -/
structure Request where
  saData : MacAddr
  running : Bool

/-- `atl1c_set_mac_addr`. -/
def setMacAddr (request : Request) (station : Station) (adapter : Adapter) :
    Int × Station × Adapter :=
  if ¬ isValidEtherAddr request.saData then (-eaddrnotavail, station, adapter)
  else if request.running then (-ebusy, station, adapter)
  else
    (0, hwSetMacAddr request.saData,
      { adapter with
        devAddr := request.saData
        hw := { adapter.hw with macAddr := request.saData } })

/-- Without an interface there is nothing to send the request to. -/
def Card.request (card : Card) (request : Request) : Card :=
  match card.adapter with
  | none => card
  | some adapter =>
      let (_, station, adapter) := setMacAddr request card.station adapter
      ⟨station, some adapter⟩

/-- `atl1c_remove`: the registers that it leaves, or nothing when there is no
interface and it follows a null pointer. -/
def remove (card : Card) : Option Station :=
  card.adapter.map fun adapter => hwSetMacAddr adapter.hw.permMacAddr

/-- The removal has come to its end and the registers hold the address. -/
def Restored (macAddr : MacAddr) (after : Option Station) : Prop :=
  ∃ station, after = some station ∧ station.Encodes macAddr

/-! ## What the removal restores -/

theorem remove_request (card : Card) (request : Request) :
    remove (card.request request) = remove card := by
  rcases card with ⟨station, adapter⟩
  cases adapter with
  | none => rfl
  | some adapter =>
      simp only [Card.request, setMacAddr]
      split_ifs <;> rfl

/-- No request changes what the removal will write. -/
theorem remove_foldl_request (requests : List Request) (card : Card) :
    remove (requests.foldl Card.request card) = remove card := by
  induction requests generalizing card with
  | nil => rfl
  | cons request rest ih => rw [List.foldl_cons, ih, remove_request]

/-- Of the ways in which a probe stops early only the refusal of DMA looks like
a success. -/
theorem ProbeEnv.setup_spec (env : ProbeEnv) :
    (env.setup = some 0 → ¬ env.DmaGranted) ∧ (env.setup = none → env.DmaGranted) := by
  unfold setup enomem eio
  split_ifs with enable granted <;> simp_all

/-- A probe that returns zero was refused DMA and has bound nothing, or has
bound an adapter with the addresses that it read. -/
theorem remove_probe {env : ProbeEnv} {station : Station}
    (success : (probe env station).1 = 0) :
    remove (probe env station).2 =
      if env.DmaGranted then
        some (hwSetMacAddr (readMacAddr env.eeprom env.randomBytes station).2.2.permMacAddr)
      else none := by
  rw [probe] at success ⊢
  rcases ended : env.setup with _ | err
  · rw [ended] at success
    rw [if_pos (env.setup_spec.2 ended)]
    rcases readMacAddr env.eeprom env.randomBytes station with ⟨err, kept, hw⟩
    dsimp only at success ⊢
    by_cases register : env.registerNetdev ≠ 0
    · rw [if_pos register] at success
      exact absurd success register
    · rw [if_neg register]
      rfl
  · rw [ended] at success
    rw [if_neg (env.setup_spec.1 (ended.trans (congrArg some success)))]
    rfl

/-- A valid address that the registers hold when a probe succeeds is in them
after the removal exactly when its first byte is the one that the probe puts
there, and the probe has bound an adapter at all. -/
theorem remove_restores_iff {macAddr : MacAddr} {station : Station} {env : ProbeEnv}
    (requests : List Request) (valid : isValidEtherAddr macAddr = true)
    (held : station.Encodes macAddr) (success : (probe env station).1 = 0) :
    Restored macAddr (remove (requests.foldl Card.request (probe env station).2)) ↔
      env.DmaGranted ∧ macAddr 0 = 0x08 := by
  rw [remove_foldl_request, remove_probe success, readMacAddr_of_valid _ _ held valid]
  by_cases granted : env.DmaGranted
  · rw [if_pos granted, and_iff_right granted, Restored]
    simp only [Option.some.injEq, exists_eq_left']
    rw [encodes_hwSetMacAddr_iff, Function.update_eq_self_iff]
    exact eq_comm
  · rw [if_neg granted]
    refine iff_of_false ?_ (fun both => granted both.1)
    rintro ⟨restored, impossible, _⟩
    cases impossible

/-- Nothing fails and there is no EEPROM. -/
def plainEnv : ProbeEnv where
  enableDeviceMem := 0
  setDmaMask := 0
  setConsistentDmaMask := 0
  requestRegions := 0
  allocEtherdev := true
  ioremap := true
  swInit := 0
  resetMac := 0
  phyInit := 0
  eeprom := .absent
  randomBytes := fun _ => 0
  registerNetdev := 0

def vmAddr : MacAddr := ![0x08, 0x00, 0x27, 0x12, 0x34, 0x56]

theorem vmAddr_restored :
    Restored vmAddr (remove ([⟨![0x02, 0, 0, 0, 0, 1], false⟩].foldl Card.request
        (probe plainEnv (hwSetMacAddr vmAddr)).2)) ↔
      plainEnv.DmaGranted ∧ vmAddr 0 = 0x08 :=
  remove_restores_iff _ (by decide) (address_hwSetMacAddr vmAddr) (by decide)

/-- The address in the comment of `atl1c_hw_set_mac_addr`. -/
def atherosAddr : MacAddr := ![0x00, 0x0b, 0x6a, 0xf6, 0x00, 0xdc]

theorem atherosAddr_lost :
    isValidEtherAddr atherosAddr = true ∧ (hwSetMacAddr atherosAddr).Encodes atherosAddr ∧
      (probe plainEnv (hwSetMacAddr atherosAddr)).1 = 0 ∧
      ¬ Restored atherosAddr (remove (probe plainEnv (hwSetMacAddr atherosAddr)).2) := by
  have valid : isValidEtherAddr atherosAddr = true := by decide
  have held := address_hwSetMacAddr atherosAddr
  have success : (probe plainEnv (hwSetMacAddr atherosAddr)).1 = 0 := by decide
  refine ⟨valid, held, success, ?_⟩
  rw [remove_probe success, if_pos (by decide), readMacAddr_of_valid _ _ held valid]
  rintro ⟨station, same, encodes⟩
  cases same
  have first := congrFun ((encodes_hwSetMacAddr_iff _ _).mp encodes) 0
  exact absurd first (by decide)

end StationAddress
end Atl1c
end KernelHacking
