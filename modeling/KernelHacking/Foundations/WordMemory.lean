import Mathlib.Data.BitVec
import Mathlib.Tactic.IntervalCases

namespace KernelHacking

/-!
# Byte memory read and written in 64-bit words

Memory is a byte for every 64-bit address, and addresses wrap around.  A word
occupies the eight addresses from its own on, least significant byte first, so
two words may overlap partly.  Which bytes of a word an address holds is its
distance from the word's address: every rule below is about single addresses
and says nothing of how two words lie relative to each other.
-/

abbrev WordMemory := BitVec 64 -> BitVec 8

namespace WordMemory

/-- Distance of an address from the start of a word, counted upwards. -/
def offsetIn (start address : BitVec 64) : Nat := (address - start).toNat

/-- The address is one of the eight of the word that starts there. -/
def InWord (start address : BitVec 64) : Prop := offsetIn start address < 8

instance (start address : BitVec 64) : Decidable (InWord start address) :=
  inferInstanceAs (Decidable (_ < _))

/-- Byte `i` of a word, counted from its least significant one. -/
def byteOf (word : BitVec 64) (i : Nat) : BitVec 8 := word.extractLsb' (8 * i) 8

def loadWord (mem : WordMemory) (start : BitVec 64) : BitVec 64 :=
  mem (start + 7#64) ++ mem (start + 6#64) ++ mem (start + 5#64) ++ mem (start + 4#64) ++
    mem (start + 3#64) ++ mem (start + 2#64) ++ mem (start + 1#64) ++ mem start

def storeWord (mem : WordMemory) (start word : BitVec 64) : WordMemory :=
  fun address =>
    if InWord start address then byteOf word (offsetIn start address) else mem address

theorem byteOf_injective {word other : BitVec 64}
    (bytes : forall i, i < 8 → byteOf word i = byteOf other i) : word = other := by
  apply BitVec.eq_of_getLsbD_eq
  intro j inside
  have byte := congrArg (fun x : BitVec 8 => x.getLsbD (j % 8)) (bytes (j / 8) (by omega))
  simp only [byteOf, BitVec.getLsbD_extractLsb'] at byte
  rw [Nat.div_add_mod] at byte
  simpa [Nat.mod_lt] using byte

theorem byteOf_loadWord (mem : WordMemory) (start : BitVec 64) {i : Nat} (inside : i < 8) :
    byteOf (loadWord mem start) i = mem (start + BitVec.ofNat 64 i) := by
  apply BitVec.eq_of_getLsbD_eq
  intro j small
  simp only [byteOf, loadWord, BitVec.getLsbD_extractLsb', BitVec.getLsbD_append, small]
  interval_cases i <;> interval_cases j <;> simp

theorem add_offsetIn (start address : BitVec 64) :
    start + BitVec.ofNat 64 (offsetIn start address) = address := by
  rw [offsetIn, BitVec.ofNat_toNat, BitVec.setWidth_eq, BitVec.add_comm, BitVec.sub_add_cancel]

theorem offsetIn_add (start : BitVec 64) {i : Nat} (small : i < 2 ^ 64) :
    offsetIn start (start + BitVec.ofNat 64 i) = i := by
  rw [offsetIn, BitVec.add_comm, BitVec.add_sub_cancel, BitVec.toNat_ofNat, Nat.mod_eq_of_lt small]

/-- A word is read where each of its eight addresses holds its byte. -/
theorem loadWord_eq_iff (mem : WordMemory) (start word : BitVec 64) :
    loadWord mem start = word ↔
      forall address, InWord start address → mem address = byteOf word (offsetIn start address) := by
  constructor
  · intro same address inside
    rw [← same, byteOf_loadWord mem start inside, add_offsetIn]
  · intro bytes
    apply byteOf_injective
    intro i inside
    have offset := offsetIn_add start (i := i) (by omega)
    have within : InWord start (start + BitVec.ofNat 64 i) := by
      rw [InWord, offset]
      exact inside
    rw [byteOf_loadWord mem start inside, bytes _ within, offset]

theorem storeWord_inside (mem : WordMemory) {start address : BitVec 64} (word : BitVec 64)
    (inside : InWord start address) :
    storeWord mem start word address = byteOf word (offsetIn start address) :=
  if_pos inside

theorem storeWord_outside (mem : WordMemory) {start address : BitVec 64} (word : BitVec 64)
    (outside : ¬ InWord start address) : storeWord mem start word address = mem address :=
  if_neg outside

@[simp] theorem loadWord_storeWord (mem : WordMemory) (start word : BitVec 64) :
    loadWord (storeWord mem start word) start = word := by
  rw [loadWord_eq_iff]
  intro address inside
  exact storeWord_inside mem word inside

/-- Only the bytes at the word's own addresses are read. -/
theorem loadWord_congr {mem mem' : WordMemory} {start : BitVec 64}
    (same : forall address, InWord start address → mem address = mem' address) :
    loadWord mem start = loadWord mem' start := by
  rw [loadWord_eq_iff]
  intro address inside
  rw [same address inside]
  exact (loadWord_eq_iff mem' start _).mp rfl address inside

/-- A store elsewhere leaves a word readable exactly when it writes the word's
own bytes on the addresses that the two share. -/
theorem loadWord_storeWord_eq_iff {mem : WordMemory} {start other kept : BitVec 64}
    (word : BitVec 64) (held : loadWord mem start = kept) :
    loadWord (storeWord mem other word) start = kept ↔
      forall address, InWord start address → InWord other address →
        byteOf word (offsetIn other address) = byteOf kept (offsetIn start address) := by
  rw [loadWord_eq_iff] at held ⊢
  constructor
  · intro after address inside shared
    rw [← after address inside, storeWord_inside mem word shared]
  · intro agree address inside
    by_cases shared : InWord other address
    · rw [storeWord_inside mem word shared]
      exact agree address inside shared
    · rw [storeWord_outside mem word shared]
      exact held address inside

/-- Words eight addresses apart share none. -/
theorem not_inWord_sub_eight {start address : BitVec 64} (inside : InWord start address) :
    ¬ InWord (start - 8#64) address := by
  unfold InWord offsetIn at *
  bv_omega

end WordMemory

end KernelHacking
