import Mathlib.Data.List.Basic
import Mathlib.Algebra.Order.Ring.Int

namespace KernelHacking

/-!
# Byte memory, fills and copies to and from user space

Kernel memory is addressed relative to the start of one allocated block, so an
address is the signed distance from that start and a block of `n` bytes is the
range from `0` to `n - 1`.  Addresses outside the range are other memory: the
model keeps their contents, since a driver that leaves its block changes them.

A user buffer is seen by the kernel only through the bytes that can be reached
from its start before a fault.  A source buffer is the list of its readable
bytes; a destination buffer is the number of its writable bytes.
-/

/-- Contents of kernel memory, by distance from the start of a block. -/
abbrev ByteMemory := Int → UInt8

/-- The value range of a 64-bit `long`; additions wrap around it. -/
def wrapLong (x : Int) : Int := x.bmod (2 ^ 64)

theorem wrapLong_of_range {x : Int} (lower : -(2 ^ 63) ≤ x) (upper : x < 2 ^ 63) :
    wrapLong x = x := by
  unfold wrapLong
  rw [Int.bmod_def]
  omega

/-- The `n` bytes from address `start` on. -/
def bytesAt (mem : ByteMemory) (start : Int) (n : Nat) : List UInt8 :=
  (List.range n).map (fun i : Nat => mem (start + i))

@[simp] theorem bytesAt_length (mem : ByteMemory) (start : Int) (n : Nat) :
    (bytesAt mem start n).length = n := by
  simp [bytesAt]

theorem bytesAt_getElem? (mem : ByteMemory) (start : Int) {n i : Nat} (inside : i < n) :
    (bytesAt mem start n)[i]? = some (mem (start + i)) := by
  simp [bytesAt, inside]

theorem bytesAt_getElem?_of_le (mem : ByteMemory) (start : Int) {n i : Nat} (outside : n ≤ i) :
    (bytesAt mem start n)[i]? = none := by
  simp [bytesAt, outside]

theorem bytesAt_eq_iff (mem : ByteMemory) (start : Int) (n : Nat) (bytes : List UInt8) :
    bytesAt mem start n = bytes ↔
      bytes.length = n ∧ forall i, i < n → bytes[i]? = some (mem (start + i)) := by
  constructor
  · intro same
    subst same
    exact ⟨bytesAt_length mem start n, fun i inside => bytesAt_getElem? mem start inside⟩
  · rintro ⟨length, entries⟩
    apply List.ext_getElem?
    intro i
    rcases Nat.lt_or_ge i n with inside | outside
    · rw [bytesAt_getElem? mem start inside, entries i inside]
    · rw [bytesAt_getElem?_of_le mem start outside, List.getElem?_eq_none (length ▸ outside)]

/-! ## `memset` -/

def memset (mem : ByteMemory) (start : Int) (byte : UInt8) (n : Nat) : ByteMemory :=
  fun address => if start ≤ address ∧ address < start + n then byte else mem address

theorem memset_inside (mem : ByteMemory) {start address : Int} (byte : UInt8) {n : Nat}
    (lower : start ≤ address) (upper : address < start + n) :
    memset mem start byte n address = byte :=
  if_pos ⟨lower, upper⟩

theorem memset_outside (mem : ByteMemory) {start address : Int} (byte : UInt8) {n : Nat}
    (outside : address < start ∨ start + n ≤ address) :
    memset mem start byte n address = mem address := by
  apply if_neg
  omega

/-- Filling forgets what the block held before. -/
theorem memset_congr {mem mem' : ByteMemory} {start : Int} (byte : UInt8) {n : Nat}
    (same : forall address, address < start ∨ start + n ≤ address → mem address = mem' address) :
    memset mem start byte n = memset mem' start byte n := by
  funext address
  by_cases inside : start ≤ address ∧ address < start + n
  · rw [memset_inside mem byte inside.1 inside.2, memset_inside mem' byte inside.1 inside.2]
  · have outside : address < start ∨ start + n ≤ address := by omega
    rw [memset_outside mem byte outside, memset_outside mem' byte outside, same address outside]

/-! ## `copy_from_user` and `copy_to_user` -/

/-- What a copy from user space did: the new memory, the kernel addresses it
stored to, and the number of bytes it reports as not copied. -/
structure CopyIn where
  mem : ByteMemory
  stored : List Int
  uncopied : Nat

/-- `copy_from_user(to, from, n)`.  Bytes that cannot be read are stored as
zero, and the call reports how many there were. -/
def copyFromUser (mem : ByteMemory) (dst : Int) (src : List UInt8) (n : Nat) : CopyIn where
  mem address :=
    if dst ≤ address ∧ address < dst + n then src.getD (address - dst).toNat 0 else mem address
  stored := (List.range n).map (fun i : Nat => dst + i)
  uncopied := n - src.length

/-- A one-byte copy changes exactly its destination. -/
theorem copyFromUser_one (mem : ByteMemory) (dst : Int) (src : List UInt8) :
    (copyFromUser mem dst src 1).mem = Function.update mem dst (src.headD 0) := by
  funext address
  simp only [copyFromUser, Function.update_apply]
  by_cases same : address = dst
  · subst same
    cases src <;> simp
  · rw [if_neg same, if_neg (by omega)]

@[simp] theorem copyFromUser_one_stored (mem : ByteMemory) (dst : Int) (src : List UInt8) :
    (copyFromUser mem dst src 1).stored = [dst] := by
  simp [copyFromUser]

/-- What a copy to user space did: the bytes that reached the user buffer, in
order from its start, and the number of bytes it reports as not copied. -/
structure CopyOut where
  data : List UInt8
  uncopied : Nat

/-- `copy_to_user(to, from, n)` into a buffer with `room` writable bytes. -/
def copyToUser (room : Nat) (mem : ByteMemory) (src : Int) (n : Nat) : CopyOut where
  data := bytesAt mem src (min n room)
  uncopied := n - room

end KernelHacking
