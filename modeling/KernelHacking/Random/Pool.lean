import KernelHacking.Foundations.Reversal
import Mathlib.Data.BitVec
import Mathlib.Tactic.SplitIfs

namespace KernelHacking
namespace Random

/-!
# The entropy pools of `drivers_char_random.c`

Bytes are mixed into a pool one at a time.  Each byte is rotated and combined with
six words of the pool, and the result takes the place of the first of them after
three steps of the CRC-32 register.

What the comment above the table of pools says is proved here: who knows the bytes
can take the mixing back, so that different pools stay different, and one pool
given different bytes is left in different states.
-/

def entropyShift : Nat := 3

/-- A row of `poolinfo_table`; `shift` is `ilog2(poolwords)`.  The bound on the size is
the one that the comment on `ENTROPY_SHIFT` asks for. -/
structure PoolInfo where
  shift : Nat
  tap1 : Nat
  tap2 : Nat
  tap3 : Nat
  tap4 : Nat
  tap5 : Nat
  tap_pos : forall tap, tap ∈ [tap1, tap2, tap3, tap4, tap5] → 0 < tap
  tap_lt : forall tap, tap ∈ [tap1, tap2, tap3, tap4, tap5] → tap < 2 ^ shift
  narrow : 2 * (entropyShift + (shift + 5)) ≤ 31

namespace PoolInfo

def poolbitshift (info : PoolInfo) : Nat := info.shift + 5
def poolwords (info : PoolInfo) : Nat := 2 ^ info.shift
def poolfracbits (info : PoolInfo) : Nat := info.poolwords * 2 ^ (entropyShift + 5)

end PoolInfo

/-- `poolinfo_table[0]`. -/
def inputInfo : PoolInfo where
  shift := 7
  tap1 := 104
  tap2 := 76
  tap3 := 51
  tap4 := 25
  tap5 := 1
  tap_pos := by decide
  tap_lt := by decide
  narrow := by decide

/-- `poolinfo_table[1]`. -/
def outputInfo : PoolInfo where
  shift := 5
  tap1 := 26
  tap2 := 19
  tap3 := 14
  tap4 := 7
  tap5 := 1
  tap_pos := by decide
  tap_lt := by decide
  narrow := by decide

/-- What mixing reads and writes of `struct entropy_store`.  The places of the pool are
numbers of `shift` bits, which is what `& wordmask` leaves of an index. -/
@[ext] structure EntropyStore (info : PoolInfo) where
  pool : BitVec info.shift → BitVec 32
  addPtr : BitVec info.shift
  inputRotate : BitVec 5

def twistTable : List (BitVec 32) :=
  [0x00000000, 0x3b6e20c8, 0x76dc4190, 0x4db26158,
    0xedb88320, 0xd6d6a3e8, 0x9b64c2b0, 0xa00ae278]

/-- `(w >> 3) ^ twist_table[w & 7]`. -/
def twist (w : BitVec 32) : BitVec 32 := (w >>> 3) ^^^ twistTable.getD (w &&& 7).toNat 0

/-- A byte is a signed character when it is made a word. -/
def rol32 (byte : BitVec 8) (shift : BitVec 5) : BitVec 32 :=
  (byte.signExtend 32).rotateLeft shift.toNat

/-- How far the rotation goes on behind a place. -/
def rotation {shift : Nat} (place : BitVec shift) : BitVec 5 := if place ≠ 0 then 7 else 14

section Mixing

variable {info : PoolInfo}

/-- The words of the pool that a byte is combined with besides the one that it replaces. -/
def tapped (pool : BitVec info.shift → BitVec 32) (place : BitVec info.shift) : BitVec 32 :=
  pool (place + BitVec.ofNat _ info.tap1) ^^^ pool (place + BitVec.ofNat _ info.tap2) ^^^
    pool (place + BitVec.ofNat _ info.tap3) ^^^ pool (place + BitVec.ofNat _ info.tap4) ^^^
    pool (place + BitVec.ofNat _ info.tap5)

/-- One turn of the loop of `_mix_pool_bytes`. -/
def mixByte (r : EntropyStore info) (byte : BitVec 8) : EntropyStore info :=
  let w := rol32 byte r.inputRotate
  let i := r.addPtr - 1
  let w := w ^^^ r.pool i
  let w := w ^^^ tapped r.pool i
  { pool := Function.update r.pool i (twist w)
    addPtr := i
    inputRotate := r.inputRotate + rotation i }

def mixing (info : PoolInfo) : Machine (EntropyStore info) (BitVec 8) Unit where
  step r byte := (mixByte r byte, ())

/-- `_mix_pool_bytes`. -/
def mixPoolBytes (r : EntropyStore info) (bytes : List (BitVec 8)) : EntropyStore info :=
  (mixing info).run r bytes

/-! ## The way back -/

def crc32Poly : BitVec 32 := 0xedb88320

def untwist (w : BitVec 32) : BitVec 32 := unfeedbacks crc32Poly 3 w

def unmixByte (r : EntropyStore info) (byte : BitVec 8) : EntropyStore info :=
  let inputRotate := r.inputRotate - rotation r.addPtr
  let w := untwist (r.pool r.addPtr) ^^^ tapped r.pool r.addPtr ^^^ rol32 byte inputRotate
  { pool := Function.update r.pool r.addPtr w
    addPtr := r.addPtr + 1
    inputRotate := inputRotate }

/-- The table holds what three steps of the register feed back. -/
theorem twist_eq_feedbacks (w : BitVec 32) : twist w = feedbacks crc32Poly 3 w := by
  have table : forall low : Fin 8,
      twistTable.getD (BitVec.ofNat 32 low).toNat 0 = feedbacks crc32Poly 3 (BitVec.ofNat 32 low) := by
    decide
  have low : (w &&& 7).toNat < 8 := by
    rw [BitVec.toNat_and]
    exact Nat.lt_succ_of_le Nat.and_le_right
  have fed := table ⟨(w &&& 7).toNat, low⟩
  rw [BitVec.ofNat_toNat, BitVec.setWidth_eq] at fed
  have split : w = (w &&& ~~~7) ^^^ (w &&& 7) := by
    apply BitVec.eq_of_getLsbD_eq
    intro place inside
    simp only [BitVec.getLsbD_xor, BitVec.getLsbD_and, BitVec.getLsbD_not, inside, decide_true,
      Bool.true_and]
    cases w.getLsbD place <;> cases (7 : BitVec 32).getLsbD place <;> rfl
  have zero : forall place, place < 3 → (w &&& ~~~7).getLsbD place = false := by
    have ones : forall place, place < 3 → (7 : BitVec 32).getLsbD place = true := by decide
    intro place less
    rw [BitVec.getLsbD_and, BitVec.getLsbD_not, ones place less, Bool.not_true, Bool.and_false,
      Bool.and_false]
  have shifted : (w &&& ~~~7) >>> 3 = w >>> 3 := by
    have zeros : forall place, place < 29 → (7 : BitVec 32).getLsbD (3 + place) = false := by decide
    apply BitVec.eq_of_getLsbD_eq
    intro place inside
    rw [BitVec.getLsbD_ushiftRight, BitVec.getLsbD_ushiftRight, BitVec.getLsbD_and,
      BitVec.getLsbD_not]
    rcases Nat.lt_or_ge place 29 with less | behind
    · have room : 3 + place < 32 := by omega
      rw [zeros place less, decide_eq_true room, Bool.true_and, Bool.not_false, Bool.and_true]
    · rw [BitVec.getLsbD_of_ge w _ (by omega), Bool.false_and]
  calc twist w = (w >>> 3) ^^^ feedbacks crc32Poly 3 (w &&& 7) := by rw [twist, fed]
    _ = feedbacks crc32Poly 3 ((w &&& ~~~7) ^^^ (w &&& 7)) := by
      rw [feedbacks_xor, feedbacks_of_low_zero zero, shifted]
    _ = feedbacks crc32Poly 3 w := by rw [← split]

theorem untwist_twist (w : BitVec 32) : untwist (twist w) = w := by
  rw [twist_eq_feedbacks, untwist, unfeedbacks_feedbacks (by decide)]

theorem twist_untwist (w : BitVec 32) : twist (untwist w) = w := by
  rw [twist_eq_feedbacks, untwist, feedbacks_unfeedbacks (by decide)]

/-- No tap is the word that is replaced. -/
theorem tapped_update (pool : BitVec info.shift → BitVec 32) (place : BitVec info.shift)
    (w : BitVec 32) : tapped (Function.update pool place w) place = tapped pool place := by
  have apart : forall tap, tap ∈ [info.tap1, info.tap2, info.tap3, info.tap4, info.tap5] →
      Function.update pool place w (place + BitVec.ofNat _ tap) =
        pool (place + BitVec.ofNat _ tap) := by
    intro tap member
    apply Function.update_of_ne
    intro same
    have zero : BitVec.ofNat info.shift tap = 0 := add_eq_left.mp same
    have numbers := congrArg BitVec.toNat zero
    rw [BitVec.toNat_ofNat, Nat.mod_eq_of_lt (info.tap_lt tap member)] at numbers
    exact absurd numbers (Nat.ne_of_gt (info.tap_pos tap member))
  rw [tapped, apart _ (by simp), apart _ (by simp), apart _ (by simp), apart _ (by simp),
    apart _ (by simp), tapped]

/-- What a byte makes of the word that it replaces. -/
def renewed (w : BitVec 32) (place : BitVec info.shift) (pool : BitVec info.shift → BitVec 32)
    (content : BitVec 32) : BitVec 32 := twist (w ^^^ content ^^^ tapped pool place)

def recalled (w : BitVec 32) (place : BitVec info.shift) (pool : BitVec info.shift → BitVec 32)
    (content : BitVec 32) : BitVec 32 := untwist content ^^^ tapped pool place ^^^ w

theorem blind_renewed (w : BitVec 32) (place : BitVec info.shift) :
    Blind (renewed w place) place := by
  intro pool content
  funext other
  rw [renewed, tapped_update, renewed]

theorem blind_recalled (w : BitVec 32) (place : BitVec info.shift) :
    Blind (recalled w place) place := by
  intro pool content
  funext other
  rw [recalled, tapped_update, recalled]

theorem recalled_renewed (w : BitVec 32) (place : BitVec info.shift)
    (pool : BitVec info.shift → BitVec 32) (content : BitVec 32) :
    recalled w place pool (renewed w place pool content) = content := by
  rw [recalled, renewed, untwist_twist, BitVec.xor_assoc (w ^^^ content), BitVec.xor_self,
    BitVec.xor_zero, BitVec.xor_comm w, BitVec.xor_assoc, BitVec.xor_self, BitVec.xor_zero]

theorem renewed_recalled (w : BitVec 32) (place : BitVec info.shift)
    (pool : BitVec info.shift → BitVec 32) (content : BitVec 32) :
    renewed w place pool (recalled w place pool content) = content := by
  have back : w ^^^ (untwist content ^^^ tapped pool place ^^^ w) =
      untwist content ^^^ tapped pool place := by
    rw [BitVec.xor_comm, BitVec.xor_assoc, BitVec.xor_self, BitVec.xor_zero]
  rw [recalled, renewed, back, BitVec.xor_assoc, BitVec.xor_self, BitVec.xor_zero, twist_untwist]

theorem mixByte_pool (r : EntropyStore info) (byte : BitVec 8) :
    (mixByte r byte).pool =
      stir (renewed (rol32 byte r.inputRotate) (r.addPtr - 1)) (r.addPtr - 1) r.pool := rfl

theorem mixByte_addPtr (r : EntropyStore info) (byte : BitVec 8) :
    (mixByte r byte).addPtr = r.addPtr - 1 := rfl

theorem mixByte_inputRotate (r : EntropyStore info) (byte : BitVec 8) :
    (mixByte r byte).inputRotate = r.inputRotate + rotation (r.addPtr - 1) := rfl

theorem unmixByte_pool (r : EntropyStore info) (byte : BitVec 8) :
    (unmixByte r byte).pool =
      stir (recalled (rol32 byte (r.inputRotate - rotation r.addPtr)) r.addPtr) r.addPtr r.pool :=
  rfl

theorem unmixByte_addPtr (r : EntropyStore info) (byte : BitVec 8) :
    (unmixByte r byte).addPtr = r.addPtr + 1 := rfl

theorem unmixByte_inputRotate (r : EntropyStore info) (byte : BitVec 8) :
    (unmixByte r byte).inputRotate = r.inputRotate - rotation r.addPtr := rfl

theorem unmixByte_mixByte (r : EntropyStore info) (byte : BitVec 8) :
    unmixByte (mixByte r byte) byte = r := by
  apply EntropyStore.ext
  · rw [unmixByte_pool, mixByte_inputRotate, mixByte_addPtr, add_sub_cancel_right, mixByte_pool]
    exact stir_stir (blind_recalled _ _) (recalled_renewed _ _) r.pool
  · rw [unmixByte_addPtr, mixByte_addPtr, sub_add_cancel]
  · rw [unmixByte_inputRotate, mixByte_inputRotate, mixByte_addPtr, add_sub_cancel_right]

theorem mixByte_unmixByte (r : EntropyStore info) (byte : BitVec 8) :
    mixByte (unmixByte r byte) byte = r := by
  apply EntropyStore.ext
  · rw [mixByte_pool, unmixByte_inputRotate, unmixByte_addPtr, add_sub_cancel_right,
      unmixByte_pool]
    exact stir_stir (blind_renewed _ _) (renewed_recalled _ _) r.pool
  · rw [mixByte_addPtr, unmixByte_addPtr, add_sub_cancel_right]
  · rw [mixByte_inputRotate, unmixByte_addPtr, add_sub_cancel_right, unmixByte_inputRotate,
      sub_add_cancel]

/-- A step with its way back. -/
def unmixing (info : PoolInfo) : (mixing info).Reversal where
  back := unmixByte
  back_next := unmixByte_mixByte
  next_back := mixByte_unmixByte

/-- `_mix_pool_bytes` taken back by one who knows the bytes. -/
def unmixPoolBytes (r : EntropyStore info) (bytes : List (BitVec 8)) : EntropyStore info :=
  (unmixing info).unrun r bytes

/-- Knowing the final state and the input, the initial state can be reconstructed, and
every state can be a final one. -/
theorem mixPoolBytes_reversible (r : EntropyStore info) (bytes : List (BitVec 8)) :
    unmixPoolBytes (mixPoolBytes r bytes) bytes = r ∧
      mixPoolBytes (unmixPoolBytes r bytes) bytes = r :=
  ⟨(unmixing info).unrun_run r bytes, (unmixing info).run_unrun r bytes⟩

/-! ## Different bytes -/

theorem rol32_injective (shift : BitVec 5) : Function.Injective fun byte => rol32 byte shift :=
  (rotateLeft_injective shift.toNat).comp (signExtend_injective (by decide))

theorem one_add_ofNat {width : Nat} (k : Nat) :
    BitVec.ofNat width (1 + k) = 1 + BitVec.ofNat width k := BitVec.ofNat_add ..

/-- Less than once around, the place of a byte is not used again. -/
theorem sub_ofNat_ne (place : BitVec info.shift) {k : Nat} (positive : 0 < k)
    (less : k < 2 ^ info.shift) : place ≠ place - BitVec.ofNat _ k := by
  intro same
  have zero : BitVec.ofNat info.shift k = 0 := sub_eq_self.mp same.symm
  have numbers := congrArg BitVec.toNat zero
  rw [BitVec.toNat_ofNat, Nat.mod_eq_of_lt less] at numbers
  exact absurd numbers (Nat.ne_of_gt positive)

/-- Mixing goes down from `addPtr`, one word for each byte, and leaves the other words. -/
theorem mixPoolBytes_untouched (r : EntropyStore info) (bytes : List (BitVec 8))
    {place : BitVec info.shift}
    (apart : forall k, 0 < k → k ≤ bytes.length → place ≠ r.addPtr - BitVec.ofNat _ k) :
    (mixPoolBytes r bytes).pool place = r.pool place := by
  induction bytes generalizing r with
  | nil => rfl
  | cons byte bytes ih =>
      have here : (mixByte r byte).pool place = r.pool place :=
        Function.update_of_ne (apart 1 Nat.one_pos (by simp)) ..
      have later := ih (mixByte r byte) fun k positive inside => by
        rw [mixByte_addPtr, sub_sub, ← one_add_ofNat]
        exact apart (1 + k) (by omega) (by rw [List.length_cons]; omega)
      exact later.trans here

/-- No two inputs of the same length, up to one byte for each word, leave a pool with
the same words. -/
theorem mixPoolBytes_pool_ne (r : EntropyStore info) {first second : List (BitVec 8)}
    (same : first.length = second.length) (short : first.length ≤ info.poolwords)
    (different : first ≠ second) :
    (mixPoolBytes r first).pool ≠ (mixPoolBytes r second).pool := by
  induction first generalizing r second with
  | nil => exact absurd (List.length_eq_zero_iff.mp same.symm).symm different
  | cons byte first ih =>
      rcases List.exists_cons_of_length_eq_add_one same.symm with ⟨other, second, rfl⟩
      have shorter : first.length < info.poolwords := short
      have lengths : first.length = second.length := Nat.succ.inj same
      by_cases equal : byte = other
      · subst equal
        refine ih (mixByte r byte) lengths shorter.le fun tails => different ?_
        rw [tails]
      · -- the word that the first byte leaves stays to the end
        have stays : forall (byte : BitVec 8) (rest : List (BitVec 8)),
            rest.length = first.length →
              (mixPoolBytes r (byte :: rest)).pool (r.addPtr - 1) =
                (mixByte r byte).pool (r.addPtr - 1) := by
          intro byte rest length
          refine mixPoolBytes_untouched (mixByte r byte) rest fun k positive inside => ?_
          exact sub_ofNat_ne _ positive (Nat.lt_of_le_of_lt (length ▸ inside) shorter)
        intro pools
        have words := congrFun pools (r.addPtr - 1)
        rw [stays byte first rfl, stays other second lengths.symm, mixByte_pool, mixByte_pool,
          stir_self, stir_self, renewed, renewed] at words
        have twisted := congrArg untwist words
        rw [untwist_twist, untwist_twist] at twisted
        have rotated : rol32 byte r.inputRotate = rol32 other r.inputRotate :=
          (BitVec.xor_left_inj _).mp ((BitVec.xor_left_inj _).mp twisted)
        exact equal (rol32_injective r.inputRotate rotated)

theorem mixPoolBytes_pool_ne_output :
    (mixPoolBytes (⟨fun _ => 0, 0, 0⟩ : EntropyStore outputInfo) [1, 2, 3]).pool ≠
      (mixPoolBytes (⟨fun _ => 0, 0, 0⟩ : EntropyStore outputInfo) [1, 3, 2]).pool :=
  mixPoolBytes_pool_ne _ rfl (by decide) (by decide)

end Mixing

end Random
end KernelHacking
