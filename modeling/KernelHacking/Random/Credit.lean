import KernelHacking.Random.Pool
import Mathlib.Tactic.Linarith
import Mathlib.Tactic.Ring

namespace KernelHacking
namespace Random

/-!
# Crediting and debiting a pool

The entropy count of a pool is kept in eighths of a bit.  A credit fills the pool
only in part, the fuller the less, in turns of at most half its size.  What is taken
out of a pool is debited in full.
-/

/-- The count of a full pool. -/
def PoolInfo.poolSize (info : PoolInfo) : Int := info.poolfracbits

/-- `nbits_max` of `credit_entropy_bits_safe`. -/
def nbitsMax : Int := 0xffffffff / 2 ^ (entropyShift + 1)

/-! ## Credit -/

/-- What one turn of `credit_entropy_bits` adds, in the arithmetic of an unsigned int. -/
def gain (info : PoolInfo) (entropyCount anfrac : Int) : Int :=
  (info.poolSize - entropyCount) * anfrac * 3 % 2 ^ 32 / 2 ^ (info.poolbitshift + entropyShift + 2)

theorem poolSize_eq (info : PoolInfo) : info.poolSize = 2 ^ info.shift * 256 := by
  rw [PoolInfo.poolSize, PoolInfo.poolfracbits, PoolInfo.poolwords, entropyShift]
  push_cast
  rfl

theorem poolSize_ge (info : PoolInfo) : 256 ≤ info.poolSize := by
  have words : (0 : Int) < 2 ^ info.shift := Int.pow_pos (by decide)
  have size := poolSize_eq info
  omega

/-- The size that the comment on `ENTROPY_SHIFT` allows. -/
theorem poolSize_le (info : PoolInfo) : info.poolSize ≤ 2 ^ 15 := by
  have narrow := info.narrow
  have few : info.shift ≤ 7 := by
    rw [entropyShift] at narrow
    omega
  have words : (2 : Int) ^ info.shift ≤ 2 ^ 7 := pow_le_pow_right₀ (by decide) few
  have size := poolSize_eq info
  omega

theorem creditShift_eq (info : PoolInfo) :
    (2 : Int) ^ (info.poolbitshift + entropyShift + 2) = 4 * info.poolSize := by
  rw [poolSize_eq, PoolInfo.poolbitshift, entropyShift]
  ring

/-- The loop of `credit_entropy_bits`: the last count and the number of turns. -/
def creditLoop (info : PoolInfo) (entropyCount pnfrac : Int) : Int × Nat :=
  let anfrac := min pnfrac (info.poolSize / 2)
  let entropyCount := entropyCount + gain info entropyCount anfrac
  let rest := pnfrac - anfrac
  if _more : entropyCount < info.poolSize - 2 ∧ rest ≠ 0 then
    let (last, turns) := creditLoop info entropyCount rest
    (last, turns + 1)
  else (entropyCount, 1)
termination_by pnfrac.toNat
decreasing_by
  have size := poolSize_ge info
  omega

/-- `nbits << ENTROPY_SHIFT`, as an int. -/
def fracBits (nbits : Int) : Int := Int.bmod (nbits * 2 ^ entropyShift) (2 ^ 32)

/-- The count that `credit_entropy_bits` comes to before it looks for an overflow. -/
def filled (info : PoolInfo) (nbits entropyCount : Int) : Int :=
  let nfrac := fracBits nbits
  if nfrac < 0 then entropyCount + nfrac else (creditLoop info entropyCount nfrac).1

/-- What `credit_entropy_bits` exchanges for the count that it has read. -/
def credit (info : PoolInfo) (nbits entropyCount : Int) : Int :=
  let entropyCount := filled info nbits entropyCount
  -- with a warning
  if entropyCount < 0 then 0
  else if entropyCount > info.poolSize then info.poolSize
  else entropyCount

/-- `account`, for a pool with `limit`: what it exchanges for the count that it has
read, and how many bytes it grants. -/
def account (nbytes least reserved : Nat) (entropyCount : Int) : Int × Nat :=
  let haveBytes := (entropyCount / 2 ^ (entropyShift + 3) - reserved).toNat
  let ibytes := min nbytes haveBytes
  let ibytes := if ibytes < least then 0 else ibytes
  let entropyCount := if entropyCount < 0 then 0 else entropyCount
  let nfrac : Int := ibytes * 2 ^ (entropyShift + 3)
  (if entropyCount > nfrac then entropyCount - nfrac else 0, ibytes)

section Credit

variable {info : PoolInfo} {entropyCount : Int}

/-- The product does not leave an unsigned int. -/
theorem gain_eq (empty : 0 ≤ entropyCount) (full : entropyCount ≤ info.poolSize) {anfrac : Int}
    (positive : 0 ≤ anfrac) (half : anfrac ≤ info.poolSize / 2) :
    gain info entropyCount anfrac =
      (info.poolSize - entropyCount) * anfrac * 3 / (4 * info.poolSize) := by
  have size := poolSize_le info
  have room : (info.poolSize - entropyCount) * anfrac ≤ 2 ^ 15 * 2 ^ 14 :=
    mul_le_mul (by omega) (by omega) positive (by decide)
  have product : 0 ≤ (info.poolSize - entropyCount) * anfrac := mul_nonneg (by omega) positive
  rw [gain, creditShift_eq, Int.emod_eq_of_lt (by omega) (by omega)]

/-- A turn adds at most three quarters of what it credits, and at most three eighths
of what is missing. -/
theorem gain_bounds (empty : 0 ≤ entropyCount) (full : entropyCount ≤ info.poolSize) {anfrac : Int}
    (positive : 0 ≤ anfrac) (half : anfrac ≤ info.poolSize / 2) :
    0 ≤ gain info entropyCount anfrac ∧ 4 * gain info entropyCount anfrac ≤ 3 * anfrac ∧
      8 * gain info entropyCount anfrac ≤ 3 * (info.poolSize - entropyCount) := by
  have size := poolSize_ge info
  have product : 0 ≤ (info.poolSize - entropyCount) * anfrac := mul_nonneg (by omega) positive
  have divided := Int.ediv_mul_le ((info.poolSize - entropyCount) * anfrac * 3)
    (show 4 * info.poolSize ≠ 0 by omega)
  have positiveSize : 0 < info.poolSize := by omega
  have more : 0 ≤ (info.poolSize - entropyCount) * anfrac * 3 / (4 * info.poolSize) :=
    Int.ediv_nonneg (by omega) (by omega)
  rw [gain_eq empty full positive half]
  generalize (info.poolSize - entropyCount) * anfrac * 3 / (4 * info.poolSize) = added at *
  refine ⟨more, ?_, ?_⟩
  · have less : (info.poolSize - entropyCount) * anfrac ≤ info.poolSize * anfrac :=
      mul_le_mul_of_nonneg_right (by omega) positive
    refine le_of_mul_le_mul_right ?_ positiveSize
    linarith
  · have less : (info.poolSize - entropyCount) * anfrac ≤
        (info.poolSize - entropyCount) * (info.poolSize / 2) :=
      mul_le_mul_of_nonneg_left half (by omega)
    have twice : (info.poolSize - entropyCount) * (info.poolSize / 2 * 2) ≤
        (info.poolSize - entropyCount) * info.poolSize :=
      mul_le_mul_of_nonneg_left (by omega) (by omega)
    refine le_of_mul_le_mul_right ?_ positiveSize
    linarith

/-- The counts that a pool may have. -/
def Counts (info : PoolInfo) (entropyCount : Int) : Prop :=
  0 ≤ entropyCount ∧ entropyCount ≤ info.poolSize

theorem turn_bounds (counts : Counts info entropyCount) {pnfrac : Int} (credit : 0 ≤ pnfrac) :
    Counts info (entropyCount + gain info entropyCount (min pnfrac (info.poolSize / 2))) ∧
      0 ≤ gain info entropyCount (min pnfrac (info.poolSize / 2)) ∧
      4 * gain info entropyCount (min pnfrac (info.poolSize / 2)) ≤
        3 * min pnfrac (info.poolSize / 2) := by
  have size := poolSize_ge info
  have positive : 0 ≤ min pnfrac (info.poolSize / 2) := le_min credit (by omega)
  rcases gain_bounds counts.1 counts.2 positive (min_le_right ..) with ⟨more, quarters, eighths⟩
  have empty := counts.1
  have full := counts.2
  exact ⟨⟨by omega, by omega⟩, more, quarters⟩

/-- The loop does not overfill the pool, and adds at most three quarters of the credit. -/
theorem creditLoop_bounds (counts : Counts info entropyCount) {pnfrac : Int} (credit : 0 ≤ pnfrac) :
    Counts info (creditLoop info entropyCount pnfrac).1 ∧
      entropyCount ≤ (creditLoop info entropyCount pnfrac).1 ∧
      4 * (creditLoop info entropyCount pnfrac).1 ≤ 4 * entropyCount + 3 * pnfrac := by
  fun_induction creditLoop info entropyCount pnfrac with
  | case1 entropyCount pnfrac anfrac next rest more last turns loop ih =>
      rcases turn_bounds counts credit with ⟨inside, added, quarters⟩
      have left : 0 ≤ rest := sub_nonneg.mpr (min_le_left ..)
      rcases ih inside left with ⟨insideLast, addedLast, quartersLast⟩
      rw [loop] at insideLast addedLast quartersLast
      refine ⟨insideLast, ?_, ?_⟩
      · exact le_trans (le_add_of_nonneg_right added) addedLast
      · dsimp only [next, rest, anfrac] at quartersLast ⊢
        linarith
  | case2 entropyCount pnfrac anfrac next rest stop =>
      rcases turn_bounds counts credit with ⟨inside, added, quarters⟩
      have whole : anfrac ≤ pnfrac := min_le_left ..
      refine ⟨inside, le_add_of_nonneg_right added, ?_⟩
      dsimp only [next]
      linarith

/-- A full turn adds three eighths of what is missing. -/
theorem gain_half (counts : Counts info entropyCount) :
    gain info entropyCount (info.poolSize / 2) = 3 * (info.poolSize - entropyCount) / 8 := by
  have size := poolSize_ge info
  have words := poolSize_eq info
  have whole : info.poolSize / 2 = 2 ^ info.shift * 128 := by omega
  have positive : 0 < info.poolSize / 2 := by omega
  have numerator : (info.poolSize - entropyCount) * (info.poolSize / 2) * 3 =
      3 * (info.poolSize - entropyCount) * (info.poolSize / 2) := by ring
  have denominator : 4 * info.poolSize = 8 * (info.poolSize / 2) := by omega
  rw [gain_eq counts.1 counts.2 (by omega) le_rfl, numerator, denominator,
    Int.mul_ediv_mul_of_pos_left _ _ positive]

/-- A turn of the loop. -/
theorem creditLoop_turns (info : PoolInfo) (entropyCount pnfrac : Int) :
    (creditLoop info entropyCount pnfrac).2 = 1 ∨
      entropyCount + gain info entropyCount (info.poolSize / 2) < info.poolSize - 2 ∧
        (creditLoop info entropyCount pnfrac).2 =
          (creditLoop info (entropyCount + gain info entropyCount (info.poolSize / 2))
            (pnfrac - info.poolSize / 2)).2 + 1 := by
  rw [creditLoop]
  dsimp only
  split_ifs with more
  · right
    have full : min pnfrac (info.poolSize / 2) = info.poolSize / 2 := by
      have rest := more.2
      omega
    rw [full] at more ⊢
    exact ⟨more.1, rfl⟩
  · exact Or.inl rfl

/-- A credit takes at most two turns for each time that two goes into the missing
entropy, no matter how large it is. -/
theorem turns_le {exponent : Nat} (counts : Counts info entropyCount)
    (missing : info.poolSize - entropyCount ≤ 2 ^ (exponent + 1)) (pnfrac : Int) :
    (creditLoop info entropyCount pnfrac).2 ≤ 2 * (exponent + 1) := by
  -- a full turn stays inside the pool
  have inside : forall {entropyCount : Int}, Counts info entropyCount →
      Counts info (entropyCount + gain info entropyCount (info.poolSize / 2)) := by
    intro entropyCount counts
    rw [gain_half counts]
    rcases counts with ⟨empty, full⟩
    exact ⟨by omega, by omega⟩
  induction exponent generalizing entropyCount pnfrac with
  | zero =>
      rcases creditLoop_turns info entropyCount pnfrac with one | ⟨more, _⟩
      · omega
      · rw [gain_half counts] at more
        have full := counts.2
        omega
  | succ exponent ih =>
      rcases creditLoop_turns info entropyCount pnfrac with one | ⟨more, turns⟩
      · omega
      · have first := inside counts
        generalize added : entropyCount + gain info entropyCount (info.poolSize / 2) = next
          at more turns first
        rw [gain_half counts] at added
        rcases creditLoop_turns info next (pnfrac - info.poolSize / 2) with one | ⟨again, rest⟩
        · omega
        · have second := inside first
          generalize addedAgain : next + gain info next (info.poolSize / 2) = last
            at again rest second
          rw [gain_half first] at addedAgain
          have halved : info.poolSize - last ≤ 2 ^ (exponent + 1) := by
            have two : (2 : Int) ^ (exponent + 1 + 1) = 2 * 2 ^ (exponent + 1) := by ring
            have some : (2 : Int) ^ 1 ≤ 2 ^ (exponent + 1) :=
              pow_le_pow_right₀ (by decide) (by omega)
            have full := counts.2
            omega
          have later := ih second halved (pnfrac - info.poolSize / 2 - info.poolSize / 2)
          omega

/-- The loop is limited to `log2(pool_size)*2` turns, whatever is credited. -/
theorem creditLoop_turns_le (counts : Counts info entropyCount) (pnfrac : Int) :
    (creditLoop info entropyCount pnfrac).2 ≤ Nat.log2 info.poolfracbits * 2 := by
  have bits : info.poolfracbits = 2 ^ (info.shift + 7 + 1) := by
    rw [PoolInfo.poolfracbits, PoolInfo.poolwords, entropyShift, ← Nat.pow_add]
  have missing : info.poolSize - entropyCount ≤ 2 ^ (info.shift + 7 + 1) := by
    have size : info.poolSize = 2 ^ (info.shift + 7 + 1) := by
      rw [PoolInfo.poolSize, bits]
      push_cast
      rfl
    have empty := counts.1
    omega
  rw [bits, Nat.log2_two_pow, Nat.mul_comm]
  exact turns_le counts missing pnfrac

theorem counts_zero (info : PoolInfo) : Counts info 0 :=
  ⟨le_rfl, le_trans (by decide) (poolSize_ge info)⟩

theorem creditLoop_turns_le_empty :
    (creditLoop inputInfo 0 (8 * nbitsMax)).2 ≤ Nat.log2 inputInfo.poolfracbits * 2 :=
  creditLoop_turns_le (counts_zero inputInfo) (8 * nbitsMax)

/-- What the callers of `credit_entropy_bits` may ask for. -/
def Creditable (nbits : Int) : Prop := 0 ≤ nbits ∧ nbits ≤ nbitsMax

theorem fracBits_eq {nbits : Int} (creditable : Creditable nbits) : fracBits nbits = 8 * nbits := by
  rcases creditable with ⟨positive, few⟩
  have bound : nbitsMax = 268435455 := rfl
  rw [fracBits, entropyShift, Int.bmod_eq_of_le (by omega) (by omega)]
  omega

/-- A credit stays inside the pool by itself, and adds at most three quarters of the
bits. -/
theorem filled_bounds (counts : Counts info entropyCount) {nbits : Int}
    (creditable : Creditable nbits) :
    Counts info (filled info nbits entropyCount) ∧
      filled info nbits entropyCount ≤ entropyCount + 6 * nbits := by
  have positive : 0 ≤ 8 * nbits := by
    have bits := creditable.1
    omega
  rcases creditLoop_bounds counts positive with ⟨inside, added, quarters⟩
  rw [filled, fracBits_eq creditable, if_neg (not_lt.mpr positive)]
  exact ⟨inside, by omega⟩

/-- The clamps at both ends of the pool do nothing. -/
theorem credit_eq_filled (counts : Counts info entropyCount) {nbits : Int}
    (creditable : Creditable nbits) :
    credit info nbits entropyCount = filled info nbits entropyCount := by
  rcases (filled_bounds counts creditable).1 with ⟨empty, full⟩
  rw [credit, if_neg (not_lt.mpr empty), if_neg (not_lt.mpr full)]

theorem credit_bounds (counts : Counts info entropyCount) {nbits : Int}
    (creditable : Creditable nbits) :
    Counts info (credit info nbits entropyCount) ∧
      credit info nbits entropyCount ≤ entropyCount + 6 * nbits := by
  rw [credit_eq_filled counts creditable]
  exact filled_bounds counts creditable

/-- A debit takes what it grants and not more than there is. -/
theorem account_bounds (nbytes least reserved : Nat) (empty : 0 ≤ entropyCount) :
    (account nbytes least reserved entropyCount).1 =
        entropyCount - 64 * (account nbytes least reserved entropyCount).2 ∧
      0 ≤ (account nbytes least reserved entropyCount).1 ∧
      (account nbytes least reserved entropyCount).2 ≤ nbytes := by
  unfold account entropyShift
  rw [if_neg (not_lt.mpr empty)]
  dsimp only
  split_ifs <;> omega

end Credit

end Random
end KernelHacking
