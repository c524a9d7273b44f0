import KernelHacking.Foundations.CString
import Mathlib.Data.BitVec

namespace KernelHacking

/-!
# Decimal numbers in text

A numeral is a list of decimal digits, written with the most significant one
first.  Leading zeros are allowed when a numeral is read, and every number is
printed by the one numeral without them.  The scanner of `sscanf` works modulo
its register width, so that it agrees with the value of a numeral only as far
as that fits.
-/

/-- The value of a numeral. -/
def numeral (digits : List (Fin 10)) : Nat :=
  digits.foldl (fun value digit => value * 10 + digit.val) 0

theorem numeral_concat (digits : List (Fin 10)) (digit : Fin 10) :
    numeral (digits ++ [digit]) = numeral digits * 10 + digit.val := by
  rw [numeral, List.foldl_append]
  rfl

/-- The numeral of a number without leading zeros. -/
def decimal (n : Nat) : List (Fin 10) :=
  if small : n < 10 then [⟨n, small⟩]
  else decimal (n / 10) ++ [⟨n % 10, Nat.mod_lt n (by decide)⟩]

@[simp] theorem numeral_decimal (n : Nat) : numeral (decimal n) = n := by
  induction n using Nat.strong_induction_on with
  | _ n ih =>
      rw [decimal]
      by_cases small : n < 10
      · rw [dif_pos small, numeral]
        exact Nat.zero_add n
      · have less : n / 10 < n := Nat.div_lt_self (by omega) (by decide)
        rw [dif_neg small, numeral_concat, ih (n / 10) less]
        exact Nat.div_add_mod' n 10

theorem decimal_injective : Function.Injective decimal :=
  Function.LeftInverse.injective numeral_decimal

theorem decimal_ne_nil (n : Nat) : decimal n ≠ [] := by
  rw [decimal]
  by_cases small : n < 10
  · rw [dif_pos small]
    exact List.cons_ne_nil _ _
  · rw [dif_neg small]
    exact List.append_ne_nil_of_right_ne_nil _ (List.cons_ne_nil _ _)

/-! ## Digits as characters -/

def digitByte (digit : Fin 10) : UInt8 := UInt8.ofNat (48 + digit.val)

/-- The digits of a numeral as text. -/
def digitText (digits : List (Fin 10)) : List UInt8 := digits.map digitByte

theorem digitByte_isDigit (digit : Fin 10) : isDigit (digitByte digit) = true := by
  revert digit
  decide

theorem digitByte_not_space (digit : Fin 10) : isSpace (digitByte digit) = false := by
  revert digit
  decide

theorem digitByte_ne_zero (digit : Fin 10) : digitByte digit ≠ 0 := by
  revert digit
  decide

theorem digitByte_value (digit : Fin 10) : (digitByte digit).toNat - 48 = digit.val := by
  revert digit
  decide

theorem digitByte_injective : Function.Injective digitByte := by
  intro first second same
  apply Fin.ext
  rw [← digitByte_value first, ← digitByte_value second, same]

theorem digitText_injective : Function.Injective digitText :=
  List.map_injective_iff.mpr digitByte_injective

/-! ## Scanning a numeral -/

/-- The register of the scanner holds the value of a numeral up to its width. -/
theorem simpleStrtoul_digitText (digits : List (Fin 10)) {rest : List UInt8}
    (ends : rest.head?.any isDigit = false) :
    simpleStrtoul (digitText digits ++ rest) = BitVec.ofNat 64 (numeral digits) := by
  have scanned : (digitText digits ++ rest).takeWhile isDigit = digitText digits := by
    have stops : rest.takeWhile isDigit = [] := by
      cases rest with
      | nil => rfl
      | cons byte tail =>
          rw [List.takeWhile_cons, if_neg (by simpa using ends)]
    rw [List.takeWhile_append_of_pos, stops, List.append_nil]
    intro byte member
    rcases List.mem_map.mp member with ⟨digit, _, same⟩
    exact same ▸ digitByte_isDigit digit
  rw [simpleStrtoul, scanned]
  clear scanned
  induction digits using List.reverseRecOn with
  | nil => rfl
  | append_singleton digits digit ih =>
      have split : digitText (digits ++ [digit]) = digitText digits ++ [digitByte digit] :=
        List.map_append ..
      rw [split, List.foldl_append, ih, numeral_concat]
      simp only [List.foldl_cons, List.foldl_nil, digitByte_value]
      rw [BitVec.ofNat_add, BitVec.ofNat_mul]
      rfl

/-- A numeral at the start of a text is stored modulo the width of the number. -/
theorem scanUnsigned_digitText {digits : List (Fin 10)} (nonempty : digits ≠ []) {rest : List UInt8}
    (ends : (nulFreePrefix rest).head?.any isDigit = false) :
    scanUnsigned (digitText digits ++ rest) = some (BitVec.ofNat 32 (numeral digits)) := by
  have kept : nulFreePrefix (digitText digits ++ rest) = digitText digits ++ nulFreePrefix rest := by
    apply nulFreePrefix_append
    intro member
    rcases List.mem_map.mp member with ⟨digit, _, same⟩
    exact digitByte_ne_zero digit same
  cases digits with
  | nil => exact absurd rfl nonempty
  | cons digit digits =>
      have first : (digitText (digit :: digits) ++ nulFreePrefix rest).dropWhile isSpace =
          digitText (digit :: digits) ++ nulFreePrefix rest := by
        change (digitByte digit :: (digitText digits ++ nulFreePrefix rest)).dropWhile isSpace = _
        rw [List.dropWhile_cons, if_neg (by rw [digitByte_not_space]; exact Bool.false_ne_true)]
        rfl
      have headed : (digitText (digit :: digits) ++ nulFreePrefix rest).head?.any isDigit = true :=
        digitByte_isDigit digit
      simp only [scanUnsigned, kept, first, headed, if_true]
      rw [simpleStrtoul_digitText (digit :: digits) ends]
      apply congrArg some
      apply BitVec.eq_of_toNat_eq
      simp only [BitVec.toNat_setWidth, BitVec.toNat_ofNat]
      omega

/-- Nothing is stored when the text begins with neither space nor digit. -/
theorem scanUnsigned_none {byte : UInt8} {rest : List UInt8} (printed : byte ≠ 0)
    (noSpace : isSpace byte = false) (noDigit : isDigit byte = false) :
    scanUnsigned (byte :: rest) = none := by
  have kept := nulFreePrefix_cons printed rest
  have first : (byte :: nulFreePrefix rest).dropWhile isSpace = byte :: nulFreePrefix rest := by
    rw [List.dropWhile_cons, if_neg (by rw [noSpace]; exact Bool.false_ne_true)]
  simp only [scanUnsigned, kept, first, List.head?_cons, Option.any_some, noDigit, Bool.false_eq_true,
    if_false]

end KernelHacking
