import KernelHacking.Foundations.Decimal
import KernelHacking.SyscallHook.Module

namespace KernelHacking
namespace SyscallHook

/-!
# What `foo` keeps of the integers written to it

The head comment of `sysfs.c` says that an integer written to the file can be
read out of it later.  `foo_store` scans its text as an unsigned number of 32
bits and does not look at whether anything was scanned.  A sign stops the scan
before it stores anything, and a longer number is stored by its last 32 bits.
Either way the command is chosen by what is in `foo` afterwards.
-/

def newline : UInt8 := 0x0a

/-- `foo_show`, which prints the variable as an unsigned number. -/
def fooShow (foo : BitVec 32) : List UInt8 :=
  digitText (decimal foo.toNat) ++ [newline]

/-- An error is a negative return value. -/
def Outcome.reportsError : Outcome → Bool
  | .stored ret _ => decide ((ret : Int) < 0)
  | _ => false

/-- The signs that an integer can be written with. -/
inductive Sign where
  | plus
  | minus
  deriving DecidableEq

def Sign.byte : Sign → UInt8
  | .plus => 0x2b
  | .minus => 0x2d

/-- An integer as somebody writes it to `foo`: perhaps a sign, any digits, and
perhaps a newline. -/
structure Written where
  sign : Option Sign
  digits : List (Fin 10)
  nonempty : digits ≠ []
  ended : Bool

namespace Written

def text (w : Written) : List UInt8 :=
  (w.sign.map Sign.byte).toList ++ (digitText w.digits ++ if w.ended then [newline] else [])

def value (w : Written) : Int :=
  if w.sign = some .minus then -(numeral w.digits : Int) else numeral w.digits

end Written

/-- The line that stands for an integer. -/
def printed (n : Int) : List UInt8 :=
  (if n < 0 then [Sign.minus.byte] else []) ++ (digitText (decimal n.natAbs) ++ [newline])

/-- The law for one write: it reports an error and leaves `foo`, or the integer
is read out later; and what runs is chosen by the integer. -/
structure KeepsInteger (k : Kernel) (m : Module) (w : Written) : Prop where
  kept : ((fooStore k m w.text).2.reportsError = true ∧ (fooStore k m w.text).1.foo = m.foo) ∨
    fooShow (fooStore k m w.text).1.foo = printed w.value
  insert : command (fooStore k m w.text).1.foo = .insert ↔ w.value = 1337
  remove : command (fooStore k m w.text).1.foo = .remove ↔ w.value = 1338
  restart : command (fooStore k m w.text).1.foo = .restart ↔ w.value = 666

/-! ## The store -/

/-- What a store leaves in `foo`, and what it runs: the command that `foo` then
holds.  It never reports an error. -/
theorem fooStore_spec (k : Kernel) (m : Module) (text : List UInt8) :
    (fooStore k m text).1.foo = (scanUnsigned text).getD m.foo ∧
      (fooStore k m text).1.toplel =
        (match command (fooStore k m text).1.foo with
          | .insert => (toplelInsert k m.toplel).1
          | .remove => toplelRemove m.toplel
          | _ => m.toplel) ∧
      (fooStore k m text).2 =
        .stored text.length (command (fooStore k m text).1.foo == .restart) := by
  simp only [fooStore]
  cases chosen : command ((scanUnsigned text).getD m.foo) <;>
    simp only [chosen, true_and] <;> rfl

theorem fooStore_no_error (k : Kernel) (m : Module) (text : List UInt8) :
    (fooStore k m text).2.reportsError = false := by
  rw [(fooStore_spec k m text).2.2]
  exact decide_eq_false (Int.not_lt.mpr (Int.natCast_nonneg text.length))

/-! ## Reading an integer back -/

/-- A line is read as one integer only. -/
theorem printed_injective : Function.Injective printed := by
  have digit_ne : forall n rest, digitText (decimal n) ++ [newline] ≠ Sign.minus.byte :: rest := by
    intro n rest same
    cases digits : decimal n with
    | nil => exact decimal_ne_nil n digits
    | cons digit tail =>
        rw [digits] at same
        have first : digitByte digit = Sign.minus.byte := (List.cons.inj same).1
        have isDigit := digitByte_isDigit digit
        rw [first] at isDigit
        cases isDigit
  have magnitude : forall a b : Int, digitText (decimal a.natAbs) ++ [newline] =
      digitText (decimal b.natAbs) ++ [newline] → a.natAbs = b.natAbs := by
    intro a b same
    exact decimal_injective (digitText_injective (List.append_cancel_right same))
  intro a b same
  by_cases left : a < 0 <;> by_cases right : b < 0 <;>
    simp only [printed, left, right, if_true, if_false, List.nil_append, List.singleton_append] at same
  · have size := magnitude a b (List.cons.inj same).2
    omega
  · exact absurd same.symm (digit_ne _ _)
  · exact absurd same (digit_ne _ _)
  · have size := magnitude a b same
    omega

/-- What is shown is the integer exactly when `foo` holds it. -/
theorem fooShow_eq_printed_iff (foo : BitVec 32) (n : Int) :
    fooShow foo = printed n ↔ (foo.toNat : Int) = n := by
  have shown : fooShow foo = printed (foo.toNat : Int) := by
    have nonneg : ¬ (foo.toNat : Int) < 0 := by omega
    rw [printed, if_neg nonneg, Int.natAbs_natCast]
    rfl
  rw [shown]
  exact printed_injective.eq_iff

/-- The switch compares `foo` with the three numbers. -/
theorem command_eq_iff (foo : BitVec 32) :
    (command foo = .insert ↔ foo = 1337) ∧ (command foo = .remove ↔ foo = 1338) ∧
      (command foo = .restart ↔ foo = 666) := by
  unfold command
  by_cases restart : foo = 666
  · subst restart
    decide
  · rw [if_neg restart]
    by_cases insert : foo = 1337
    · subst insert
      decide
    · rw [if_neg insert]
      by_cases remove : foo = 1338
      · subst remove
        decide
      · rw [if_neg remove]
        exact ⟨iff_of_false (by decide) insert, iff_of_false (by decide) remove,
          iff_of_false (by decide) restart⟩

theorem toNat_eq_iff (foo : BitVec 32) {n : Nat} (small : n < 2 ^ 32) :
    foo = BitVec.ofNat 32 n ↔ (foo.toNat : Int) = n := by
  rw [← BitVec.toNat_inj, BitVec.toNat_ofNat, Nat.mod_eq_of_lt small]
  omega

/-- A write keeps its integer exactly when `foo` holds it afterwards. -/
theorem keepsInteger_iff (k : Kernel) (m : Module) (w : Written) :
    KeepsInteger k m w ↔ ((fooStore k m w.text).1.foo.toNat : Int) = w.value := by
  rcases command_eq_iff (fooStore k m w.text).1.foo with ⟨insert, remove, restart⟩
  constructor
  · intro keeps
    rcases keeps.kept with ⟨error, _⟩ | shown
    · rw [fooStore_no_error] at error
      cases error
    · exact (fooShow_eq_printed_iff _ _).mp shown
  · intro held
    refine ⟨Or.inr ((fooShow_eq_printed_iff _ _).mpr held), ?_, ?_, ?_⟩
    · rw [insert, ← held]
      exact toNat_eq_iff _ (by decide)
    · rw [remove, ← held]
      exact toNat_eq_iff _ (by decide)
    · rw [restart, ← held]
      exact toNat_eq_iff _ (by decide)

/-- An unsigned numeral is stored by its last 32 bits. -/
theorem fooStore_unsigned (k : Kernel) (m : Module) {w : Written} (unsigned : w.sign = none) :
    (fooStore k m w.text).1.foo = BitVec.ofNat 32 (numeral w.digits) := by
  have ends : (nulFreePrefix (if w.ended then [newline] else [])).head?.any isDigit = false := by
    cases w.ended <;> decide
  rw [(fooStore_spec k m w.text).1, Written.text, unsigned]
  change (scanUnsigned (digitText w.digits ++ _)).getD m.foo = _
  rw [scanUnsigned_digitText w.nonempty ends]
  rfl

/-- A sign keeps anything from being stored. -/
theorem fooStore_signed (k : Kernel) (m : Module) {w : Written} {sign : Sign}
    (signed : w.sign = some sign) : (fooStore k m w.text).1.foo = m.foo := by
  rw [(fooStore_spec k m w.text).1, Written.text, signed]
  change (scanUnsigned (sign.byte :: _)).getD m.foo = m.foo
  rw [scanUnsigned_none (by cases sign <;> decide) (by cases sign <;> decide)
    (by cases sign <;> decide)]
  rfl

/-- An integer written to `foo` can be read out of it later, and runs what it
stands for, exactly when it is written without a sign and fits into 32 bits, or
is written with a sign and is already there. -/
theorem keepsInteger_iff_fits (k : Kernel) (m : Module) (w : Written) :
    KeepsInteger k m w ↔
      (w.sign = none ∧ numeral w.digits < 2 ^ 32) ∨
        (w.sign ≠ none ∧ (m.foo.toNat : Int) = w.value) := by
  rw [keepsInteger_iff]
  cases signed : w.sign with
  | none =>
      have plain : w.value = (numeral w.digits : Int) := by
        rw [Written.value, if_neg (by rw [signed]; exact fun impossible => by cases impossible)]
      rw [fooStore_unsigned k m signed, plain, BitVec.toNat_ofNat]
      simp only [true_and, ne_eq, not_true_eq_false, false_and, or_false]
      omega
  | some sign =>
      rw [fooStore_signed k m signed]
      simp

/-- Somebody writes a number that is 1337 in its last 32 bits. -/
def overlong : Written where
  sign := none
  digits := [4, 2, 9, 4, 9, 6, 8, 6, 3, 3]
  nonempty := by decide
  ended := true

/-- It installs the hook. -/
theorem overlong_not_kept :
    ¬ KeepsInteger smallKernel (Module.load smallImage CR0_WP smallOpener) overlong := by
  intro keeps
  have runs : command (fooStore smallKernel (Module.load smallImage CR0_WP smallOpener)
      overlong.text).1.foo = .insert := by
    decide
  have value := keeps.insert.mp runs
  revert value
  decide

end SyscallHook
end KernelHacking
