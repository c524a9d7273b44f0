import KernelHacking.Foundations.Machine
import Mathlib.Logic.Function.Basic
import Mathlib.Tactic.SplitIfs

namespace KernelHacking

universe u v w

/-!
# Steps that can be taken back

A machine loses nothing of its state when each of its steps can be taken back by
one who knows the operation.  Two kinds of step are of this kind: giving one cell
of a table a new content by a permutation that the other cells choose, and
shifting a register that feeds the bit it drops back into its top place.
-/

namespace Machine

variable {State : Type u} {Op : Type v} {Out : Type w}

/-- A way back from every step of a machine, and forth again. -/
structure Reversal (m : Machine State Op Out) where
  back : State → Op → State
  back_next : forall s op, back (m.next s op) op = s
  next_back : forall s op, m.next (back s op) op = s

namespace Reversal

variable {m : Machine State Op Out} (r : m.Reversal)

/-- The way back from a whole run. -/
def unrun : State → List Op → State
  | s, [] => s
  | s, op :: ops => r.back (unrun s ops) op

theorem unrun_run (s : State) (ops : List Op) : r.unrun (m.run s ops) ops = s := by
  induction ops generalizing s with
  | nil => rfl
  | cons op ops ih =>
      rw [run_cons, unrun, ih]
      exact r.back_next s op

theorem run_unrun (s : State) (ops : List Op) : m.run (r.unrun s ops) ops = s := by
  induction ops generalizing s with
  | nil => rfl
  | cons op ops ih =>
      rw [unrun, run_cons, r.next_back]
      exact ih s

end Reversal
end Machine

/-! ## Tables -/

section Tables

variable {Index : Type u} {Value : Type v} [DecidableEq Index]

/-- A cell gets a new content, by a rule that may look at the table. -/
def stir (renew : (Index → Value) → Value → Value) (index : Index) (cells : Index → Value) :
    Index → Value :=
  Function.update cells index (renew cells (cells index))

/-- A rule that does not look at the cell that it is for. -/
def Blind (renew : (Index → Value) → Value → Value) (index : Index) : Prop :=
  forall cells content, renew (Function.update cells index content) = renew cells

@[simp] theorem stir_self (renew : (Index → Value) → Value → Value) (index : Index)
    (cells : Index → Value) : stir renew index cells index = renew cells (cells index) :=
  Function.update_self ..

/-- A second rule takes the first back when it does so for each content of the cell. -/
theorem stir_stir {renew undo : (Index → Value) → Value → Value} {index : Index}
    (blind : Blind undo index)
    (undoes : forall cells content, undo cells (renew cells content) = content)
    (cells : Index → Value) : stir undo index (stir renew index cells) = cells := by
  have same : undo (stir renew index cells) = undo cells := blind cells _
  rw [stir, same, stir_self, undoes, stir, Function.update_idem, Function.update_eq_self]

end Tables

/-! ## Registers with feedback -/

section Registers

variable {width : Nat}

/-- The register moves down by one place.  A one that it drops comes back in the places of
`poly`. -/
def feedback (poly register : BitVec width) : BitVec width :=
  if register.getLsbD 0 then (register >>> 1) ^^^ poly else register >>> 1

/-- When `poly` has a one in its top place, that place tells what was dropped. -/
def unfeedback (poly register : BitVec width) : BitVec width :=
  if register.msb then ((register ^^^ poly) <<< 1) ||| BitVec.ofNat width 1 else register <<< 1

theorem shiftRight_shiftLeft_one {register : BitVec width} (dropped : register.getLsbD 0 = false) :
    (register >>> 1) <<< 1 = register := by
  apply BitVec.eq_of_getLsbD_eq
  intro place inside
  cases place with
  | zero => simp [dropped]
  | succ place => simp [inside, Nat.add_comm 1 place]

theorem shiftRight_shiftLeft_one_or {register : BitVec width} (dropped : register.getLsbD 0 = true) :
    (register >>> 1) <<< 1 ||| BitVec.ofNat width 1 = register := by
  apply BitVec.eq_of_getLsbD_eq
  intro place inside
  cases place with
  | zero => simp [dropped, inside]
  | succ place => simp [inside, Nat.add_comm 1 place]

theorem unfeedback_feedback {poly : BitVec width} (top : poly.msb = true)
    (register : BitVec width) : unfeedback poly (feedback poly register) = register := by
  have positive : 0 < width := by
    rcases Nat.eq_zero_or_pos width with rfl | positive
    · exact absurd top (by simp [BitVec.eq_nil poly])
    · exact positive
  have empty : (register >>> 1).msb = false := by
    rw [BitVec.msb_eq_getLsbD_last, BitVec.getLsbD_ushiftRight]
    exact BitVec.getLsbD_of_ge _ _ (by omega)
  rw [feedback, unfeedback]
  cases dropped : register.getLsbD 0 with
  | false =>
      rw [if_neg Bool.false_ne_true, empty, if_neg Bool.false_ne_true]
      exact shiftRight_shiftLeft_one dropped
  | true =>
      rw [if_pos rfl, BitVec.msb_xor, empty, top, Bool.false_xor, if_pos rfl, BitVec.xor_assoc,
        BitVec.xor_self, BitVec.xor_zero]
      exact shiftRight_shiftLeft_one_or dropped

theorem feedback_unfeedback {poly : BitVec width} (top : poly.msb = true)
    (register : BitVec width) : feedback poly (unfeedback poly register) = register := by
  have positive : 0 < width := by
    rcases Nat.eq_zero_or_pos width with rfl | positive
    · exact absurd top (by simp [BitVec.eq_nil poly])
    · exact positive
  -- a register whose top place is empty comes back when it has moved up and down
  have lifted : forall {low : BitVec width}, low.msb = false → (low <<< 1) >>> 1 = low := by
    intro low empty
    apply BitVec.eq_of_getLsbD_eq
    intro place inside
    rw [BitVec.getLsbD_ushiftRight, BitVec.getLsbD_shiftLeft]
    by_cases last : place = width - 1
    · subst last
      rw [BitVec.msb_eq_getLsbD_last] at empty
      simp [empty, Nat.add_sub_of_le positive]
    · have room : 1 + place < width := by omega
      simp [room]
  have one : (BitVec.ofNat width 1) >>> 1 = BitVec.ofNat width 0 := by
    apply BitVec.eq_of_getLsbD_eq
    intro place inside
    simp
  rw [unfeedback]
  cases top' : register.msb with
  | false =>
      rw [if_neg Bool.false_ne_true, feedback, if_neg (by simp), lifted top']
  | true =>
      have empty : (register ^^^ poly).msb = false := by
        rw [BitVec.msb_xor, top', top]
        rfl
      have dropped : ((register ^^^ poly) <<< 1 ||| BitVec.ofNat width 1).getLsbD 0 = true := by
        simp [positive]
      rw [if_pos rfl, feedback, if_pos dropped, BitVec.ushiftRight_or_distrib, lifted empty, one,
        BitVec.or_zero, BitVec.xor_assoc, BitVec.xor_self, BitVec.xor_zero]

/-- The feedback of two registers does not mix. -/
theorem feedback_xor (poly first second : BitVec width) :
    feedback poly (first ^^^ second) = feedback poly first ^^^ feedback poly second := by
  have cancel : poly ^^^ ((second >>> 1) ^^^ poly) = second >>> 1 := by
    rw [BitVec.xor_comm, BitVec.xor_assoc, BitVec.xor_self, BitVec.xor_zero]
  rw [feedback, feedback, feedback, BitVec.getLsbD_xor, BitVec.ushiftRight_xor_distrib]
  cases first.getLsbD 0 with
  | false =>
      cases second.getLsbD 0 with
      | false => rfl
      | true => exact BitVec.xor_assoc ..
  | true =>
      cases second.getLsbD 0 with
      | false =>
          change _ ^^^ _ ^^^ poly = _ ^^^ poly ^^^ (second >>> 1)
          rw [BitVec.xor_assoc, BitVec.xor_comm (second >>> 1), BitVec.xor_assoc]
      | true =>
          change _ ^^^ _ = _ ^^^ poly ^^^ (_ ^^^ poly)
          rw [BitVec.xor_assoc, cancel]

theorem rotateRight_rotateLeft (register : BitVec width) (count : Nat) :
    (register.rotateLeft count).rotateRight count = register := by
  apply BitVec.eq_of_getLsbD_eq
  intro place inside
  have less : count % width < width := Nat.mod_lt _ (by omega)
  rw [BitVec.getLsbD_rotateRight, Bool.cond_decide]
  split_ifs with low
  · have after : ¬ count % width + place < count % width := by omega
    have room : count % width + place < width := by omega
    rw [BitVec.getLsbD_rotateLeft, Bool.cond_decide, if_neg after, decide_eq_true room,
      Bool.true_and, Nat.add_sub_cancel_left]
  · have before : place - (width - count % width) < count % width := by omega
    have back : width - count % width + (place - (width - count % width)) = place := by omega
    rw [decide_eq_true inside, Bool.true_and, BitVec.getLsbD_rotateLeft, Bool.cond_decide,
      if_pos before, back]

theorem rotateLeft_injective (count : Nat) :
    Function.Injective fun register : BitVec width => register.rotateLeft count :=
  Function.LeftInverse.injective (g := fun register => register.rotateRight count)
    fun register => rotateRight_rotateLeft register count

theorem signExtend_injective {longer : Nat} (wider : width ≤ longer) :
    Function.Injective fun register : BitVec width => register.signExtend longer := by
  intro first second same
  apply BitVec.eq_of_getLsbD_eq
  intro place inside
  have bits := congrArg (fun register => BitVec.getLsbD register place) same
  have room : place < longer := Nat.lt_of_lt_of_le inside wider
  simp only [BitVec.getLsbD_signExtend, inside, room, decide_true, Bool.true_and, if_true] at bits
  exact bits

/-- Several places at a time. -/
def feedbacks (poly : BitVec width) : Nat → BitVec width → BitVec width
  | 0, register => register
  | count + 1, register => feedback poly (feedbacks poly count register)

theorem feedbacks_xor (poly : BitVec width) (count : Nat) (first second : BitVec width) :
    feedbacks poly count (first ^^^ second) =
      feedbacks poly count first ^^^ feedbacks poly count second := by
  induction count with
  | zero => rfl
  | succ count ih => rw [feedbacks, ih, feedback_xor, feedbacks, feedbacks]

/-- Zeros that are dropped feed nothing back. -/
theorem feedbacks_of_low_zero {poly register : BitVec width} {count : Nat}
    (zero : forall place, place < count → register.getLsbD place = false) :
    feedbacks poly count register = register >>> count := by
  induction count with
  | zero => exact (BitVec.ushiftRight_zero _).symm
  | succ count ih =>
      have dropped : (register >>> count).getLsbD 0 = false := by
        rw [BitVec.getLsbD_ushiftRight]
        exact zero _ (Nat.lt_succ_self count)
      rw [feedbacks, ih fun place inside => zero place (Nat.lt_succ_of_lt inside), feedback,
        dropped, if_neg Bool.false_ne_true, ← BitVec.shiftRight_add]

/-- The way back by several places. -/
def unfeedbacks (poly : BitVec width) : Nat → BitVec width → BitVec width
  | 0, register => register
  | count + 1, register => unfeedbacks poly count (unfeedback poly register)

theorem unfeedbacks_feedbacks {poly : BitVec width} (top : poly.msb = true) (count : Nat)
    (register : BitVec width) :
    unfeedbacks poly count (feedbacks poly count register) = register := by
  induction count with
  | zero => rfl
  | succ count ih => rw [feedbacks, unfeedbacks, unfeedback_feedback top, ih]

theorem feedbacks_unfeedbacks {poly : BitVec width} (top : poly.msb = true) (count : Nat)
    (register : BitVec width) :
    feedbacks poly count (unfeedbacks poly count register) = register := by
  induction count generalizing register with
  | zero => rfl
  | succ count ih => rw [unfeedbacks, feedbacks, ih, feedback_unfeedback top]

end Registers
end KernelHacking
