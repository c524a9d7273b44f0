import KernelHacking.Random.Credit
import Mathlib.Algebra.BigOperators.Group.List.Basic

namespace KernelHacking
namespace Random

/-!
# Entropy from the times of events

The time of an event is compared with those of the events before it.  The bits that
it is credited with come from the least of its first three differences, so that
events at predictable times are worth nothing.
-/

namespace Timer

structure TimerRandState where
  lastTime : BitVec 64
  lastDelta : BitVec 64
  lastDelta2 : BitVec 64
  dontCountEntropy : Bool
deriving DecidableEq, Repr

/-- `if (delta < 0) delta = -delta`. -/
def absolute (delta : BitVec 64) : BitVec 64 := if delta.slt 0 then -delta else delta

/-- `if (delta > other) delta = other`. -/
def least (delta other : BitVec 64) : BitVec 64 := if other.slt delta then other else delta

/-- The place of the last bit that is set, from one on. -/
def fls (x : BitVec 32) : Nat := if x = 0 then 0 else Nat.log2 x.toNat + 1

/-- `min_t(int, fls(delta>>1), 11)`, for the least of three differences. -/
def estimate (delta delta2 delta3 : BitVec 64) : Nat :=
  let delta := least (least (absolute delta) (absolute delta2)) (absolute delta3)
  min (fls ((delta.sshiftRight 1).setWidth 32)) 11

/-- `add_timer_randomness` at the given `jiffies`, with the bits that it credits. -/
def addTimerRandomness (state : TimerRandState) (jiffies : BitVec 64) : TimerRandState × Nat :=
  if state.dontCountEntropy then (state, 0)
  else
    let delta := jiffies - state.lastTime
    let delta2 := delta - state.lastDelta
    let delta3 := delta2 - state.lastDelta2
    ({ state with lastTime := jiffies, lastDelta := delta, lastDelta2 := delta2 },
      estimate delta delta2 delta3)

def timer : Machine TimerRandState (BitVec 64) Nat where
  step := addTimerRandomness

/-! ## What an event is worth -/

theorem estimate_le (delta delta2 delta3 : BitVec 64) : estimate delta delta2 delta3 ≤ 11 :=
  min_le_right ..

/-- What `add_timer_randomness` credits is in the range of `credit_entropy_bits`. -/
theorem creditable_estimate (delta delta2 delta3 : BitVec 64) :
    Creditable (estimate delta delta2 delta3 : Nat) := by
  have few := estimate_le delta delta2 delta3
  have bound : nbitsMax = 268435455 := rfl
  exact ⟨by omega, by omega⟩

/-- The absolute value of the smallest number is itself. -/
theorem absolute_cases (delta : BitVec 64) :
    (absolute delta).slt 0 = false ∨ absolute delta = BitVec.intMin 64 := by
  unfold absolute
  split_ifs with negative
  · by_cases smallest : delta = BitVec.intMin 64
    · exact Or.inr (smallest ▸ BitVec.neg_intMin)
    · have below : delta.toInt < 0 := BitVec.slt_iff_toInt_lt.mp negative
      have flipped : (-delta).toInt = -delta.toInt := BitVec.toInt_neg_of_ne_intMin smallest
      refine Or.inl (Bool.eq_false_iff.mpr fun still => ?_)
      have under : (-delta).toInt < 0 := BitVec.slt_iff_toInt_lt.mp still
      omega
  · exact Or.inl (Bool.eq_false_iff.mpr negative)

theorem least_cases (delta other : BitVec 64) :
    least delta other = delta ∨ least delta other = other := by
  unfold least
  split_ifs
  · exact Or.inr rfl
  · exact Or.inl rfl

/-- An event whose third difference vanishes is worth nothing. -/
theorem estimate_zero (delta delta2 : BitVec 64) : estimate delta delta2 0 = 0 := by
  have candidate : (least (absolute delta) (absolute delta2)).slt 0 = false ∨
      least (absolute delta) (absolute delta2) = BitVec.intMin 64 := by
    rcases least_cases (absolute delta) (absolute delta2) with first | second
    · rw [first]
      exact absolute_cases delta
    · rw [second]
      exact absolute_cases delta2
  unfold estimate
  generalize least (absolute delta) (absolute delta2) = x at candidate ⊢
  have worthless : least x (absolute 0) = 0 ∨ least x (absolute 0) = BitVec.intMin 64 := by
    change (if (0 : BitVec 64).slt x then 0 else x) = 0 ∨
      (if (0 : BitVec 64).slt x then 0 else x) = BitVec.intMin 64
    split_ifs with above
    · exact Or.inl rfl
    · rcases candidate with nonneg | smallest
      · left
        apply BitVec.eq_of_toInt_eq
        rw [BitVec.slt_iff_toInt_lt] at above
        have under : ¬ x.toInt < (0 : BitVec 64).toInt := fun less =>
          absurd (BitVec.slt_iff_toInt_lt.mpr less) (Bool.eq_false_iff.mp nonneg)
        omega
      · exact Or.inr smallest
  rcases worthless with none | smallest
  · rw [none]
    rfl
  · rw [smallest]
    rfl

/-- The third difference of the times vanishes. -/
def Regular : List (BitVec 64) → Prop
  | t0 :: t1 :: t2 :: t3 :: rest =>
      t3 - t2 - (t2 - t1) - (t2 - t1 - (t1 - t0)) = 0 ∧ Regular (t1 :: t2 :: t3 :: rest)
  | _ => True

instance decidableRegular : (times : List (BitVec 64)) → Decidable (Regular times)
  | t0 :: t1 :: t2 :: t3 :: rest =>
      let _ := decidableRegular (t1 :: t2 :: t3 :: rest)
      inferInstanceAs (Decidable (t3 - t2 - (t2 - t1) - (t2 - t1 - (t1 - t0)) = 0 ∧
        Regular (t1 :: t2 :: t3 :: rest)))
  | [] | [_] | [_, _] | [_, _, _] => isTrue trivial

/-- The state has seen three events. -/
structure Seen (state : TimerRandState) (t0 t1 t2 : BitVec 64) : Prop where
  counts : state.dontCountEntropy = false
  lastTime : state.lastTime = t2
  lastDelta : state.lastDelta = t2 - t1
  lastDelta2 : state.lastDelta2 = t2 - t1 - (t1 - t0)

theorem Seen.next {state : TimerRandState} {t0 t1 t2 : BitVec 64} (seen : Seen state t0 t1 t2)
    (t3 : BitVec 64) :
    Seen (timer.next state t3) t1 t2 t3 ∧
      timer.out state t3 = estimate (t3 - t2) (t3 - t2 - (t2 - t1))
        (t3 - t2 - (t2 - t1) - (t2 - t1 - (t1 - t0))) := by
  have step : timer.step state t3 =
      ({ state with
          lastTime := t3
          lastDelta := t3 - t2
          lastDelta2 := t3 - t2 - (t2 - t1) },
        estimate (t3 - t2) (t3 - t2 - (t2 - t1)) (t3 - t2 - (t2 - t1) - (t2 - t1 - (t1 - t0)))) := by
    change addTimerRandomness state t3 = _
    rw [addTimerRandomness, seen.counts, if_neg Bool.false_ne_true, seen.lastTime, seen.lastDelta,
      seen.lastDelta2]
  rw [Machine.next, Machine.out, step]
  exact ⟨⟨seen.counts, rfl, rfl, rfl⟩, rfl⟩

/-- After three events, regular times are worth nothing. -/
theorem Seen.trace_sum {state : TimerRandState} {t0 t1 t2 : BitVec 64} (seen : Seen state t0 t1 t2)
    {times : List (BitVec 64)} (regular : Regular (t0 :: t1 :: t2 :: times)) :
    (timer.trace state times).sum = 0 := by
  induction times generalizing state t0 t1 t2 with
  | nil => rfl
  | cons t3 times ih =>
      rcases seen.next t3 with ⟨next, out⟩
      rw [regular.1, estimate_zero] at out
      rw [Machine.trace_cons, List.sum_cons, out, ih next regular.2]

theorem out_le (state : TimerRandState) (time : BitVec 64) : timer.out state time ≤ 11 := by
  change (addTimerRandomness state time).2 ≤ 11
  rw [addTimerRandomness]
  split_ifs
  · exact Nat.zero_le 11
  · exact estimate_le ..

/-- What an event leaves of the state. -/
def TimerRandState.after (state : TimerRandState) (time : BitVec 64) : TimerRandState :=
  { state with
    lastTime := time
    lastDelta := time - state.lastTime
    lastDelta2 := time - state.lastTime - state.lastDelta }

theorem next_eq {state : TimerRandState} (counts : state.dontCountEntropy = false)
    (time : BitVec 64) : timer.next state time = state.after time := by
  change (addTimerRandomness state time).1 = _
  rw [addTimerRandomness, counts, if_neg Bool.false_ne_true, TimerRandState.after, counts]

theorem seen_run {state : TimerRandState} (counts : state.dontCountEntropy = false)
    (t0 t1 t2 : BitVec 64) : Seen (timer.run state [t0, t1, t2]) t0 t1 t2 := by
  have first : (state.after t0).dontCountEntropy = false := counts
  have second : ((state.after t0).after t1).dontCountEntropy = false := counts
  rw [Machine.run_cons, Machine.run_cons, Machine.run_cons, Machine.run_nil, next_eq counts,
    next_eq first, next_eq second]
  exact ⟨counts, rfl, rfl, rfl⟩

/-- A state whose events are not counted is not changed, and nothing is credited. -/
theorem uncounted_sum {state : TimerRandState} (uncounted : state.dontCountEntropy = true)
    (times : List (BitVec 64)) : (timer.trace state times).sum = 0 := by
  induction times with
  | nil => rfl
  | cons time times ih =>
      have step : timer.step state time = (state, 0) := by
        change addTimerRandomness state time = _
        rw [addTimerRandomness, if_pos uncounted]
      rw [Machine.trace_cons, List.sum_cons, Machine.next, Machine.out, step, ih]

/-- However many events come at regular times, they are credited with at most three
events' worth. -/
theorem regular_sum_le (state : TimerRandState) {times : List (BitVec 64)}
    (regular : Regular times) : (timer.trace state times).sum ≤ 33 := by
  have few : forall (times : List (BitVec 64)) state,
      (timer.trace state times).sum ≤ 11 * times.length := by
    intro times
    induction times with
    | nil => exact fun _ => Nat.le_refl 0
    | cons time times ih =>
        intro state
        have here := out_le state time
        have later := ih (timer.next state time)
        rw [Machine.trace_cons, List.sum_cons, List.length_cons]
        omega
  rcases Nat.lt_or_ge times.length 3 with short | long
  · have bound := few times state
    omega
  · cases counted : state.dontCountEntropy with
    | true =>
        rw [uncounted_sum counted]
        exact Nat.zero_le 33
    | false =>
        rcases times with _ | ⟨t0, _ | ⟨t1, _ | ⟨t2, rest⟩⟩⟩
        · simp at long
        · simp at long
        · simp at long
        have split : timer.trace state (t0 :: t1 :: t2 :: rest) =
            timer.trace state [t0, t1, t2] ++ timer.trace (timer.run state [t0, t1, t2]) rest :=
          rfl
        have first := few [t0, t1, t2] state
        have later := (seen_run counted t0 t1 t2).trace_sum regular
        rw [split, List.sum_append, later]
        exact first

/-- A clock that ticks evenly. -/
theorem regular_sum_le_ticks :
    (timer.trace ⟨0, 0, 0, false⟩ [250, 500, 750, 1000, 1250, 1500]).sum ≤ 33 :=
  regular_sum_le ⟨0, 0, 0, false⟩ (by decide)

end Timer

end Random
end KernelHacking
