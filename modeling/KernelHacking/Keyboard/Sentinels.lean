import KernelHacking.Keyboard.Micro
import KernelHacking.Keyboard.Original

namespace KernelHacking
namespace Keyboard

/-!
# Table entries that are no keys

Two values of a keycode table stand for no key: `KEY_RESERVED`, which the
original calls `ATKBD_KEY_UNKNOWN`, is the entry of an unknown scancode, and
`ATKBD_KEY_NULL` that of a scancode to be passed over, such as the shifts a
keyboard makes up around Print Screen.  The original handler reports neither of
them.  The cut-down handlers look an entry up and report it, whatever it is.
-/

open Original (ATKBD_KEY_UNKNOWN ATKBD_KEY_NULL)

/-- No event among these effects reports one of the two values. -/
def ReportsRealKeys (effects : List Effect) : Prop :=
  forall event, event ∈ effects.filterMap Effect.keyEvent →
    event.1 ≠ ATKBD_KEY_UNKNOWN ∧ event.1 ≠ ATKBD_KEY_NULL

/-- The same for the events of a whole run. -/
def EmitsRealKeys (trace : List (List Effect)) : Prop :=
  forall event, event ∈ keyEvents trace →
    event.1 ≠ ATKBD_KEY_UNKNOWN ∧ event.1 ≠ ATKBD_KEY_NULL

theorem emitsRealKeys_iff_forall (trace : List (List Effect)) :
    EmitsRealKeys trace ↔ forall effects, effects ∈ trace → ReportsRealKeys effects := by
  induction trace with
  | nil =>
      constructor
      · intro _ effects impossible
        cases impossible
      · intro _ event impossible
        cases impossible
  | cons effects trace ih =>
      rw [EmitsRealKeys, keyEvents_cons, List.forall_mem_append, List.forall_mem_cons]
      exact and_congr Iff.rfl ih

/-- A run emits real keys only exactly when each of its steps does. -/
theorem emitsRealKeys_iff_along {State In : Type*} (driver : Machine State In (List Effect))
    (s : State) (stream : List In) :
    EmitsRealKeys (driver.trace s stream) ↔
      driver.Along (fun state input => ReportsRealKeys (driver.out state input)) s stream := by
  rw [emitsRealKeys_iff_forall]
  exact driver.forall_trace_iff_along ReportsRealKeys s stream

theorem reportsRealKeys_append {first second : List Effect} (left : ReportsRealKeys first)
    (right : ReportsRealKeys second) : ReportsRealKeys (first ++ second) := by
  intro event member
  rw [List.filterMap_append, List.mem_append] at member
  rcases member with inFirst | inSecond
  · exact left event inFirst
  · exact right event inSecond

theorem reportsRealKeys_of_none {effects : List Effect}
    (silent : effects.filterMap Effect.keyEvent = []) : ReportsRealKeys effects := by
  intro event member
  rw [silent] at member
  cases member

/-! ## The original handler -/

namespace Original

variable {Ps2 : Type*}

theorem reportKey_realKeys (atkbd : Atkbd Ps2) (core : Surroundings) (code keycode : Nat) :
    ReportsRealKeys (reportKey atkbd core code keycode).2 := by
  unfold reportKey
  by_cases null : keycode = ATKBD_KEY_NULL
  · rw [if_pos null]
    exact reportsRealKeys_of_none rfl
  · by_cases unknown : keycode = ATKBD_KEY_UNKNOWN
    · rw [if_neg null, if_pos unknown]
      exact reportsRealKeys_of_none rfl
    · rw [if_neg null, if_neg unknown]
      split
      · exact reportsRealKeys_of_none rfl
      · have single : forall value, ReportsRealKeys [.key keycode value, .sync] := by
          intro value event member
          cases List.mem_singleton.mp member
          exact ⟨unknown, null⟩
        apply reportsRealKeys_append (single _)
        split
        · exact single 0
        · exact reportsRealKeys_of_none rfl

theorem reportWheel_realKeys (atkbd : Atkbd Ps2) (keycode : Nat) :
    ReportsRealKeys (reportWheel atkbd keycode) := by
  unfold reportWheel
  by_cases scroll : atkbd.scroll = true
  · rw [if_pos scroll]
    generalize wheel atkbd.release keycode = moved
    apply reportsRealKeys_append
    · by_cases clicked : moved.2.2 ≠ -1
      · rw [if_pos clicked]
        intro event member
        cases List.mem_singleton.mp member
        have button : BTN_MIDDLE ≠ ATKBD_KEY_UNKNOWN ∧ BTN_MIDDLE ≠ ATKBD_KEY_NULL := by decide
        exact button
      · rw [if_neg clicked]
        exact reportsRealKeys_of_none rfl
    · exact reportsRealKeys_of_none rfl
  · rw [if_neg scroll]
    exact reportsRealKeys_of_none rfl

theorem decode_realKeys (atkbd : Atkbd Ps2) (core : Surroundings) (code : Nat) :
    ReportsRealKeys (decode atkbd core code).2 := by
  unfold decode
  simp only
  split
  · exact reportsRealKeys_of_none rfl
  · refine reportsRealKeys_append (reportsRealKeys_append ?_ ?_) ?_
    · split
      · exact reportsRealKeys_of_none rfl
      · exact reportsRealKeys_of_none rfl
    · exact reportKey_realKeys _ core _ _
    · exact reportWheel_realKeys _ _

theorem dispatch_realKeys (atkbd : Atkbd Ps2) (core : Surroundings) (code : Nat) :
    ReportsRealKeys (dispatch atkbd core code).2 := by
  have quiet : forall state : Atkbd Ps2, ReportsRealKeys (state, ([] : List Effect)).2 :=
    fun _ => reportsRealKeys_of_none rfl
  unfold dispatch
  split
  · exact reportsRealKeys_of_none rfl
  split
  · exact quiet _
  split
  · exact quiet _
  split
  · exact quiet _
  split
  · exact quiet _
  split
  · exact quiet _
  exact decode_realKeys atkbd core code

theorem receive_realKeys (fixups : Fixups Ps2) (atkbd : Atkbd Ps2) (data : UInt8)
    (core : Surroundings) : ReportsRealKeys (receive fixups atkbd data core).2 := by
  unfold receive
  split
  · exact reportsRealKeys_of_none rfl
  · exact dispatch_realKeys _ core _

theorem interrupt_realKeys (lib : Libps2 Ps2) (fixups : Fixups Ps2) (atkbd : Atkbd Ps2)
    (data : UInt8) (core : Surroundings) :
    ReportsRealKeys (atkbdInterrupt lib fixups atkbd data core).2 := by
  unfold atkbdInterrupt
  generalize (if lib.flagAck atkbd.ps2dev then lib.handleAck atkbd.ps2dev data
    else (atkbd.ps2dev, false)) = first
  by_cases acked : first.2 = true
  · simp only [acked, if_true]
    exact reportsRealKeys_of_none rfl
  · simp only [acked, if_false, Bool.false_eq_true]
    generalize (if lib.flagCmd first.1 then lib.handleResponse first.1 data
      else (first.1, false)) = second
    by_cases answered : second.2 = true
    · simp only [answered, if_true]
      exact reportsRealKeys_of_none rfl
    · simp only [answered, if_false, Bool.false_eq_true]
      exact receive_realKeys fixups _ data core

/-- The original driver emits real keys only, on every keyboard and stream and
from every state. -/
theorem run_realKeys (lib : Libps2 Ps2) (fixups : Fixups Ps2) (atkbd : Atkbd Ps2)
    (stream : List (UInt8 × Surroundings)) :
    EmitsRealKeys ((driver lib fixups).trace atkbd stream) := by
  rw [emitsRealKeys_iff_forall]
  apply (Machine.forall_trace_iff_along (driver lib fixups) ReportsRealKeys atkbd stream).mpr
  exact Machine.along_of_invariant_of_step (driver lib fixups) (fun _ => True) _
    (fun _ _ _ => trivial) (fun state input _ => interrupt_realKeys lib fixups state _ _) trivial
    stream

end Original

/-! ## The cut-down handlers -/

/-- The codes that are no key, as the first and the last of each range. -/
def namelessCodes : Bool → List (Nat × Nat)
  | false => [
      (0x00, 0x00), (0x55, 0x55), (0x5a, 0x5b), (0x60, 0x6f), (0x71, 0x72), (0x74, 0x75),
      (0x7a, 0x7a), (0x7c, 0x7c), (0x7f, 0x7f)]
  | true => [
      (0x00, 0x0f), (0x11, 0x18), (0x1a, 0x1b), (0x1e, 0x1f), (0x23, 0x23), (0x25, 0x2d),
      (0x2f, 0x2f), (0x31, 0x31), (0x33, 0x34), (0x36, 0x36), (0x39, 0x44), (0x4a, 0x4a),
      (0x54, 0x5a), (0x60, 0x62), (0x64, 0x64), (0x6e, 0x6e), (0x70, 0x7f)]

/-- A key has this code, among those with a prefix or among those without. -/
def HasKey (announced : Bool) (code : Nat) : Prop :=
  forall range, range ∈ namelessCodes announced → code < range.1 ∨ range.2 < code

instance decidableHasKey (announced : Bool) (code : Nat) : Decidable (HasKey announced code) :=
  inferInstanceAs (Decidable (forall range, range ∈ namelessCodes announced → _))

/-- A prefix came directly before, or `weirdkey` was set when the stream began. -/
def announced (weirdkey : UInt8) (before : List UInt8) : Bool :=
  match before.getLast? with
  | none => weirdkey != 0
  | some byte => byte == 0xe0

/-- Every byte of the stream that is not a prefix completes the code of a key. -/
def NamesKeys (weirdkey : UInt8) (stream : List UInt8) : Prop :=
  forall before data after, stream = before ++ data :: after → data ≠ 0xe0 →
    HasKey (announced weirdkey before) (data &&& 0x7f).toNat

/-- The codes without a key are those with one of the two values in the table. -/
theorem table_hasKey_iff (prefixed : Bool) (data : UInt8) :
    (Micro.atkbdMyKeycodes
          (if prefixed then (data &&& 0x7f).toNat ||| 0x80 else (data &&& 0x7f).toNat) ≠
        ATKBD_KEY_UNKNOWN ∧
      Micro.atkbdMyKeycodes
          (if prefixed then (data &&& 0x7f).toNat ||| 0x80 else (data &&& 0x7f).toNat) ≠
        ATKBD_KEY_NULL) ↔ HasKey prefixed (data &&& 0x7f).toNat := by
  have low : (data &&& 0x7f).toNat < 128 := by
    rw [UInt8.toNat_and]
    exact Nat.lt_of_le_of_lt Nat.and_le_right (by decide)
  have every : forall (prefixed : Bool) (code : Fin 128),
      (Micro.atkbdMyKeycodes (if prefixed then code.val ||| 0x80 else code.val) ≠
          ATKBD_KEY_UNKNOWN ∧
        Micro.atkbdMyKeycodes (if prefixed then code.val ||| 0x80 else code.val) ≠
          ATKBD_KEY_NULL) ↔ HasKey prefixed code.val := by
    decide +kernel
  exact every prefixed ⟨_, low⟩

/-- After any bytes, `weirdkey` is set exactly when a prefix was the last one. -/
theorem run_weirdkey (atkbd : Micro.Atkbd) (before : List UInt8) :
    ((Micro.driver.run atkbd before).weirdkey != 0) = announced atkbd.weirdkey before := by
  induction before using List.reverseRecOn with
  | nil => rfl
  | append_singleton before byte _ =>
      rw [Machine.run_append, Machine.run_cons, Machine.run_nil, announced,
        List.getLast?_append_of_ne_nil _ (List.cons_ne_nil _ _), List.getLast?_singleton]
      generalize Micro.driver.run atkbd before = state
      by_cases weird : byte = 0xe0
      · subst weird
        have stepped : Micro.driver.step state 0xe0 = _ := Micro.interrupt_prefix state
        rw [Machine.next, stepped]
        rfl
      · have stepped : Micro.driver.step state byte = _ := Micro.interrupt_code state weird
        rw [Machine.next, stepped]
        exact (beq_eq_false_iff_ne.mpr weird).symm

/-- One byte reports no sentinel exactly when it is a prefix or completes the
code of a key. -/
theorem out_realKeys_iff (state : Micro.Atkbd) (data : UInt8) :
    ReportsRealKeys (Micro.driver.out state data) ↔
      (data ≠ 0xe0 → HasKey (state.weirdkey != 0) (data &&& 0x7f).toNat) := by
  by_cases weird : data = 0xe0
  · subst weird
    have stepped : Micro.driver.step state 0xe0 = _ := Micro.interrupt_prefix state
    rw [Machine.out, stepped]
    exact iff_of_true (reportsRealKeys_of_none rfl) fun plain => absurd rfl plain
  · have stepped : Micro.driver.step state data = _ := Micro.interrupt_code state weird
    have flag : (state.weirdkey ≠ 0) ↔ (state.weirdkey != 0) = true := bne_iff_ne.symm
    rw [Machine.out, stepped, ← table_hasKey_iff]
    simp only [flag]
    constructor
    · intro real _
      exact real _ (List.mem_singleton.mpr rfl)
    · intro entry event member
      cases List.mem_singleton.mp member
      exact entry weird

theorem micro_realKeys_iff (weirdkey : UInt8) (stream : List UInt8) :
    EmitsRealKeys (Micro.driver.trace { Micro.atkbdConnect with weirdkey := weirdkey } stream) ↔
      NamesKeys weirdkey stream := by
  rw [emitsRealKeys_iff_along, Machine.along_iff_forall_split]
  apply forall_congr'
  intro before
  apply forall_congr'
  intro data
  apply forall_congr'
  intro after
  rw [out_realKeys_iff, run_weirdkey]

/-- On every stream of bytes and from every value of `weirdkey`, the cut-down
driver and the micro driver report real keys only exactly when every byte of
the stream that is not a prefix completes the code of a key. -/
theorem realKeys_iff_namesKeys (weirdkey : UInt8) (stream : List UInt8) :
    (EmitsRealKeys (Cut.driver.trace { Cut.atkbdConnect with weirdkey := weirdkey } stream) ↔
        NamesKeys weirdkey stream) ∧
      (EmitsRealKeys (Micro.driver.trace { Micro.atkbdConnect with weirdkey := weirdkey } stream) ↔
        NamesKeys weirdkey stream) := by
  have micro := micro_realKeys_iff weirdkey stream
  refine ⟨?_, micro⟩
  rw [(drivers_agree weirdkey stream).2]
  exact micro

/-- The shift that a keyboard makes up before Print Screen. -/
def fakeShift : List UInt8 := [0xe0, 0x2a]

/-- It is reported as a key by both drivers. -/
theorem fakeShift_not_realKeys :
    ¬ EmitsRealKeys (Cut.driver.trace { Cut.atkbdConnect with weirdkey := 0 } fakeShift) ∧
      ¬ EmitsRealKeys (Micro.driver.trace { Micro.atkbdConnect with weirdkey := 0 } fakeShift) := by
  have sentinel :
      ¬ EmitsRealKeys (Micro.driver.trace { Micro.atkbdConnect with weirdkey := 0 } fakeShift) := by
    intro real
    exact (real (ATKBD_KEY_NULL, 1) (by decide)).2 rfl
  refine ⟨?_, sentinel⟩
  rw [(drivers_agree 0 fakeShift).2]
  exact sentinel

end Keyboard
end KernelHacking
