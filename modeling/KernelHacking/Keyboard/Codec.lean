import KernelHacking.Keyboard.Driver

namespace KernelHacking
namespace Keyboard

/-!
# Encoding key actions and decoding them again

A key is named by its index in the keycode table.  Pressing or releasing it
makes the keyboard send the seven-bit code, preceded by the prefix byte for an
index in the upper half.  The encoding is not free of prefixes: the release of
the key with code `0x60` is sent as the prefix byte itself.  The composed table
has no key at either of the two indices with that code, and for all other keys
the driver gives back what was encoded.
-/

/-- A key is pressed, or held and repeated, or it is released. -/
structure KeyAction where
  index : Fin 256
  press : Bool
  deriving DecidableEq

namespace KeyAction

/-- The key is announced by the prefix byte. -/
def prefixed (action : KeyAction) : Bool :=
  decide (128 ≤ action.index.val)

/-- The byte that is sent last, with the high bit set for a release. -/
def lastByte (action : KeyAction) : UInt8 :=
  let code := UInt8.ofNat (action.index.val &&& 0x7f)
  if action.press then code else code ||| 0x80

def encode (action : KeyAction) : List UInt8 :=
  (if action.prefixed then [0xe0] else []) ++ [action.lastByte]

/-- The event that a driver with this table should emit. -/
def event (keycode : Nat → Nat) (action : KeyAction) : Nat × Int :=
  (keycode action.index, if action.press then 1 else 0)

/-! ## The bytes of one action -/

/-- Only the two keys with code `0x60` are released by the prefix byte. -/
theorem lastByte_eq_prefix (action : KeyAction) :
    action.lastByte = Cut.ATKBD_WEIRD_KEY →
      action.index.val = 0x60 ∨ action.index.val = 0xe0 := by
  have every : forall (index : Fin 256) (press : Bool),
      (KeyAction.mk index press).lastByte = Cut.ATKBD_WEIRD_KEY →
        index.val = 0x60 ∨ index.val = 0xe0 := by
    decide +kernel
  exact every action.index action.press

/-- The code of the last byte, moved up for a prefixed key, is the index. -/
theorem lastByte_index (action : KeyAction) :
    (if action.prefixed then (action.lastByte &&& 0x7f).toNat ||| 0x80
      else (action.lastByte &&& 0x7f).toNat) = action.index.val := by
  have every : forall (index : Fin 256) (press : Bool),
      (if (KeyAction.mk index press).prefixed then
        ((KeyAction.mk index press).lastByte &&& 0x7f).toNat ||| 0x80
        else ((KeyAction.mk index press).lastByte &&& 0x7f).toNat) = index.val := by
    decide +kernel
  exact every action.index action.press

/-- The high bit of the last byte tells a release from a press. -/
theorem lastByte_lt_iff (action : KeyAction) :
    action.lastByte < 0x80 ↔ action.press = true := by
  have every : forall (index : Fin 256) (press : Bool),
      (KeyAction.mk index press).lastByte < 0x80 ↔ press = true := by
    decide +kernel
  exact every action.index action.press

end KeyAction

/-! ## The cut-down driver decodes what was encoded -/

namespace Cut

/-- There is no key at the two indices whose release is the prefix byte. -/
theorem lastByte_plain {action : KeyAction}
    (mapped : atkbdConnect.keycode action.index ≠ 0) : action.lastByte ≠ ATKBD_WEIRD_KEY := by
  intro collides
  have unmapped : forall i : Fin 256, i.val = 0x60 ∨ i.val = 0xe0 → composed atkbdKeycode i = 0 := by
    decide +kernel
  apply mapped
  rw [connected_keycode action.index.isLt]
  exact unmapped action.index (action.lastByte_eq_prefix collides)

/-- The last byte of an action, on the flag that its prefix left. -/
theorem interrupt_lastByte (atkbd : Atkbd) {action : KeyAction}
    (flag : atkbd.weirdkey ≠ 0 ↔ action.prefixed = true)
    (plain : action.lastByte ≠ ATKBD_WEIRD_KEY) :
    atkbdInterrupt atkbd action.lastByte =
      ({ atkbd with weirdkey := 0 },
        [.key (atkbd.keycode action.index) (if action.press then 1 else 0), .sync]) := by
  rw [interrupt_code atkbd plain]
  simp only [flag, action.lastByte_lt_iff, action.lastByte_index]

/-- One encoded action is one event, and leaves the driver as it was. -/
theorem run_encode {atkbd : Atkbd} (idle : atkbd.weirdkey = 0) {action : KeyAction}
    (plain : action.lastByte ≠ ATKBD_WEIRD_KEY) :
    driver.run atkbd action.encode = atkbd ∧
      keyEvents (driver.trace atkbd action.encode) = [action.event atkbd.keycode] := by
  have unchanged : { atkbd with weirdkey := 0 } = atkbd := by
    rw [← idle]
  unfold KeyAction.encode
  by_cases announced : action.prefixed = true
  · have first : driver.step atkbd 0xe0 = _ := interrupt_prefix atkbd
    have second : driver.step { atkbd with weirdkey := 1 } action.lastByte = _ :=
      interrupt_lastByte _ (by simp [announced]) plain
    rw [if_pos announced]
    simp only [List.singleton_append, Machine.run_cons, Machine.run_nil, Machine.trace_cons,
      Machine.trace_nil, Machine.next, Machine.out, first, second]
    exact ⟨unchanged, rfl⟩
  · have second : driver.step atkbd action.lastByte = _ :=
      interrupt_lastByte atkbd (by simp [announced, idle]) plain
    rw [if_neg announced]
    simp only [List.nil_append, Machine.run_cons, Machine.run_nil, Machine.trace_cons,
      Machine.trace_nil, Machine.next, Machine.out, second]
    exact ⟨unchanged, rfl⟩

/-- A sequence of encoded actions is decoded action by action. -/
theorem run_encodeAll {atkbd : Atkbd} (idle : atkbd.weirdkey = 0) (actions : List KeyAction)
    (plain : forall action, action ∈ actions → action.lastByte ≠ ATKBD_WEIRD_KEY) :
    driver.run atkbd (actions.flatMap KeyAction.encode) = atkbd ∧
      keyEvents (driver.trace atkbd (actions.flatMap KeyAction.encode)) =
        actions.map (KeyAction.event atkbd.keycode) := by
  induction actions with
  | nil => exact ⟨rfl, rfl⟩
  | cons action rest ih =>
      have here := run_encode idle (plain action List.mem_cons_self)
      have later := ih fun other member => plain other (List.mem_cons_of_mem _ member)
      rw [List.flatMap_cons, Machine.run_append, Machine.trace_append, keyEvents_append, here.1,
        here.2, later.1, later.2]
      exact ⟨rfl, rfl⟩

/-- Feeding the encodings of actions on mapped keys to the connected driver
emits their events in order, one each, ends with no prefix pending, and names
declared keys only. -/
theorem decode_encode (actions : List KeyAction)
    (mapped : forall action, action ∈ actions → atkbdConnect.keycode action.index ≠ 0) :
    keyEvents (driver.trace atkbdConnect (actions.flatMap KeyAction.encode)) =
        actions.map (KeyAction.event atkbdConnect.keycode) ∧
      (driver.run atkbdConnect (actions.flatMap KeyAction.encode)).weirdkey = 0 ∧
      forall event, event ∈ keyEvents (driver.trace atkbdConnect (actions.flatMap KeyAction.encode)) →
        atkbdConnect.dev.keybit event.1 = true := by
  have idle : atkbdConnect.weirdkey = 0 := rfl
  rcases run_encodeAll idle actions fun action member => lastByte_plain (mapped action member)
    with ⟨final, events⟩
  refine ⟨events, by rw [final, idle], ?_⟩
  intro event member
  rw [events] at member
  rcases List.mem_map.mp member with ⟨action, _, rfl⟩
  exact (connected_keybit_iff _).mpr ⟨action.index, action.index.isLt, rfl⟩

/-- Escape is pressed and released, then a prefixed key is pressed. -/
theorem decode_encode_escape :
    keyEvents (driver.trace atkbdConnect
        ([⟨1, true⟩, ⟨1, false⟩, ⟨0x9c, true⟩].flatMap KeyAction.encode)) =
      [⟨1, true⟩, ⟨1, false⟩, ⟨0x9c, true⟩].map (KeyAction.event atkbdConnect.keycode) := by
  refine (decode_encode [⟨1, true⟩, ⟨1, false⟩, ⟨0x9c, true⟩] ?_).1
  intro action member
  rw [connected_keycode action.index.isLt]
  revert action
  decide +kernel

end Cut

end Keyboard
end KernelHacking
