import KernelHacking.Foundations.Loops
import KernelHacking.Foundations.Machine

namespace KernelHacking
namespace Keyboard

/-!
# The cut-down keyboard driver of `3-atkbd`

The keyboard sends its scancodes byte by byte, and `atkbd_interrupt` is entered
once for each of them.  A key is a seven-bit code, sent with the high bit set
when the key is released; half of the keys are announced by a prefix byte,
which the driver remembers in `weirdkey` until the code follows.

Keycodes are kept in a table of 256 entries, whose upper half is that of the
prefixed keys.  `atkbd_connect` composes it from two constant tables.
-/

/-! ## The input device -/

/-- What an interrupt handler does besides changing its own state: hand events
to the input core, or ask for the port to be reconnected. -/
inductive Effect where
  | key (keycode : Nat) (value : Int)
  | msc (code : Nat) (value : Nat)
  | rel (axis : Nat) (value : Int)
  | sync
  | reconnect
  deriving DecidableEq

/-- The keycode and the value of an `EV_KEY` event. -/
def Effect.keyEvent : Effect → Option (Nat × Int)
  | .key keycode value => some (keycode, value)
  | _ => none

/-- The `EV_KEY` events of a run, in order. -/
def keyEvents (trace : List (List Effect)) : List (Nat × Int) :=
  trace.flatten.filterMap Effect.keyEvent

@[simp] theorem keyEvents_nil : keyEvents [] = [] := rfl

@[simp] theorem keyEvents_cons (effects : List Effect) (trace : List (List Effect)) :
    keyEvents (effects :: trace) = effects.filterMap Effect.keyEvent ++ keyEvents trace := by
  rw [keyEvents, List.flatten_cons, List.filterMap_append, keyEvents]

@[simp] theorem keyEvents_append (first second : List (List Effect)) :
    keyEvents (first ++ second) = keyEvents first ++ keyEvents second := by
  rw [keyEvents, List.flatten_append, List.filterMap_append, keyEvents, keyEvents]

/-- The bits through which a device declares the events it may send. -/
structure InputDev where
  evbit : Nat := 0
  keybit : Nat → Bool := fun _ => false

def EV_KEY : Nat := 1

/-- `BIT_MASK` within one word. -/
def bitMask (nr : Nat) : Nat := 1 <<< nr

def ATKBD_KEYMAP_SIZE : Nat := 256

/-- Both drivers declare every entry of their table. -/
def declareKeys (keycode : Nat → Nat) (keybit : Nat → Bool) : Nat → Bool :=
  countedLoop ATKBD_KEYMAP_SIZE (fun i bits => Function.update bits (keycode i) true) keybit

theorem declareKeys_iff (keycode : Nat → Nat) (key : Nat) :
    declareKeys keycode (fun _ => false) key = true ↔
      ∃ i, i < ATKBD_KEYMAP_SIZE ∧ keycode i = key := by
  rw [declareKeys, countedLoop_setBit]
  simp

/-! ## Scancode to keycode tables -/

namespace Cut

def atkbdKeycodeTable : List Nat := [
    0, 67, 65, 63, 61, 59, 60, 88,  0, 68, 66, 64, 62, 15, 41,117,
    0, 56, 42, 93, 29, 16,  2,  0,  0,  0, 44, 31, 30, 17,  3,  0,
    0, 46, 45, 32, 18,  5,  4, 95,  0, 57, 47, 33, 20, 19,  6,183,
    0, 49, 48, 35, 34, 21,  7,184,  0,  0, 50, 36, 22,  8,  9,185,
    0, 51, 37, 23, 24, 11, 10,  0,  0, 52, 53, 38, 39, 25, 12,  0,
    0, 89, 40,  0, 26, 13,  0,  0, 58, 54, 28, 27,  0, 43,  0, 85,
    0, 86, 91, 90, 92,  0, 14, 94,  0, 79,124, 75, 71,121,  0,  0,
   82, 83, 80, 76, 77, 72,  1, 69, 87, 78, 81, 74, 55, 73, 70, 99,

    0,  0,  0,  0,  0,  0,  0,  0,  0,  0,  0,  0,  0,  0,  0,  0,
  217,100,255,  0, 97,165,  0,  0,156,  0,  0,  0,  0,  0,  0,125,
  173,114,  0,113,  0,  0,  0,126,128,  0,  0,140,  0,  0,  0,127,
  159,  0,115,  0,164,  0,  0,116,158,  0,172,166,  0,  0,  0,142,
  157,  0,  0,  0,  0,  0,  0,  0,155,  0, 98,  0,  0,163,  0,  0,
  226,  0,  0,  0,  0,  0,  0,  0,  0,255, 96,  0,  0,  0,143,  0,
    0,  0,  0,  0,  0,  0,  0,  0,  0,107,  0,105,102,  0,  0,112,
  110,111,108,112,106,103,  0,119,  0,118,109,  0, 99,104,119,  0]

/-- `atkbd_keycode[scancode]`. -/
def atkbdKeycode (scancode : Nat) : Nat := atkbdKeycodeTable.getD scancode 0

end Cut

def atkbdUnxlateTable : List Nat := [
    0,118, 22, 30, 38, 37, 46, 54, 61, 62, 70, 69, 78, 85,102, 13,
   21, 29, 36, 45, 44, 53, 60, 67, 68, 77, 84, 91, 90, 20, 28, 27,
   35, 43, 52, 51, 59, 66, 75, 76, 82, 14, 18, 93, 26, 34, 33, 42,
   50, 49, 58, 65, 73, 74, 89,124, 17, 41, 88,  5,  6,  4, 12,  3,
   11,  2, 10,  1,  9,119,126,108,117,125,123,107,115,116,121,105,
  114,122,112,113,127, 96, 97,120,  7, 15, 23, 31, 39, 47, 55, 63,
   71, 79, 86, 94,  8, 16, 24, 32, 40, 48, 56, 64, 72, 80, 87,111,
   19, 25, 57, 81, 83, 92, 95, 98, 99,100,101,103,104,106,109,110]

/-- `atkbd_unxlate_table[i]`, which the original driver has as well. -/
def atkbdUnxlate (i : Nat) : Nat := atkbdUnxlateTable.getD i 0

/-- The loop that composes a translated keymap from a constant one.  It fills
the entries `i` and `i | 0x80` from those at the untranslated scancode. -/
def composeKeymap (constant keycode : Nat → Nat) : Nat → Nat :=
  countedLoop 128 (fun i table =>
    let scancode := atkbdUnxlate i
    Function.update (Function.update table i (constant scancode))
      (i ||| 0x80) (constant (scancode ||| 0x80))) keycode

/-- The round of the composing loop that stores at an entry. -/
def roundOf (index : Nat) : Nat :=
  if index < 128 then index else index - 128

/-- What the composing loop stores at an entry. -/
def composed (constant : Nat → Nat) (index : Nat) : Nat :=
  if index < 128 then constant (atkbdUnxlate index)
  else constant (atkbdUnxlate (index - 128) ||| 0x80)

theorem or_high_bit {i : Nat} (low : i < 128) : i ||| 0x80 = i + 128 := by
  have every : forall j : Fin 128, j.val ||| 0x80 = j.val + 128 := by decide
  exact every ⟨i, low⟩

theorem composeKeymap_entry (constant keycode : Nat → Nat) (index : Nat) :
    composeKeymap constant keycode index =
      if index < ATKBD_KEYMAP_SIZE then composed constant index else keycode index := by
  have below : roundOf index < 128 ↔ index < ATKBD_KEYMAP_SIZE := by
    unfold roundOf ATKBD_KEYMAP_SIZE
    split <;> omega
  rw [composeKeymap, countedLoop_stores roundOf (composed constant)]
  · simp only [below]
  · intro i table index low
    rw [or_high_bit low]
    rcases Nat.lt_or_ge index 128 with lower | upper
    · have apart : index ≠ i + 128 := by omega
      rw [Function.update_of_ne apart, roundOf, composed, if_pos lower, if_pos lower,
        Function.update_apply]
      by_cases here : index = i
      · rw [if_pos here, if_pos here, here]
      · rw [if_neg here, if_neg here]
    · have apart : index ≠ i := by omega
      have shifted : index = i + 128 ↔ index - 128 = i := by omega
      rw [Function.update_apply, Function.update_of_ne apart, roundOf, composed,
        if_neg (Nat.not_lt.mpr upper), if_neg (Nat.not_lt.mpr upper)]
      simp only [shifted]
      by_cases here : index - 128 = i
      · rw [if_pos here, if_pos here, here]
      · rw [if_neg here, if_neg here]

/-! ## The driver -/

namespace Cut

def ATKBD_WEIRD_KEY : UInt8 := 0xe0

structure Atkbd where
  dev : InputDev := {}
  keycode : Nat → Nat := fun _ => 0
  weirdkey : UInt8 := 0

/-- `atkbd_interrupt`. -/
def atkbdInterrupt (atkbd : Atkbd) (data : UInt8) : Atkbd × List Effect :=
  let code := (data &&& 0b01111111).toNat
  if data = ATKBD_WEIRD_KEY then
    ({ atkbd with weirdkey := 1 }, [])
  else
    ({ atkbd with weirdkey := 0 },
      [.key (atkbd.keycode (if atkbd.weirdkey ≠ 0 then code ||| 0x80 else code))
        (if data < 0x80 then 1 else 0), .sync])

/-- `atkbd_connect` on a zeroed control structure. -/
def atkbdConnect : Atkbd :=
  let atkbd : Atkbd := {}
  let keycode := composeKeymap atkbdKeycode atkbd.keycode
  { atkbd with
    keycode := keycode
    dev := { evbit := bitMask EV_KEY, keybit := declareKeys keycode atkbd.dev.keybit } }

/-- The driver under a stream of bytes. -/
def driver : Machine Atkbd UInt8 (List Effect) where
  step := atkbdInterrupt

/-- The table that `atkbd_connect` leaves, entry by entry. -/
theorem connected_keycode {index : Nat} (inside : index < ATKBD_KEYMAP_SIZE) :
    atkbdConnect.keycode index = composed atkbdKeycode index := by
  simp only [atkbdConnect, composeKeymap_entry, if_pos inside]

theorem connected_keybit_iff (key : Nat) :
    atkbdConnect.dev.keybit key = true ↔
      ∃ i, i < ATKBD_KEYMAP_SIZE ∧ atkbdConnect.keycode i = key := by
  simp only [atkbdConnect, declareKeys_iff]

/-! ## One byte -/

theorem interrupt_prefix (atkbd : Atkbd) :
    atkbdInterrupt atkbd ATKBD_WEIRD_KEY = ({ atkbd with weirdkey := 1 }, []) := by
  rw [atkbdInterrupt, if_pos rfl]

theorem interrupt_code (atkbd : Atkbd) {data : UInt8} (plain : data ≠ ATKBD_WEIRD_KEY) :
    atkbdInterrupt atkbd data =
      ({ atkbd with weirdkey := 0 },
        [.key (atkbd.keycode (if atkbd.weirdkey ≠ 0 then (data &&& 0x7f).toNat ||| 0x80
            else (data &&& 0x7f).toNat))
          (if data < 0x80 then 1 else 0), .sync]) := by
  rw [atkbdInterrupt, if_neg plain]

end Cut

end Keyboard
end KernelHacking
