import KernelHacking.Keyboard.Driver

namespace KernelHacking
namespace Keyboard

/-!
# The micro driver

`3-atkbd/micro` drops the two tables and the loop that composes them, and
carries one table of 256 keycodes that was flattened by hand.  The rest of its
handler is the one of `3-atkbd`.  The two drivers are run side by side here,
from any value of `weirdkey` and on any stream of bytes.
-/

namespace Micro

def atkbdMyKeycodesTable : List Nat := [
   0,   1,  2,  3,  4,  5,  6,  7,  8,  9, 10, 11, 12, 13, 14, 15,
  16, 17, 18, 19, 20, 21, 22, 23, 24, 25, 26, 27, 28, 29, 30, 31,
  32, 33, 34, 35, 36, 37, 38, 39, 40, 41, 42, 43, 44, 45, 46, 47,
  48, 49, 50, 51, 52, 53, 54, 55, 56, 57, 58, 59, 60, 61, 62, 63,
  64, 65, 66, 67, 68, 69, 70, 71, 72, 73, 74, 75, 76, 77, 78, 79,
  80, 81, 82, 83, 99,  0, 86, 87, 88,117,  0,  0, 95,183,184,185,
   0,  0,  0,  0,  0,  0,  0,  0,  0,  0,  0,  0,  0,  0,  0,  0,
  93,  0,  0, 89,  0,  0, 85, 91, 90, 92,  0, 94,  0,124,121,  0,

   0,  0,  0,  0,  0,  0,  0,  0,  0,  0,  0,  0,  0,  0,  0,  0,
 165,  0,  0,  0,  0,  0,  0,  0,  0,163,  0,  0, 96, 97,  0,  0,
 113,140,164,  0,166,  0,  0,  0,  0,  0,255,  0,  0,  0,114,  0,
 115,  0,172,  0,  0, 98,255, 99,100,  0,  0,  0,  0,  0,  0,  0,
   0,  0,  0,  0,  0,119,119,102,103,104,  0,105,112,106,118,107,
 108,109,110,111,  0,  0,  0,  0,  0,  0,  0,125,126,127,116,142,
   0,  0,  0,143,  0,217,156,173,128,159,158,157,155,226,  0,112,
   0,  0,  0,  0,  0,  0,  0,  0,  0,  0,  0,  0,  0,  0,  0,  0]

/-- `atkbd_my_keycodes[index]`. -/
def atkbdMyKeycodes (index : Nat) : Nat := atkbdMyKeycodesTable.getD index 0

structure Atkbd where
  dev : InputDev := {}
  weirdkey : UInt8 := 0

/-- `atkbd_interrupt`. -/
def atkbdInterrupt (atkbd : Atkbd) (data : UInt8) : Atkbd × List Effect :=
  let code := (data &&& 0b01111111).toNat
  if data = 0xe0 then
    ({ atkbd with weirdkey := 1 }, [])
  else
    ({ atkbd with weirdkey := 0 },
      [.key (atkbdMyKeycodes (if atkbd.weirdkey ≠ 0 then code ||| 0x80 else code))
        (if data < 0x80 then 1 else 0), .sync])

/-- `atkbd_connect` on a zeroed control structure. -/
def atkbdConnect : Atkbd :=
  let atkbd : Atkbd := {}
  { atkbd with dev := { evbit := 1 <<< 1, keybit := declareKeys atkbdMyKeycodes atkbd.dev.keybit } }

def driver : Machine Atkbd UInt8 (List Effect) where
  step := atkbdInterrupt

theorem connected_keybit_iff (key : Nat) :
    atkbdConnect.dev.keybit key = true ↔
      ∃ i, i < ATKBD_KEYMAP_SIZE ∧ atkbdMyKeycodes i = key := by
  simp only [atkbdConnect, declareKeys_iff]

theorem interrupt_prefix (atkbd : Atkbd) :
    atkbdInterrupt atkbd 0xe0 = ({ atkbd with weirdkey := 1 }, []) := by
  rw [atkbdInterrupt, if_pos rfl]

theorem interrupt_code (atkbd : Atkbd) {data : UInt8} (plain : data ≠ 0xe0) :
    atkbdInterrupt atkbd data =
      ({ atkbd with weirdkey := 0 },
        [.key (atkbdMyKeycodes (if atkbd.weirdkey ≠ 0 then (data &&& 0x7f).toNat ||| 0x80
            else (data &&& 0x7f).toNat))
          (if data < 0x80 then 1 else 0), .sync]) := by
  rw [atkbdInterrupt, if_neg plain]

end Micro

/-! ## The two tables and the two handlers -/

/-- The table flattened by hand has no wrong cell. -/
theorem tables_agree {index : Nat} (inside : index < ATKBD_KEYMAP_SIZE) :
    Cut.atkbdConnect.keycode index = Micro.atkbdMyKeycodes index := by
  have every : forall i : Fin 256,
      composed Cut.atkbdKeycode i.val = Micro.atkbdMyKeycodes i.val := by
    decide +kernel
  rw [Cut.connected_keycode inside]
  exact every ⟨index, inside⟩

/-- A handler looks its key up within the table, prefixed or not. -/
theorem lookup_inside (weirdkey data : UInt8) :
    (if weirdkey ≠ 0 then (data &&& 0x7f).toNat ||| 0x80 else (data &&& 0x7f).toNat) <
      ATKBD_KEYMAP_SIZE := by
  have every : forall byte : UInt8, (byte &&& 0x7f).toNat < 128 := by decide +kernel
  have low := every data
  unfold ATKBD_KEYMAP_SIZE
  split
  · rw [or_high_bit low]
    omega
  · omega

/-- The states that the two drivers are in after the same bytes. -/
def SameState (cut : Cut.Atkbd) (micro : Micro.Atkbd) : Prop :=
  cut.keycode = Cut.atkbdConnect.keycode ∧ cut.weirdkey = micro.weirdkey

/-- One byte keeps the states together and has the same effects. -/
theorem interrupt_agree {cut : Cut.Atkbd} {micro : Micro.Atkbd} (same : SameState cut micro)
    (data : UInt8) :
    SameState (Cut.driver.next cut data) (Micro.driver.next micro data) ∧
      Cut.driver.out cut data = Micro.driver.out micro data := by
  rcases same with ⟨table, flag⟩
  unfold Machine.next Machine.out
  by_cases weird : data = Cut.ATKBD_WEIRD_KEY
  · subst weird
    have first : Cut.driver.step cut Cut.ATKBD_WEIRD_KEY = _ := Cut.interrupt_prefix cut
    have second : Micro.driver.step micro Cut.ATKBD_WEIRD_KEY = _ := Micro.interrupt_prefix micro
    rw [first, second]
    exact ⟨⟨table, rfl⟩, rfl⟩
  · have entry := tables_agree (lookup_inside micro.weirdkey data)
    have first : Cut.driver.step cut data = _ := Cut.interrupt_code cut weird
    have second : Micro.driver.step micro data = _ := Micro.interrupt_code micro weird
    rw [first, second, table, flag, entry]
    exact ⟨⟨rfl, rfl⟩, rfl⟩

/-- Over a whole stream the two drivers have the same effects, byte by byte. -/
theorem drivers_agree (weirdkey : UInt8) (stream : List UInt8) :
    SameState (Cut.driver.run { Cut.atkbdConnect with weirdkey := weirdkey } stream)
        (Micro.driver.run { Micro.atkbdConnect with weirdkey := weirdkey } stream) ∧
      Cut.driver.trace { Cut.atkbdConnect with weirdkey := weirdkey } stream =
        Micro.driver.trace { Micro.atkbdConnect with weirdkey := weirdkey } stream := by
  have start : SameState { Cut.atkbdConnect with weirdkey := weirdkey }
      { Micro.atkbdConnect with weirdkey := weirdkey } := ⟨rfl, rfl⟩
  have every : Cut.driver.Along (fun _ _ => True)
      { Cut.atkbdConnect with weirdkey := weirdkey } stream :=
    Machine.along_of_forall_mem Cut.driver (fun _ => True) _ fun _ _ => trivial
  have simulated := Machine.simulation Cut.driver Micro.driver SameState (fun _ _ => True) id id
    (fun _ _ data same _ => interrupt_agree same data) start every
  rw [List.map_id, List.map_id] at simulated
  exact simulated

/-- On every stream of bytes and from every value of `weirdkey` the micro
driver emits the events of the driver with the composed table and ends with
the same `weirdkey`, and both devices declare the same keys. -/
theorem micro_emits_same (weirdkey : UInt8) (stream : List UInt8) :
    keyEvents (Micro.driver.trace { Micro.atkbdConnect with weirdkey := weirdkey } stream) =
        keyEvents (Cut.driver.trace { Cut.atkbdConnect with weirdkey := weirdkey } stream) ∧
      (Micro.driver.run { Micro.atkbdConnect with weirdkey := weirdkey } stream).weirdkey =
        (Cut.driver.run { Cut.atkbdConnect with weirdkey := weirdkey } stream).weirdkey ∧
      Micro.atkbdConnect.dev.keybit = Cut.atkbdConnect.dev.keybit := by
  rcases drivers_agree weirdkey stream with ⟨final, trace⟩
  refine ⟨congrArg keyEvents trace.symm, final.2.symm, ?_⟩
  ext key
  rw [Bool.eq_iff_iff, Cut.connected_keybit_iff, Micro.connected_keybit_iff]
  apply exists_congr
  intro i
  apply and_congr_right
  intro inside
  rw [tables_agree inside]

end Keyboard
end KernelHacking
