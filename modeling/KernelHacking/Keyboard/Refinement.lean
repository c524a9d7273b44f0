import KernelHacking.Keyboard.Codec
import KernelHacking.Keyboard.Original
import Mathlib.Data.Finset.Basic

namespace KernelHacking
namespace Keyboard

universe u

/-!
# The cut-down driver against the original

On the author's laptop the controller translates scancodes, and a byte with the
high bit set is either the release of a key or one of a few replies.  The
original tells the two apart by `xl_bit`, which it sets when a key is pressed
whose release looks like a reply.  The cut-down driver has nothing of the kind
and takes every byte for a key.

The two emit the same key events for everything that can be typed.  What
carries the proof is an invariant of the original: the release of every key
that is held is not taken for a reply.
-/

namespace Original

/-! ## The table of the laptop -/

/-- A translated keyboard without scroll wheel, ready for input and with no
command on its way. -/
structure Laptop {Ps2 : Type u} (lib : Libps2 Ps2) (atkbd : Atkbd Ps2) : Prop where
  translated : atkbd.translated = true
  set : atkbd.set = 2
  scroll : atkbd.scroll = false
  enabled : atkbd.enabled = true
  noAck : lib.flagAck atkbd.ps2dev = false
  noCmd : lib.flagCmd atkbd.ps2dev = false

theorem translatedTable_noScroll (keycode : Nat → Nat) :
    translatedTable false keycode = composeKeymap atkbdSet2Keycode keycode := rfl

/-- The keys without release events lie above the entries of the laptop's keys. -/
theorem compat_reply_above {Ps2 : Type u} {atkbd : Atkbd Ps2} (second : atkbd.set = 2)
    {reply : Nat} (high : reply &&& 0x80 = 0x80) :
    ATKBD_KEYMAP_SIZE ≤ atkbdCompatScancode atkbd reply := by
  have notThird : atkbd.set ≠ 3 := by
    rw [second]
    decide
  have base : 0x100 ≤ (reply &&& 0x7f) ||| ((reply &&& 0x80) <<< 1) := by
    rw [high]
    exact Nat.right_le_or
  rw [atkbdCompatScancode, if_neg notThird]
  split
  · exact Nat.le_trans base Nat.left_le_or
  · exact base

theorem forceRelease_below {Ps2 : Type u} {atkbd : Atkbd Ps2} (second : atkbd.set = 2)
    {reply index : Nat} (high : reply &&& 0x80 = 0x80) (inside : index < ATKBD_KEYMAP_SIZE)
    (keycode : Nat) :
    (forceRelease atkbd reply keycode).keycode index = atkbd.keycode index ∧
      (forceRelease atkbd reply keycode).forceReleaseMask index = atkbd.forceReleaseMask index := by
  have above := compat_reply_above second high
  have apart : index ≠ atkbdCompatScancode atkbd reply :=
    Nat.ne_of_lt (Nat.lt_of_lt_of_le inside above)
  exact ⟨Function.update_of_ne apart .., Function.update_of_ne apart ..⟩

/-- Up to index 255 the original's table is the one of the cut-down driver, and
no release is forced. -/
theorem setKeycodeTable_entry {Ps2 : Type u} {lib : Libps2 Ps2} {atkbd : Atkbd Ps2}
    (laptop : Laptop lib atkbd) {index : Nat} (inside : index < ATKBD_KEYMAP_SIZE) :
    (atkbdSetKeycodeTable {} atkbd).keycode index = Cut.atkbdConnect.keycode index ∧
      (atkbdSetKeycodeTable {} atkbd).forceReleaseMask index = false := by
  have constants : forall i : Fin 256,
      composed atkbdSet2Keycode i.val = composed Cut.atkbdKeycode i.val := by
    decide +kernel
  have hangeul : forall a : Atkbd Ps2, a.set = 2 →
      (forceRelease a ATKBD_RET_HANGEUL KEY_HANGEUL).keycode index = a.keycode index ∧
        (forceRelease a ATKBD_RET_HANGEUL KEY_HANGEUL).forceReleaseMask index =
          a.forceReleaseMask index :=
    fun a second => forceRelease_below second (by decide) inside KEY_HANGEUL
  have hanja : forall a : Atkbd Ps2, a.set = 2 →
      (forceRelease a ATKBD_RET_HANJA KEY_HANJA).keycode index = a.keycode index ∧
        (forceRelease a ATKBD_RET_HANJA KEY_HANJA).forceReleaseMask index =
          a.forceReleaseMask index :=
    fun a second => forceRelease_below second (by decide) inside KEY_HANJA
  unfold atkbdSetKeycodeTable
  simp only [laptop.translated, laptop.scroll, if_true, translatedTable_noScroll]
  constructor
  · refine (hanja _ ?_).1.trans ((hangeul _ ?_).1.trans ?_)
    · exact laptop.set
    · exact laptop.set
    · simp only [Cut.connected_keycode inside, composeKeymap_entry, if_pos inside]
      exact constants ⟨index, inside⟩
  · refine (hanja _ ?_).2.trans ((hangeul _ ?_).2.trans rfl)
    · exact laptop.set
    · exact laptop.set

/-! ## Replies and releases -/

/-- The reply that a byte could be, up to its high bit. -/
def pairIndex (code : Nat) : Option Nat :=
  xlTable.findIdx? (fun reply => (code ^^^ reply) &&& 0x7f == 0)

/-- No two seven-bit codes belong to the same reply. -/
theorem pairIndex_injective {i j k : Nat} (low : i < 128) (low' : j < 128)
    (found : pairIndex i = some k) (found' : pairIndex j = some k) : i = j := by
  have code : forall i : Fin 128,
      (pairIndex i.val).all (fun k => i.val == xlTable.getD k 0 &&& 0x7f) = true := by
    decide +kernel
  have first := code ⟨i, low⟩
  have second := code ⟨j, low'⟩
  simp only [found, found', Option.all_some, beq_iff_eq] at first second
  rw [first, second]

/-- The byte of a press is never taken for a reply. -/
theorem needXlate_press (xlBit : Nat → Bool) {code : UInt8} (press : code < 0x80) :
    atkbdNeedXlate xlBit code = true := by
  have every : forall byte : UInt8, byte < 0x80 →
      ¬ (byte.toNat = ATKBD_RET_EMUL0 ∨ byte.toNat = ATKBD_RET_EMUL1) ∧
        xlTable.findIdx? (fun reply => byte.toNat == reply) = none := by
    decide +kernel
  rcases every code press with ⟨noPrefix, noReply⟩
  rw [atkbdNeedXlate, if_neg noPrefix, noReply]

/-- The release of a key without prefix is taken for a key when the bit of its
reply is set. -/
theorem needXlate_release (xlBit : Nat → Bool) {action : KeyAction}
    (plain : action.prefixed = false) (real : action.index.val ≠ 0x60 ∧ action.index.val ≠ 0x61)
    (released : action.press = false) :
    atkbdNeedXlate xlBit action.lastByte = (pairIndex action.index).elim true xlBit := by
  have every : forall index : Fin 256, (KeyAction.mk index false).prefixed = false →
      index.val ≠ 0x60 ∧ index.val ≠ 0x61 →
      ¬ ((KeyAction.mk index false).lastByte.toNat = ATKBD_RET_EMUL0 ∨
          (KeyAction.mk index false).lastByte.toNat = ATKBD_RET_EMUL1) ∧
        xlTable.findIdx? (fun reply => (KeyAction.mk index false).lastByte.toNat == reply) =
          pairIndex index := by
    decide +kernel
  have same : action = KeyAction.mk action.index false := by
    rw [← released]
  rcases every action.index (same ▸ plain) real with ⟨noPrefix, reply⟩
  rw [← same] at noPrefix reply
  rw [atkbdNeedXlate, if_neg noPrefix, reply]
  cases pairIndex action.index <;> rfl

/-- A key without prefix sets the bit of its reply when pressed and clears it
when released. -/
theorem calculateXlBit_lastByte (xlBit : Nat → Bool) {action : KeyAction}
    (plain : action.prefixed = false) :
    atkbdCalculateXlBit xlBit action.lastByte =
      (pairIndex action.index).elim xlBit (fun k => Function.update xlBit k action.press) := by
  have every : forall (index : Fin 256) (press : Bool), (KeyAction.mk index press).prefixed = false →
      xlTable.findIdx? (fun reply =>
          ((KeyAction.mk index press).lastByte.toNat ^^^ reply) &&& 0x7f == 0) = pairIndex index ∧
        ((KeyAction.mk index press).lastByte &&& 0x80 == 0) = press := by
    decide +kernel
  rcases every action.index action.press plain with ⟨reply, high⟩
  rw [atkbdCalculateXlBit, reply, high]
  cases pairIndex action.index <;> rfl

/-! ## One byte on the laptop -/

section Bytes

variable {Ps2 : Type u} {lib : Libps2 Ps2} {atkbd : Atkbd Ps2}

/-- The laptop's keyboard once its table has been set. -/
structure Configured (lib : Libps2 Ps2) (atkbd : Atkbd Ps2) : Prop extends Laptop lib atkbd where
  table : forall index, index < ATKBD_KEYMAP_SIZE →
    atkbd.keycode index = Cut.atkbdConnect.keycode index
  unforced : forall index, index < ATKBD_KEYMAP_SIZE → atkbd.forceReleaseMask index = false

theorem Laptop.configured (laptop : Laptop lib atkbd) :
    Configured lib (atkbdSetKeycodeTable {} atkbd) where
  translated := laptop.translated
  set := laptop.set
  scroll := laptop.scroll
  enabled := laptop.enabled
  noAck := laptop.noAck
  noCmd := laptop.noCmd
  table _ inside := (setKeycodeTable_entry laptop inside).1
  unforced _ inside := (setKeycodeTable_entry laptop inside).2

/-- The fields that change while keys are decoded are not part of the
configuration. -/
theorem Configured.moved (configured : Configured lib atkbd) (emul : Nat) (release : Bool)
    (xlBit : Nat → Bool) (last : Nat) (time : UInt64) :
    Configured lib { atkbd with
      emul := emul, release := release, xlBit := xlBit, last := last, time := time } where
  translated := configured.translated
  set := configured.set
  scroll := configured.scroll
  enabled := configured.enabled
  noAck := configured.noAck
  noCmd := configured.noCmd
  table := configured.table
  unforced := configured.unforced

/-- On the laptop a byte passes the PS/2 library and the hooks untouched. -/
theorem interrupt_laptop (laptop : Laptop lib atkbd) (data : UInt8) (core : Surroundings) :
    atkbdInterrupt lib {} atkbd data core =
      ((dispatch (translate atkbd data data.toNat).1 core (translate atkbd data data.toNat).2).1,
        .msc MSC_RAW data.toNat ::
          (dispatch (translate atkbd data data.toNat).1 core
            (translate atkbd data data.toNat).2).2) := by
  have passed : atkbdInterrupt lib {} atkbd data core = receive {} atkbd data core := by
    simp only [atkbdInterrupt, laptop.noAck, laptop.noCmd, if_false, Bool.false_eq_true]
  have ready : ¬ (!atkbd.enabled) = true := by
    rw [laptop.enabled]
    decide
  rw [passed, receive, if_neg ready]

theorem splitRelease_of {atkbd : Atkbd Ps2} {data : UInt8}
    (splits : atkbd.emul ≠ 0 ∨ atkbdNeedXlate atkbd.xlBit data = true) :
    splitRelease atkbd data.toNat =
      ({ atkbd with release := data.toNat >>> 7 != 0 }, data.toNat &&& 0x7f) := by
  rw [splitRelease, UInt8.ofNat_toNat, if_pos splits]

/-- A byte that is not taken for a reply is split into its code and its high bit. -/
theorem translate_idle (laptop : Laptop lib atkbd) (idle : atkbd.emul = 0) {data : UInt8}
    (understood : atkbdNeedXlate atkbd.xlBit data = true) :
    translate atkbd data data.toNat =
      ({ atkbd with
          release := data.toNat >>> 7 != 0
          xlBit := atkbdCalculateXlBit atkbd.xlBit data }, data.toNat &&& 0x7f) := by
  rw [translate, if_pos laptop.translated, splitRelease_of (Or.inr understood)]
  exact if_pos idle

/-- After a prefix every byte is split, and no reply is tracked. -/
theorem translate_prefixed (laptop : Laptop lib atkbd) (announced : atkbd.emul = 1)
    (data : UInt8) :
    translate atkbd data data.toNat =
      ({ atkbd with release := data.toNat >>> 7 != 0 }, data.toNat &&& 0x7f) := by
  have pending : atkbd.emul ≠ 0 := by
    rw [announced]
    decide
  rw [translate, if_pos laptop.translated, splitRelease_of (Or.inl pending)]
  exact if_neg pending

/-- The prefix byte is recognised and changes nothing else. -/
theorem interrupt_prefix (laptop : Laptop lib atkbd) (idle : atkbd.emul = 0) (core : Surroundings) :
    atkbdInterrupt lib {} atkbd 0xe0 core =
      ({ atkbd with emul := 1 }, [.msc MSC_RAW 0xe0]) := by
  have whole : splitRelease atkbd (0xe0 : UInt8).toNat = (atkbd, 0xe0) := by
    have kept : ¬ (atkbd.emul ≠ 0 ∨ atkbdNeedXlate atkbd.xlBit 0xe0 = true) := by
      rintro (pending | split)
      · exact pending idle
      · cases split
    exact if_neg kept
  have untranslated : translate atkbd 0xe0 (0xe0 : UInt8).toNat = (atkbd, 0xe0) := by
    rw [translate, if_pos laptop.translated, whole]
    exact if_pos idle
  rw [interrupt_laptop laptop, untranslated]
  rfl

/-- A seven-bit code is no reply. -/
theorem dispatch_code (atkbd : Atkbd Ps2) (core : Surroundings) {code : Nat} (low : code < 0x80) :
    dispatch atkbd core code = decode atkbd core code := by
  have other : forall reply, 0x80 ≤ reply → code ≠ reply := by
    intro reply high
    omega
  rw [dispatch, if_neg (other _ (by decide)), if_neg (other _ (by decide)),
    if_neg (other _ (by decide)), if_neg (other _ (by decide)),
    if_neg (not_or.mpr ⟨other _ (by decide), other _ (by decide)⟩), if_neg (other _ (by decide))]

theorem keyValue_spec (atkbd : Atkbd Ps2) (core : Surroundings) (code keycode : Nat) :
    ∃ last time value,
      keyValue atkbd core code keycode = ({ atkbd with last := last, time := time }, value) ∧
        (value ≠ 0 ↔ atkbd.release = false) := by
  unfold keyValue
  by_cases released : atkbd.release = true
  · rw [if_pos released]
    exact ⟨0, atkbd.time, 0, rfl, by simp [released]⟩
  · rw [if_neg released]
    split
    · refine ⟨atkbd.last, atkbd.time, _, rfl, ?_⟩
      split <;> simp [released]
    · exact ⟨_, _, 1, rfl, by simp [released]⟩

/-- The key has an entry in the table, and one that stands for a keycode. -/
def RealKey (index : Fin 256) : Prop :=
  Cut.atkbdConnect.keycode index ≠ ATKBD_KEY_UNKNOWN ∧
    Cut.atkbdConnect.keycode index ≠ ATKBD_KEY_NULL

instance decidableRealKey (index : Fin 256) : Decidable (RealKey index) :=
  inferInstanceAs (Decidable (_ ∧ _))

theorem reportKey_real (configured : Configured lib atkbd) (core : Surroundings)
    {index : Fin 256} (real : RealKey index) :
    ∃ last time value,
      reportKey atkbd core index (Cut.atkbdConnect.keycode index) =
          ({ atkbd with last := last, time := time },
            [.key (Cut.atkbdConnect.keycode index) value, .sync]) ∧
        (value ≠ 0 ↔ atkbd.release = false) := by
  have small : forall i : Fin 256, composed Cut.atkbdKeycode i.val < ATKBD_SCR_RIGHT := by
    decide +kernel
  have noScroll : ¬ (ATKBD_SCR_RIGHT ≤ Cut.atkbdConnect.keycode index ∧
      Cut.atkbdConnect.keycode index ≤ ATKBD_SCR_1) := by
    rw [Cut.connected_keycode index.isLt]
    exact fun both => Nat.not_le.mpr (small index) both.1
  have unforced := configured.unforced index index.isLt
  rcases keyValue_spec atkbd core index (Cut.atkbdConnect.keycode index) with
    ⟨last, time, value, result, pressed⟩
  refine ⟨last, time, value, ?_, pressed⟩
  rw [reportKey, if_neg real.2, if_neg real.1, if_neg noScroll, result]
  simp only [unforced, Bool.false_eq_true, and_false, if_false, List.append_nil]

/-- A scancode of a real key is one key event. -/
theorem decode_real (configured : Configured lib atkbd) (few : atkbd.emul ≤ 1)
    (core : Surroundings) {code : Nat} {index : Fin 256}
    (scancode : atkbdCompatScancode atkbd code = index) (real : RealKey index) :
    ∃ last time value,
      decode atkbd core code =
          ({ atkbd with emul := 0, release := false, last := last, time := time },
            [.msc MSC_SCAN index, .key (Cut.atkbdConnect.keycode index) value, .sync]) ∧
        (value ≠ 0 ↔ atkbd.release = false) := by
  have gone : atkbd.emul - 1 = 0 := Nat.sub_eq_zero_of_le few
  have entry := configured.table index index.isLt
  have next := configured.moved 0 atkbd.release atkbd.xlBit atkbd.last atkbd.time
  rcases reportKey_real next core real with ⟨last, time, value, result, pressed⟩
  refine ⟨last, time, value, ?_, pressed⟩
  have noWheel : reportWheel { atkbd with emul := 0, last := last, time := time }
      (Cut.atkbdConnect.keycode index) = [] := by
    rw [reportWheel, configured.scroll]
    rfl
  unfold decode
  simp only [scancode, gone, ne_eq, not_true_eq_false, and_false, if_false, entry]
  rw [result, noWheel, if_pos real.2]
  rfl

theorem compat_code (second : atkbd.set = 2) {code : Nat}
    (low : code < 0x80) :
    atkbdCompatScancode atkbd code = if atkbd.emul = 1 then code ||| 0x80 else code := by
  have every : forall i : Fin 128, (i.val &&& 0x7f) ||| ((i.val &&& 0x80) <<< 1) = i.val := by
    decide
  have notThird : atkbd.set ≠ 3 := by
    rw [second]
    decide
  have same := every ⟨code, low⟩
  simp only at same
  rw [atkbdCompatScancode, if_neg notThird]
  simp only [same]

/-! ## One action on the laptop -/

/-- The last byte of an action on a real key, once it has been split. -/
theorem interrupt_lastByte (configured : Configured lib atkbd) (few : atkbd.emul ≤ 1)
    {action : KeyAction} (flag : atkbd.emul = 1 ↔ action.prefixed = true)
    (real : RealKey action.index) {xlBit : Nat → Bool}
    (split : translate atkbd action.lastByte action.lastByte.toNat =
      ({ atkbd with release := action.lastByte.toNat >>> 7 != 0, xlBit := xlBit },
        action.lastByte.toNat &&& 0x7f)) (core : Surroundings) :
    ∃ last time value,
      atkbdInterrupt lib {} atkbd action.lastByte core =
          ({ atkbd with
              emul := 0, release := false, xlBit := xlBit, last := last, time := time },
            [.msc MSC_RAW action.lastByte.toNat, .msc MSC_SCAN action.index,
              .key (Cut.atkbdConnect.keycode action.index) value, .sync]) ∧
        (value ≠ 0 ↔ action.press = true) := by
  have released : (action.lastByte.toNat >>> 7 != 0) = !action.press := by
    have every : forall (index : Fin 256) (press : Bool),
        ((KeyAction.mk index press).lastByte.toNat >>> 7 != 0) = !press := by
      decide +kernel
    exact every action.index action.press
  have low : action.lastByte.toNat &&& 0x7f < 0x80 :=
    Nat.lt_of_le_of_lt Nat.and_le_right (by decide)
  have next := configured.moved atkbd.emul (!action.press) xlBit atkbd.last atkbd.time
  have scancode := compat_code next.set low
  have index := action.lastByte_index
  rw [UInt8.toNat_and] at index
  simp only [flag] at scancode
  rcases decode_real next few core (scancode.trans index) real with
    ⟨last, time, value, result, pressed⟩
  refine ⟨last, time, value, ?_, pressed.trans (by simp)⟩
  rw [interrupt_laptop configured.toLaptop, split, dispatch_code _ core low, released]
  simp only [result]

/-- The keycode of an event, and whether its key is down. -/
def pressedEvents (events : List (Nat × Int)) : List (Nat × Bool) :=
  events.map fun event => (event.1, decide (event.2 ≠ 0))

theorem pressedEvents_lastByte {value : Int} {press : Bool} (pressed : value ≠ 0 ↔ press = true)
    (raw scan keycode : Nat) :
    pressedEvents (keyEvents
        [[.msc MSC_RAW raw, .msc MSC_SCAN scan, .key keycode value, .sync]]) =
      [(keycode, press)] := by
  simp only [keyEvents_cons, keyEvents_nil, List.filterMap_cons, List.filterMap_nil,
    Effect.keyEvent, List.append_nil, pressedEvents, List.map_cons, List.map_nil, pressed,
    Bool.decide_eq_true]

/-- One action on a real key is one key event.  The byte of a key without
prefix has to be taken for a key, and it is what `xl_bit` then keeps track of. -/
theorem run_action (configured : Configured lib atkbd) (idle : atkbd.emul = 0)
    {action : KeyAction} (real : RealKey action.index)
    (understood : action.prefixed = false → atkbdNeedXlate atkbd.xlBit action.lastByte = true)
    {stream : List (UInt8 × Surroundings)} (encoded : stream.map Prod.fst = action.encode) :
    Configured lib ((driver lib {}).run atkbd stream) ∧
      ((driver lib {}).run atkbd stream).emul = 0 ∧
      ((driver lib {}).run atkbd stream).xlBit =
        (if action.prefixed then atkbd.xlBit
          else atkbdCalculateXlBit atkbd.xlBit action.lastByte) ∧
      pressedEvents (keyEvents ((driver lib {}).trace atkbd stream)) =
        [(Cut.atkbdConnect.keycode action.index, action.press)] := by
  unfold KeyAction.encode at encoded
  by_cases announced : action.prefixed = true
  · rw [if_pos announced, List.singleton_append] at encoded
    rcases List.map_eq_cons_iff.mp encoded with ⟨⟨first, core⟩, tail, rfl, rfl, rest⟩
    rcases List.map_eq_singleton_iff.mp rest with ⟨⟨last, core'⟩, rfl, rfl⟩
    have begins : (driver lib {}).step atkbd (0xe0, core) = _ :=
      interrupt_prefix configured.toLaptop idle core
    have next := configured.moved 1 atkbd.release atkbd.xlBit atkbd.last atkbd.time
    have split := translate_prefixed next.toLaptop rfl action.lastByte
    rcases interrupt_lastByte next (Nat.le_refl 1) (iff_of_true rfl announced) real split core'
      with ⟨last, time, value, result, pressed⟩
    have ends : (driver lib {}).step { atkbd with emul := 1 } (action.lastByte, core') = _ := result
    simp only [Machine.run_cons, Machine.run_nil, Machine.trace_cons, Machine.trace_nil,
      Machine.next, Machine.out, begins, ends]
    rw [if_pos announced]
    refine ⟨configured.moved 0 false atkbd.xlBit last time, trivial, rfl, ?_⟩
    exact pressedEvents_lastByte pressed action.lastByte.toNat action.index _
  · rw [if_neg announced, List.nil_append] at encoded
    rcases List.map_eq_singleton_iff.mp encoded with ⟨⟨last, core⟩, rfl, rfl⟩
    have split := translate_idle configured.toLaptop idle
      (understood (Bool.eq_false_iff.mpr announced))
    have few : atkbd.emul ≤ 1 := Nat.le_of_eq idle |>.trans (Nat.zero_le 1)
    have flag : atkbd.emul = 1 ↔ action.prefixed = true := by simp [idle, announced]
    rcases interrupt_lastByte configured few flag real split core with
      ⟨last, time, value, result, pressed⟩
    have ends : (driver lib {}).step atkbd (action.lastByte, core) = _ := result
    simp only [Machine.run_cons, Machine.run_nil, Machine.trace_cons, Machine.trace_nil,
      Machine.next, Machine.out, ends]
    rw [if_neg announced]
    refine ⟨configured.moved 0 false _ last time, trivial, rfl, ?_⟩
    exact pressedEvents_lastByte pressed action.lastByte.toNat action.index _

end Bytes

/-! ## Keys that are held -/

/-- The codes of the two prefix bytes belong to no key. -/
theorem RealKey.noPrefix {index : Fin 256} (real : RealKey index) :
    index.val ≠ 0x60 ∧ index.val ≠ 0x61 := by
  have unmapped : forall i : Fin 256, i.val = 0x60 ∨ i.val = 0x61 →
      composed Cut.atkbdKeycode i.val = ATKBD_KEY_UNKNOWN := by
    decide +kernel
  have mapped := real.1
  rw [Cut.connected_keycode index.isLt] at mapped
  exact ⟨fun same => mapped (unmapped index (Or.inl same)),
    fun same => mapped (unmapped index (Or.inr same))⟩

/-- The keys that are held after an action. -/
def holding (held : Finset (Fin 256)) (action : KeyAction) : Finset (Fin 256) :=
  if action.press then insert action.index held else held.erase action.index

theorem held_before {held : Finset (Fin 256)} {action : KeyAction} {index : Fin 256}
    (member : index ∈ holding held action) (other : index ≠ action.index) : index ∈ held := by
  unfold holding at member
  split at member
  · exact Finset.mem_of_mem_insert_of_ne member other
  · exact Finset.mem_of_mem_erase member

theorem press_of_held {held : Finset (Fin 256)} {action : KeyAction}
    (member : action.index ∈ holding held action) : action.press = true := by
  unfold holding at member
  split at member
  · assumption
  · exact absurd member (Finset.notMem_erase _ _)

/-- The release of every held key would be taken for a key. -/
def HeldUnderstood (held : Finset (Fin 256)) (xlBit : Nat → Bool) : Prop :=
  forall index, index ∈ held → RealKey index → (KeyAction.mk index false).prefixed = false →
    atkbdNeedXlate xlBit (KeyAction.mk index false).lastByte = true

/-- A press sets the bit that its own release needs, and an action leaves alone
the bits that the releases of other keys need. -/
theorem heldUnderstood_next {held : Finset (Fin 256)} {xlBit : Nat → Bool}
    (understood : HeldUnderstood held xlBit) (action : KeyAction) :
    HeldUnderstood (holding held action)
      (if action.prefixed then xlBit else atkbdCalculateXlBit xlBit action.lastByte) := by
  intro index member real plain
  have bound : forall other : KeyAction, other.prefixed = false → other.index.val < 128 :=
    fun other low => Nat.not_le.mp (of_decide_eq_false low)
  have kept : index ≠ action.index → atkbdNeedXlate xlBit (KeyAction.mk index false).lastByte = true :=
    fun other => understood index (held_before member other) real plain
  by_cases announced : action.prefixed = true
  · rw [if_pos announced]
    apply kept
    intro same
    have low := bound _ plain
    have high : 128 ≤ action.index.val := of_decide_eq_true announced
    rw [← same] at high
    exact Nat.not_le.mpr low high
  · have direct := Bool.eq_false_iff.mpr announced
    rw [if_neg announced, needXlate_release _ plain real.noPrefix rfl,
      calculateXlBit_lastByte _ direct]
    rw [needXlate_release _ plain real.noPrefix rfl] at kept
    cases found : pairIndex index with
    | none => rfl
    | some k =>
        rw [found] at kept
        cases reply : pairIndex action.index with
        | none =>
            apply kept
            intro same
            rw [← same, found] at reply
            cases reply
        | some k' =>
            simp only [Option.elim_some] at kept ⊢
            by_cases same : k = k'
            · subst same
              have one : index = action.index :=
                Fin.ext (pairIndex_injective (bound _ plain) (bound _ direct) found reply)
              rw [Function.update_self]
              exact press_of_held (one ▸ member)
            · rw [Function.update_of_ne same]
              apply kept
              intro one
              rw [← one, found] at reply
              exact same (Option.some.inj reply)

/-! ## Runs of actions -/

/-- What can be typed from a state in which the keys of `held` are held: real
keys are pressed and repeated, and held keys are released. -/
def Playable : Finset (Fin 256) → List KeyAction → Prop
  | _, [] => True
  | held, action :: rest =>
      RealKey action.index ∧ (action.press = false → action.index ∈ held) ∧
        Playable (holding held action) rest

instance decidablePlayable : (held : Finset (Fin 256)) → (actions : List KeyAction) →
    Decidable (Playable held actions)
  | _, [] => isTrue trivial
  | held, action :: rest =>
      have _later := decidablePlayable (holding held action) rest
      inferInstanceAs (Decidable (RealKey action.index ∧
        (action.press = false → action.index ∈ held) ∧ Playable (holding held action) rest))

theorem real_of_playable {held : Finset (Fin 256)} {actions : List KeyAction}
    (playable : Playable held actions) :
    forall action, action ∈ actions → RealKey action.index := by
  induction actions generalizing held with
  | nil => exact fun _ member => absurd member List.not_mem_nil
  | cons first rest ih =>
      rcases playable with ⟨real, _, later⟩
      intro action member
      rcases List.mem_cons.mp member with same | member
      · exact same ▸ real
      · exact ih later action member

/-- The byte of a playable action is taken for a key. -/
theorem understood_of_playable {held : Finset (Fin 256)} {xlBit : Nat → Bool} {action : KeyAction}
    (understood : HeldUnderstood held xlBit) (real : RealKey action.index)
    (released : action.press = false → action.index ∈ held) (plain : action.prefixed = false) :
    atkbdNeedXlate xlBit action.lastByte = true := by
  by_cases press : action.press = true
  · exact needXlate_press xlBit (action.lastByte_lt_iff.mpr press)
  · have release := Bool.eq_false_iff.mpr press
    have same : action = KeyAction.mk action.index false := by
      rw [← release]
    rw [same] at plain ⊢
    exact understood action.index (released release) real plain

/-- From a state in which the releases of all held keys are understood, the
original emits one key event for every action. -/
theorem run_actions {Ps2 : Type u} {lib : Libps2 Ps2} {atkbd : Atkbd Ps2}
    (configured : Configured lib atkbd) (idle : atkbd.emul = 0) {held : Finset (Fin 256)}
    (understood : HeldUnderstood held atkbd.xlBit) {actions : List KeyAction}
    (playable : Playable held actions) {stream : List (UInt8 × Surroundings)}
    (encoded : stream.map Prod.fst = actions.flatMap KeyAction.encode) :
    pressedEvents (keyEvents ((driver lib {}).trace atkbd stream)) =
      actions.map fun action => (Cut.atkbdConnect.keycode action.index, action.press) := by
  induction actions generalizing atkbd held stream with
  | nil =>
      rw [List.flatMap_nil, List.map_eq_nil_iff] at encoded
      rw [encoded]
      rfl
  | cons action rest ih =>
      rcases playable with ⟨real, released, later⟩
      rw [List.flatMap_cons] at encoded
      rcases List.map_eq_append_iff.mp encoded with ⟨first, second, rfl, bytes, bytes'⟩
      rcases run_action configured idle real
        (understood_of_playable understood real released) bytes with ⟨next, ready, bits, events⟩
      have kept := heldUnderstood_next understood action
      rw [← bits] at kept
      have tail := ih next ready kept later bytes'
      rw [Machine.trace_append, keyEvents_append, pressedEvents, List.map_append]
      exact congrArg₂ (· ++ ·) events tail

/-- Whatever is typed on the laptop, beginning with no key held, the original
and the cut-down driver emit the same key events, up to the repeat value of the
original.  Nothing is assumed of the original's remaining fields, of the clock
or of the keys that the input core believes to be down. -/
theorem cut_refines_original {Ps2 : Type u} {lib : Libps2 Ps2} {atkbd : Atkbd Ps2}
    (laptop : Laptop lib atkbd) (idle : atkbd.emul = 0) {actions : List KeyAction}
    (playable : Playable ∅ actions) {stream : List (UInt8 × Surroundings)}
    (encoded : stream.map Prod.fst = actions.flatMap KeyAction.encode) :
    pressedEvents (keyEvents ((driver lib {}).trace (atkbdSetKeycodeTable {} atkbd) stream)) =
      pressedEvents (keyEvents (Cut.driver.trace Cut.atkbdConnect (stream.map Prod.fst))) := by
  have nothingHeld : HeldUnderstood ∅ (atkbdSetKeycodeTable {} atkbd).xlBit := by
    intro index member
    exact absurd member (Finset.notMem_empty index)
  have original := run_actions laptop.configured idle nothingHeld playable encoded
  have plain : forall action, action ∈ actions → action.lastByte ≠ Cut.ATKBD_WEIRD_KEY :=
    fun action member => Cut.lastByte_plain (real_of_playable playable action member).1
  have start : Cut.atkbdConnect.weirdkey = 0 := rfl
  have cut := (Cut.run_encodeAll start actions plain).2
  rw [original, encoded, cut, pressedEvents, List.map_map]
  apply List.map_congr_left
  intro action _
  cases press : action.press <;> simp [KeyAction.event, press]

/-! ## Left shift, whose release looks like a finished self-test -/

/-- A port on which no command is pending. -/
def quietPort : Libps2 Unit where
  flagAck _ := false
  flagCmd _ := false
  handleAck port _ := (port, false)
  handleResponse port _ := (port, false)

/-- The laptop's control structure before its table is set. -/
def laptopAtkbd : Atkbd Unit where
  ps2dev := ()
  keycode _ := 0
  forceReleaseMask _ := false
  set := 2
  translated := true
  softrepeat := false
  scroll := false
  enabled := true
  emul := 0
  release := false
  xlBit _ := false
  last := 0
  time := 0
  errCount := 0

/-- Shift is pressed, a letter is typed and repeated, and both are released. -/
def shiftedLetter : List KeyAction :=
  [⟨0x2a, true⟩, ⟨0x1e, true⟩, ⟨0x1e, true⟩, ⟨0x1e, false⟩, ⟨0x2a, false⟩]

def shiftedLetterBytes : List (UInt8 × Surroundings) :=
  [0x2a, 0x1e, 0x1e, 0x9e, 0xaa].map fun data =>
    (data, { keyDown := fun keycode => keycode == 30, jiffies := 0, halfDelay := 31 })

theorem shiftedLetter_refines :
    pressedEvents (keyEvents
        ((driver quietPort {}).trace (atkbdSetKeycodeTable {} laptopAtkbd) shiftedLetterBytes)) =
      pressedEvents (keyEvents
        (Cut.driver.trace Cut.atkbdConnect (shiftedLetterBytes.map Prod.fst))) := by
  have laptop : Laptop quietPort laptopAtkbd := ⟨rfl, rfl, rfl, rfl, rfl, rfl⟩
  have playable : Playable ∅ shiftedLetter := by decide +kernel
  exact cut_refines_original laptop rfl playable (by decide +kernel)

end Original

end Keyboard
end KernelHacking
