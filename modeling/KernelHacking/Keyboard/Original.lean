import KernelHacking.Keyboard.Driver

namespace KernelHacking
namespace Keyboard

universe u

/-!
# The driver that was cut down

`atkbd-new.c` is the kernel's own keyboard driver with a few print statements
added.  Its interrupt handler shares the port with the PS/2 library, knows two
prefix bytes and three scancode sets, and takes a dozen byte values for replies
of the keyboard unless `xl_bit` says that a key with such a code is down.

The PS/2 library and the two fixup hooks are outside the driver and are
parameters here.  What the handler reads of the input core and of the clock is
handed in with every byte.  The branches that are compiled out on x86 are not
part of the model.
-/

namespace Original

/-! ## Scancode to keycode tables -/

/-- The default table.  The rest of its 512 entries are zero. -/
def atkbdSet2KeycodeTable : List Nat := [
    0, 67, 65, 63, 61, 59, 60, 88,  0, 68, 66, 64, 62, 15, 41,117,
    0, 56, 42, 93, 29, 16,  2,  0,  0,  0, 44, 31, 30, 17,  3,  0,
    0, 46, 45, 32, 18,  5,  4, 95,  0, 57, 47, 33, 20, 19,  6,183,
    0, 49, 48, 35, 34, 21,  7,184,  0,  0, 50, 36, 22,  8,  9,185,
    0, 51, 37, 23, 24, 11, 10,  0,  0, 52, 53, 38, 39, 25, 12,  0,
    0, 89, 40,  0, 26, 13,  0,  0, 58, 54, 28, 27,  0, 43,  0, 85,
    0, 86, 91, 90, 92,  0, 14, 94,  0, 79,124, 75, 71,121,  0,  0,
   82, 83, 80, 76, 77, 72,  1, 69, 87, 78, 81, 74, 55, 73, 70, 99,

    0,  0,  0,  0,  0,  0,  0,  0,  0,  0,  0,  0,  0,  0,  0,  0,
  217,100,255,  0, 97,165,  0,  0,156,  0,  0,  0,  0,  0,  0,125,
  173,114,  0,113,  0,  0,  0,126,128,  0,  0,140,  0,  0,  0,127,
  159,  0,115,  0,164,  0,  0,116,158,  0,172,166,  0,  0,  0,142,
  157,  0,  0,  0,  0,  0,  0,  0,155,  0, 98,  0,  0,163,  0,  0,
  226,  0,  0,  0,  0,  0,  0,  0,  0,255, 96,  0,  0,  0,143,  0,
    0,  0,  0,  0,  0,  0,  0,  0,  0,107,  0,105,102,  0,  0,112,
  110,111,108,112,106,103,  0,119,  0,118,109,  0, 99,104,119,  0,

    0,  0,  0, 65, 99]

/-- `atkbd_set2_keycode[scancode]`. -/
def atkbdSet2Keycode (scancode : Nat) : Nat := atkbdSet2KeycodeTable.getD scancode 0

def atkbdSet3KeycodeTable : List Nat := [
    0,  0,  0,  0,  0,  0,  0, 59,  1,138,128,129,130, 15, 41, 60,
  131, 29, 42, 86, 58, 16,  2, 61,133, 56, 44, 31, 30, 17,  3, 62,
  134, 46, 45, 32, 18,  5,  4, 63,135, 57, 47, 33, 20, 19,  6, 64,
  136, 49, 48, 35, 34, 21,  7, 65,137,100, 50, 36, 22,  8,  9, 66,
  125, 51, 37, 23, 24, 11, 10, 67,126, 52, 53, 38, 39, 25, 12, 68,
  113,114, 40, 43, 26, 13, 87, 99, 97, 54, 28, 27, 43, 43, 88, 70,
  108,105,119,103,111,107, 14,110,  0, 79,106, 75, 71,109,102,104,
   82, 83, 80, 76, 77, 72, 69, 98,  0, 96, 81,  0, 78, 73, 55,183,

  184,185,186,187, 74, 94, 92, 93,  0,  0,  0,125,126,127,112,  0,
    0,139,172,163,165,115,152,172,166,140,160,154,113,114,167,168,
  148,149,147,140]

/-- `atkbd_set3_keycode[scancode]`. -/
def atkbdSet3Keycode (scancode : Nat) : Nat := atkbdSet3KeycodeTable.getD scancode 0

def ATKBD_RET_ACK : Nat := 0xfa
def ATKBD_RET_NAK : Nat := 0xfe
def ATKBD_RET_BAT : Nat := 0xaa
def ATKBD_RET_EMUL0 : Nat := 0xe0
def ATKBD_RET_EMUL1 : Nat := 0xe1
def ATKBD_RET_RELEASE : Nat := 0xf0
def ATKBD_RET_HANJA : Nat := 0xf1
def ATKBD_RET_HANGEUL : Nat := 0xf2
def ATKBD_RET_ERR : Nat := 0xff

def ATKBD_KEY_UNKNOWN : Nat := 0
def ATKBD_KEY_NULL : Nat := 255

def ATKBD_SCR_1 : Nat := 0xfffe
def ATKBD_SCR_2 : Nat := 0xfffd
def ATKBD_SCR_4 : Nat := 0xfffc
def ATKBD_SCR_8 : Nat := 0xfffb
def ATKBD_SCR_CLICK : Nat := 0xfffa
def ATKBD_SCR_LEFT : Nat := 0xfff9
def ATKBD_SCR_RIGHT : Nat := 0xfff8

/-- `atkbd_scroll_keys`, as pairs of a keycode and a set 2 scancode. -/
def atkbdScrollKeys : List (Nat × Nat) := [
  (ATKBD_SCR_1, 0xc5),
  (ATKBD_SCR_2, 0x9d),
  (ATKBD_SCR_4, 0xa4),
  (ATKBD_SCR_8, 0x9b),
  (ATKBD_SCR_CLICK, 0xe0),
  (ATKBD_SCR_LEFT, 0xcb),
  (ATKBD_SCR_RIGHT, 0xd2)]

def xlTable : List Nat := [
  ATKBD_RET_BAT, ATKBD_RET_ERR, ATKBD_RET_ACK,
  ATKBD_RET_NAK, ATKBD_RET_HANJA, ATKBD_RET_HANGEUL]

/-! ## Codes of the input core -/

def MSC_RAW : Nat := 3
def MSC_SCAN : Nat := 4
def REL_HWHEEL : Nat := 6
def REL_WHEEL : Nat := 8
def KEY_HANGEUL : Nat := 122
def KEY_HANJA : Nat := 123
def BTN_MIDDLE : Nat := 0x112

/-! ## The control structure and what surrounds it -/

/-- The part of the PS/2 library that the handler uses. -/
structure Libps2 (Ps2 : Type u) where
  flagAck : Ps2 → Bool
  flagCmd : Ps2 → Bool
  handleAck : Ps2 → UInt8 → Ps2 × Bool
  handleResponse : Ps2 → UInt8 → Ps2 × Bool

structure Atkbd (Ps2 : Type u) where
  ps2dev : Ps2
  keycode : Nat → Nat
  forceReleaseMask : Nat → Bool
  set : Nat
  translated : Bool
  softrepeat : Bool
  scroll : Bool
  enabled : Bool
  emul : Nat
  release : Bool
  xlBit : Nat → Bool
  last : Nat
  time : UInt64
  errCount : UInt64

/-- The two hooks that are set for particular machines. -/
structure Fixups (Ps2 : Type u) where
  platform : Option (Atkbd Ps2 → Atkbd Ps2) := none
  scancode : Option (Atkbd Ps2 → Nat → Atkbd Ps2 × Nat) := none

/-- What the handler reads of the input core and the clock: the keys that are
down, the time, and half of the repeat delay in the unit of the clock. -/
structure Surroundings where
  keyDown : Nat → Bool
  jiffies : UInt64
  halfDelay : UInt64

/-- `time_before(a, b)`. -/
def timeBefore (a b : UInt64) : Bool :=
  decide ((a - b).toInt64 < 0)

/-! ## Scancodes -/

/-- `atkbd_need_xlate`. -/
def atkbdNeedXlate (xlBit : Nat → Bool) (code : UInt8) : Bool :=
  if code.toNat = ATKBD_RET_EMUL0 ∨ code.toNat = ATKBD_RET_EMUL1 then
    false
  else
    match xlTable.findIdx? (fun reply => code.toNat == reply) with
    | some i => xlBit i
    | none => true

/-- `atkbd_calculate_xl_bit`. -/
def atkbdCalculateXlBit (xlBit : Nat → Bool) (code : UInt8) : Nat → Bool :=
  match xlTable.findIdx? (fun reply => (code.toNat ^^^ reply) &&& 0x7f == 0) with
  | some i => Function.update xlBit i (code &&& 0x80 == 0)
  | none => xlBit

/-- `atkbd_compat_scancode`. -/
def atkbdCompatScancode {Ps2 : Type u} (atkbd : Atkbd Ps2) (code : Nat) : Nat :=
  if atkbd.set = 3 then
    if atkbd.emul = 1 then code ||| 0x100 else code
  else
    let code := (code &&& 0x7f) ||| ((code &&& 0x80) <<< 1)
    if atkbd.emul = 1 then code ||| 0x80 else code

/-! ## `atkbd_interrupt` -/

section Interrupt

variable {Ps2 : Type u}

/-- The extraction of the release bit. -/
def splitRelease (atkbd : Atkbd Ps2) (code : Nat) : Atkbd Ps2 × Nat :=
  if atkbd.emul ≠ 0 ∨ atkbdNeedXlate atkbd.xlBit (UInt8.ofNat code) = true then
    ({ atkbd with release := code >>> 7 != 0 }, code &&& 0x7f)
  else
    (atkbd, code)

/-- The block for translated mode. -/
def translate (atkbd : Atkbd Ps2) (data : UInt8) (code : Nat) : Atkbd Ps2 × Nat :=
  if atkbd.translated then
    let (atkbd, code) := splitRelease atkbd code
    if atkbd.emul = 0 then
      ({ atkbd with xlBit := atkbdCalculateXlBit atkbd.xlBit data }, code)
    else
      (atkbd, code)
  else
    (atkbd, code)

/-- The value of a key event, with what is remembered for the next press. -/
def keyValue (atkbd : Atkbd Ps2) (core : Surroundings) (code keycode : Nat) : Atkbd Ps2 × Int :=
  if atkbd.release then
    ({ atkbd with last := 0 }, 0)
  else if !atkbd.softrepeat && core.keyDown keycode then
    -- Toshiba laptops send several presses for one.
    (atkbd, if timeBefore core.jiffies atkbd.time && atkbd.last == code then 1 else 2)
  else
    ({ atkbd with last := code, time := core.jiffies + core.halfDelay }, 1)

/-- The `scroll`, `hscroll` and `click` of a keycode, where -1 is no click. -/
def wheel (release : Bool) (keycode : Nat) : Int × Int × Int :=
  if keycode = ATKBD_SCR_1 then (1, 0, -1)
  else if keycode = ATKBD_SCR_2 then (2, 0, -1)
  else if keycode = ATKBD_SCR_4 then (4, 0, -1)
  else if keycode = ATKBD_SCR_8 then (8, 0, -1)
  else if keycode = ATKBD_SCR_CLICK then (0, 0, if release then 0 else 1)
  else if keycode = ATKBD_SCR_LEFT then (0, -1, -1)
  else if keycode = ATKBD_SCR_RIGHT then (0, 1, -1)
  else (0, 0, -1)

/-- The `switch (keycode)`. -/
def reportKey (atkbd : Atkbd Ps2) (core : Surroundings) (code keycode : Nat) :
    Atkbd Ps2 × List Effect :=
  if keycode = ATKBD_KEY_NULL then
    (atkbd, [])
  else if keycode = ATKBD_KEY_UNKNOWN then
    (atkbd, [.sync])
  else if ATKBD_SCR_RIGHT ≤ keycode ∧ keycode ≤ ATKBD_SCR_1 then
    (atkbd, [])
  else
    let (atkbd, value) := keyValue atkbd core code keycode
    (atkbd, [.key keycode value, .sync] ++
      if value ≠ 0 ∧ atkbd.forceReleaseMask code then [.key keycode 0, .sync] else [])

/-- The wheel events of a keyboard with `scroll` set. -/
def reportWheel (atkbd : Atkbd Ps2) (keycode : Nat) : List Effect :=
  if atkbd.scroll then
    let (scroll, hscroll, click) := wheel atkbd.release keycode
    (if click ≠ -1 then [.key BTN_MIDDLE click] else []) ++
      [.rel REL_WHEEL (if atkbd.release then -scroll else scroll), .rel REL_HWHEEL hscroll, .sync]
  else []

/-- What follows the `switch (code)`: the scancode of a key, or of its second
byte of three. -/
def decode (atkbd : Atkbd Ps2) (core : Surroundings) (code : Nat) : Atkbd Ps2 × List Effect :=
  let code := atkbdCompatScancode atkbd code
  let waiting := atkbd.emul
  let atkbd := { atkbd with emul := atkbd.emul - 1 }
  if waiting ≠ 0 ∧ atkbd.emul ≠ 0 then
    (atkbd, [])
  else
    let keycode := atkbd.keycode code
    let scan := if keycode ≠ ATKBD_KEY_NULL then [Effect.msc MSC_SCAN code] else []
    let (atkbd, effects) := reportKey atkbd core code keycode
    ({ atkbd with release := false }, scan ++ effects ++ reportWheel atkbd keycode)

/-- The `switch (code)` over replies and prefixes. -/
def dispatch (atkbd : Atkbd Ps2) (core : Surroundings) (code : Nat) : Atkbd Ps2 × List Effect :=
  if code = ATKBD_RET_BAT then
    ({ atkbd with enabled := false }, [.reconnect])
  else if code = ATKBD_RET_EMUL0 then
    ({ atkbd with emul := 1 }, [])
  else if code = ATKBD_RET_EMUL1 then
    ({ atkbd with emul := 2 }, [])
  else if code = ATKBD_RET_RELEASE then
    ({ atkbd with release := true }, [])
  else if code = ATKBD_RET_ACK ∨ code = ATKBD_RET_NAK then
    (atkbd, [])
  else if code = ATKBD_RET_ERR then
    ({ atkbd with errCount := atkbd.errCount + 1 }, [])
  else
    decode atkbd core code

/-- The handler once the PS/2 library has left the byte to it. -/
def receive (fixups : Fixups Ps2) (atkbd : Atkbd Ps2) (data : UInt8) (core : Surroundings) :
    Atkbd Ps2 × List Effect :=
  if !atkbd.enabled then
    (atkbd, [])
  else
    let (atkbd, code) :=
      match fixups.scancode with
      | some fixup => fixup atkbd data.toNat
      | none => (atkbd, data.toNat)
    let (atkbd, code) := translate atkbd data code
    let (atkbd, effects) := dispatch atkbd core code
    (atkbd, .msc MSC_RAW data.toNat :: effects)

/-- `atkbd_interrupt`. -/
def atkbdInterrupt (lib : Libps2 Ps2) (fixups : Fixups Ps2) (atkbd : Atkbd Ps2) (data : UInt8)
    (core : Surroundings) : Atkbd Ps2 × List Effect :=
  let (ps2dev, acked) :=
    if lib.flagAck atkbd.ps2dev then lib.handleAck atkbd.ps2dev data else (atkbd.ps2dev, false)
  if acked then
    ({ atkbd with ps2dev := ps2dev }, [])
  else
    let (ps2dev, answered) :=
      if lib.flagCmd ps2dev then lib.handleResponse ps2dev data else (ps2dev, false)
    if answered then
      ({ atkbd with ps2dev := ps2dev }, [])
    else
      receive fixups { atkbd with ps2dev := ps2dev } data core

/-- The driver under a stream of bytes and surroundings. -/
def driver (lib : Libps2 Ps2) (fixups : Fixups Ps2) :
    Machine (Atkbd Ps2) (UInt8 × Surroundings) (List Effect) where
  step atkbd input := atkbdInterrupt lib fixups atkbd input.1 input.2

end Interrupt

/-! ## `atkbd_set_keycode_table` -/

section Table

variable {Ps2 : Type u}

/-- The table of the translated set, with the scroll keys put over it. -/
def translatedTable (scroll : Bool) (keycode : Nat → Nat) : Nat → Nat :=
  countedLoop 128 (fun i table =>
    let scancode := atkbdUnxlate i
    let table := Function.update (Function.update table i (atkbdSet2Keycode scancode))
      (i ||| 0x80) (atkbdSet2Keycode (scancode ||| 0x80))
    if scroll then
      atkbdScrollKeys.foldl (fun table key =>
        if scancode ||| 0x80 = key.2 then Function.update table (i ||| 0x80) key.1 else table) table
    else table) keycode

/-- The table of set 2 when the controller does not translate. -/
def rawTable (scroll : Bool) : Nat → Nat :=
  if scroll then
    atkbdScrollKeys.foldl (fun table key => Function.update table key.2 key.1) atkbdSet2Keycode
  else atkbdSet2Keycode

/-- A key that never sends a release gets one from the driver. -/
def forceRelease (atkbd : Atkbd Ps2) (reply keycode : Nat) : Atkbd Ps2 :=
  let scancode := atkbdCompatScancode atkbd reply
  { atkbd with
    keycode := Function.update atkbd.keycode scancode keycode
    forceReleaseMask := Function.update atkbd.forceReleaseMask scancode true }

def atkbdSetKeycodeTable (fixups : Fixups Ps2) (atkbd : Atkbd Ps2) : Atkbd Ps2 :=
  let keycode :=
    if atkbd.translated then translatedTable atkbd.scroll (fun _ => 0)
    else if atkbd.set = 3 then atkbdSet3Keycode
    else rawTable atkbd.scroll
  let atkbd := { atkbd with keycode := keycode, forceReleaseMask := fun _ => false }
  let atkbd := forceRelease atkbd ATKBD_RET_HANGEUL KEY_HANGEUL
  let atkbd := forceRelease atkbd ATKBD_RET_HANJA KEY_HANJA
  match fixups.platform with
  | some fixup => fixup atkbd
  | none => atkbd

end Table

end Original

end Keyboard
end KernelHacking
