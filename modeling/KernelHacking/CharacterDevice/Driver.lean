import KernelHacking.Foundations.KernelMemory
import KernelHacking.Foundations.FileOps

namespace KernelHacking
namespace CharacterDevice

/-!
# The character device of one byte

The driver of `2-character` keeps one byte.  A write takes the last byte of the
user's buffer, whatever the position, and reports that one byte was written.  A
read copies the byte out and then looks at the position: it reports one byte at
the start of the file and the end of the file everywhere else.

The byte behind `memory_buffer` has address zero.
-/

/-- The memory around `memory_buffer`, the only global that changes. -/
structure Device where
  mem : ByteMemory

/-- The byte that the device holds. -/
def Device.value (d : Device) : UInt8 := d.mem 0

/-- `memory_init`, given the result of `register_chrdev` and the block that
`kmalloc` returned, if any. -/
def memoryInit (result : Int) (block : Option ByteMemory) : Except Int Device :=
  if result < 0 then .error result
  else
    match block with
    | none => .error (-12)
    | some mem => .ok { mem := memset mem 0 0 1 }

def memoryOpen (d : Device) : Device × Int := (d, 0)

def memoryRelease (d : Device) : Device × Int := (d, 0)

/-- `memory_read`.  The byte is copied before the position is looked at, and
the caller's `count` is ignored. -/
def memoryRead (d : Device) (room _count : Nat) (fpos : Int) : Reply Device :=
  let copy := copyToUser room d.mem 0 1
  if fpos = 0 then { device := d, fpos := fpos + 1, ret := 1, data := copy.data }
  else { device := d, fpos := fpos, ret := 0, data := copy.data }

/-- `memory_write`.  The source is `buf + count - 1`, which stands in front of
the buffer when `count` is zero; `ahead` is the byte found there. -/
def memoryWrite (ahead : UInt8) (d : Device) (buf : List UInt8) (count : Nat) (fpos : Int) :
    Reply Device :=
  let tmp := (ahead :: buf).drop count
  let copy := copyFromUser d.mem 0 tmp 1
  { device := { mem := copy.mem }, fpos := fpos, ret := 1, stored := copy.stored }

def memoryFops (ahead : UInt8) : FileOps Device where
  openFile := memoryOpen
  release := memoryRelease
  read d room count fpos := some (memoryRead d room count fpos)
  write d buf count fpos := some (memoryWrite ahead d buf count fpos)

theorem memoryFops_passive (ahead : UInt8) : (memoryFops ahead).Passive where
  openFile _ := rfl
  release _ := rfl

/-- A device that was loaded holds zero. -/
theorem memoryInit_value {result : Int} {block : Option ByteMemory} {d : Device}
    (success : memoryInit result block = .ok d) : d.value = 0 := by
  unfold memoryInit at success
  split_ifs at success
  cases block with
  | none => cases success
  | some mem =>
      cases success
      have inside : (0 : Int) < 0 + (1 : Nat) := by decide
      exact memset_inside mem 0 (le_refl 0) inside

/-- A write of a buffer that is not empty stores its last byte. -/
theorem memoryWrite_value (ahead : UInt8) (d : Device) {buf : List UInt8} (nonempty : buf ≠ [])
    (fpos : Int) :
    (memoryWrite ahead d buf buf.length fpos).device.value = buf.getLast nonempty := by
  simp only [memoryWrite, Device.value, copyFromUser_one, List.drop_length_cons nonempty,
    List.headD_cons, Function.update_self]

end CharacterDevice
end KernelHacking
