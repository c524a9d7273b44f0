import KernelHacking.Foundations.CString
import KernelHacking.Foundations.KernelMemory
import KernelHacking.Foundations.FileOps

namespace KernelHacking
namespace Procfs

/-!
# The proc file of `5-procfs` and `7-meta`

Both directories carry the same reader and writer.  The writer prints the
user's string over the start of `kbuf`, and the reader prints `kbuf` straight
into the user's buffer.  Neither copy can fail softly: a string that runs off
its mapped memory, or a user buffer too short for the print, faults in kernel
mode, and the call does not return.  The print measures its string before it
stores anything, so a write that faults leaves `kbuf` as it was.

A user buffer lies above the first page.  For a pointer into that page the
kernel would print a text of its own.
-/

def BUFSIZE : Nat := 1024

/-- The memory that is mapped from `kbuf` on.  It begins with the allocated
block, and what follows belongs to others. -/
structure Kbuf where
  mapped : List UInt8
  block : BUFSIZE ≤ mapped.length

/-- `snprintf(kbuf, size, "%s", buf)` for a size within the block. -/
def Kbuf.print (kbuf : Kbuf) (size : Nat) (within : size ≤ BUFSIZE) (buf : List UInt8) :
    Option Kbuf :=
  (cstr buf).map fun text =>
    { mapped := overwrite kbuf.mapped (formatted size text)
      block := by
        have short := formatted_length_le size text
        have block := kbuf.block
        rw [overwrite_length (by omega)]
        exact block }

/-- The size that the writer hands to `snprintf`. -/
def nbytes (count : Nat) : Nat :=
  if count < BUFSIZE then count + 1 else BUFSIZE

theorem nbytes_le (count : Nat) : nbytes count ≤ BUFSIZE := by
  unfold nbytes
  split <;> omega

theorem nbytes_pos (count : Nat) : 0 < nbytes count := by
  unfold nbytes BUFSIZE
  split <;> omega

/-- One more than the bytes of a write that can be kept. -/
theorem nbytes_pred (count : Nat) : nbytes count - 1 = min count (BUFSIZE - 1) := by
  unfold nbytes BUFSIZE
  split <;> omega

/-- `procfs_reader`.  The caller's `count` is ignored. -/
def procfsReader (kbuf : Kbuf) (room _count : Nat) (pos : Int) : Option (Reply Kbuf) :=
  if pos ≠ 0 then
    some { device := kbuf, fpos := pos, ret := 0 }
  else
    match cstr kbuf.mapped with
    | none => none
    | some text =>
        if text.length < room then
          some { device := kbuf, fpos := text.length, ret := text.length, data := text ++ [0] }
        else
          none

/-- `procfs_writer`. -/
def procfsWriter (kbuf : Kbuf) (buf : List UInt8) (count : Nat) (_pos : Int) :
    Option (Reply Kbuf) :=
  (kbuf.print (nbytes count) (nbytes_le count) buf).map fun printed =>
    { device := printed, fpos := 0, ret := wrapLong count }

/-- The proc file sets no open and no release method. -/
def procFops : FileOps Kbuf where
  openFile kbuf := (kbuf, 0)
  release kbuf := (kbuf, 0)
  read := procfsReader
  write := procfsWriter

theorem procFops_passive : procFops.Passive where
  openFile _ := rfl
  release _ := rfl

/-- The content of a write: the longest NUL-free prefix of the bytes of the
write that fit into the buffer together with a terminator. -/
def content (buf : List UInt8) (count : Nat) : List UInt8 :=
  nulFreePrefix (buf.take (min count (BUFSIZE - 1)))

/-- A write that returns leaves its content as the string at `kbuf`. -/
theorem print_cstr {kbuf printed : Kbuf} {buf : List UInt8} {count : Nat}
    (returned : kbuf.print (nbytes count) (nbytes_le count) buf = some printed) :
    cstr printed.mapped = some (content buf count) := by
  rcases Option.map_eq_some_iff.mp returned with ⟨text, found, same⟩
  subst same
  have free := ((cstr_eq_some_iff _ _).mp found).1
  simp only
  rw [cstr_overwrite_formatted (nbytes_pos count) free, nbytes_pred, cstr_take found]
  rfl

end Procfs
end KernelHacking
