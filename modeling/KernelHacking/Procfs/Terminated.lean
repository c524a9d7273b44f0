import KernelHacking.Procfs.ContentLaw

namespace KernelHacking
namespace Procfs

/-!
# The string in `kbuf` before and after the first write

`procfs_init` takes its block from `kmalloc` and leaves it as it comes.  Every
write that returns puts a terminated string at its start, whatever the count.
Until the first one, `kbuf` holds what somebody else left there, and a read
prints it as far as the next NUL byte, inside the block or behind it.
-/

variable {File : Type*} [DecidableEq File]

/-- The buffers and counts of the writes that have returned, the last one first. -/
def returnedWrites (s : Session Kbuf File) (call : Call File)
    (writes : List (List UInt8 × Nat)) : List (List UInt8 × Nat) :=
  match call with
  | .write _ buf count =>
      if s.writes call ∧ ((system File).out s call).isSome then (buf, count) :: writes else writes
  | _ => writes

/-- The driver watched by all writes that have returned. -/
abbrev recorded (File : Type*) [DecidableEq File] :
    Machine (Session Kbuf File × List (List UInt8 × Nat)) (Call File) (Option Answer) :=
  (system File).withGhost returnedWrites

/-- There is a NUL byte in the block. -/
def Terminated (kbuf : Kbuf) : Prop := 0 ∈ kbuf.mapped.take BUFSIZE

/-- The call is a read from the start of its file, into a user buffer with room
for the string that the block holds. -/
def delivers (kbuf : Kbuf) (s : Session Kbuf File) : Call File → Bool
  | .read file room _ =>
      s.fpos file == some 0 && (cstr kbuf.mapped).any fun text => text.length < room
  | _ => false

/-- The block is as it came until a write has returned. -/
def Untouched (kbuf : Kbuf) (state : Session Kbuf File × Option (List UInt8 × Nat)) : Prop :=
  state.2 = none → state.1.device = kbuf

theorem content_length_le (buf : List UInt8) (count : Nat) :
    (content buf count).length ≤ BUFSIZE - 1 := by
  have cut : (buf.take (min count (BUFSIZE - 1))).length ≤ BUFSIZE - 1 :=
    Nat.le_trans (List.length_take_le _ _) (Nat.min_le_right _ _)
  exact Nat.le_trans (List.takeWhile_sublist _).length_le cut

theorem cstr_of_terminated {kbuf : Kbuf} (terminated : Terminated kbuf) :
    ∃ text, cstr kbuf.mapped = some text :=
  Option.isSome_iff_exists.mp ((cstr_isSome_iff _).mpr (List.mem_of_mem_take terminated))

/-- A block in which somebody left a password. -/
def usedBlock : Kbuf where
  mapped := [0x70, 0x77] ++ List.replicate BUFSIZE 0
  block := by rw [List.length_append, List.length_replicate]; omega

end Procfs
end KernelHacking
