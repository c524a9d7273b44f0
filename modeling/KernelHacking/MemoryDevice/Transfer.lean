import KernelHacking.MemoryDevice.Driver

namespace KernelHacking
namespace MemoryDevice

/-!
# The caller's count

The caller of a read or write hands over a buffer and its size.  Neither method
looks at the size: a read copies the whole block, also where it then reports the
end of the file, and a write takes one byte.  A program that reads a block at a
time never notices, and one with a small buffer has its memory overwritten.
-/

/-- The bytes that a caller may use: those that the read reports, as far as they
have reached the buffer. -/
def usableBytes (reply : Reply Device) : List UInt8 :=
  reply.data.take reply.ret.toNat

/-- The bytes of the caller's buffer that the copy of `memory_write` reads. -/
def takenBytes (d : Device) (buf : List UInt8) : Nat :=
  1 - (copyFromUser d.mem d.loc buf 1).uncopied

/-- A read keeps to the count. -/
structure ReadKeepsCount (count : Nat) (reply : Reply Device) : Prop where
  stores : reply.data.length ≤ count
  range : 0 ≤ reply.ret ∧ reply.ret ≤ count
  usable : reply.ret = (usableBytes reply).length

/-- A write keeps to the count. -/
structure WriteKeepsCount (d : Device) (buf : List UInt8) (count : Nat) (fpos : Int)
    (reply : Reply Device) : Prop where
  reads : takenBytes d buf ≤ count
  range : 0 ≤ reply.ret ∧ reply.ret ≤ count
  nothing : count = 0 → reply.device = d ∧ reply.fpos = fpos

variable {File : Type*} [DecidableEq File]

/-- A call that reaches the driver keeps to the count. -/
def KeepsCount (v : Version) (s : Session Device File) : Call File → Prop
  | .read file room count =>
      forall fpos, s.fpos file = some fpos →
        ReadKeepsCount count (memoryRead v s.device room count fpos)
  | .write file buf count =>
      forall fpos, s.fpos file = some fpos →
        WriteKeepsCount s.device buf count fpos (memoryWrite s.device buf count fpos)
  | _ => True

/-- A read from position zero comes with a count and with room for a whole block.
A read from elsewhere comes with a count for as much of a block as there is room
for, and a write with a count that is not zero. -/
def CountsBlock (v : Version) (s : Session Device File) : Call File → Prop
  | .read file room count =>
      forall fpos, s.fpos file = some fpos →
        if fpos = 0 then BUFSIZE v ≤ count ∧ BUFSIZE v ≤ room else min (BUFSIZE v) room ≤ count
  | .write file _ count => forall fpos, s.fpos file = some fpos → 0 < count
  | _ => True

/-- As much of the block is stored as there is room for. -/
theorem memoryRead_data_length (v : Version) (d : Device) (room count : Nat) (fpos : Int) :
    (memoryRead v d room count fpos).data.length = min (BUFSIZE v) room := by
  rw [memoryRead]
  split
  · exact bytesAt_length ..
  · exact bytesAt_length ..

theorem readKeepsCount_iff (v : Version) (d : Device) (room count : Nat) (fpos : Int) :
    ReadKeepsCount count (memoryRead v d room count fpos) ↔
      if fpos = 0 then BUFSIZE v ≤ count ∧ BUFSIZE v ≤ room else min (BUFSIZE v) room ≤ count := by
  have stored := memoryRead_data_length v d room count fpos
  by_cases start : fpos = 0
  · have ret : (memoryRead v d room count fpos).ret = BUFSIZE v := by
      rw [memoryRead, if_pos start]
    rw [if_pos start]
    constructor
    · intro keeps
      have range := keeps.range.2
      have used := keeps.usable
      rw [usableBytes, List.length_take, stored, ret] at used
      rw [ret] at range
      omega
    · rintro ⟨counted, roomy⟩
      constructor
      · rw [stored]
        omega
      · rw [ret]
        omega
      · rw [usableBytes, List.length_take, stored, ret]
        omega
  · have ret : (memoryRead v d room count fpos).ret = 0 := by
      rw [memoryRead, if_neg start]
    rw [if_neg start, ← stored]
    constructor
    · exact ReadKeepsCount.stores
    · intro counted
      constructor
      · exact counted
      · rw [ret]
        omega
      · rw [usableBytes, ret]
        rfl

theorem takenBytes_le (d : Device) (buf : List UInt8) : takenBytes d buf ≤ 1 :=
  Nat.sub_le ..

theorem writeKeepsCount_iff (d : Device) (buf : List UInt8) (count : Nat) (fpos : Int) :
    WriteKeepsCount d buf count fpos (memoryWrite d buf count fpos) ↔ 0 < count := by
  constructor
  · intro keeps
    have range : (1 : Int) ≤ count := keeps.range.2
    omega
  · intro positive
    constructor
    · exact Nat.le_trans (takenBytes_le d buf) positive
    · change (0 : Int) ≤ 1 ∧ (1 : Int) ≤ count
      omega
    · intro empty
      exact absurd empty (Nat.ne_of_gt positive)

omit [DecidableEq File] in
theorem keepsCount_iff_countsBlock (v : Version) (s : Session Device File) (call : Call File) :
    KeepsCount v s call ↔ CountsBlock v s call := by
  cases call with
  | read file room count =>
      exact forall_congr' fun fpos => forall_congr' fun _ => readKeepsCount_iff ..
  | write file buf count =>
      exact forall_congr' fun fpos => forall_congr' fun _ => writeKeepsCount_iff ..
  | openFile file => exact Iff.rfl
  | release file => exact Iff.rfl
  | seek file pos => exact Iff.rfl

/-- In every history, all calls keep to their counts exactly when all counts
suit the block. -/
theorem run_keepsCount_iff (v : Version) (heap : ByteMemory) (calls : List (Call File)) :
    (system v File).Along (KeepsCount v) (initial v heap) calls ↔
      (system v File).Along (CountsBlock v) (initial v heap) calls :=
  (system v File).along_congr (keepsCount_iff_countsBlock v) (initial v heap) calls

/-- A client reads one byte at a time, into the first byte of a page. -/
def readByte : List (Call Unit) := [.openFile (), .read () 4096 1]

/-- The whole block is stored in its memory. -/
theorem readByte_not_keepsCount :
    ¬ (system .memory Unit).Along (KeepsCount .memory) (initial .memory fun _ => 0) readByte := by
  rintro ⟨_, keeps, _⟩
  have stores := (keeps 0 rfl).stores
  rw [memoryRead_data_length] at stores
  exact absurd stores (by decide)

end MemoryDevice
end KernelHacking
