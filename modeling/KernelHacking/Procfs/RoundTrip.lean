import KernelHacking.Foundations.UserLoops
import KernelHacking.Procfs.Terminated

namespace KernelHacking
namespace Procfs

/-!
# What is reported as written, and what is read back

Every write that returns reports all of its bytes.  `kbuf` keeps a string, at
most `BUFSIZE - 1` bytes long, so that of some writes the rest is lost, and a
reader of the file is the first to notice.

A round trip is a write by one file, in any state of the proc file, and then an
open of another one that is read to its end.  Behind the bytes of the write lie
others of the user's memory, at which the writer looks for the next NUL byte.
The kernel refuses writes whose count is negative as a `long`, so that no write
has `2 ^ 63` bytes.
-/

variable {File : Type*} [DecidableEq File]

/-- The law of a write: if it returns, then a fresh file that is opened next and
read with a buffer of `room` bytes ends after the bytes that were reported. -/
def KeepsReported (s : Session Kbuf File) (writer reader : File) (bytes after : List UInt8)
    (room : Nat) : Prop :=
  forall answer, (system File).out s (.write writer (bytes ++ after) bytes.length) = some answer →
    let written := (system File).next s (.write writer (bytes ++ after) bytes.length)
    let opened := (system File).next written (.openFile reader)
    ∃ enough, forall rounds, enough ≤ rounds →
      (procFops.readAll reader room rounds opened).finished = true ∧
        (procFops.readAll reader room rounds opened).data = bytes.take answer.ret.toNat

/-! ## Reading a file to its end -/

/-- A reading loop on a file at its start delivers the string at `kbuf`. -/
theorem readAll_delivers {s : Session Kbuf File} {file : File} {text : List UInt8} {room : Nat}
    (opened : s.fpos file = some 0) (found : cstr s.device.mapped = some text)
    (enough : text.length < room) (rounds : Nat) :
    (procFops.readAll file room (rounds + 2) s).finished = true ∧
      (procFops.readAll file room (rounds + 2) s).data = text := by
  have returned := (procfsReader_start found room room).trans (if_pos enough)
  cases text with
  | nil =>
      rw [FileOps.readAll_end opened returned rfl]
      exact ⟨rfl, rfl⟩
  | cons byte rest =>
      have positive : (0 : Int) < ((byte :: rest).length : Int) :=
        Int.natCast_pos.mpr (Nat.succ_pos _)
      rw [FileOps.readAll_step opened returned positive]
      -- the second read comes from behind the start
      have moved := procfsReader_elsewhere s.device room room (Int.ne_of_gt positive)
      rw [FileOps.readAll_end (Function.update_self ..) moved rfl]
      refine ⟨rfl, ?_⟩
      rw [Int.toNat_natCast, List.take_left, List.append_nil]

/-- Without room for the string and its terminator the loop never comes to an
end. -/
theorem readAll_faults {s : Session Kbuf File} {file : File} {text : List UInt8} {room : Nat}
    (opened : s.fpos file = some 0) (found : cstr s.device.mapped = some text)
    (short : room ≤ text.length) (rounds : Nat) :
    (procFops.readAll file room rounds s).finished = false := by
  cases rounds with
  | zero => rfl
  | succ rounds =>
      have faulted := (procfsReader_start found room room).trans (if_neg (Nat.not_lt.mpr short))
      have step := FileOps.step_read procFops opened room room
      change _ = s.settle file (procfsReader s.device room room 0) at step
      rw [faulted] at step
      rw [FileOps.readAll, step]
      rfl

/-! ## What a write keeps -/

/-- The content of a write is all of it exactly if it is a string that fits. -/
theorem content_eq_self_iff (bytes after : List UInt8) :
    content (bytes ++ after) bytes.length = bytes ↔ 0 ∉ bytes ∧ bytes.length ≤ BUFSIZE - 1 := by
  constructor
  · intro whole
    have short := content_length_le (bytes ++ after) bytes.length
    rw [whole] at short
    refine ⟨?_, short⟩
    intro member
    rw [← whole] at member
    exact zero_not_mem_nulFreePrefix _ member
  · rintro ⟨free, short⟩
    rw [content, Nat.min_eq_left short, List.take_left]
    exact (nulFreePrefix_eq_self_iff bytes).mpr free

/-- A write that returns leaves its content, and a fresh file opens at the start
of it. -/
theorem write_open {s : Session Kbuf File} {writer reader : File} {pos : Int}
    (opened : s.fpos writer = some pos) (fresh : s.fpos reader = none) {buf : List UInt8}
    (count : Nat) (ends : 0 ∈ buf) :
    (∃ answer, (system File).out s (.write writer buf count) = some answer ∧
        answer.ret = wrapLong count) ∧
      cstr ((system File).next ((system File).next s (.write writer buf count))
        (.openFile reader)).device.mapped = some (content buf count) ∧
      ((system File).next ((system File).next s (.write writer buf count))
        (.openFile reader)).fpos reader = some 0 := by
  rcases step_write_ends opened ends count with ⟨reply, step, _, answer, kept⟩
  have apart : reader ≠ writer := by
    rintro rfl
    rw [fresh] at opened
    cases opened
  have still : (s.settle writer (some reply)).1.fpos reader = none :=
    (Function.update_of_ne apart ..).trans fresh
  have opens : (system File).step (s.settle writer (some reply)).1 (.openFile reader) =
      ({ device := reply.device
         fpos := Function.update (s.settle writer (some reply)).1.fpos reader (some 0) },
        some { ret := 0 }) := by
    simp only [system, FileOps.machine, still]
    rfl
  rw [Machine.out, Machine.next, Machine.next, step, opens]
  refine ⟨⟨reply.answer, rfl, ?_⟩, kept, Function.update_self ..⟩
  simp only [answer]

section Law

variable {s : Session Kbuf File} {writer reader : File} {pos : Int} {bytes : List UInt8}

/-- A write that returns keeps what it reports exactly when its content is all of
it and the reader's buffer has room for that. -/
theorem keepsReported_iff_content (opened : s.fpos writer = some pos)
    (fresh : s.fpos reader = none) (served : bytes.length < 2 ^ 63) {after : List UInt8}
    (ends : 0 ∈ bytes ++ after) (room : Nat) :
    KeepsReported s writer reader bytes after room ↔
      content (bytes ++ after) bytes.length = bytes ∧ bytes.length < room := by
  rcases write_open opened fresh bytes.length ends with ⟨⟨answer, answered, ret⟩, kept, start⟩
  have reported : bytes.take answer.ret.toNat = bytes := by
    rw [ret, wrapLong_of_range (by omega) (by omega), Int.toNat_natCast, List.take_length]
  constructor
  · intro keeps
    rcases keeps answer answered with ⟨enough, delivers⟩
    rcases delivers (enough + 2) (Nat.le_add_right ..) with ⟨finished, data⟩
    by_cases fits : (content (bytes ++ after) bytes.length).length < room
    · rw [(readAll_delivers start kept fits enough).2] at data
      have whole := data.trans reported
      rw [whole] at fits
      exact ⟨whole, fits⟩
    · rw [readAll_faults start kept (Nat.not_lt.mp fits)] at finished
      cases finished
  · rintro ⟨whole, fits⟩ other same
    cases answered.symm.trans same
    refine ⟨2, ?_⟩
    intro rounds enough
    rcases Nat.exists_eq_add_of_le' enough with ⟨more, rfl⟩
    rw [whole] at kept
    rcases readAll_delivers start kept fits more with ⟨finished, data⟩
    exact ⟨finished, data.trans reported.symm⟩

/-- A write keeps what it reports exactly when it does not return, or when its
bytes are a string that fits into the block and into the reader's buffer. -/
theorem keepsReported_iff (opened : s.fpos writer = some pos) (fresh : s.fpos reader = none)
    (served : bytes.length < 2 ^ 63) (after : List UInt8) (room : Nat) :
    KeepsReported s writer reader bytes after room ↔
      0 ∉ bytes ++ after ∨ 0 ∉ bytes ∧ bytes.length ≤ BUFSIZE - 1 ∧ bytes.length < room := by
  by_cases ends : 0 ∈ bytes ++ after
  · rw [keepsReported_iff_content opened fresh served ends room, content_eq_self_iff, and_assoc]
    simp only [ends, not_true_eq_false, false_or]
  · refine iff_of_true ?_ (Or.inl ends)
    intro answer returned
    rw [Machine.out, step_write_endless opened ends] at returned
    cases returned

end Law

/-- The proc file with the first of two files opened, over a block that somebody
else has used. -/
def oneOpened : Session Kbuf (Fin 2) :=
  (system (Fin 2)).next (Session.fresh usedBlock) (.openFile 0)

/-- A short word is read back. -/
theorem shortWord_keepsReported : KeepsReported oneOpened 0 1 [0x68, 0x69] [0x0a, 0] 16 := by
  have opened : oneOpened.fpos 0 = some 0 := by decide
  have fresh : oneOpened.fpos 1 = none := by decide
  exact (keepsReported_iff opened fresh (by decide) [0x0a, 0] 16).mpr (Or.inr (by decide))

/-- Of three bytes with a NUL in the middle, all reported, one is read back. -/
theorem embeddedZero_not_keepsReported :
    ¬ KeepsReported oneOpened 0 1 [0x68, 0, 0x69] [0] 16 := by
  have opened : oneOpened.fpos 0 = some 0 := by decide
  have fresh : oneOpened.fpos 1 = none := by decide
  rw [keepsReported_iff_content opened fresh (by decide) (by decide)]
  decide

end Procfs
end KernelHacking
