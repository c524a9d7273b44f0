import KernelHacking.Foundations.FileOps

namespace KernelHacking
namespace FileOps

universe u

/-!
# The loops of a user program

A program that writes a buffer retries with what is left until every byte has
been reported as written, and a program that reads a file keeps reading until
a call returns zero.  Both loops are bounded here by a number of rounds, and
say whether they came to their own end within it.
-/

variable {Dev : Type u} {File : Type*} [DecidableEq File]

/-- Retry writing what is left of `text`.  The flag tells whether the whole
text has been reported as written. -/
def writeAll (ops : FileOps Dev) (file : File) :
    Nat → Session Dev File → List UInt8 → Session Dev File × Bool
  | _, s, [] => (s, true)
  | 0, s, _ :: _ => (s, false)
  | rounds + 1, s, byte :: rest =>
      let text := byte :: rest
      match (ops.machine File).step s (.write file text text.length) with
      | (s', none) => (s', false)
      | (s', some answer) => writeAll ops file rounds s' (text.drop answer.ret.toNat)

/-- What a reading loop collected, and whether it saw the end of the file. -/
structure Collected (Dev : Type u) (File : Type*) where
  session : Session Dev File
  data : List UInt8
  finished : Bool

/-- Read into a buffer of `room` bytes until a call returns zero, keeping of
each buffer what the call reported. -/
def readAll (ops : FileOps Dev) (file : File) (room : Nat) :
    Nat → Session Dev File → Collected Dev File
  | 0, s => { session := s, data := [], finished := false }
  | rounds + 1, s =>
      match (ops.machine File).step s (.read file room room) with
      | (s', none) => { session := s', data := [], finished := false }
      | (s', some answer) =>
          if answer.ret ≤ 0 then
            { session := s', data := [], finished := answer.ret = 0 }
          else
            let later := readAll ops file room rounds s'
            { later with data := answer.data.take answer.ret.toNat ++ later.data }

theorem writeAll_nil (ops : FileOps Dev) (file : File) (rounds : Nat) (s : Session Dev File) :
    writeAll ops file rounds s [] = (s, true) := by
  cases rounds <;> rfl

/-- One round of a write loop whose call returns. -/
theorem writeAll_step {ops : FileOps Dev} {file : File} {s : Session Dev File} {fpos : Int}
    (opened : s.fpos file = some fpos) {byte : UInt8} {rest : List UInt8} {reply : Reply Dev}
    (returned : ops.write s.device (byte :: rest) (byte :: rest).length fpos = some reply)
    (rounds : Nat) :
    writeAll ops file (rounds + 1) s (byte :: rest) =
      writeAll ops file rounds (s.settle file (some reply)).1
        ((byte :: rest).drop reply.ret.toNat) := by
  rw [writeAll]
  simp only [step_write ops opened, returned]
  rfl

/-- The round of a read loop that sees the end of the file. -/
theorem readAll_end {ops : FileOps Dev} {file : File} {s : Session Dev File} {fpos : Int}
    (opened : s.fpos file = some fpos) {room : Nat} {reply : Reply Dev}
    (returned : ops.read s.device room room fpos = some reply) (ended : reply.ret = 0)
    (rounds : Nat) :
    readAll ops file room (rounds + 1) s =
      { session := (s.settle file (some reply)).1, data := [], finished := true } := by
  rw [readAll]
  simp [step_read ops opened, returned, Session.settle, Reply.answer, ended]

/-- A round of a read loop that collects data. -/
theorem readAll_step {ops : FileOps Dev} {file : File} {s : Session Dev File} {fpos : Int}
    (opened : s.fpos file = some fpos) {room : Nat} {reply : Reply Dev}
    (returned : ops.read s.device room room fpos = some reply) (some_data : 0 < reply.ret)
    (rounds : Nat) :
    readAll ops file room (rounds + 1) s =
      { readAll ops file room rounds (s.settle file (some reply)).1 with
        data := reply.data.take reply.ret.toNat ++
          (readAll ops file room rounds (s.settle file (some reply)).1).data } := by
  rw [readAll]
  simp only [step_read ops opened, returned, Session.settle, Reply.answer, if_neg (Int.not_le.mpr some_data)]

end FileOps
end KernelHacking
