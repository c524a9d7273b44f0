import KernelHacking.Foundations.UserLoops
import KernelHacking.MemoryDevice.Bounds

namespace KernelHacking
namespace MemoryDevice

/-!
# The device as an append-only log

Seen from its clients, and as long as they do not overfill it, the device is a
list of bytes.  A write appends one byte, a read at position zero delivers the
list padded with zeros to the size of the buffer, and a read anywhere else
empties the list.  This module states that abstract device and proves that the
driver refines it over every interleaving of calls by any number of files.
-/

/-- The zero-padded contents that a read at position zero delivers. -/
def padded (v : Version) (log : List UInt8) : List UInt8 :=
  log ++ List.replicate (BUFSIZE v - log.length) 0

/-- The abstract device: its state is the log itself. -/
def logFops (v : Version) : FileOps (List UInt8) where
  openFile log := (log, 0)
  release log := (log, 0)
  read log _room _count fpos :=
    if fpos = 0 then
      some { device := log, fpos := fpos + BUFSIZE v, ret := BUFSIZE v, data := padded v log }
    else
      some { device := [], fpos := fpos, ret := 0 }
  write log buf _count fpos :=
    match buf with
    | [] => none
    | byte :: _ => some { device := log ++ [byte], fpos := fpos, ret := 1 }

/-- The value returned and the bytes that the caller may use. -/
def visible (answer : Answer) : Int × List UInt8 :=
  (answer.ret, answer.data.take answer.ret.toNat)

/-! ## The concrete device that holds a given log -/

/-- The log at the start of the block, zeros behind it, and other memory as it
was found at load time. -/
def deviceOf (v : Version) (heap : ByteMemory) (log : List UInt8) : Device where
  mem address :=
    if 0 ≤ address ∧ address < BUFSIZE v then log.getD address.toNat 0 else heap address
  loc := log.length

theorem deviceOf_nil (v : Version) (heap : ByteMemory) :
    deviceOf v heap [] = initialDevice v heap := by
  simp only [deviceOf, initialDevice, List.length_nil, Device.mk.injEq]
  refine ⟨?_, rfl⟩
  funext address
  by_cases inside : 0 ≤ address ∧ address < BUFSIZE v
  · rw [if_pos inside, memset_inside heap 0 inside.1 (by omega)]
    rfl
  · rw [if_neg inside, memset_outside heap 0 (by omega)]

theorem memoryCleanup_deviceOf (v : Version) (heap : ByteMemory) (log : List UInt8) :
    memoryCleanup v (deviceOf v heap log) = deviceOf v heap [] := by
  rw [deviceOf_nil]
  simp only [memoryCleanup, initialDevice, Device.mk.injEq, and_true]
  apply memset_congr
  intro address outside
  exact if_neg (by omega)

theorem deviceOf_append (v : Version) (heap : ByteMemory) (log : List UInt8) (byte : UInt8)
    (room : log.length < BUFSIZE v) :
    deviceOf v heap (log ++ [byte]) =
      { mem := Function.update (deviceOf v heap log).mem log.length byte
        loc := wrapLong ((log.length : Int) + 1) } := by
  have small := BUFSIZE_le v
  rw [wrapLong_of_range (by omega) (by omega)]
  simp only [deviceOf, List.length_append, List.length_singleton, Device.mk.injEq]
  refine ⟨?_, by omega⟩
  funext address
  by_cases here : address = log.length
  · subst here
    rw [Function.update_self, if_pos (by omega)]
    simp
  · rw [Function.update_of_ne here]
    by_cases inside : 0 ≤ address ∧ address < BUFSIZE v
    · rw [if_pos inside, if_pos inside]
      rcases Nat.lt_or_ge address.toNat log.length with before | after
      · simp only [List.getD_eq_getElem?_getD, List.getElem?_append_left before]
      · have beyond : log.length + 1 ≤ address.toNat := by omega
        simp only [List.getD_eq_getElem?_getD]
        rw [List.getElem?_eq_none (by simpa using beyond), List.getElem?_eq_none after]
    · rw [if_neg inside, if_neg inside]

/-- The block of the concrete device is the padded log. -/
theorem deviceOf_buffer (v : Version) (heap : ByteMemory) (log : List UInt8)
    (fits : log.length ≤ BUFSIZE v) : (deviceOf v heap log).buffer v = padded v log := by
  apply (bytesAt_eq_iff _ _ _ _).mpr
  refine ⟨by simp only [padded, List.length_append, List.length_replicate]; omega, ?_⟩
  intro i inside
  have range : 0 ≤ (0 : Int) + i ∧ (0 : Int) + i < BUFSIZE v := by omega
  have index : ((0 : Int) + i).toNat = i := by omega
  simp only [deviceOf, if_pos range, index, padded, List.getD_eq_getElem?_getD]
  rcases Nat.lt_or_ge i log.length with before | after
  · rw [List.getElem?_append_left before, List.getElem?_eq_getElem before]
    rfl
  · rw [List.getElem?_append_right after, List.getElem?_eq_none after,
      List.getElem?_replicate, if_pos (by omega)]
    rfl

/-! ## The refinement -/

/-- The device holds this log and the log fits into the block. -/
def Represents (v : Version) (heap : ByteMemory) (d : Device) (log : List UInt8) : Prop :=
  log.length ≤ BUFSIZE v ∧ d = deviceOf v heap log

/-- The user's buffer is large enough for what is copied to it, and has at
least one byte to be copied from it. -/
def CopySucceeds (v : Version) {File : Type*} : Call File → Prop
  | .read _ room _ => BUFSIZE v ≤ room
  | .write _ buf _ => buf ≠ []
  | _ => True

instance decidableCopySucceeds (v : Version) {File : Type*} (call : Call File) :
    Decidable (CopySucceeds v call) :=
  match call with
  | .read _ room _ => inferInstanceAs (Decidable (BUFSIZE v ≤ room))
  | .write _ buf _ => inferInstanceAs (Decidable (buf ≠ []))
  | .openFile _ => isTrue trivial
  | .release _ => isTrue trivial
  | .seek _ _ => isTrue trivial

section Clients

variable {File : Type*} [DecidableEq File]

/-- The copies of a call succeed, and a write finds room in the block. -/
def Fits (v : Version) (s : Session Device File) (call : Call File) : Prop :=
  CopySucceeds v call ∧ (s.writes call = true → s.device.loc < BUFSIZE v)

omit [DecidableEq File] in
theorem memoryFops_refines (v : Version) (heap : ByteMemory) :
    (memoryFops v).Refines (logFops v) (Represents v heap) (@Fits File v) visible where
  openFile _ _ represents := ⟨represents, rfl⟩
  release _ _ represents := ⟨represents, rfl⟩
  read := by
    rintro s log file room count fpos ⟨fits, device⟩ opened ⟨enough, _⟩
    have wide : min (BUFSIZE v) room = BUFSIZE v := Nat.min_eq_left enough
    by_cases start : fpos = 0
    · simp only [memoryFops, memoryRead, logFops, if_pos start, FileOps.ReplyMatch]
      refine ⟨⟨fits, device⟩, trivial, ?_⟩
      have contents := deviceOf_buffer v heap log fits
      simp only [visible, Reply.answer, copyToUser, wide, device]
      rw [Device.buffer] at contents
      rw [contents]
    · simp only [memoryFops, memoryRead, logFops, if_neg start, FileOps.ReplyMatch]
      refine ⟨⟨Nat.zero_le _, ?_⟩, trivial, rfl⟩
      rw [device, memoryCleanup_deviceOf]
  write := by
    rintro s log file buf count fpos ⟨fits, device⟩ opened ⟨nonempty, room⟩
    cases buf with
    | nil => exact (nonempty rfl).elim
    | cons byte rest =>
        have below : (deviceOf v heap log).loc < BUFSIZE v := by
          rw [← device]
          exact room (by simp only [Session.writes, opened, Option.isSome_some])
        have space : log.length < BUFSIZE v := Int.ofNat_lt.mp below
        simp only [memoryFops, memoryWrite, logFops, FileOps.ReplyMatch]
        refine ⟨⟨by simpa using Nat.succ_le_of_lt space, ?_⟩, trivial, rfl⟩
        rw [device, deviceOf_append v heap log byte space, copyFromUser_one]
        rfl

/-- Clients that never overfill the device find room at every write. -/
theorem room_of_neverFull {v : Version} {heap : ByteMemory} {calls : List (Call File)}
    (never : NeverFull v (initial v heap) calls) :
    (system v File).Along (fun s call => s.writes call = true → s.device.loc < BUFSIZE v)
      (initial v heap) calls := by
  apply (Machine.withGhost_along_fst (system v File) tally
    (fun s call => s.writes call = true → s.device.loc < BUFSIZE v) (initial v heap, 0) calls).mp
  refine Machine.along_of_invariant (counted v File) (LocCounts v) _ _ ?_ ?_
    (locCounts_initial v heap) never
  · intro state call counts room
    exact locCounts_next counts room
  · intro state call counts room reaches
    have below := room reaches
    have loc := counts.1
    omega

/-- Over every such history the driver shows what the log shows. -/
theorem simulates_log {v : Version} {heap : ByteMemory} {calls : List (Call File)}
    (copies : forall call, call ∈ calls → CopySucceeds v call)
    (never : NeverFull v (initial v heap) calls) :
    FileOps.Related (Represents v heap) ((system v File).run (initial v heap) calls)
        (((logFops v).machine File).run (Session.fresh []) calls) ∧
      ((system v File).trace (initial v heap) calls).map (Option.map visible) =
        (((logFops v).machine File).trace (Session.fresh []) calls).map (Option.map visible) := by
  have related : FileOps.Related (Represents v heap) (initial v heap : Session Device File)
      (Session.fresh []) :=
    ⟨⟨Nat.zero_le _, (deviceOf_nil v heap).symm⟩, rfl⟩
  apply (memoryFops_refines v heap).simulation related
  exact Machine.along_and _ (Machine.along_of_forall_mem _ (CopySucceeds v) _ copies)
    (room_of_neverFull never)

/-! ## One writing program and one reading program -/

/-- A retry loop appends its text to the log, one byte per call. -/
theorem writeAll_deviceOf (v : Version) (heap : ByteMemory) {file : File} {fpos : Int}
    {text : List UInt8} {rounds : Nat} (enough : text.length ≤ rounds) {s : Session Device File}
    {log : List UInt8} (holds : s.device = deviceOf v heap log) (opened : s.fpos file = some fpos)
    (fits : log.length + text.length ≤ BUFSIZE v) :
    (memoryFops v).writeAll file rounds s text =
      ({ s with device := deviceOf v heap (log ++ text) }, true) := by
  induction text generalizing rounds s log with
  | nil =>
      rw [FileOps.writeAll_nil, List.append_nil, ← holds]
  | cons byte rest ih =>
      obtain ⟨rounds, rfl⟩ : ∃ fewer, rounds = fewer + 1 := by
        exact Nat.exists_eq_succ_of_ne_zero (Nat.ne_of_gt (Nat.lt_of_lt_of_le (Nat.succ_pos _) enough))
      rw [List.length_cons] at enough fits
      have appended : (memoryWrite s.device (byte :: rest) (byte :: rest).length fpos).device =
          deviceOf v heap (log ++ [byte]) := by
        rw [deviceOf_append v heap log byte (by omega), holds]
        simp only [memoryWrite, copyFromUser_one]
        rfl
      rw [FileOps.writeAll_step opened rfl]
      have settled : (s.settle file (some (memoryWrite s.device (byte :: rest)
          (byte :: rest).length fpos))).1 = { s with device := deviceOf v heap (log ++ [byte]) } := by
        simp only [Session.settle, appended]
        rw [show (memoryWrite s.device (byte :: rest) (byte :: rest).length fpos).fpos = fpos from rfl,
          ← opened, Function.update_eq_self]
      rw [settled]
      have later := ih (Nat.le_of_succ_le_succ enough) (s := { s with device := deviceOf v heap (log ++ [byte]) })
        rfl opened (by simp only [List.length_append, List.length_singleton]; omega)
      rw [List.append_assoc, List.singleton_append] at later
      exact later

/-- A reading loop on a file at position zero takes the padded log and leaves
an empty one. -/
theorem readAll_deviceOf (v : Version) (heap : ByteMemory) {file : File} {room : Nat}
    (wide : BUFSIZE v ≤ room) (rounds : Nat) {s : Session Device File} {log : List UInt8}
    (holds : s.device = deviceOf v heap log) (fits : log.length ≤ BUFSIZE v)
    (opened : s.fpos file = some 0) :
    (memoryFops v).readAll file room (rounds + 2) s =
      { session :=
          { device := initialDevice v heap, fpos := Function.update s.fpos file (some (BUFSIZE v)) }
        data := padded v log
        finished := true } := by
  have positive : 0 < BUFSIZE v := BUFSIZE_pos v
  have contents := deviceOf_buffer v heap log fits
  rw [Device.buffer] at contents
  have started : memoryRead v s.device room room 0 =
      { device := s.device, fpos := BUFSIZE v, ret := BUFSIZE v, data := padded v log } := by
    simp only [memoryRead, if_true, copyToUser, Nat.min_eq_left wide, holds, contents, zero_add]
  let middle : Session Device File :=
    { device := s.device, fpos := Function.update s.fpos file (some (BUFSIZE v)) }
  have reached : middle.fpos file = some (BUFSIZE v : Int) := Function.update_self ..
  have ended : (memoryRead v middle.device room room (BUFSIZE v)).ret = 0 := by
    simp only [memoryRead, if_neg (show (BUFSIZE v : Int) ≠ 0 by omega)]
  have final : (middle.settle file (some (memoryRead v middle.device room room (BUFSIZE v)))).1 =
      { device := initialDevice v heap, fpos := Function.update s.fpos file (some (BUFSIZE v)) } := by
    simp only [Session.settle, memoryRead, if_neg (show (BUFSIZE v : Int) ≠ 0 by omega), middle,
      Function.update_idem, holds, memoryCleanup_deviceOf, deviceOf_nil]
  have returned : (memoryFops v).read s.device room room 0 =
      some (memoryRead v s.device room room 0) := rfl
  rw [FileOps.readAll_step opened returned (by rw [started]; exact Int.ofNat_lt.mpr positive)]
  have between : (s.settle file (some (memoryRead v s.device room room 0))).1 = middle := by
    simp only [Session.settle, started, middle]
  rw [between, FileOps.readAll_end reached rfl ended, final]
  simp only [started, List.append_nil]
  have whole : (padded v log).length ≤ ((BUFSIZE v : Int)).toNat := by
    simp only [padded, List.length_append, List.length_replicate]
    omega
  rw [List.take_of_length_le whole]

/-- **The driver refines the log.**  Over every interleaving in which the user
copies succeed and at most `BUFSIZE` writes fall between two clears, positions
agree with those of the abstract device, the driver's memory is the one that
holds the abstract log, and every answer is the abstract one.  When the log is
empty, a retry loop that writes a text and a reading loop on a file opened
afterwards deliver exactly the text padded with zeros, and they leave the
device as `memory_init` left it. -/
theorem driver_refines_log (v : Version) (heap : ByteMemory) (calls : List (Call File))
    (copies : forall call, call ∈ calls → CopySucceeds v call)
    (never : NeverFull v (initial v heap) calls) :
    FileOps.Related (Represents v heap) ((system v File).run (initial v heap) calls)
        (((logFops v).machine File).run (Session.fresh []) calls) ∧
      ((system v File).trace (initial v heap) calls).map (Option.map visible) =
        (((logFops v).machine File).trace (Session.fresh []) calls).map (Option.map visible) ∧
      forall (writer reader : File) (fpos : Int) (text : List UInt8) (room rounds : Nat),
        (((logFops v).machine File).run (Session.fresh []) calls).device = [] →
        ((system v File).run (initial v heap) calls).fpos writer = some fpos →
        ((system v File).run (initial v heap) calls).fpos reader = none →
        text.length ≤ BUFSIZE v → BUFSIZE v ≤ room → text.length ≤ rounds →
          let start := (system v File).run (initial v heap) calls
          let written := (memoryFops v).writeAll writer rounds start text
          let opened := (system v File).next written.1 (.openFile reader)
          let collected := (memoryFops v).readAll reader room (rounds + 2) opened
          written.2 = true ∧ collected.finished = true ∧ collected.data = padded v text ∧
            collected.session.device = initialDevice v heap ∧
            collected.session.fpos = Function.update start.fpos reader (some (BUFSIZE v)) := by
  have simulated := simulates_log copies never
  refine ⟨simulated.1, simulated.2, ?_⟩
  intro writer reader fpos text room rounds empty openWriter closedReader fits wide enough
  have device : ((system v File).run (initial v heap) calls).device = deviceOf v heap [] := by
    have represents := simulated.1.1
    rw [empty] at represents
    exact represents.2
  generalize (system v File).run (initial v heap) calls = start at *
  have written := writeAll_deviceOf v heap enough device openWriter (by simpa using fits)
  rw [List.nil_append] at written
  simp only [written]
  have opened : (system v File).next { start with device := deviceOf v heap text } (.openFile reader) =
      { device := deviceOf v heap text, fpos := Function.update start.fpos reader (some 0) } := by
    simp only [Machine.next, FileOps.machine, closedReader, memoryFops, memoryOpen, if_true]
  rw [opened, readAll_deviceOf v heap wide rounds rfl fits (Function.update_self ..)]
  simp only [Function.update_idem, and_self]

end Clients

/-- One client writes a byte, a second one reads it and clears the device. -/
def firstSession : List (Call (Fin 3)) :=
  [.openFile 0, .write 0 [0x41] 1, .openFile 1, .read 1 1024 1024, .read 1 1024 1024]

/-- After that session the next text arrives alone. -/
theorem driver_refines_log_second_session :
    let start := (system .memory (Fin 3)).run (initial .memory (fun _ => 7)) firstSession
    let written := (memoryFops .memory).writeAll 0 2 start [0x68, 0x69]
    let opened := (system .memory (Fin 3)).next written.1 (.openFile 2)
    ((memoryFops .memory).readAll 2 1024 4 opened).data = padded .memory [0x68, 0x69] := by
  have law := driver_refines_log .memory (fun _ => 7) firstSession (by decide) (by decide)
  exact (law.2.2 0 2 0 [0x68, 0x69] 1024 2 rfl rfl rfl (by decide) (by decide) (by decide)).2.2.1

end MemoryDevice
end KernelHacking
