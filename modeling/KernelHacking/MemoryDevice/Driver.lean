import KernelHacking.Foundations.KernelMemory
import KernelHacking.Foundations.FileOps

namespace KernelHacking
namespace MemoryDevice

/-!
# The character device of `1-memory`

Two copies of the driver are in the tree: `memory.c` and the shorter
`minimal-version/memory.c`.  Their read and write methods agree to the letter;
they differ in the size of the buffer and in what `memory_init` checks.  Both
are covered by one definition with the copy as its parameter.

The block behind `memory_buffer` is the range of addresses from `0` to
`BUFSIZE - 1`.  `loc` is a global: every open file writes at the same place,
and only the end-of-file branch of a read moves it back.
-/

/-- The two copies of the driver. -/
inductive Version where
  | memory
  | minimalVersion
  deriving DecidableEq

def BUFSIZE : Version → Nat
  | .memory => 1024
  | .minimalVersion => 1024 * 50

theorem BUFSIZE_pos (v : Version) : 0 < BUFSIZE v := by
  cases v <;> decide

theorem BUFSIZE_le (v : Version) : BUFSIZE v ≤ 51200 := by
  cases v <;> decide

/-- The globals of the driver: the memory around `memory_buffer` and `loc`. -/
structure Device where
  mem : ByteMemory
  loc : Int

/-- Contents of the allocated block. -/
def Device.buffer (v : Version) (d : Device) : List UInt8 :=
  bytesAt d.mem 0 (BUFSIZE v)

def memoryCleanup (v : Version) (d : Device) : Device where
  mem := memset d.mem 0 0 (BUFSIZE v)
  loc := 0

/-- What loading the module comes to.  `oops` is the null pointer that the
minimal version hands to `memset` when the allocation fails. -/
inductive InitOutcome where
  | loaded (device : Device)
  | failed (result : Int)
  | oops

/-- `memory_init`, given the result of `register_chrdev` and the block that
`kmalloc` returned, if any. -/
def memoryInit (v : Version) (result : Int) (block : Option ByteMemory) : InitOutcome :=
  match v with
  | .memory =>
      if result < 0 then .failed result
      else
        match block with
        | none => .failed (-12)
        | some mem => .loaded { mem := memset mem 0 0 (BUFSIZE v), loc := 0 }
  | .minimalVersion =>
      match block with
      | none => .oops
      | some mem => .loaded { mem := memset mem 0 0 (BUFSIZE v), loc := 0 }

def memoryOpen (d : Device) : Device × Int := (d, 0)

def memoryRelease (d : Device) : Device × Int := (d, 0)

/-- `memory_read`.  The copy comes before the position is looked at, and its
result and the caller's `count` are both ignored. -/
def memoryRead (v : Version) (d : Device) (room _count : Nat) (fpos : Int) : Reply Device :=
  let copy := copyToUser room d.mem 0 (BUFSIZE v)
  if fpos = 0 then
    { device := d, fpos := fpos + BUFSIZE v, ret := BUFSIZE v, data := copy.data }
  else
    { device := memoryCleanup v d, fpos := fpos, ret := 0, data := copy.data }

/-- `memory_write`.  Whatever the copy reports, `loc` moves on and one byte is
claimed to be written. -/
def memoryWrite (d : Device) (buf : List UInt8) (_count : Nat) (fpos : Int) : Reply Device :=
  let copy := copyFromUser d.mem d.loc buf 1
  { device := { mem := copy.mem, loc := wrapLong (d.loc + 1) }
    fpos := fpos
    ret := 1
    stored := copy.stored }

def memoryFops (v : Version) : FileOps Device where
  openFile := memoryOpen
  release := memoryRelease
  read d room count fpos := some (memoryRead v d room count fpos)
  write d buf count fpos := some (memoryWrite d buf count fpos)

theorem memoryFops_passive (v : Version) : (memoryFops v).Passive where
  openFile _ := rfl
  release _ := rfl

/-! ## The driver with its clients -/

/-- The device as a successful `memory_init` leaves it, for a block whose
surroundings are `heap`. -/
def initialDevice (v : Version) (heap : ByteMemory) : Device where
  mem := memset heap 0 0 (BUFSIZE v)
  loc := 0

/-- A successful `memory_init` always gives this device, in both copies. -/
theorem memoryInit_loaded {v : Version} {result : Int} {block : Option ByteMemory} {d : Device}
    (success : memoryInit v result block = .loaded d) :
    ∃ heap, block = some heap ∧ d = initialDevice v heap := by
  cases block with
  | none =>
      cases v with
      | memory =>
          simp only [memoryInit] at success
          split at success <;> cases success
      | minimalVersion => cases success
  | some heap =>
      refine ⟨heap, rfl, ?_⟩
      cases v with
      | memory =>
          simp only [memoryInit] at success
          split at success
          · cases success
          · exact (InitOutcome.loaded.inj success).symm
      | minimalVersion => exact (InitOutcome.loaded.inj success).symm

section Clients

variable {File : Type*} [DecidableEq File]

/-- The driver serving any number of files. -/
abbrev system (v : Version) (File : Type*) [DecidableEq File] :
    Machine (Session Device File) (Call File) (Option Answer) :=
  (memoryFops v).machine File

/-- The session just after loading: no file is open. -/
def initial (v : Version) (heap : ByteMemory) : Session Device File :=
  Session.fresh (initialDevice v heap)

/-- A read that reaches the driver away from position zero clears the device. -/
def clears (s : Session Device File) (call : Call File) : Bool :=
  match s.readsAt call with
  | none => false
  | some fpos => fpos != 0

/-- The number of writes since the last clear, kept up to date by one call. -/
def tally (s : Session Device File) (call : Call File) (fill : Nat) : Nat :=
  if s.writes call then fill + 1 else if clears s call then 0 else fill

/-- The driver watched by a count of the writes since the last clear. -/
abbrev counted (v : Version) (File : Type*) [DecidableEq File] :
    Machine (Session Device File × Nat) (Call File) (Option Answer) :=
  (system v File).withGhost tally

/-- Every write of the history is issued when fewer than `BUFSIZE` writes were
issued since the last clear: between two clears there are at most `BUFSIZE`. -/
def NeverFull (v : Version) (s : Session Device File) (calls : List (Call File)) : Prop :=
  (counted v File).Along (fun state call => state.1.writes call = true → state.2 < BUFSIZE v)
    (s, 0) calls

instance decidableNeverFull (v : Version) (s : Session Device File) (calls : List (Call File)) :
    Decidable (NeverFull v s calls) :=
  inferInstanceAs (Decidable ((counted v File).Along _ (s, 0) calls))

/-- What one call does to the device and what it shows. -/
inductive Effect (v : Version) (s : Session Device File) :
    Call File → Device → Option Answer → Prop where
  | write (file : File) (buf : List UInt8) (count : Nat)
      (opened : s.writes (.write file buf count) = true) :
      Effect v s (.write file buf count)
        { mem := Function.update s.device.mem s.device.loc (buf.headD 0)
          loc := wrapLong (s.device.loc + 1) }
        (some { ret := 1, stored := [s.device.loc] })
  | start (file : File) (room count : Nat) (opened : s.fpos file = some 0) :
      Effect v s (.read file room count) s.device
        (some { ret := BUFSIZE v, data := bytesAt s.device.mem 0 (min (BUFSIZE v) room) })
  | finish (file : File) (room count : Nat)
      (cleared : clears s (.read file room count) = true) :
      Effect v s (.read file room count) (memoryCleanup v s.device)
        (some { ret := 0, data := bytesAt s.device.mem 0 (min (BUFSIZE v) room) })
  | idle (call : Call File) (ret : Int) (noWrite : s.writes call = false)
      (noRead : s.readsAt call = none) :
      Effect v s call s.device (some { ret := ret })

/-- Every call has one of these effects: everything later about the device is
a case distinction over the four. -/
theorem effect_step (v : Version) (s : Session Device File) (call : Call File) :
    Effect v s call ((system v File).next s call).device ((system v File).out s call) := by
  have effect := FileOps.effect_step (memoryFops_passive v) s call
  simp only [Machine.next, Machine.out]
  generalize (system v File).step s call = outcome at effect ⊢
  cases effect with
  | read file room count fpos opened =>
      by_cases start : fpos = 0
      · subst start
        exact .start file room count opened
      · simp only [Session.settle, memoryFops, memoryRead, if_neg start, Reply.answer, copyToUser]
        refine .finish file room count ?_
        simp only [clears, Session.readsAt, opened, bne_iff_ne, ne_eq, start, not_false_eq_true]
  | write file buf count fpos opened =>
      have reaches : s.writes (.write file buf count) = true := by
        simp only [Session.writes, opened, Option.isSome_some]
      simp only [Session.settle, memoryFops, memoryWrite, Reply.answer, copyFromUser_one,
        copyFromUser_one_stored]
      exact .write file buf count reaches
  | idle call fpos ret noWrite noRead => exact .idle call ret noWrite noRead

end Clients

end MemoryDevice
end KernelHacking
