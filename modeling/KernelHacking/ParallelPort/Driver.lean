import KernelHacking.Foundations.KernelMemory
import KernelHacking.Foundations.FileOps

namespace KernelHacking
namespace ParallelPort

/-!
# The parallel port driver

The variable `parlelport_buffer` is one byte long.  A read samples the port
into it, and a write takes a byte from the user and puts the variable on the
port.  The index `loc` was taken over from the character device: every write
moves it on, and `parlelport_cleanup`, which would reset it, is only called
behind a `return`.

The variable stands at address zero.  Other variables of the module follow it
in memory, in an order that is up to the compiler; they are kept apart here,
so what the model says of a run stops at its first store beyond the variable.
-/

def BUFSIZE : Nat := 1

/-- The driver's variables and the port.  `inputs` are the values that the
port will show to the samples still to come, and `output` the bytes put on it
so far. -/
structure Device where
  mem : ByteMemory
  loc : Int
  inputs : Nat → UInt8
  output : List UInt8

/-- The value of `parlelport_buffer`. -/
def Device.parlelportBuffer (d : Device) : UInt8 := d.mem 0

/-- `parlelport_buffer = inb(IOPORT)`. -/
def Device.sample (d : Device) : Device :=
  { d with mem := Function.update d.mem 0 (d.inputs 0), inputs := fun i => d.inputs (i + 1) }

def parlelportOpen (d : Device) : Device × Int := (d, 0)

def parlelportRelease (d : Device) : Device × Int := (d, 0)

/-- `parlelport_read`.  It returns zero right after the copy, and the test of
the position behind that is never reached. -/
def parlelportRead (d : Device) (room _count : Nat) (fpos : Int) : Reply Device :=
  let d := d.sample
  let copy := copyToUser room d.mem 0 BUFSIZE
  { device := d, fpos := fpos, ret := 0, data := copy.data }

/-- `parlelport_write`. -/
def parlelportWrite (d : Device) (buf : List UInt8) (_count : Nat) (fpos : Int) : Reply Device :=
  let copy := copyFromUser d.mem d.loc buf 1
  let d := { d with mem := copy.mem, loc := wrapLong (d.loc + 1) }
  { device := { d with output := d.output ++ [d.parlelportBuffer] }
    fpos := fpos
    ret := 1
    stored := copy.stored }

def parlelportFops : FileOps Device where
  openFile := parlelportOpen
  release := parlelportRelease
  read d room count fpos := some (parlelportRead d room count fpos)
  write d buf count fpos := some (parlelportWrite d buf count fpos)

theorem parlelportFops_passive : parlelportFops.Passive where
  openFile _ := rfl
  release _ := rfl

/-- The driver as it is loaded, next to other variables. -/
def initialDevice (around : ByteMemory) (inputs : Nat → UInt8) : Device where
  mem := Function.update around 0 0
  loc := 0
  inputs := inputs
  output := []

section Clients

variable {File : Type*} [DecidableEq File]

/-- The driver serving any number of files. -/
abbrev system (File : Type*) [DecidableEq File] :
    Machine (Session Device File) (Call File) (Option Answer) :=
  parlelportFops.machine File

/-- The session just after loading. -/
def initial (around : ByteMemory) (inputs : Nat → UInt8) : Session Device File :=
  Session.fresh (initialDevice around inputs)

/-- What one call does to the driver's variables and the port, and where it
stores. -/
inductive Effect (s : Session Device File) : Call File → Device → Option Answer → Prop where
  | write (file : File) (buf : List UInt8) (count : Nat)
      (opened : s.writes (.write file buf count) = true) :
      Effect s (.write file buf count)
        { s.device with
          mem := Function.update s.device.mem s.device.loc (buf.headD 0)
          loc := wrapLong (s.device.loc + 1)
          output := s.device.output ++
            [Function.update s.device.mem s.device.loc (buf.headD 0) 0] }
        (some { ret := 1, stored := [s.device.loc] })
  | read (file : File) (room count : Nat) (fpos : Int) (opened : s.fpos file = some fpos) :
      Effect s (.read file room count) s.device.sample
        (some { ret := 0, data := bytesAt s.device.sample.mem 0 (min BUFSIZE room) })
  | idle (call : Call File) (ret : Int) (noWrite : s.writes call = false)
      (noRead : s.readsAt call = none) : Effect s call s.device (some { ret := ret })

theorem effect_step (s : Session Device File) (call : Call File) :
    Effect s call ((system File).next s call).device ((system File).out s call) := by
  have effect := FileOps.effect_step parlelportFops_passive s call
  simp only [Machine.next, Machine.out]
  generalize (system File).step s call = outcome at effect ⊢
  cases effect with
  | read file room count fpos opened => exact .read file room count fpos opened
  | write file buf count fpos opened =>
      have reaches : s.writes (.write file buf count) = true := by
        simp only [Session.writes, opened, Option.isSome_some]
      simp only [Session.settle, parlelportFops, parlelportWrite, Reply.answer, copyFromUser_one,
        copyFromUser_one_stored, Device.parlelportBuffer]
      exact .write file buf count reaches
  | idle call fpos ret noWrite noRead => exact .idle call ret noWrite noRead

end Clients

end ParallelPort
end KernelHacking
