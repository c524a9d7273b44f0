import KernelHacking.Foundations.UserLoops
import KernelHacking.ParallelPort.Driver

namespace KernelHacking
namespace ParallelPort

/-!
# Reading the port

The comment in the setup script says that the state of the port is checked with
`cat`.  A program of this kind opens the device and reads until a call returns
zero.  `parlelport_read` samples the port, copies the byte out and then returns
zero before it looks at the position, so the program stops after its first call
and has been given nothing.
-/

variable {File : Type*} [DecidableEq File]

/-- The session in which `reader` has just opened the device. -/
def openedBy (s : Session Device File) (reader : File) : Session Device File :=
  (system File).next s (.openFile reader)

/-- What `reader` collects when it opens the device and reads until a call
returns zero. -/
def readSession (s : Session Device File) (reader : File) (room rounds : Nat) :
    FileOps.Collected Device File :=
  FileOps.readAll parlelportFops reader room rounds (openedBy s reader)

/-- The session comes to its end, delivers the value that the port showed to
its first sample, and leaves the driver's variables at zero. -/
structure DeliversSample (s : Session Device File) (reader : File) (room rounds : Nat) : Prop where
  finished : (readSession s reader room rounds).finished = true
  data : (readSession s reader room rounds).data = [(openedBy s reader).device.inputs 0]
  loc : (readSession s reader room rounds).session.device.loc = 0
  buffer : (readSession s reader room rounds).session.device.parlelportBuffer = 0

theorem openedBy_device (s : Session Device File) (reader : File) :
    (openedBy s reader).device = s.device := by
  have effect := effect_step s (.openFile reader)
  rw [openedBy]
  generalize ((system File).next s (.openFile reader)).device = device,
    (system File).out s (.openFile reader) = answer at effect ⊢
  cases effect with
  | idle _ ret _ _ => rfl

/-- After its open the file has a position, whether it is new or was open before. -/
theorem openedBy_fpos (s : Session Device File) (reader : File) :
    ∃ fpos, (openedBy s reader).fpos reader = some fpos := by
  simp only [openedBy, Machine.next, FileOps.machine, parlelportFops, parlelportOpen, if_true]
  cases current : s.fpos reader with
  | none => exact ⟨0, Function.update_self ..⟩
  | some fpos => exact ⟨fpos, current⟩

/-- The first call ends the session: it takes one sample, reports nothing and
keeps `loc`. -/
theorem readSession_succ (s : Session Device File) (reader : File) (room rounds : Nat) :
    (readSession s reader room (rounds + 1)).finished = true ∧
      (readSession s reader room (rounds + 1)).data = [] ∧
      (readSession s reader room (rounds + 1)).session.device = s.device.sample := by
  rcases openedBy_fpos s reader with ⟨fpos, opened⟩
  have returned : parlelportFops.read (openedBy s reader).device room room fpos =
      some (parlelportRead (openedBy s reader).device room room fpos) := rfl
  rw [readSession, FileOps.readAll_end opened returned rfl]
  refine ⟨rfl, rfl, ?_⟩
  simp only [Session.settle, parlelportRead, openedBy_device]

theorem readSession_data (s : Session Device File) (reader : File) (room rounds : Nat) :
    (readSession s reader room rounds).data = [] := by
  cases rounds with
  | zero => rfl
  | succ rounds => exact (readSession_succ s reader room rounds).2.1

/-- After no history, and for no values on the port, does a reading program get
the sample: every session ends with its first call and without a byte. -/
theorem readSession_delivers_nothing (around : ByteMemory) (inputs : Nat → UInt8)
    (calls : List (Call File)) (reader : File) (room rounds : Nat) :
    let s := (system File).run (initial around inputs) calls
    (readSession s reader room (rounds + 1)).finished = true ∧
      (readSession s reader room (rounds + 1)).data = [] ∧
      ¬ DeliversSample s reader room rounds := by
  intro s
  have ended := readSession_succ s reader room rounds
  refine ⟨ended.1, ended.2.1, ?_⟩
  intro delivers
  have empty := readSession_data s reader room rounds
  exact List.cons_ne_nil _ _ (delivers.data.symm.trans empty)

/-- The first program to read the port after loading, with a page to read into
and time for two calls. -/
theorem readSession_after_load :
    ¬ DeliversSample (initial (fun _ => 0) (fun _ => 0x41) : Session Device Unit) () 4096 2 := by
  intro delivers
  have empty := readSession_data (initial (fun _ => 0) fun _ => 0x41 : Session Device Unit) () 4096 2
  exact List.cons_ne_nil _ _ (delivers.data.symm.trans empty)

end ParallelPort
end KernelHacking
