import Mathlib.Logic.Function.Basic
import KernelHacking.Foundations.Machine

namespace KernelHacking

universe u

/-!
# Devices behind a table of open files

A device driver hands the kernel its methods in a `struct file_operations`.
The kernel keeps one position per open file and passes it by reference to the
read and write methods, while the device itself is shared by all files.  This
module turns a set of methods into a `Machine` over such sessions, with any
number of files.

A method may fail to return at all: a bad pointer dereferenced in kernel mode
kills the calling process.  Its reply is then `none`, and the session keeps
the state it had.  A call on a file that is not open never reaches the driver.
-/

/-- What a read or write method leaves behind: the device, the file position,
the value returned, the bytes stored in the user's buffer and the kernel
addresses stored to. -/
structure Reply (Dev : Type u) where
  device : Dev
  fpos : Int
  ret : Int
  data : List UInt8 := []
  stored : List Int := []

/-- The part of a reply that can be observed from outside. -/
structure Answer where
  ret : Int
  data : List UInt8 := []
  stored : List Int := []
  deriving DecidableEq

def Reply.answer {Dev : Type u} (reply : Reply Dev) : Answer :=
  { ret := reply.ret, data := reply.data, stored := reply.stored }

/-- The answer to a call on a file that is not open. -/
def badFile : Answer := { ret := -9 }

/-- The methods of a device.  `room` is the number of bytes that can be stored
in the user's buffer and `buf` is the list of bytes that can be read from it. -/
structure FileOps (Dev : Type u) where
  openFile : Dev → Dev × Int
  release : Dev → Dev × Int
  read : Dev → (room count : Nat) → (fpos : Int) → Option (Reply Dev)
  write : Dev → (buf : List UInt8) → (count : Nat) → (fpos : Int) → Option (Reply Dev)

/-- A call by one of the clients.  `seek` stands for every way in which a file
comes to a position other than through the device's own methods. -/
inductive Call (File : Type*) where
  | openFile (file : File)
  | release (file : File)
  | seek (file : File) (pos : Int)
  | read (file : File) (room count : Nat)
  | write (file : File) (buf : List UInt8) (count : Nat)
  deriving DecidableEq

/-- The shared device and the position of every open file. -/
structure Session (Dev : Type u) (File : Type*) where
  device : Dev
  fpos : File → Option Int

namespace Session

variable {Dev : Type u} {File : Type*} [DecidableEq File]

/-- Install what a method left behind at the file it was called for. -/
def settle (s : Session Dev File) (file : File) :
    Option (Reply Dev) → Session Dev File × Option Answer
  | none => (s, none)
  | some reply =>
      ({ device := reply.device, fpos := Function.update s.fpos file (some reply.fpos) },
        some reply.answer)

/-- The kernel looks the file up before it enters the driver. -/
def onOpen (s : Session Dev File) (file : File)
    (enter : Int → Session Dev File × Option Answer) : Session Dev File × Option Answer :=
  match s.fpos file with
  | none => (s, some badFile)
  | some fpos => enter fpos

omit [DecidableEq File] in
theorem onOpen_none {s : Session Dev File} {file : File} (closed : s.fpos file = none)
    (enter : Int → Session Dev File × Option Answer) :
    s.onOpen file enter = (s, some badFile) := by
  simp only [onOpen, closed]

omit [DecidableEq File] in
theorem onOpen_some {s : Session Dev File} {file : File} {fpos : Int}
    (opened : s.fpos file = some fpos) (enter : Int → Session Dev File × Option Answer) :
    s.onOpen file enter = enter fpos := by
  simp only [onOpen, opened]

/-- The call is a write that reaches the driver. -/
def writes (s : Session Dev File) : Call File → Bool
  | .write file _ _ => (s.fpos file).isSome
  | _ => false

/-- The position at which a read reaches the driver. -/
def readsAt (s : Session Dev File) : Call File → Option Int
  | .read file _ _ => s.fpos file
  | _ => none

/-- A session in which no file is open. -/
def fresh (device : Dev) : Session Dev File where
  device := device
  fpos := fun _ => none

end Session

namespace FileOps

variable {Dev : Type u} {File : Type*} [DecidableEq File]

/-- The device together with the kernel's file table. -/
def machine (ops : FileOps Dev) (File : Type*) [DecidableEq File] :
    Machine (Session Dev File) (Call File) (Option Answer) where
  step s call :=
    match call with
    | .openFile file =>
        match s.fpos file with
        | some _ => (s, some badFile)
        | none =>
            let (device, ret) := ops.openFile s.device
            if ret = 0 then
              ({ device := device, fpos := Function.update s.fpos file (some 0) }, some { ret := ret })
            else
              ({ s with device := device }, some { ret := ret })
    | .release file =>
        s.onOpen file fun _ =>
          let (device, ret) := ops.release s.device
          ({ device := device, fpos := Function.update s.fpos file none }, some { ret := ret })
    | .seek file pos =>
        s.onOpen file fun _ =>
          ({ s with fpos := Function.update s.fpos file (some pos) }, some { ret := pos })
    | .read file room count =>
        s.onOpen file fun fpos => s.settle file (ops.read s.device room count fpos)
    | .write file buf count =>
        s.onOpen file fun fpos => s.settle file (ops.write s.device buf count fpos)

theorem step_read (ops : FileOps Dev) {s : Session Dev File} {file : File} {fpos : Int}
    (opened : s.fpos file = some fpos) (room count : Nat) :
    (ops.machine File).step s (.read file room count) =
      s.settle file (ops.read s.device room count fpos) :=
  Session.onOpen_some opened _

theorem step_write (ops : FileOps Dev) {s : Session Dev File} {file : File} {fpos : Int}
    (opened : s.fpos file = some fpos) (buf : List UInt8) (count : Nat) :
    (ops.machine File).step s (.write file buf count) =
      s.settle file (ops.write s.device buf count fpos) :=
  Session.onOpen_some opened _

/-- A device whose open and release methods do nothing but return zero. -/
structure Passive (ops : FileOps Dev) : Prop where
  openFile : forall device, ops.openFile device = (device, 0)
  release : forall device, ops.release device = (device, 0)

/-- What one call can do to a session of a passive device: reach the driver's
read or write method, or leave the device alone and show no data. -/
inductive Effect (ops : FileOps Dev) (s : Session Dev File) :
    Call File → Session Dev File × Option Answer → Prop where
  | read (file : File) (room count : Nat) (fpos : Int) (opened : s.fpos file = some fpos) :
      Effect ops s (.read file room count) (s.settle file (ops.read s.device room count fpos))
  | write (file : File) (buf : List UInt8) (count : Nat) (fpos : Int)
      (opened : s.fpos file = some fpos) :
      Effect ops s (.write file buf count) (s.settle file (ops.write s.device buf count fpos))
  | idle (call : Call File) (fpos : File → Option Int) (ret : Int)
      (noWrite : s.writes call = false) (noRead : s.readsAt call = none) :
      Effect ops s call ({ device := s.device, fpos := fpos }, some { ret := ret })

private theorem effect_onOpen {ops : FileOps Dev} (s : Session Dev File) (call : Call File)
    (file : File) (enter : Int → Session Dev File × Option Answer)
    (closedIdle : s.fpos file = none → s.writes call = false ∧ s.readsAt call = none)
    (entered : forall fpos, s.fpos file = some fpos → Effect ops s call (enter fpos)) :
    Effect ops s call (s.onOpen file enter) := by
  cases current : s.fpos file with
  | none =>
      rw [Session.onOpen_none current]
      exact .idle call s.fpos (-9) (closedIdle current).1 (closedIdle current).2
  | some fpos =>
      rw [Session.onOpen_some current]
      exact entered fpos current

/-- Every step of a passive device has one of the three effects. -/
theorem effect_step {ops : FileOps Dev} (passive : ops.Passive) (s : Session Dev File)
    (call : Call File) : Effect ops s call ((ops.machine File).step s call) := by
  cases call with
  | openFile file =>
      simp only [machine, passive.openFile, if_true]
      cases s.fpos file with
      | some fpos => exact .idle _ s.fpos _ rfl rfl
      | none => exact .idle _ _ _ rfl rfl
  | release file =>
      simp only [machine, passive.release]
      exact effect_onOpen s _ file _ (fun _ => ⟨rfl, rfl⟩) fun _ _ => .idle _ _ _ rfl rfl
  | seek file pos =>
      exact effect_onOpen s _ file _ (fun _ => ⟨rfl, rfl⟩) fun _ _ => .idle _ _ _ rfl rfl
  | read file room count =>
      exact effect_onOpen s _ file _ (fun closed => ⟨rfl, closed⟩) (.read file room count)
  | write file buf count =>
      refine effect_onOpen s _ file _ (fun closed => ⟨?_, rfl⟩) (.write file buf count)
      simp only [Session.writes, closed, Option.isSome_none]

/-! ## Refinement between two devices -/

/-- Two replies leave related devices, the same position and the same visible
answer; or neither call returns. -/
def ReplyMatch {Dev' : Type*} {Obs : Type*} (R : Dev → Dev' → Prop) (see : Answer → Obs) :
    Option (Reply Dev) → Option (Reply Dev') → Prop
  | some reply, some reply' =>
      R reply.device reply'.device ∧ reply.fpos = reply'.fpos ∧
        see reply.answer = see reply'.answer
  | none, none => True
  | _, _ => False

/-- The methods of one device follow those of another as long as the calls are
the ones that the guard `P` allows. -/
structure Refines {Dev' : Type*} {Obs : Type*} (ops : FileOps Dev) (ops' : FileOps Dev')
    (R : Dev → Dev' → Prop) (P : Session Dev File → Call File → Prop) (see : Answer → Obs) :
    Prop where
  openFile : forall device device', R device device' →
    R (ops.openFile device).1 (ops'.openFile device').1 ∧
      (ops.openFile device).2 = (ops'.openFile device').2
  release : forall device device', R device device' →
    R (ops.release device).1 (ops'.release device').1 ∧
      (ops.release device).2 = (ops'.release device').2
  read : forall (s : Session Dev File) device' file room count fpos, R s.device device' →
    s.fpos file = some fpos → P s (.read file room count) →
      ReplyMatch R see (ops.read s.device room count fpos) (ops'.read device' room count fpos)
  write : forall (s : Session Dev File) device' file buf count fpos, R s.device device' →
    s.fpos file = some fpos → P s (.write file buf count) →
      ReplyMatch R see (ops.write s.device buf count fpos) (ops'.write device' buf count fpos)

/-- Sessions are related when their devices are and all positions agree. -/
def Related {Dev' : Type*} (R : Dev → Dev' → Prop) (s : Session Dev File)
    (s' : Session Dev' File) : Prop :=
  R s.device s'.device ∧ s.fpos = s'.fpos

section Simulation

variable {Dev' : Type*} {Obs : Type*} {R : Dev → Dev' → Prop} {see : Answer → Obs}

/-- Two outcomes of one call agree: related sessions and the same visible answer. -/
def OutcomeMatch (R : Dev → Dev' → Prop) (see : Answer → Obs)
    (outcome : Session Dev File × Option Answer) (outcome' : Session Dev' File × Option Answer) :
    Prop :=
  Related R outcome.1 outcome'.1 ∧ outcome.2.map see = outcome'.2.map see

private theorem settle_match {s : Session Dev File} {s' : Session Dev' File}
    (related : Related R s s') (file : File) {reply : Option (Reply Dev)}
    {reply' : Option (Reply Dev')} (agree : ReplyMatch R see reply reply') :
    OutcomeMatch R see (s.settle file reply) (s'.settle file reply') := by
  cases reply with
  | none =>
      cases reply' with
      | none => exact ⟨related, rfl⟩
      | some reply' => exact agree.elim
  | some reply =>
      cases reply' with
      | none => exact agree.elim
      | some reply' =>
          refine ⟨⟨agree.1, ?_⟩, congrArg some agree.2.2⟩
          simp only [Session.settle, related.2, agree.2.1]

omit [DecidableEq File] in
private theorem onOpen_match {s : Session Dev File} {s' : Session Dev' File}
    (related : Related R s s') (file : File) {enter : Int → Session Dev File × Option Answer}
    {enter' : Int → Session Dev' File × Option Answer}
    (agree : forall fpos, s.fpos file = some fpos → OutcomeMatch R see (enter fpos) (enter' fpos)) :
    OutcomeMatch R see (s.onOpen file enter) (s'.onOpen file enter') := by
  cases current : s.fpos file with
  | none =>
      rw [Session.onOpen_none current, Session.onOpen_none (related.2 ▸ current)]
      exact ⟨related, rfl⟩
  | some fpos =>
      rw [Session.onOpen_some current, Session.onOpen_some (related.2 ▸ current)]
      exact agree fpos current

/-- One guarded call on related sessions has matching outcomes. -/
theorem Refines.step_match {ops : FileOps Dev} {ops' : FileOps Dev'}
    {P : Session Dev File → Call File → Prop} (refines : Refines ops ops' R P see)
    {s : Session Dev File} {s' : Session Dev' File} (related : Related R s s') {call : Call File}
    (allowed : P s call) :
    OutcomeMatch R see ((ops.machine File).step s call) ((ops'.machine File).step s' call) := by
  cases call with
  | openFile file =>
      have opened := refines.openFile s.device s'.device related.1
      simp only [machine, related.2, opened.2]
      cases s'.fpos file with
      | some fpos => exact ⟨related, rfl⟩
      | none =>
          simp only
          split
          · exact ⟨⟨opened.1, rfl⟩, rfl⟩
          · exact ⟨⟨opened.1, rfl⟩, rfl⟩
  | release file =>
      have released := refines.release s.device s'.device related.1
      apply onOpen_match related
      intro fpos _
      simp only [related.2, released.2]
      exact ⟨⟨released.1, rfl⟩, rfl⟩
  | seek file pos =>
      apply onOpen_match related
      intro fpos _
      rw [related.2]
      exact ⟨⟨related.1, rfl⟩, rfl⟩
  | read file room count =>
      apply onOpen_match related
      intro fpos opened
      exact settle_match related file
        (refines.read s _ file room count fpos related.1 opened allowed)
  | write file buf count =>
      apply onOpen_match related
      intro fpos opened
      exact settle_match related file
        (refines.write s _ file buf count fpos related.1 opened allowed)

/-- Over every guarded interleaving a refining device shows what the other
one shows, and their sessions stay related. -/
theorem Refines.simulation {ops : FileOps Dev} {ops' : FileOps Dev'}
    {P : Session Dev File → Call File → Prop} (refines : Refines ops ops' R P see)
    {s : Session Dev File} {s' : Session Dev' File} {calls : List (Call File)}
    (related : Related R s s') (along : (ops.machine File).Along P s calls) :
    Related R ((ops.machine File).run s calls) ((ops'.machine File).run s' calls) ∧
      ((ops.machine File).trace s calls).map (Option.map see) =
        ((ops'.machine File).trace s' calls).map (Option.map see) :=
  Machine.simulation (ops.machine File) (ops'.machine File) (Related R) P _ _
    (fun _ _ _ related allowed => refines.step_match related allowed) related along

end Simulation

end FileOps
end KernelHacking
