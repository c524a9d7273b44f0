import KernelHacking.Foundations.Resources
import KernelHacking.Keyboard.Micro

namespace KernelHacking
namespace Keyboard

/-!
# The handler while a keyboard comes and goes

The serio core calls the interrupt handler of the driver that `serio->drv`
names, and passes it nothing but the port: the handler finds its control
structure, and through it the input device, in `driver_data`.  A byte may arrive
between any two steps of `atkbd_connect` and `atkbd_disconnect`.

The two drivers take these steps with different calls.  `3-atkbd` leaves
`serio->drv` to `serio_open` and `serio_close`; the micro driver assigns it by
hand, never opens the port, and leaves `driver_data` dangling behind its
disconnect.
-/

/-- What the driver allocates.  Unregistering an input device frees it. -/
inductive Object where
  | atkbd (id : Nat)
  | inputDev (id : Nat)
  deriving DecidableEq

/-- One step of `atkbd_connect` or `atkbd_disconnect`.  A `store` touches only
the control structure and its input device. -/
inductive Action (Atkbd : Type*) where
  | kzalloc
  | inputAllocateDevice
  | store (change : Atkbd → Atkbd)
  | setDrvdata
  | setDrv
  | openPort
  | inputRegisterDevice
  | getDrvdata
  | closePort
  | clearDrv
  | clearDrvdata
  | inputUnregisterDevice
  | kfree
  | ret

/-- The port, the objects, and the local variable `atkbd` of the function that
runs.  `control` and `dev` are what the control structures contain. -/
structure Serio (Atkbd : Type*) where
  drv : Bool := false
  driverData : Option Nat := none
  atkbd : Option Nat := none
  objects : Heap Object := Heap.fresh
  control : Nat → Atkbd
  dev : Nat → Option Nat := fun _ => none
  allocated : Nat := 0

/-- A driver with its two functions and its handler. -/
structure SerioDriver (Atkbd : Type*) where
  zeroed : Atkbd
  interrupt : Atkbd → UInt8 → Atkbd × List Effect
  connect : List (Action Atkbd)
  disconnect : List (Action Atkbd)

section Steps

variable {Atkbd : Type*}

/-- One step.  The port's own open method may refuse, and `serio_open` then
takes the driver off the port again. -/
def SerioDriver.perform (d : SerioDriver Atkbd) (s : Serio Atkbd) (portOpens : Bool) :
    Action Atkbd → Serio Atkbd
  | .kzalloc =>
      { s with
        atkbd := some s.allocated
        objects := Function.update s.objects (.atkbd s.allocated) .live
        control := Function.update s.control s.allocated d.zeroed
        dev := Function.update s.dev s.allocated none
        allocated := s.allocated + 1 }
  | .inputAllocateDevice =>
      match s.atkbd with
      | none => s
      | some id =>
          { s with
            objects := Function.update s.objects (.inputDev s.allocated) .live
            dev := Function.update s.dev id (some s.allocated)
            allocated := s.allocated + 1 }
  | .store change =>
      match s.atkbd with
      | none => s
      | some id => { s with control := Function.update s.control id (change (s.control id)) }
  | .setDrvdata => { s with driverData := s.atkbd }
  | .setDrv => { s with drv := true }
  | .openPort => { s with drv := s.drv && portOpens }
  | .inputRegisterDevice => s
  | .getDrvdata => { s with atkbd := s.driverData }
  | .closePort => s
  | .clearDrv => { s with drv := false }
  | .clearDrvdata => { s with driverData := none }
  | .inputUnregisterDevice =>
      match s.atkbd.bind s.dev with
      | none => s
      | some id => { s with objects := Function.update s.objects (.inputDev id) .freed }
  | .kfree =>
      match s.atkbd with
      | none => s
      | some id => { s with objects := Function.update s.objects (.atkbd id) .freed }
  | .ret => { s with atkbd := none }

/-- The port with the steps that the running function has still to take.  The
serio core regards the driver as bound from the call of its connect function to
that of its disconnect function. -/
structure Bus (Atkbd : Type*) where
  serio : Serio Atkbd
  bound : Bool := false
  pending : List (Action Atkbd) := []

/-- The serio core calls one of the functions, the running one takes a step, or
a byte arrives. -/
inductive BusOp where
  | connect
  | disconnect
  | step (portOpens : Bool)
  | byte (data : UInt8)

/-- What becomes of a byte: the handler may not be called for it, or run, or
dereference a null pointer. -/
inductive Handling where
  | idle
  | dropped
  | handled (effects : List Effect)
  | nullPointer
  deriving DecidableEq

/-- The serio core calls the two functions in turn, one at a time, and the
handler whenever the port has a driver. -/
def SerioDriver.machine (d : SerioDriver Atkbd) : Machine (Bus Atkbd) BusOp Handling where
  step b op :=
    match op with
    | .connect =>
        if b.bound = false ∧ b.pending.isEmpty then
          ({ b with bound := true, pending := d.connect }, .idle)
        else (b, .idle)
    | .disconnect =>
        if b.bound = true ∧ b.pending.isEmpty then
          ({ b with bound := false, pending := d.disconnect }, .idle)
        else (b, .idle)
    | .step portOpens =>
        match b.pending with
        | [] => (b, .idle)
        | action :: rest =>
            ({ b with serio := d.perform b.serio portOpens action, pending := rest }, .idle)
    | .byte data =>
        if b.serio.drv then
          match b.serio.driverData with
          | none => (b, .nullPointer)
          | some id =>
              let (atkbd, effects) := d.interrupt (b.serio.control id) data
              ({ b with serio :=
                  { b.serio with control := Function.update b.serio.control id atkbd } },
                .handled effects)
        else (b, .dropped)

/-- The port as the serio core found it. -/
def SerioDriver.initial (d : SerioDriver Atkbd) : Bus Atkbd where
  serio := { control := fun _ => d.zeroed }

/-- The structure and its input device are allocated and in use. -/
def Serio.Equipped (s : Serio Atkbd) (id : Nat) : Prop :=
  s.objects (.atkbd id) = .live ∧ ∃ dev, s.dev id = some dev ∧ s.objects (.inputDev dev) = .live

/-- What the handler finds: `driver_data` points to such a structure. -/
def Serio.FindsLive (s : Serio Atkbd) : Prop :=
  ∃ id, s.driverData = some id ∧ s.Equipped id

/-- A call of the handler finds live objects. -/
def HandlerSafe (b : Bus Atkbd) (op : BusOp) : Prop :=
  forall data, op = .byte data → b.serio.drv = true → b.serio.FindsLive

end Steps

/-! ## The two drivers -/

namespace Cut

/-- A round of the loop that composes the table of keycodes. -/
def keycodeRound (i : Nat) : List (Action Atkbd) :=
  let scancode := atkbdUnxlate i
  [.store fun atkbd =>
      { atkbd with keycode := Function.update atkbd.keycode i (atkbdKeycode scancode) },
    .store fun atkbd =>
      { atkbd with keycode :=
        Function.update atkbd.keycode (i ||| 0x80) (atkbdKeycode (scancode ||| 0x80)) }]

/-- A round of the loop that declares the keys. -/
def keybitRound (i : Nat) : List (Action Atkbd) :=
  [.store fun atkbd =>
    { atkbd with dev :=
      { atkbd.dev with keybit := Function.update atkbd.dev.keybit (atkbd.keycode i) true } }]

/-- The attributes of the device.  Its `phys`, its `name` and the pointer back to
the control structure are stored outside of what the model keeps. -/
def deviceAttrs : List (Action Atkbd) :=
  [.store id, .store id, .store id, .store id,
    .store fun atkbd => { atkbd with dev := { atkbd.dev with evbit := bitMask EV_KEY } }]

/-- `atkbd_connect`. -/
def connectSteps : List (Action Atkbd) :=
  [.kzalloc, .inputAllocateDevice, .store id, .setDrvdata, .setDrv, .openPort] ++
    ((List.range 128).flatMap keycodeRound ++ deviceAttrs ++
      (List.range ATKBD_KEYMAP_SIZE).flatMap keybitRound) ++
    [.inputRegisterDevice, .ret]

/-- `atkbd_disconnect`. -/
def disconnectSteps : List (Action Atkbd) :=
  [.getDrvdata, .closePort, .clearDrv, .clearDrvdata, .inputUnregisterDevice, .kfree, .ret]

def serioDriver : SerioDriver Atkbd where
  zeroed := {}
  interrupt := atkbdInterrupt
  connect := connectSteps
  disconnect := disconnectSteps

end Cut

namespace Micro

/-- A round of the loop that declares the keys. -/
def keybitRound (i : Nat) : List (Action Atkbd) :=
  [.store fun atkbd =>
    { atkbd with dev :=
      { atkbd.dev with keybit := Function.update atkbd.dev.keybit (atkbdMyKeycodes i) true } }]

def deviceAttrs : List (Action Atkbd) :=
  [.store id, .store id,
    .store fun atkbd => { atkbd with dev := { atkbd.dev with evbit := 1 <<< 1 } }]

/-- `atkbd_connect`, which puts itself on the port. -/
def connectSteps : List (Action Atkbd) :=
  [.kzalloc, .inputAllocateDevice, .store id, .setDrvdata, .setDrv] ++
    (deviceAttrs ++ (List.range ATKBD_KEYMAP_SIZE).flatMap keybitRound) ++
    [.inputRegisterDevice, .ret]

/-- `atkbd_disconnect`. -/
def disconnectSteps : List (Action Atkbd) :=
  [.getDrvdata, .closePort, .clearDrv, .inputUnregisterDevice, .kfree, .ret]

def serioDriver : SerioDriver Atkbd where
  zeroed := {}
  interrupt := atkbdInterrupt
  connect := connectSteps
  disconnect := disconnectSteps

end Micro

/-- What a step stores into the control structure. -/
def Action.apply {Atkbd : Type*} : Action Atkbd → Atkbd → Atkbd
  | .store change, atkbd => change atkbd
  | _, atkbd => atkbd

def stored {Atkbd : Type*} (steps : List (Action Atkbd)) (atkbd : Atkbd) : Atkbd :=
  steps.foldl (fun atkbd action => action.apply atkbd) atkbd

theorem stored_append {Atkbd : Type*} (first second : List (Action Atkbd)) (atkbd : Atkbd) :
    stored (first ++ second) atkbd = stored second (stored first atkbd) :=
  List.foldl_append ..

/-- A loop whose rounds only change one part of the structure. -/
theorem stored_loop {Atkbd Part : Type*} (whole : Part → Atkbd) (n : Nat)
    (steps : Nat → List (Action Atkbd)) (body : Nat → Part → Part)
    (agree : forall i part, stored (steps i) (whole part) = whole (body i part)) {part : Part}
    {atkbd : Atkbd} (start : atkbd = whole part) :
    stored ((List.range n).flatMap steps) atkbd = whole (countedLoop n body part) := by
  subst start
  induction n with
  | zero => rfl
  | succ n ih =>
      rw [List.range_succ, List.flatMap_append, stored_append, ih, countedLoop_succ,
        List.flatMap_singleton, agree]

theorem Cut.stored_keycodes (atkbd : Cut.Atkbd) :
    stored ((List.range 128).flatMap Cut.keycodeRound) atkbd =
      { atkbd with keycode := composeKeymap Cut.atkbdKeycode atkbd.keycode } := by
  rw [stored_loop (fun keycode => { atkbd with keycode := keycode }) 128 Cut.keycodeRound _
    (fun _ _ => rfl) rfl, composeKeymap]
  rfl

theorem Cut.stored_keybits (atkbd : Cut.Atkbd) :
    stored ((List.range ATKBD_KEYMAP_SIZE).flatMap Cut.keybitRound) atkbd =
      { atkbd with dev :=
        { atkbd.dev with keybit := declareKeys atkbd.keycode atkbd.dev.keybit } } := by
  rw [stored_loop (fun keybit => { atkbd with dev := { atkbd.dev with keybit := keybit } })
    ATKBD_KEYMAP_SIZE Cut.keybitRound _ (fun _ _ => rfl) rfl, declareKeys]

theorem Micro.stored_keybits (atkbd : Micro.Atkbd) :
    stored ((List.range ATKBD_KEYMAP_SIZE).flatMap Micro.keybitRound) atkbd =
      { atkbd with dev :=
        { atkbd.dev with keybit := declareKeys Micro.atkbdMyKeycodes atkbd.dev.keybit } } := by
  rw [stored_loop (fun keybit => { atkbd with dev := { atkbd.dev with keybit := keybit } })
    ATKBD_KEYMAP_SIZE Micro.keybitRound _ (fun _ _ => rfl) rfl, declareKeys]

/-- The steps of a connect function that nothing interrupts are the function. -/
theorem Cut.stored_connect : stored Cut.connectSteps {} = Cut.atkbdConnect := by
  rw [Cut.connectSteps, stored_append, stored_append, stored_append, stored_append,
    Cut.stored_keybits, Cut.stored_keycodes, Cut.atkbdConnect]
  simp only [stored, Cut.deviceAttrs, List.foldl_cons, List.foldl_nil, Action.apply, id_eq]

theorem Micro.stored_connect : stored Micro.connectSteps {} = Micro.atkbdConnect := by
  rw [Micro.connectSteps, stored_append, stored_append, stored_append, Micro.stored_keybits,
    Micro.atkbdConnect]
  simp only [stored, Micro.deviceAttrs, List.foldl_cons, List.foldl_nil, Action.apply, id_eq]

/-! ## What is known between two steps -/

/-- How far the objects of a keyboard are set up. -/
inductive Stage where
  | vacant
  | allocated
  | equipped
  | linked
  | serving
  | bound
  deriving DecidableEq

/-- A step that only stores. -/
def Action.Stores {Atkbd : Type*} (action : Action Atkbd) : Prop :=
  ∃ change, action = .store change

namespace Stage

variable {Atkbd : Type*}

/-- The stages in which a step is safe, and those it leads to. -/
def next : Stage → Action Atkbd → Option Stage
  | .vacant, .kzalloc => some .allocated
  | .vacant, .ret => some .vacant
  | .allocated, .inputAllocateDevice => some .equipped
  | .allocated, .kfree => some .vacant
  | .equipped, .store _ => some .equipped
  | .equipped, .setDrvdata => some .linked
  | .equipped, .inputUnregisterDevice => some .allocated
  | .linked, .setDrv => some .serving
  | .linked, .clearDrvdata => some .equipped
  | .linked, .inputUnregisterDevice => some .allocated
  | .serving, .store _ => some .serving
  | .serving, .openPort => some .serving
  | .serving, .inputRegisterDevice => some .serving
  | .serving, .closePort => some .serving
  | .serving, .clearDrv => some .linked
  | .serving, .ret => some .bound
  | .bound, .getDrvdata => some .serving
  | _, _ => none

/-- The stage after some steps, if each of them is safe. -/
def checks (stage : Stage) : List (Action Atkbd) → Option Stage
  | [] => some stage
  | action :: rest => (stage.next action).bind fun after => after.checks rest

/-- What a stage says about the port and the objects.  Until `driver_data` is
set, and again after the port is closed, the port has no driver. -/
def Describes (s : Serio Atkbd) : Stage → Prop
  | .vacant => s.drv = false
  | .allocated => s.drv = false ∧ ∃ id, s.atkbd = some id ∧ s.objects (.atkbd id) = .live
  | .equipped => s.drv = false ∧ ∃ id, s.atkbd = some id ∧ s.Equipped id
  | .linked => s.drv = false ∧ ∃ id, s.atkbd = some id ∧ s.Equipped id ∧ s.driverData = some id
  | .serving => ∃ id, s.atkbd = some id ∧ s.Equipped id ∧ s.driverData = some id
  | .bound => s.FindsLive

theorem checks_append (stage : Stage) (first second : List (Action Atkbd)) :
    stage.checks (first ++ second) = (stage.checks first).bind fun after => after.checks second := by
  induction first generalizing stage with
  | nil => rfl
  | cons action rest ih =>
      rw [List.cons_append, checks, checks, Option.bind_assoc]
      exact congrArg (stage.next action).bind (funext ih)

/-- While the driver is on the port, its control structure may be filled. -/
theorem checks_stores {steps : List (Action Atkbd)}
    (stores : forall action, action ∈ steps → action.Stores) :
    Stage.serving.checks steps = some .serving := by
  induction steps with
  | nil => rfl
  | cons action rest ih =>
      rcases stores action List.mem_cons_self with ⟨change, rfl⟩
      exact ih fun later member => stores later (List.mem_cons_of_mem _ member)

/-- A connect function puts the driver on the port, fills its structure and
returns. -/
theorem checks_connect {opening stores closing : List (Action Atkbd)}
    (opens : Stage.vacant.checks opening = some .serving)
    (every : forall action, action ∈ stores → action.Stores)
    (closes : Stage.serving.checks closing = some .bound) :
    Stage.vacant.checks (opening ++ stores ++ closing) = some .bound := by
  rw [checks_append, checks_append, opens, Option.bind_some, checks_stores every, Option.bind_some,
    closes]

end Stage

theorem Cut.connect_checks : Stage.vacant.checks Cut.connectSteps = some .bound := by
  have stores : forall action, action ∈ (List.range 128).flatMap Cut.keycodeRound ++
      Cut.deviceAttrs ++ (List.range ATKBD_KEYMAP_SIZE).flatMap Cut.keybitRound →
      action.Stores := by
    intro action member
    rcases List.mem_append.mp member with member | member
    · rcases List.mem_append.mp member with member | member
      · rcases List.mem_flatMap.mp member with ⟨i, _, here⟩
        rcases List.mem_pair.mp here with rfl | rfl
        · exact ⟨_, rfl⟩
        · exact ⟨_, rfl⟩
      · simp only [Cut.deviceAttrs, List.mem_cons, List.not_mem_nil, or_false] at member
        rcases member with rfl | rfl | rfl | rfl | rfl <;> exact ⟨_, rfl⟩
    · rcases List.mem_flatMap.mp member with ⟨i, _, here⟩
      exact ⟨_, List.mem_singleton.mp here⟩
  exact Stage.checks_connect rfl stores rfl

theorem Micro.connect_checks : Stage.vacant.checks Micro.connectSteps = some .bound := by
  have stores : forall action, action ∈
      Micro.deviceAttrs ++ (List.range ATKBD_KEYMAP_SIZE).flatMap Micro.keybitRound →
      action.Stores := by
    intro action member
    rcases List.mem_append.mp member with member | member
    · simp only [Micro.deviceAttrs, List.mem_cons, List.not_mem_nil, or_false] at member
      rcases member with rfl | rfl | rfl <;> exact ⟨_, rfl⟩
    · rcases List.mem_flatMap.mp member with ⟨i, _, here⟩
      exact ⟨_, List.mem_singleton.mp here⟩
  exact Stage.checks_connect rfl stores rfl

/-! ## The steps keep what is known -/

section Safety

variable {Atkbd : Type*} (d : SerioDriver Atkbd) {s : Serio Atkbd}

/-- What happens to an input device does not happen to a control structure. -/
theorem update_inputDev (objects : Heap Object) (dev id : Nat) (cell : Cell) :
    Function.update objects (.inputDev dev) cell (.atkbd id) = objects (.atkbd id) := by
  have apart : Object.atkbd id ≠ .inputDev dev := nofun
  rw [Function.update_of_ne apart]

theorem Stage.Describes.kzalloc (portOpens : Bool) (known : Stage.vacant.Describes s) :
    Stage.allocated.Describes (d.perform s portOpens .kzalloc) :=
  ⟨known, s.allocated, rfl, Function.update_self ..⟩

theorem Stage.Describes.inputAllocateDevice (portOpens : Bool)
    (known : Stage.allocated.Describes s) :
    Stage.equipped.Describes (d.perform s portOpens .inputAllocateDevice) := by
  rcases known with ⟨off, id, here, live⟩
  simp only [SerioDriver.perform, here]
  refine ⟨off, id, rfl, ?_, s.allocated, Function.update_self .., Function.update_self ..⟩
  simpa only [update_inputDev] using live

/-- The control structure outlives its input device. -/
theorem Serio.Equipped.inputUnregisterDevice (portOpens : Bool) {id : Nat}
    (here : s.atkbd = some id) (equipped : s.Equipped id) (off : s.drv = false) :
    Stage.allocated.Describes (d.perform s portOpens .inputUnregisterDevice) := by
  rcases equipped with ⟨live, dev, field, _⟩
  simp only [SerioDriver.perform, here, Option.bind_some, field]
  refine ⟨off, id, rfl, ?_⟩
  simpa only [update_inputDev] using live

theorem Stage.Describes.kfree (portOpens : Bool) (known : Stage.allocated.Describes s) :
    Stage.vacant.Describes (d.perform s portOpens .kfree) := by
  rcases known with ⟨off, id, here, _⟩
  simp only [SerioDriver.perform, here]
  exact off

theorem Stage.Describes.perform {stage after : Stage} {action : Action Atkbd} (portOpens : Bool)
    (known : stage.Describes s) (safe : stage.next action = some after) :
    after.Describes (d.perform s portOpens action) := by
  cases stage with
  | vacant =>
      cases action with
      | kzalloc => cases safe; exact known.kzalloc d portOpens
      | ret => cases safe; exact known
      | _ => cases safe
  | allocated =>
      cases action with
      | inputAllocateDevice => cases safe; exact known.inputAllocateDevice d portOpens
      | kfree => cases safe; exact known.kfree d portOpens
      | _ => cases safe
  | equipped =>
      rcases known with ⟨off, id, here, equipped⟩
      cases action with
      | store change =>
          cases safe
          simp only [SerioDriver.perform, here]
          exact ⟨off, id, rfl, equipped⟩
      | setDrvdata => cases safe; exact ⟨off, id, here, equipped, here⟩
      | inputUnregisterDevice =>
          cases safe
          exact equipped.inputUnregisterDevice d portOpens here off
      | _ => cases safe
  | linked =>
      rcases known with ⟨off, id, here, equipped, linked⟩
      cases action with
      | setDrv => cases safe; exact ⟨id, here, equipped, linked⟩
      | clearDrvdata => cases safe; exact ⟨off, id, here, equipped⟩
      | inputUnregisterDevice =>
          cases safe
          exact equipped.inputUnregisterDevice d portOpens here off
      | _ => cases safe
  | serving =>
      rcases known with ⟨id, here, equipped, linked⟩
      cases action with
      | store change =>
          cases safe
          simp only [SerioDriver.perform, here]
          exact ⟨id, rfl, equipped, linked⟩
      | openPort => cases safe; exact ⟨id, here, equipped, linked⟩
      | inputRegisterDevice => cases safe; exact ⟨id, here, equipped, linked⟩
      | closePort => cases safe; exact ⟨id, here, equipped, linked⟩
      | clearDrv => cases safe; exact ⟨rfl, id, here, equipped, linked⟩
      | ret => cases safe; exact ⟨id, linked, equipped⟩
      | _ => cases safe
  | bound =>
      rcases known with ⟨id, linked, equipped⟩
      cases action with
      | getDrvdata => cases safe; exact ⟨id, linked, equipped, linked⟩
      | _ => cases safe

/-- What is known is not about the contents of a control structure. -/
theorem Stage.Describes.setControl {stage : Stage} (known : stage.Describes s)
    (control : Nat → Atkbd) : stage.Describes { s with control := control } := by
  cases stage <;> exact known

/-- In every stage a port with a driver leads to live objects. -/
theorem Stage.Describes.findsLive {stage : Stage} (known : stage.Describes s)
    (on : s.drv = true) : s.FindsLive := by
  cases stage with
  | vacant => exact absurd (known.symm.trans on) Bool.false_ne_true
  | allocated => exact absurd (known.1.symm.trans on) Bool.false_ne_true
  | equipped => exact absurd (known.1.symm.trans on) Bool.false_ne_true
  | linked => exact absurd (known.1.symm.trans on) Bool.false_ne_true
  | serving =>
      rcases known with ⟨id, _, equipped, linked⟩
      exact ⟨id, linked, equipped⟩
  | bound => exact known

/-! ## Every run -/

/-- A driver whose functions consist of safe steps. -/
structure SerioDriver.Safe (d : SerioDriver Atkbd) : Prop where
  connect : Stage.vacant.checks d.connect = some .bound
  disconnect : Stage.bound.checks d.disconnect = some .vacant

/-- What the running function has still to do is safe, and leads to the stage
in which the serio core expects the port. -/
def OnCourse (b : Bus Atkbd) : Prop :=
  ∃ stage : Stage, stage.Describes b.serio ∧
    stage.checks b.pending = some (if b.bound then .bound else .vacant)

theorem onCourse_next {d : SerioDriver Atkbd} (safe : d.Safe) {b : Bus Atkbd}
    (onCourse : OnCourse b) (op : BusOp) : OnCourse (d.machine.next b op) := by
  rcases onCourse with ⟨stage, known, checked⟩
  cases op with
  | connect =>
      simp only [Machine.next, SerioDriver.machine]
      split
      · rename_i idle
        rw [List.isEmpty_iff.mp idle.2, idle.1] at checked
        cases checked
        exact ⟨.vacant, known, safe.connect⟩
      · exact ⟨stage, known, checked⟩
  | disconnect =>
      simp only [Machine.next, SerioDriver.machine]
      split
      · rename_i idle
        rw [List.isEmpty_iff.mp idle.2, idle.1] at checked
        cases checked
        exact ⟨.bound, known, safe.disconnect⟩
      · exact ⟨stage, known, checked⟩
  | step portOpens =>
      simp only [Machine.next, SerioDriver.machine]
      cases later : b.pending with
      | nil => exact ⟨stage, known, checked⟩
      | cons action rest =>
          rw [later] at checked
          rcases Option.bind_eq_some_iff.mp checked with ⟨after, allowed, checkedRest⟩
          exact ⟨after, known.perform d portOpens allowed, checkedRest⟩
  | byte data =>
      simp only [Machine.next, SerioDriver.machine]
      split
      · split
        · exact ⟨stage, known, checked⟩
        · exact ⟨stage, known.setControl _, checked⟩
      · exact ⟨stage, known, checked⟩

/-- With safe connect and disconnect functions, no interleaving of their steps
with bytes lets the handler touch a dead object. -/
theorem SerioDriver.Safe.along {d : SerioDriver Atkbd} (safe : d.Safe) (ops : List BusOp) :
    d.machine.Along HandlerSafe d.initial ops := by
  refine Machine.along_of_invariant_of_step d.machine OnCourse HandlerSafe ?_ ?_ ?_ ops
  · intro b op onCourse
    exact onCourse_next safe onCourse op
  · intro b op onCourse data _ on
    rcases onCourse with ⟨stage, known, _⟩
    exact known.findsLive on
  · exact ⟨.vacant, rfl, rfl⟩

end Safety

theorem Cut.serioDriver_safe : Cut.serioDriver.Safe where
  connect := Cut.connect_checks
  disconnect := rfl

theorem Micro.serioDriver_safe : Micro.serioDriver.Safe where
  connect := Micro.connect_checks
  disconnect := rfl

/-- In both drivers, over any number of keyboards coming and going and whenever
the bytes arrive, each call of the handler finds a live control structure with
a live input device. -/
theorem handler_finds_live (ops : List BusOp) :
    Cut.serioDriver.machine.Along HandlerSafe Cut.serioDriver.initial ops ∧
      Micro.serioDriver.machine.Along HandlerSafe Micro.serioDriver.initial ops :=
  ⟨Cut.serioDriver_safe.along ops, Micro.serioDriver_safe.along ops⟩

/-- The micro driver is called as soon as it has put itself on the port, and
reports a key of a device that is not registered yet. -/
example :
    Micro.serioDriver.machine.out (Micro.serioDriver.machine.run Micro.serioDriver.initial
        (.connect :: List.replicate 5 (.step true))) (.byte 0x1e) =
      .handled [.key 30 1, .sync] := rfl

end Keyboard
end KernelHacking
