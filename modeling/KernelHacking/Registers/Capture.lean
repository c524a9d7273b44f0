import KernelHacking.Foundations.WordMemory

namespace KernelHacking
namespace Registers

open WordMemory

/-!
# The register captures `get_rip` and `get_cr0`

Both macros save `rax` on the stack, bring the captured value into `rax`, store
it through the memory operand `%0` and restore `rax`.  The operand was chosen by
the compiler for the place where the sequence starts, but it is evaluated by
the store, after the push: an operand relative to `rsp` then denotes the eight
bytes before the field it was meant for.

The store is also the last write before `rax` is read back, so it must not hit
the saved copy.
-/

inductive Register
  | rax | rbx | rcx | rdx | rsi | rdi | rsp | rbp
  | r8 | r9 | r10 | r11 | r12 | r13 | r14 | r15
  deriving DecidableEq, Repr

structure Cpu where
  reg : Register -> BitVec 64
  cr0 : BitVec 64
  mem : WordMemory

/-- The forms of `%0`: a fixed address, or a displacement from a register that
is not `rax`, which may be `rbp` or `rsp`. -/
inductive Operand
  | absolute (address : BitVec 64)
  | based (base : Register) (notRax : base ≠ .rax) (displacement : BitVec 64)

def Operand.address : Operand -> Cpu -> BitVec 64
  | .absolute address, _ => address
  | .based base _ displacement, cpu => cpu.reg base + displacement

def Operand.RspRelative : Operand -> Prop
  | .absolute _ => False
  | .based base _ _ => base = .rsp

/-! ## Instructions -/

inductive Instruction
  | pushq (source : Register)
  | popq (target : Register)
  /-- A call of the label that stands directly behind it. -/
  | call (label : BitVec 64)
  | movqFromCr0 (target : Register)
  | movqTo (source : Register) (operand : Operand)

namespace Cpu

def setReg (cpu : Cpu) (target : Register) (word : BitVec 64) : Cpu :=
  { cpu with reg := Function.update cpu.reg target word }

/-- The stack pointer moves down first, and the word goes where it then points. -/
def push (cpu : Cpu) (word : BitVec 64) : Cpu :=
  { cpu.setReg .rsp (cpu.reg .rsp - 8#64) with
    mem := storeWord cpu.mem (cpu.reg .rsp - 8#64) word }

def step (cpu : Cpu) : Instruction -> Cpu
  | .pushq source => cpu.push (cpu.reg source)
  | .popq target =>
      (cpu.setReg .rsp (cpu.reg .rsp + 8#64)).setReg target (loadWord cpu.mem (cpu.reg .rsp))
  | .call label => cpu.push label
  | .movqFromCr0 target => cpu.setReg target cpu.cr0
  | .movqTo source operand =>
      { cpu with mem := storeWord cpu.mem (operand.address cpu) (cpu.reg source) }

def run (cpu : Cpu) (code : List Instruction) : Cpu := code.foldl step cpu

@[simp] theorem setReg_reg_self (cpu : Cpu) (target : Register) (word : BitVec 64) :
    (cpu.setReg target word).reg target = word := by
  simp [setReg]

theorem setReg_reg_of_ne (cpu : Cpu) {target r : Register} (word : BitVec 64)
    (other : r ≠ target) : (cpu.setReg target word).reg r = cpu.reg r := by
  simp [setReg, other]

theorem run_append (cpu : Cpu) (first second : List Instruction) :
    cpu.run (first ++ second) = (cpu.run first).run second :=
  List.foldl_append

end Cpu

def getRip (label : BitVec 64) (operand : Operand) : List Instruction :=
  [.pushq .rax, .call label, .popq .rax, .movqTo .rax operand, .popq .rax]

def getCr0 (operand : Operand) : List Instruction :=
  [.pushq .rax, .movqFromCr0 .rax, .movqTo .rax operand, .popq .rax]

/-- What is captured: `rip`, as the address of the local label, or `cr0`. -/
inductive Capture
  | rip (label : BitVec 64)
  | cr0

namespace Capture

def code : Capture -> Operand -> List Instruction
  | .rip label, operand => getRip label operand
  | .cr0, operand => getCr0 operand

def value : Capture -> Cpu -> BitVec 64
  | .rip label, _ => label
  | .cr0, cpu => cpu.cr0

end Capture

/-! ## The capture law -/

/-- Addresses at a negative distance from the stack pointer. -/
def BelowStack (cpu : Cpu) (address : BitVec 64) : Prop :=
  (address - cpu.reg .rsp).toInt < 0

/-- A capture stores its value in the field that the operand denotes on entry,
keeps every register, and changes no other memory above the stack pointer. -/
structure LeavesIntact (capture : Capture) (operand : Operand) (cpu : Cpu) : Prop where
  stored :
    loadWord (cpu.run (capture.code operand)).mem (operand.address cpu) = capture.value cpu
  registers : forall r, (cpu.run (capture.code operand)).reg r = cpu.reg r
  control : (cpu.run (capture.code operand)).cr0 = cpu.cr0
  memory : forall address, ¬ InWord (operand.address cpu) address → ¬ BelowStack cpu address →
    (cpu.run (capture.code operand)).mem address = cpu.mem address

/-! ## What a capture does -/

/-- Where `rax` is saved. -/
def slot (cpu : Cpu) : BitVec 64 := cpu.reg .rsp - 8#64

/-- The address that the operand denotes when the store evaluates it. -/
def Operand.storeAddress (operand : Operand) (cpu : Cpu) : BitVec 64 :=
  operand.address (cpu.setReg .rsp (slot cpu))

/-- Memory when the store is reached: `get_rip` has pushed the return address
behind the saved `rax` and taken it off again. -/
def Capture.pushed : Capture -> Cpu -> WordMemory
  | .rip label, cpu => storeWord (storeWord cpu.mem (slot cpu) (cpu.reg .rax)) (slot cpu - 8#64) label
  | .cr0, cpu => storeWord cpu.mem (slot cpu) (cpu.reg .rax)

/-- Memory behind the store, and at the end of the sequence. -/
def Capture.left (capture : Capture) (operand : Operand) (cpu : Cpu) : WordMemory :=
  storeWord (capture.pushed cpu) (operand.storeAddress cpu) (capture.value cpu)

theorem storeAddress_of_not_rspRelative {operand : Operand} (cpu : Cpu)
    (elsewhere : ¬ operand.RspRelative) : operand.storeAddress cpu = operand.address cpu := by
  cases operand with
  | absolute address => rfl
  | based base notRax displacement =>
      exact congrArg (· + displacement) (cpu.setReg_reg_of_ne (slot cpu) elsewhere)

theorem storeAddress_of_rspRelative {operand : Operand} (cpu : Cpu)
    (onStack : operand.RspRelative) :
    operand.storeAddress cpu = operand.address cpu - 8#64 := by
  cases operand with
  | absolute address => exact absurd onStack id
  | based base notRax displacement =>
      cases onStack
      have moved : (cpu.setReg .rsp (slot cpu)).reg .rsp = cpu.reg .rsp - 8#64 :=
        cpu.setReg_reg_self .rsp (slot cpu)
      change (cpu.setReg .rsp (slot cpu)).reg .rsp + displacement = cpu.reg .rsp + displacement - 8#64
      rw [moved]
      bv_omega

/-- No operand reads `rax` or memory. -/
theorem address_congr (operand : Operand) {cpu cpu' : Cpu}
    (same : forall r, r ≠ .rax → cpu.reg r = cpu'.reg r) :
    operand.address cpu = operand.address cpu' := by
  cases operand with
  | absolute address => rfl
  | based base notRax displacement => exact congrArg (· + displacement) (same base notRax)

/-- The state in which the store is executed. -/
def Capture.ready (capture : Capture) (cpu : Cpu) : Cpu where
  reg := Function.update (Function.update cpu.reg .rsp (slot cpu)) .rax (capture.value cpu)
  cr0 := cpu.cr0
  mem := capture.pushed cpu

/-- The instructions of a sequence that come before the store. -/
def Capture.fetch : Capture -> List Instruction
  | .rip label => [.pushq .rax, .call label, .popq .rax]
  | .cr0 => [.pushq .rax, .movqFromCr0 .rax]

theorem code_eq_fetch_append (capture : Capture) (operand : Operand) :
    capture.code operand = capture.fetch ++ [.movqTo .rax operand, .popq .rax] := by
  cases capture <;> rfl

theorem run_fetch (capture : Capture) (cpu : Cpu) :
    cpu.run capture.fetch = capture.ready cpu := by
  cases capture with
  | rip label =>
      have back : cpu.reg .rsp - 8#64 - 8#64 + 8#64 = cpu.reg .rsp - 8#64 :=
        BitVec.sub_add_cancel _ _
      simp [Cpu.run, Cpu.step, Cpu.push, Cpu.setReg, Capture.fetch, Capture.ready, Capture.pushed,
        Capture.value, slot, back]
  | cr0 =>
      simp [Cpu.run, Cpu.step, Cpu.push, Cpu.setReg, Capture.fetch, Capture.ready, Capture.pushed,
        Capture.value, slot]

/-- With the stack pointer back where it was, only `rax` can differ. -/
theorem reg_after_pop (reg : Register -> BitVec 64) (pointer value word : BitVec 64) :
    Function.update
        (Function.update (Function.update (Function.update reg .rsp pointer) .rax value) .rsp
          (reg .rsp)) .rax word =
      Function.update reg .rax word := by
  funext r
  by_cases isRax : r = .rax
  · subst isRax
    simp
  · by_cases isRsp : r = .rsp
    · subst isRsp
      simp
    · simp [isRax, isRsp]

/-- A whole sequence writes memory as `Capture.left` says and reloads `rax` from
the saved copy found there. -/
theorem run_code (capture : Capture) (operand : Operand) (cpu : Cpu) :
    cpu.run (capture.code operand) =
      { reg := Function.update cpu.reg .rax (loadWord (capture.left operand cpu) (slot cpu))
        cr0 := cpu.cr0
        mem := capture.left operand cpu } := by
  have evaluated : operand.address (capture.ready cpu) = operand.storeAddress cpu := by
    apply address_congr
    intro r notRax
    exact Function.update_of_ne notRax _ _
  have value : (capture.ready cpu).reg .rax = capture.value cpu := by simp [Capture.ready]
  have pointer : (capture.ready cpu).reg .rsp = slot cpu := by simp [Capture.ready]
  have restored : slot cpu + 8#64 = cpu.reg .rsp := BitVec.sub_add_cancel _ _
  rw [code_eq_fetch_append, Cpu.run_append, run_fetch]
  simp only [Cpu.run, List.foldl_cons, List.foldl_nil, Cpu.step, Cpu.setReg, evaluated, value,
    pointer, restored]
  simp only [Capture.ready, Capture.left, reg_after_pop]

theorem run_mem (capture : Capture) (operand : Operand) (cpu : Cpu) :
    (cpu.run (capture.code operand)).mem = capture.left operand cpu := by
  rw [run_code]

/-! ## When the law holds -/

/-- `get_rip` pushes its label there, behind the saved `rax`. -/
def Capture.Returns : Capture -> Cpu -> BitVec 64 -> Prop
  | .rip _, cpu, address => InWord (slot cpu - 8#64) address
  | .cr0, _, _ => False

/-- The saved `rax` survives the store, and a store that misses the field (the
operand is relative to `rsp`) happens to change nothing: the field holds the value
on entry, but where it lies in the stack words that are pushed and agrees with what
is pushed there, and so do the bytes that are overwritten in its place. -/
structure Harmless (capture : Capture) (operand : Operand) (cpu : Cpu) : Prop where
  saved : forall address, InWord (slot cpu) address → InWord (operand.storeAddress cpu) address →
    byteOf (capture.value cpu) (offsetIn (operand.storeAddress cpu) address) =
      byteOf (cpu.reg .rax) (offsetIn (slot cpu) address)
  present : operand.RspRelative → forall address, InWord (operand.address cpu) address →
    ¬ InWord (slot cpu) address → ¬ capture.Returns cpu address →
    cpu.mem address = byteOf (capture.value cpu) (offsetIn (operand.address cpu) address)
  overSaved : operand.RspRelative → forall address, InWord (operand.address cpu) address →
    InWord (slot cpu) address →
    byteOf (cpu.reg .rax) (offsetIn (slot cpu) address) =
      byteOf (capture.value cpu) (offsetIn (operand.address cpu) address)
  overReturn : operand.RspRelative → forall address, InWord (operand.address cpu) address →
    capture.Returns cpu address →
    byteOf (capture.value cpu) (offsetIn (slot cpu - 8#64) address) =
      byteOf (capture.value cpu) (offsetIn (operand.address cpu) address)
  spared : operand.RspRelative → forall address, InWord (operand.storeAddress cpu) address →
    ¬ BelowStack cpu address →
    byteOf (capture.value cpu) (offsetIn (operand.storeAddress cpu) address) = cpu.mem address

theorem belowStack_iff (cpu : Cpu) (address : BitVec 64) :
    BelowStack cpu address ↔ 2 ^ 63 ≤ (address - cpu.reg .rsp).toNat := by
  rw [BelowStack, BitVec.toInt_neg_iff]
  omega

/-- Both pushed words lie below the stack pointer. -/
theorem belowStack_of_inWord_slot {cpu : Cpu} {address : BitVec 64}
    (inside : InWord (slot cpu) address) : BelowStack cpu address := by
  rw [belowStack_iff]
  unfold InWord offsetIn slot at inside
  bv_omega

theorem belowStack_of_inWord_return {cpu : Cpu} {address : BitVec 64}
    (inside : InWord (slot cpu - 8#64) address) : BelowStack cpu address := by
  rw [belowStack_iff]
  unfold InWord offsetIn slot at inside
  bv_omega

theorem belowStack_of_returns {capture : Capture} {cpu : Cpu} {address : BitVec 64}
    (returns : capture.Returns cpu address) : BelowStack cpu address := by
  cases capture with
  | rip label => exact belowStack_of_inWord_return returns
  | cr0 => exact returns.elim

/-! The three places of memory when the store is reached: the saved `rax`, the
label behind it, and the rest. -/

theorem pushed_saved (capture : Capture) {cpu : Cpu} {address : BitVec 64}
    (inside : InWord (slot cpu) address) :
    capture.pushed cpu address = byteOf (cpu.reg .rax) (offsetIn (slot cpu) address) := by
  cases capture with
  | rip label =>
      rw [Capture.pushed, storeWord_outside _ _ (not_inWord_sub_eight inside)]
      exact storeWord_inside _ _ inside
  | cr0 => exact storeWord_inside _ _ inside

theorem pushed_returns {capture : Capture} {cpu : Cpu} {address : BitVec 64}
    (returns : capture.Returns cpu address) :
    capture.pushed cpu address =
      byteOf (capture.value cpu) (offsetIn (slot cpu - 8#64) address) := by
  cases capture with
  | rip label => exact storeWord_inside _ _ returns
  | cr0 => exact returns.elim

theorem pushed_elsewhere {capture : Capture} {cpu : Cpu} {address : BitVec 64}
    (offSlot : ¬ InWord (slot cpu) address) (offReturn : ¬ capture.Returns cpu address) :
    capture.pushed cpu address = cpu.mem address := by
  cases capture with
  | rip label => rw [Capture.pushed, storeWord_outside _ _ offReturn, storeWord_outside _ _ offSlot]
  | cr0 => rw [Capture.pushed, storeWord_outside _ _ offSlot]

theorem pushed_above (capture : Capture) {cpu : Cpu} {address : BitVec 64}
    (above : ¬ BelowStack cpu address) : capture.pushed cpu address = cpu.mem address :=
  pushed_elsewhere (fun inside => above (belowStack_of_inWord_slot inside))
    fun returns => above (belowStack_of_returns returns)

/-- The return address of `get_rip` is pushed behind the saved `rax`, not over it. -/
theorem loadWord_pushed_slot (capture : Capture) (cpu : Cpu) :
    loadWord (capture.pushed cpu) (slot cpu) = cpu.reg .rax := by
  rw [loadWord_eq_iff]
  intro address inside
  exact pushed_saved capture inside

/-- The field holds the value in the end: either the store went there, or it
went elsewhere and the value was there before. -/
theorem loadWord_left_iff (capture : Capture) (operand : Operand) (cpu : Cpu) :
    loadWord (capture.left operand cpu) (operand.address cpu) = capture.value cpu ↔
      (operand.RspRelative →
        loadWord (capture.pushed cpu) (operand.address cpu) = capture.value cpu) := by
  by_cases onStack : operand.RspRelative
  · have untouched : loadWord (capture.left operand cpu) (operand.address cpu) =
        loadWord (capture.pushed cpu) (operand.address cpu) := by
      apply loadWord_congr
      intro address inside
      rw [Capture.left, storeAddress_of_rspRelative cpu onStack]
      exact storeWord_outside _ _ (not_inWord_sub_eight inside)
    rw [untouched]
    exact ⟨fun held _ => held, fun held => held onStack⟩
  · have held : loadWord (capture.left operand cpu) (operand.address cpu) = capture.value cpu := by
      rw [Capture.left, storeAddress_of_not_rspRelative cpu onStack]
      exact loadWord_storeWord _ _ _
    exact ⟨fun _ relative => absurd relative onStack, fun _ => held⟩

/-- What a field holds when the store is reached, by what it holds on entry. -/
theorem loadWord_pushed_iff (capture : Capture) (cpu : Cpu) (field : BitVec 64) :
    loadWord (capture.pushed cpu) field = capture.value cpu ↔
      (forall address, InWord field address → ¬ InWord (slot cpu) address →
        ¬ capture.Returns cpu address →
        cpu.mem address = byteOf (capture.value cpu) (offsetIn field address)) ∧
      (forall address, InWord field address → InWord (slot cpu) address →
        byteOf (cpu.reg .rax) (offsetIn (slot cpu) address) =
          byteOf (capture.value cpu) (offsetIn field address)) ∧
      (forall address, InWord field address → capture.Returns cpu address →
        byteOf (capture.value cpu) (offsetIn (slot cpu - 8#64) address) =
          byteOf (capture.value cpu) (offsetIn field address)) := by
  rw [loadWord_eq_iff]
  constructor
  · intro held
    refine ⟨?_, ?_, ?_⟩
    · intro address inside offSlot offReturn
      rw [← held address inside, pushed_elsewhere offSlot offReturn]
    · intro address inside inSlot
      rw [← held address inside, pushed_saved capture inSlot]
    · intro address inside returns
      rw [← held address inside, pushed_returns returns]
  · rintro ⟨elsewhere, saved, returned⟩ address inside
    by_cases inSlot : InWord (slot cpu) address
    · rw [pushed_saved capture inSlot]
      exact saved address inside inSlot
    · by_cases returns : capture.Returns cpu address
      · rw [pushed_returns returns]
        exact returned address inside returns
      · rw [pushed_elsewhere inSlot returns]
        exact elsewhere address inside inSlot returns

theorem registers_iff (capture : Capture) (operand : Operand) (cpu : Cpu) :
    (forall r, (cpu.run (capture.code operand)).reg r = cpu.reg r) ↔
      loadWord (capture.left operand cpu) (slot cpu) = cpu.reg .rax := by
  rw [run_code]
  constructor
  · intro kept
    exact Function.update_eq_self_iff.mp (funext kept)
  · intro restored r
    exact congrFun (Function.update_eq_self_iff.mpr restored) r

/-- Above the stack pointer and outside the field, only a store that missed the
field can have changed anything. -/
theorem memory_iff (capture : Capture) (operand : Operand) (cpu : Cpu) :
    (forall address, ¬ InWord (operand.address cpu) address → ¬ BelowStack cpu address →
        capture.left operand cpu address = cpu.mem address) ↔
      (operand.RspRelative → forall address, InWord (operand.storeAddress cpu) address →
        ¬ BelowStack cpu address →
        byteOf (capture.value cpu) (offsetIn (operand.storeAddress cpu) address) =
          cpu.mem address) := by
  constructor
  · intro unchanged onStack address inside above
    have offField : ¬ InWord (operand.address cpu) address := by
      intro field
      rw [storeAddress_of_rspRelative cpu onStack] at inside
      exact not_inWord_sub_eight field inside
    rw [← unchanged address offField above]
    exact (storeWord_inside _ _ inside).symm
  · intro spared address offField above
    by_cases inside : InWord (operand.storeAddress cpu) address
    · by_cases onStack : operand.RspRelative
      · rw [← spared onStack address inside above]
        exact storeWord_inside _ _ inside
      · rw [storeAddress_of_not_rspRelative cpu onStack] at inside
        exact absurd inside offField
    · rw [Capture.left, storeWord_outside _ _ inside]
      exact pushed_above capture above

/-- The saved `rax` is there at the end unless the store has put other bytes into it. -/
theorem saved_iff (capture : Capture) (operand : Operand) (cpu : Cpu) :
    loadWord (capture.left operand cpu) (slot cpu) = cpu.reg .rax ↔
      forall address, InWord (slot cpu) address → InWord (operand.storeAddress cpu) address →
        byteOf (capture.value cpu) (offsetIn (operand.storeAddress cpu) address) =
          byteOf (cpu.reg .rax) (offsetIn (slot cpu) address) :=
  loadWord_storeWord_eq_iff (capture.value cpu) (loadWord_pushed_slot capture cpu)

theorem Harmless.leavesIntact {capture : Capture} {operand : Operand} {cpu : Cpu}
    (harmless : Harmless capture operand cpu) : LeavesIntact capture operand cpu := by
  refine ⟨?_, ?_, ?_, ?_⟩
  · rw [run_mem]
    refine (loadWord_left_iff capture operand cpu).mpr fun onStack => ?_
    exact (loadWord_pushed_iff capture cpu (operand.address cpu)).mpr
      ⟨harmless.present onStack, harmless.overSaved onStack, harmless.overReturn onStack⟩
  · exact (registers_iff capture operand cpu).mpr
      ((saved_iff capture operand cpu).mpr harmless.saved)
  · rw [run_code]
  · rw [run_mem]
    exact (memory_iff capture operand cpu).mpr harmless.spared

theorem leavesIntact_iff (capture : Capture) (operand : Operand) (cpu : Cpu) :
    LeavesIntact capture operand cpu ↔ Harmless capture operand cpu := by
  refine ⟨fun intact => ?_, Harmless.leavesIntact⟩
  have stored := intact.stored
  have memory := intact.memory
  rw [run_mem] at stored memory
  have held := fun onStack => (loadWord_pushed_iff capture cpu (operand.address cpu)).mp
    ((loadWord_left_iff capture operand cpu).mp stored onStack)
  exact
    { saved := (saved_iff capture operand cpu).mp ((registers_iff capture operand cpu).mp
        intact.registers)
      present := fun onStack => (held onStack).1
      overSaved := fun onStack => (held onStack).2.1
      overReturn := fun onStack => (held onStack).2.2
      spared := (memory_iff capture operand cpu).mp memory }

/-- A stack local whose `rip` field the compiler reaches through `rsp`: the field
keeps what it held. -/
def dumping : Cpu where
  reg _ := 0xffff880000001000
  cr0 := 0x80050033
  mem _ := 0

theorem localField_not_intact :
    ¬ LeavesIntact (.rip 0xffffffffc0000010) (.based .rsp (by decide) 64) dumping := by
  intro intact
  exact absurd intact.stored (by decide)

/-! ## The two kinds of operand -/

/-- A field that is apart from the saved `rax` and not reached through `rsp` is
captured, whatever else the machine holds. -/
theorem leavesIntact_of_apart (capture : Capture) {operand : Operand} {cpu : Cpu}
    (elsewhere : ¬ operand.RspRelative)
    (apart : forall address, InWord (slot cpu) address → ¬ InWord (operand.address cpu) address) :
    LeavesIntact capture operand cpu := by
  apply Harmless.leavesIntact
  refine ⟨?_, fun onStack => absurd onStack elsewhere, fun onStack => absurd onStack elsewhere,
    fun onStack => absurd onStack elsewhere, fun onStack => absurd onStack elsewhere⟩
  intro address inside shared
  rw [storeAddress_of_not_rspRelative cpu elsewhere] at shared
  exact absurd shared (apart address inside)

/-- Through `rsp` the value goes into the eight bytes before the field, and a
field above the stack pointer keeps what it held. -/
theorem rspRelative_stores_before (capture : Capture) {operand : Operand} {cpu : Cpu}
    (onStack : operand.RspRelative)
    (above : forall address, InWord (operand.address cpu) address → ¬ BelowStack cpu address) :
    loadWord (cpu.run (capture.code operand)).mem (operand.address cpu - 8#64) =
        capture.value cpu ∧
      loadWord (cpu.run (capture.code operand)).mem (operand.address cpu) =
        loadWord cpu.mem (operand.address cpu) := by
  rw [run_mem, Capture.left, storeAddress_of_rspRelative cpu onStack]
  constructor
  · exact loadWord_storeWord _ _ _
  · apply loadWord_congr
    intro address inside
    rw [storeWord_outside _ _ (not_inWord_sub_eight inside)]
    exact pushed_above capture (above address inside)

/-- The members of `struct regs`, in the order of their declaration. -/
inductive RegsField
  | rax | rbx | rcx | rdx | rsi | rdi | rsp | rbp | rip | cr0
  deriving DecidableEq, Repr

def RegsField.offset : RegsField -> BitVec 64
  | .rax => 0
  | .rbx => 8
  | .rcx => 16
  | .rdx => 24
  | .rsi => 32
  | .rdi => 40
  | .rsp => 48
  | .rbp => 56
  | .rip => 64
  | .cr0 => 72

/-- In a `struct regs` that is reached through `rsp`, as the local of
`state_dump` may be, `get_cr0` overwrites the captured `rip`. -/
theorem getCr0_overwrites_rip (cpu : Cpu) {distance : BitVec 64}
    (above : forall address,
      InWord (cpu.reg .rsp + (distance + RegsField.offset .cr0)) address → ¬ BelowStack cpu address) :
    loadWord (cpu.run (getCr0 (.based .rsp (by decide) (distance + RegsField.offset .cr0)))).mem
        (cpu.reg .rsp + (distance + RegsField.offset .rip)) = cpu.cr0 := by
  have before : cpu.reg .rsp + (distance + RegsField.offset .rip) =
      cpu.reg .rsp + (distance + RegsField.offset .cr0) - 8#64 := by
    simp only [RegsField.offset]
    bv_omega
  have onStack : (Operand.based .rsp (by decide) (distance + RegsField.offset .cr0)).RspRelative :=
    rfl
  rw [before]
  exact (rspRelative_stores_before .cr0 onStack above).1

end Registers
end KernelHacking
