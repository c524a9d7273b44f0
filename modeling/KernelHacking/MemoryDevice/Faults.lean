import KernelHacking.MemoryDevice.AppendLog

namespace KernelHacking
namespace MemoryDevice

/-!
# Writes whose copy faults

`memory_write` discards the result of `copy_from_user`.  A copy that faults
stores a zero where the byte should be, `loc` moves on and the caller is told
that one byte was written.  This module watches a history by the list of the
bytes whose writes returned one since the device was last cleared, and asks
when that list is what the front of the buffer holds.
-/

variable {File : Type*} [DecidableEq File]

/-- The call is a write that reaches the driver and whose copy reports a byte
that it could not read. -/
def faults (s : Session Device File) : Call File → Bool
  | .write file buf _ =>
      s.writes (.write file buf 1) && (copyFromUser s.device.mem s.device.loc buf 1).uncopied != 0
  | _ => false

/-- The answer to a write says that a byte was taken. -/
def returnedOne : Option Answer → Bool
  | some answer => answer.ret == 1
  | none => false

/-- The bytes of the writes that returned one since the last clear, kept up to
date by one call.  A write takes the first byte of its buffer, if there is one. -/
def accept (v : Version) (s : Session Device File) (call : Call File) (log : List UInt8) :
    List UInt8 :=
  match call with
  | .write _ buf _ =>
      if returnedOne ((system v File).out s call) then log ++ buf.take 1 else log
  | _ => if clears s call then [] else log

/-- The driver watched by the bytes it has accepted. -/
abbrev recorded (v : Version) (File : Type*) [DecidableEq File] :
    Machine (Session Device File × List UInt8) (Call File) (Option Answer) :=
  (system v File).withGhost (accept v)

/-- A faulting call answers with an error and leaves the buffer and `loc`. -/
def FaultLeaves (v : Version) (s : Session Device File) (call : Call File) : Prop :=
  faults s call = true →
    (∃ answer, (system v File).out s call = some answer ∧ answer.ret < 0) ∧
      ((system v File).next s call).device.buffer v = s.device.buffer v ∧
      ((system v File).next s call).device.loc = s.device.loc

/-- The first `loc` bytes of the buffer are the accepted ones. -/
def HoldsAccepted (v : Version) (state : Session Device File × List UInt8) : Prop :=
  state.1.device.loc = state.2.length ∧
    (state.1.device.buffer v).take state.2.length = state.2

/-- The law of atomic writes for one history. -/
structure WritesAtomic (v : Version) (s : Session Device File) (calls : List (Call File)) :
    Prop where
  faulting : (system v File).Along (FaultLeaves v) s calls
  accepted : forall before after, calls = before ++ after →
    HoldsAccepted v ((recorded v File).run (s, []) before)

/-- No copy of the history faults. -/
def NeverFaults (v : Version) (s : Session Device File) (calls : List (Call File)) : Prop :=
  (system v File).Along (fun state call => faults state call = false) s calls

/-! ## One call -/

/-- A faulting write is answered like any other. -/
theorem faultLeaves_iff (v : Version) (s : Session Device File) (call : Call File) :
    FaultLeaves v s call ↔ faults s call = false := by
  constructor
  · intro leaves
    by_contra faulting
    have faulted : faults s call = true := Bool.not_eq_false _ ▸ faulting
    rcases (leaves faulted).1 with ⟨answer, shown, negative⟩
    have effect := effect_step v s call
    rw [shown] at effect
    generalize ((system v File).next s call).device = device at effect
    cases effect with
    | write file buf count opened => exact absurd negative (Int.not_lt.mpr Int.one_nonneg)
    | start file room count opened => cases faulted
    | finish file room count cleared => cases faulted
    | idle call ret noWrite noRead =>
        cases call with
        | write file buf count =>
            have reaches := (Bool.and_eq_true_iff.mp faulted).1
            exact absurd (noWrite.symm.trans reaches) (by decide)
        | openFile file => cases faulted
        | release file => cases faulted
        | seek file pos => cases faulted
        | read file room count => cases faulted
  · intro sound faulted
    exact absurd (sound.symm.trans faulted) (by decide)

omit [DecidableEq File] in
/-- The copy of a single byte faults exactly when the buffer has no byte. -/
theorem faults_write_iff {s : Session Device File} {file : File} {buf : List UInt8} {count : Nat}
    (opened : s.writes (.write file buf count) = true) :
    faults s (.write file buf count) = false ↔ buf ≠ [] := by
  have reaches : s.writes (.write file buf 1) = true := opened
  simp only [faults, reaches, Bool.true_and, copyFromUser]
  cases buf with
  | nil => simp
  | cons byte rest => simp

/-- The accepted bytes after a write that does not fault. -/
theorem accept_write {v : Version} {s : Session Device File} {file : File} {byte : UInt8}
    {rest : List UInt8} {count : Nat}
    (opened : s.writes (.write file (byte :: rest) count) = true) (log : List UInt8) :
    accept v s (.write file (byte :: rest) count) log = log ++ [byte] := by
  have effect := effect_step v s (.write file (byte :: rest) count)
  simp only [accept]
  generalize ((system v File).next s (.write file (byte :: rest) count)).device = device,
    (system v File).out s (.write file (byte :: rest) count) = answer at effect ⊢
  cases effect with
  | write _ _ _ _ => rfl
  | idle _ ret noWrite _ => exact absurd (noWrite.symm.trans opened) (by decide)

/-- The accepted bytes after a write that the kernel turns away. -/
theorem accept_closed {v : Version} {s : Session Device File} {file : File} {buf : List UInt8}
    {count : Nat} (closed : s.writes (.write file buf count) = false) (log : List UInt8) :
    accept v s (.write file buf count) log = log := by
  have none : s.fpos file = none := Option.isNone_iff_eq_none.mp (by simpa [Session.writes] using closed)
  have shown : (system v File).out s (.write file buf count) = some badFile := by
    simp only [Machine.out, FileOps.machine, Session.onOpen_none none]
  simp only [accept, shown]
  rfl

/-- Without faults the accepted bytes are as many as the writes. -/
theorem accept_length {v : Version} {s : Session Device File} {call : Call File}
    (sound : faults s call = false) (log : List UInt8) :
    (accept v s call log).length = tally s call log.length := by
  cases call with
  | write file buf count =>
      cases reaches : s.writes (.write file buf count) with
      | true =>
          cases buf with
          | nil => exact absurd rfl ((faults_write_iff reaches).mp sound)
          | cons byte rest =>
              rw [accept_write reaches, tally, if_pos reaches, List.length_append]
              rfl
      | false =>
          rw [accept_closed reaches, tally, if_neg (by rw [reaches]; decide)]
          rfl
  | openFile file => rfl
  | release file => rfl
  | seek file pos => rfl
  | read file room count =>
      simp only [accept, tally, Session.writes, Bool.false_eq_true, if_false]
      split <;> rfl

/-- A call that neither faults nor overfills the block keeps the device at the
accepted bytes. -/
theorem represents_next {v : Version} {heap : ByteMemory}
    {state : Session Device File × List UInt8} {call : Call File}
    (holds : Represents v heap state.1.device state.2) (sound : faults state.1 call = false)
    (space : state.1.writes call = true → state.2.length < BUFSIZE v) :
    Represents v heap ((recorded v File).next state call).1.device
      ((recorded v File).next state call).2 := by
  rcases state with ⟨s, log⟩
  rcases holds with ⟨fits, device⟩
  have effect := effect_step v s call
  simp only [Machine.withGhost_next] at *
  generalize ((system v File).next s call).device = after,
    shown : (system v File).out s call = answer at effect ⊢
  cases effect with
  | write file buf count opened =>
      cases buf with
      | nil => exact absurd rfl ((faults_write_iff opened).mp sound)
      | cons byte rest =>
          have below := space opened
          rw [accept_write opened]
          refine ⟨?_, ?_⟩
          · rw [List.length_append]
            exact below
          · rw [deviceOf_append v heap log byte below, device]
            rfl
  | start file room count opened =>
      have kept : clears s (.read file room count) = false := by
        simp only [clears, Session.readsAt, opened, bne_self_eq_false]
      simp only [accept, kept]
      exact ⟨fits, device⟩
  | finish file room count cleared =>
      simp only [accept, cleared, if_true]
      refine ⟨Nat.zero_le _, ?_⟩
      rw [device, memoryCleanup_deviceOf]
  | idle call ret noWrite noRead =>
      cases call with
      | write file buf count =>
          rw [accept_closed noWrite]
          exact ⟨fits, device⟩
      | read file room count =>
          have kept : clears s (.read file room count) = false := by
            simp only [clears, noRead]
          simp only [accept, kept]
          exact ⟨fits, device⟩
      | openFile file => exact ⟨fits, device⟩
      | release file => exact ⟨fits, device⟩
      | seek file pos => exact ⟨fits, device⟩

omit [DecidableEq File] in
theorem holdsAccepted_of_represents {v : Version} {heap : ByteMemory}
    {state : Session Device File × List UInt8}
    (holds : Represents v heap state.1.device state.2) : HoldsAccepted v state := by
  rcases holds with ⟨fits, device⟩
  refine ⟨by rw [device]; rfl, ?_⟩
  rw [device, deviceOf_buffer v heap state.2 fits, padded]
  exact List.take_left

/-! ## Whole histories -/

/-- Every write of the history finds fewer than `BUFSIZE` accepted bytes. -/
def NeverOverfills (v : Version) (s : Session Device File) (log : List UInt8)
    (calls : List (Call File)) : Prop :=
  (recorded v File).Along
    (fun state call => state.1.writes call = true → state.2.length < BUFSIZE v) (s, log) calls

/-- Without faults the count of the writes is the length of what was accepted. -/
theorem neverOverfills_iff {v : Version} {s : Session Device File} {log : List UInt8}
    {calls : List (Call File)} (sound : NeverFaults v s calls) :
    NeverOverfills v s log calls ↔
      (counted v File).Along (fun state call => state.1.writes call = true → state.2 < BUFSIZE v)
        (s, log.length) calls := by
  induction calls generalizing s log with
  | nil => exact Iff.rfl
  | cons call calls ih =>
      have here : faults s call = false := sound.1
      have later : NeverOverfills v _ (accept v s call log) calls ↔ _ := ih sound.2
      rw [accept_length here] at later
      exact and_congr Iff.rfl later

/-- Each write appends one byte, and what is held fits into the block. -/
theorem neverOverfills_of_holds {v : Version} {s : Session Device File} {calls : List (Call File)}
    (sound : NeverFaults v s calls)
    (accepted : forall before after, calls = before ++ after →
      HoldsAccepted v ((recorded v File).run (s, []) before)) :
    NeverOverfills v s [] calls := by
  apply (Machine.along_iff_forall_split _ _ _ _).mpr
  intro before call after split opened
  have holds := (accepted (before ++ [call]) after (by rw [split, List.append_assoc]; rfl)).2
  rw [Machine.run_append, Machine.run_cons, Machine.run_nil] at holds
  have here := (Machine.along_iff_forall_split _ _ _ _).mp sound before call after split
  rw [← Machine.withGhost_run_fst (system v File) (accept v) (s, []) before] at here
  generalize (recorded v File).run (s, []) before = state at holds here opened
  have grown : (accept v state.1 call state.2).length = state.2.length + 1 := by
    rw [accept_length here, tally, if_pos opened]
  have bounded := congrArg List.length holds
  rw [List.length_take, Device.buffer, bytesAt_length, Machine.withGhost_next] at bounded
  simp only [grown] at bounded
  omega

/-- From a successful load on, a history obeys the law exactly when no copy
faults and at most `BUFSIZE` writes fall between two clears. -/
theorem writesAtomic_iff (v : Version) (heap : ByteMemory) (calls : List (Call File)) :
    WritesAtomic v (initial v heap) calls ↔
      NeverFaults v (initial v heap) calls ∧ NeverFull v (initial v heap) calls := by
  constructor
  · intro atomic
    have sound : NeverFaults v (initial v heap) calls :=
      (Machine.along_congr _ (faultLeaves_iff v) _ _).mp atomic.faulting
    exact ⟨sound, (neverOverfills_iff sound).mp (neverOverfills_of_holds sound atomic.accepted)⟩
  · rintro ⟨sound, never⟩
    refine ⟨(Machine.along_congr _ (faultLeaves_iff v) _ _).mpr sound, ?_⟩
    intro before after split
    have space : NeverOverfills v (initial v heap) [] calls := (neverOverfills_iff sound).mpr never
    have soundRecorded := (Machine.withGhost_along_fst (system v File) (accept v)
      (fun state call => faults state call = false) (initial v heap, []) calls).mpr sound
    have both := Machine.along_and _ soundRecorded space
    rw [split, Machine.along_append] at both
    refine holdsAccepted_of_represents (v := v) (?_ : Represents v heap _ _)
    refine Machine.run_invariant (recorded v File)
      (fun state => Represents v heap state.1.device state.2) _ ?_ ?_ both.1
    · intro state call holds guard
      exact represents_next holds guard.1 guard.2
    · exact ⟨Nat.zero_le _, (deviceOf_nil v heap).symm⟩

/-- A client writes from an address that it cannot read. -/
def unreadable : List (Call Unit) := [.openFile (), .write () [] 1]

/-- It is told that one byte was written. -/
theorem unreadable_not_writesAtomic :
    ¬ WritesAtomic .memory (initial .memory fun _ => 0) unreadable := by
  rintro ⟨⟨_, leaves, _⟩, _⟩
  have sound := (faultLeaves_iff .memory _ _).mp leaves
  revert sound
  decide

end MemoryDevice
end KernelHacking
