import KernelHacking.ParallelPort.Driver

namespace KernelHacking
namespace ParallelPort

/-!
# What the port shows of the bytes written

The first write stores its byte in `parlelport_buffer` and puts it on the
port.  The second one stores its byte behind the variable and puts the old
byte on the port once more, or the last sample if there was a read since.
Nothing sets `loc` back, so no later write gets better.
-/

variable {File : Type*} [DecidableEq File]

/-- The first byte of a write's user buffer, if it can be read. -/
def firstByte : Call File → Option UInt8
  | .write _ buf _ => buf.head?
  | _ => none

/-- The bytes written so far: the first byte of every write that reaches the
driver. -/
def bytesWritten (s : Session Device File) (call : Call File) (written : List UInt8) : List UInt8 :=
  if s.writes call then written ++ (firstByte call).toList else written

/-- The driver watched by the bytes written to it. -/
abbrev watched (File : Type*) [DecidableEq File] :
    Machine (Session Device File × List UInt8) (Call File) (Option Answer) :=
  (system File).withGhost bytesWritten

/-- No store of this answer leaves the variable. -/
def StoresInside (answer : Option Answer) : Prop :=
  forall a, answer = some a → forall i, i ∈ a.stored → i = 0

/-- The law of the writes: every store goes to the variable, and at any moment
the bytes put on the port are the bytes written. -/
structure WriteTrace (s : Session Device File) (calls : List (Call File)) : Prop where
  stores : forall answer, answer ∈ (system File).trace s calls → StoresInside answer
  output : forall before after, calls = before ++ after →
    ((watched File).run (s, []) before).1.device.output = ((watched File).run (s, []) before).2

/-- Every write is the first one and has a byte to be read. -/
def OneWrite (s : Session Device File) (calls : List (Call File)) : Prop :=
  (watched File).Along
    (fun state call => state.1.writes call = true → state.2 = [] ∧ firstByte call ≠ none)
    (s, []) calls

instance decidableOneWrite (s : Session Device File) (calls : List (Call File)) :
    Decidable (OneWrite s calls) :=
  inferInstanceAs (Decidable ((watched File).Along _ (s, []) calls))

/-! ## One call -/

/-- At most one byte was written.  It is the output, and `loc` counts it. -/
structure InStep (state : Session Device File × List UInt8) : Prop where
  loc : state.1.device.loc = state.2.length
  single : state.2.length ≤ 1
  output : state.1.device.output = state.2

/-- What the law asks of one call. -/
def Lawful (state : Session Device File × List UInt8) (call : Call File) : Prop :=
  StoresInside ((system File).out state.1 call) ∧
    ((watched File).next state call).1.device.output = ((watched File).next state call).2

/-- A call that writes nothing stores nothing and leaves `loc` and the port. -/
theorem quiet_effect {s : Session Device File} {call : Call File} (noWrite : s.writes call = false) :
    ((system File).next s call).device.loc = s.device.loc ∧
      ((system File).next s call).device.output = s.device.output ∧
      StoresInside ((system File).out s call) := by
  have effect := effect_step s call
  generalize ((system File).next s call).device = device,
    (system File).out s call = answer at effect ⊢
  cases effect with
  | write file buf count opened => exact absurd (noWrite.symm.trans opened) Bool.false_ne_true
  | read file room count fpos opened =>
      refine ⟨rfl, rfl, ?_⟩
      intro a same i member
      cases same
      cases member
  | idle call ret noWrite noRead =>
      refine ⟨rfl, rfl, ?_⟩
      intro a same i member
      cases same
      cases member

/-- A write stores at `loc` and puts the variable on the port. -/
theorem write_effect {s : Session Device File} {call : Call File} (reaches : s.writes call = true) :
    ((system File).next s call).device.loc = wrapLong (s.device.loc + 1) ∧
      ((system File).next s call).device.output = s.device.output ++
        [Function.update s.device.mem s.device.loc ((firstByte call).getD 0) 0] ∧
      (StoresInside ((system File).out s call) ↔ s.device.loc = 0) := by
  have effect := effect_step s call
  generalize ((system File).next s call).device = device,
    (system File).out s call = answer at effect ⊢
  cases effect with
  | write file buf count opened =>
      refine ⟨rfl, ?_, ?_⟩
      · cases buf <;> rfl
      · constructor
        · intro inside
          exact inside _ rfl _ (List.mem_singleton.mpr rfl)
        · intro start a same i member
          cases same
          exact (List.mem_singleton.mp member).trans start
  | read file room count fpos opened => cases reaches
  | idle call ret noWrite noRead => exact absurd (noWrite.symm.trans reaches) Bool.false_ne_true

theorem lawful_of_quiet {state : Session Device File × List UInt8} {call : Call File}
    (inStep : InStep state) (noWrite : state.1.writes call = false) :
    Lawful state call ∧ InStep ((watched File).next state call) := by
  rcases quiet_effect noWrite with ⟨loc, output, inside⟩
  have unchanged : ((watched File).next state call).2 = state.2 := by
    simp only [Machine.withGhost_next, bytesWritten, noWrite, Bool.false_eq_true, if_false]
  have after : InStep ((watched File).next state call) := by
    refine ⟨?_, unchanged ▸ inStep.single, ?_⟩
    · rw [unchanged]
      exact loc.trans inStep.loc
    · rw [unchanged]
      exact output.trans inStep.output
  exact ⟨⟨inside, after.output⟩, after⟩

/-- A write obeys the law exactly when it is the first one and has a byte. -/
theorem lawful_iff_of_write {state : Session Device File × List UInt8} {call : Call File}
    (inStep : InStep state) (reaches : state.1.writes call = true) :
    Lawful state call ↔ state.2 = [] ∧ firstByte call ≠ none := by
  rcases state with ⟨s, written⟩
  rcases write_effect reaches with ⟨_, output, inside⟩
  have loc : s.device.loc = written.length := inStep.loc
  have before : s.device.output = written := inStep.output
  simp only [Lawful, Machine.withGhost_next, bytesWritten, reaches, if_true, inside, output, before,
    List.append_cancel_left_eq]
  constructor
  · rintro ⟨start, same⟩
    refine ⟨List.eq_nil_of_length_eq_zero (by omega), ?_⟩
    intro nothing
    rw [nothing] at same
    cases same
  · rintro ⟨start, present⟩
    rcases Option.ne_none_iff_exists'.mp present with ⟨byte, first⟩
    have zero : s.device.loc = 0 := by
      rw [loc, start]
      rfl
    refine ⟨zero, ?_⟩
    rw [zero, first, Function.update_self]
    rfl

/-- After a lawful call the driver is in step again. -/
theorem inStep_of_lawful {state : Session Device File × List UInt8} {call : Call File}
    (inStep : InStep state) (lawful : Lawful state call) :
    InStep ((watched File).next state call) := by
  cases reaches : state.1.writes call with
  | false => exact (lawful_of_quiet inStep reaches).2
  | true =>
      rcases (lawful_iff_of_write inStep reaches).mp lawful with ⟨start, present⟩
      rcases Option.ne_none_iff_exists'.mp present with ⟨byte, first⟩
      have written : ((watched File).next state call).2 = [byte] := by
        simp only [Machine.withGhost_next, bytesWritten, reaches, if_true, start, first]
        rfl
      have loc := (write_effect reaches).1
      rw [inStep.loc, start] at loc
      refine ⟨?_, ?_, lawful.2⟩
      · rw [written]
        exact loc
      · rw [written]
        exact Nat.le_refl 1

theorem lawful_iff {state : Session Device File × List UInt8} {call : Call File}
    (inStep : InStep state) :
    Lawful state call ↔ (state.1.writes call = true → state.2 = [] ∧ firstByte call ≠ none) := by
  cases reaches : state.1.writes call with
  | false => exact iff_of_true (lawful_of_quiet inStep reaches).1 (fun impossible => by cases impossible)
  | true => simp only [lawful_iff_of_write inStep reaches, true_implies]

/-! ## The law of a run -/

omit [DecidableEq File] in
theorem inStep_initial (around : ByteMemory) (inputs : Nat → UInt8) :
    InStep ((initial around inputs : Session Device File), []) :=
  ⟨rfl, Nat.zero_le 1, rfl⟩

/-- The law of a run is a law of each of its calls. -/
theorem writeTrace_iff_along {s : Session Device File} (inStep : InStep (s, []))
    (calls : List (Call File)) :
    WriteTrace s calls ↔ (watched File).Along Lawful (s, []) calls := by
  constructor
  · intro law
    have inside := (Machine.withGhost_along_fst (system File) bytesWritten
      (fun state call => StoresInside ((system File).out state call)) (s, []) calls).mpr
        ((Machine.forall_trace_iff_along (system File) StoresInside s calls).mp law.stores)
    rw [Machine.along_iff_forall_split] at inside ⊢
    intro before call after split
    refine ⟨inside before call after split, ?_⟩
    have output := law.output (before ++ [call]) after (by rw [split, List.append_assoc]; rfl)
    rw [Machine.run_append] at output
    exact output
  · intro along
    constructor
    · apply (Machine.forall_trace_iff_along (system File) StoresInside s calls).mpr
      apply (Machine.withGhost_along_fst (system File) bytesWritten
        (fun state call => StoresInside ((system File).out state call)) (s, []) calls).mp
      refine Machine.along_of_invariant (watched File) InStep _ _ ?_ ?_ inStep along
      · intro state call inStep lawful
        exact inStep_of_lawful inStep lawful
      · intro state call _ lawful
        exact lawful.1
    · intro before after split
      rw [split, Machine.along_append] at along
      have reached : InStep ((watched File).run (s, []) before) :=
        Machine.run_invariant (watched File) InStep _
          (fun _ _ inStep lawful => inStep_of_lawful inStep lawful) inStep along.1
      exact reached.output

/-- From loading on, the port shows what is written and every store stays in
the variable exactly as long as there is at most one write, with a byte that
can be read. -/
theorem writeTrace_iff_oneWrite (around : ByteMemory) (inputs : Nat → UInt8)
    (calls : List (Call File)) :
    WriteTrace (initial around inputs) calls ↔ OneWrite (initial around inputs) calls := by
  have start : InStep ((initial around inputs : Session Device File), []) :=
    inStep_initial around inputs
  rw [writeTrace_iff_along start]
  constructor
  · refine Machine.along_of_invariant (watched File) InStep _ _ ?_ ?_ start
    · intro state call inStep lawful
      exact inStep_of_lawful inStep lawful
    · intro state call inStep lawful
      exact (lawful_iff inStep).mp lawful
  · refine Machine.along_of_invariant (watched File) InStep _ _ ?_ ?_ start
    · intro state call inStep allowed
      exact inStep_of_lawful inStep ((lawful_iff inStep).mpr allowed)
    · intro state call inStep allowed
      exact (lawful_iff inStep).mpr allowed

/-- One client writes two bytes. -/
def twoWrites : List (Call Unit) :=
  [.openFile (), .write () [0x41] 1, .write () [0x42] 1]

theorem twoWrites_not_writeTrace :
    ¬ WriteTrace (initial (fun _ => 0) (fun _ => 0)) twoWrites := by
  intro law
  have output := law.output twoWrites [] rfl
  revert output
  decide

end ParallelPort
end KernelHacking
