import KernelHacking.Foundations.Loops
import KernelHacking.SyscallHook.Module

namespace KernelHacking
namespace SyscallHook

/-!
# Writing something else than a number to `foo`

`foo_store` evaluates its `switch` after every write, also when nothing was
scanned.  `foo` then still holds the last number, and its command is carried out
again.  That this does nothing is a fact about histories: what the last number
stands for has been done already, or could not be done.
-/

/-- Behind the white space that the text begins with, there is no digit. -/
def NoLeadingNumber (text : List UInt8) : Prop :=
  forall blanks byte rest, text = blanks ++ byte :: rest →
    (forall blank, blank ∈ blanks → isSpace blank = true) → isDigit byte = false

theorem ne_zero_of_space {byte : UInt8} (space : isSpace byte = true) : byte ≠ 0 := by
  rintro rfl
  cases space

theorem ne_zero_of_digit {byte : UInt8} (digit : isDigit byte = true) : byte ≠ 0 := by
  rintro rfl
  cases digit

theorem not_space_of_digit {byte : UInt8} (digit : isDigit byte = true) :
    isSpace byte = false := by
  have every : forall byte : UInt8, isDigit byte = true → isSpace byte = false := by
    decide +kernel
  exact every byte digit

/-- Nothing is scanned exactly in such a text. -/
theorem scanUnsigned_eq_none_iff (text : List UInt8) :
    scanUnsigned text = none ↔ NoLeadingNumber text := by
  have scanned : scanUnsigned text = none ↔
      ((nulFreePrefix text).dropWhile isSpace).head?.any isDigit = false := by
    simp only [scanUnsigned, ite_eq_right_iff, reduceCtorEq, imp_false, Bool.not_eq_true]
  rw [scanned]
  constructor
  · intro unscanned blanks byte rest split spaces
    by_contra digit
    rw [Bool.not_eq_false] at digit
    have kept : nulFreePrefix text = blanks ++ byte :: nulFreePrefix rest := by
      have plain : 0 ∉ blanks := fun member => ne_zero_of_space (spaces 0 member) rfl
      rw [split, nulFreePrefix_append plain, nulFreePrefix_cons (ne_zero_of_digit digit)]
    have stops : ¬ isSpace byte = true := by
      rw [not_space_of_digit digit]
      exact Bool.false_ne_true
    rw [kept, List.dropWhile_append_of_pos spaces, List.dropWhile_cons_of_neg stops,
      List.head?_cons, Option.any_some, digit] at unscanned
    cases unscanned
  · intro unparsable
    cases left : (nulFreePrefix text).dropWhile isSpace with
    | nil => rfl
    | cons byte rest =>
        have whole : text = (nulFreePrefix text).takeWhile isSpace ++
            byte :: (rest ++ text.dropWhile fun byte => byte != 0) := by
          rw [← List.cons_append, ← left, ← List.append_assoc, List.takeWhile_append_dropWhile]
          exact List.takeWhile_append_dropWhile.symm
        exact unparsable _ byte _ whole fun blank member => List.mem_takeWhile_imp member

/-- The law of a write that changes nothing that the hook is made of. -/
structure LeavesHook (before after : Module) : Prop where
  foo : after.foo = before.foo
  toplelInstalled : after.toplel.hook.toplelInstalled = before.toplel.hook.toplelInstalled
  origSysOpen : after.toplel.hook.origSysOpen = before.toplel.hook.origSysOpen
  memory : after.toplel.hook.mem = before.toplel.hook.mem

/-- The command in `foo` has been carried out, or it is an insert into an image
without a table. -/
structure Settled (k : Kernel) (image : Memory) (m : Module) : Prop where
  inStep : InStep k image m.toplel.hook
  insert : command m.foo = .insert →
    m.toplel.hook.toplelInstalled = true ∨ findSysCallTable k image = 0
  remove : command m.foo = .remove → m.toplel.hook.toplelInstalled = false
  restart : command m.foo ≠ .restart

/-! ## Each call settles its command -/

/-- After an insert the hook is installed, or there was no table to find. -/
theorem toplelInsert_settles (k : Kernel) (s : Toplel) :
    (toplelInsert k s).1.hook.toplelInstalled = true ∨
      (s.hook.toplelInstalled = false ∧ findSysCallTable k s.hook.mem = 0) := by
  rw [toplelInsert]
  by_cases already : s.hook.toplelInstalled = true
  · rw [if_pos already]
    exact Or.inl already
  · rw [if_neg already]
    by_cases missing : findSysCallTable k s.hook.mem = 0
    · exact Or.inr ⟨Bool.eq_false_iff.mpr already, missing⟩
    · have real : (s.hook.search k).syscallTable ≠ 0 := missing
      exact Or.inl (by rw [if_neg real]; rfl)

/-- An open changes neither `foo` nor the hook. -/
theorem openSyscall_kept (k : Kernel) (m : Module) (call : OpenCall) :
    (openSyscall k m call).1.foo = m.foo ∧ (openSyscall k m call).1.toplel = m.toplel := by
  rw [openSyscall]
  split
  · cases mySysOpen m.opener call with
    | none => exact ⟨rfl, rfl⟩
    | some result => exact ⟨rfl, rfl⟩
  · exact ⟨rfl, rfl⟩

theorem settled_next {k : Kernel} {image : Memory} {m : Module} (settled : Settled k image m)
    {call : Call} (running : forall ret, (system k).out m call ≠ .stored ret true) :
    Settled k image ((system k).next m call) := by
  have inStep := inStep_next settled.inStep call
  cases call with
  | openFile call =>
      rcases openSyscall_kept k m call with ⟨foo, toplel⟩
      change InStep k image (openSyscall k m call).1.toplel.hook at inStep
      change Settled k image (openSyscall k m call).1
      constructor
      · exact inStep
      · rw [foo, toplel]
        exact settled.insert
      · rw [foo, toplel]
        exact settled.remove
      · rw [foo]
        exact settled.restart
  | store text =>
      change InStep k image (fooStore k m text).1.toplel.hook at inStep
      change Settled k image (fooStore k m text).1
      change forall ret, (fooStore k m text).2 ≠ .stored ret true at running
      simp only [fooStore] at inStep running ⊢
      cases chosen : command ((scanUnsigned text).getD m.foo) with
      | restart =>
          rw [chosen] at running
          exact absurd rfl (running text.length)
      | insert =>
          rw [chosen] at inStep
          refine ⟨inStep, ?_, ?_, ?_⟩
          · intro _
            rcases toplelInsert_settles k m.toplel with installed | ⟨removed, missing⟩
            · exact Or.inl installed
            · rw [settled.inStep.removed removed] at missing
              exact Or.inr missing
          · simp [chosen]
          · simp [chosen]
      | remove =>
          rw [chosen] at inStep
          refine ⟨inStep, ?_, ?_, ?_⟩
          · simp [chosen]
          · intro _
            exact (remove_inStep settled.inStep).2
          · simp [chosen]
      | nothing =>
          rw [chosen] at inStep
          refine ⟨inStep, ?_, ?_, ?_⟩ <;> simp [chosen]

/-- A run that has not restarted the machine has settled its commands. -/
theorem settled_run {k : Kernel} {image : Memory} {cr0 : Word} {opener : Opener}
    {calls : List Call}
    (running : forall ret,
      .stored ret true ∉ (system k).trace (Module.load image cr0 opener) calls) :
    Settled k image ((system k).run (Module.load image cr0 opener) calls) := by
  have along : (system k).Along (fun m call => forall ret, (system k).out m call ≠ .stored ret true)
      (Module.load image cr0 opener) calls := by
    have every := (Machine.forall_trace_iff_along (system k)
      (fun outcome => forall ret, outcome ≠ .stored ret true) (Module.load image cr0 opener) calls).mp
    apply every
    intro outcome member ret same
    exact running ret (same ▸ member)
  refine Machine.run_invariant (system k) (Settled k image) _ ?_ ?_ along
  · intro m call settled still
    exact settled_next settled still
  · exact ⟨InStep.initial k image, nofun, nofun, nofun⟩

/-! ## Doing it again -/

/-- The command in `foo` finds nothing to do. -/
theorem leavesHook_of_settled {k : Kernel} {image : Memory} {m : Module}
    (settled : Settled k image m) {text : List UInt8} (unscanned : scanUnsigned text = none) :
    LeavesHook m (fooStore k m text).1 := by
  simp only [fooStore, unscanned, Option.getD_none]
  cases chosen : command m.foo with
  | restart => exact absurd chosen settled.restart
  | nothing => exact ⟨rfl, rfl, rfl, rfl⟩
  | remove =>
      have removed := settled.remove chosen
      have idle : toplelRemove m.toplel = m.toplel := by
        rw [toplelRemove, removed]
        rfl
      rw [idle]
      exact ⟨rfl, rfl, rfl, rfl⟩
  | insert =>
      rcases toplelInsert_cases k m.toplel with ⟨_, idle⟩ | ⟨_, refused⟩ | ⟨removed, found, _⟩
      · rw [idle]
        exact ⟨rfl, rfl, rfl, rfl⟩
      · -- the search has come back with nothing once more
        rw [refused]
        exact ⟨rfl, rfl, rfl, rfl⟩
      · rcases settled.insert chosen with installed | missing
        · rw [removed] at installed
          cases installed
        · rw [settled.inStep.removed removed] at found
          exact absurd missing found

/-- After any run that has not restarted the machine, a write without a leading
number leaves `foo`, the flag, the saved pointer and the memory. -/
theorem unparsable_leavesHook {k : Kernel} {image : Memory} {cr0 : Word} {opener : Opener}
    {calls : List Call}
    (running : forall ret,
      .stored ret true ∉ (system k).trace (Module.load image cr0 opener) calls)
    {text : List UInt8} (unparsable : NoLeadingNumber text) :
    LeavesHook ((system k).run (Module.load image cr0 opener) calls)
      (fooStore k ((system k).run (Module.load image cr0 opener) calls) text).1 :=
  leavesHook_of_settled (settled_run running) ((scanUnsigned_eq_none_iff text).mpr unparsable)

/-- Once installed, the hook survives a line that begins with a sign. -/
theorem signedLine_leavesHook :
    LeavesHook
      ((system smallKernel).run (Module.load smallImage CR0_WP smallOpener)
        [.store (ascii ['1', '3', '3', '7'])])
      (fooStore smallKernel ((system smallKernel).run (Module.load smallImage CR0_WP smallOpener)
        [.store (ascii ['1', '3', '3', '7'])]) (ascii ['-', '6', '6', '6'])).1 := by
  refine unparsable_leavesHook ?_ ((scanUnsigned_eq_none_iff _).mp (by decide))
  intro ret member
  rcases List.mem_singleton.mp member with restarted
  cases restarted

end SyscallHook
end KernelHacking
