import KernelHacking.Procfs.Terminated

namespace KernelHacking
namespace Procfs

/-!
# The caller's count

The reader never looks at the size of the user's buffer: it prints the whole
string with its terminator, however few bytes were asked for.  The writer looks
at the size, but only to bound what it stores.  How far it reads is decided by
the next NUL byte in the user's memory, and a write need not contain one.

The laws below are about single calls, in any state with a terminated string.
-/

variable {File : Type*} [DecidableEq File]

/-- The bytes that the reader stores in the user's buffer, up to a fault behind
its end. -/
def readerStores (kbuf : Kbuf) (room : Nat) (pos : Int) : List UInt8 :=
  if pos ≠ 0 then []
  else
    match cstr kbuf.mapped with
    | none => []
    | some text => (text ++ [0]).take room

/-- The reader keeps to the count. -/
structure ReaderKeepsCount (kbuf : Kbuf) (room count : Nat) (pos : Int) : Prop where
  stores : (readerStores kbuf room pos).length ≤ count
  returns : ∃ reply, procfsReader kbuf room count pos = some reply ∧ reply.ret ≤ count

/-- The writer keeps to the count: it reads no more, and whatever follows in the
user's memory, it does the same. -/
structure WriterKeepsCount (kbuf : Kbuf) (buf : List UInt8) (count : Nat) (pos : Int) : Prop where
  reads : scanned buf ≤ count
  same : forall other : List UInt8, other.take count = buf.take count →
    procfsWriter kbuf other count pos = procfsWriter kbuf buf count pos

/-- A call that reaches the driver in a terminated state keeps to the count. -/
def KeepsCount (s : Session Kbuf File) : Call File → Prop
  | .read file room count =>
      Terminated s.device → forall pos, s.fpos file = some pos →
        ReaderKeepsCount s.device room count pos
  | .write file buf count =>
      Terminated s.device → forall pos, s.fpos file = some pos →
        WriterKeepsCount s.device buf count pos
  | _ => True

/-- A read from the start comes with a count and with room for the string and
its terminator.  A write has a NUL byte among its bytes, or they lie before
unmapped memory. -/
def CountsString (s : Session Kbuf File) : Call File → Prop
  | .read file room count =>
      Terminated s.device → forall pos, s.fpos file = some pos →
        pos ≠ 0 ∨ forall text, cstr s.device.mapped = some text →
          text.length < count ∧ text.length < room
  | .write file buf count =>
      Terminated s.device → forall pos, s.fpos file = some pos →
        0 ∈ buf.take count ∨ buf.length < count
  | _ => True

/-! ## The reader -/

/-- A read that returns has stored what it says. -/
theorem procfsReader_data {kbuf : Kbuf} {room count : Nat} {pos : Int} {reply : Reply Kbuf}
    (returned : procfsReader kbuf room count pos = some reply) :
    reply.data = readerStores kbuf room pos := by
  by_cases start : pos = 0
  · subst start
    cases found : cstr kbuf.mapped with
    | none =>
        rw [procfsReader, if_neg (not_not.mpr rfl), found] at returned
        cases returned
    | some text =>
        rw [procfsReader_start found] at returned
        simp only [readerStores, found, ne_eq, not_true_eq_false, if_false]
        split at returned
        · rename_i enough
          cases returned
          rw [List.take_of_length_le]
          rw [List.length_append, List.length_singleton]
          exact enough
        · cases returned
  · rw [procfsReader_elsewhere kbuf room count start] at returned
    cases returned
    rw [readerStores, if_pos start]

theorem readerKeepsCount_iff {kbuf : Kbuf} (terminated : Terminated kbuf) (room count : Nat)
    (pos : Int) :
    ReaderKeepsCount kbuf room count pos ↔
      pos ≠ 0 ∨ forall text, cstr kbuf.mapped = some text →
        text.length < count ∧ text.length < room := by
  by_cases start : pos = 0
  · subst start
    rcases cstr_of_terminated terminated with ⟨text, found⟩
    have length : (readerStores kbuf room 0).length = min room (text.length + 1) := by
      simp only [readerStores, found, ne_eq, not_true_eq_false, if_false, List.length_take,
        List.length_append, List.length_singleton]
    constructor
    · intro keeps
      refine Or.inr ?_
      intro other same
      cases Option.some.inj (found.symm.trans same)
      have stores := keeps.stores
      rcases keeps.returns with ⟨reply, returned, _⟩
      rw [procfsReader_start found] at returned
      split at returned
      · rename_i enough
        rw [length] at stores
        omega
      · cases returned
    · rintro (impossible | fits)
      · exact absurd rfl impossible
      · rcases fits text found with ⟨counted, enough⟩
        constructor
        · rw [length]
          omega
        · refine ⟨_, (procfsReader_start found room count).trans (if_pos enough), ?_⟩
          simp only
          omega
  · refine iff_of_true ?_ (Or.inl start)
    constructor
    · rw [readerStores, if_pos start]
      exact Nat.zero_le _
    · exact ⟨_, procfsReader_elsewhere kbuf room count start, Int.natCast_nonneg count⟩

/-! ## The writer -/

theorem writerKeepsCount_iff (kbuf : Kbuf) (buf : List UInt8) (count : Nat) (pos : Int) :
    WriterKeepsCount kbuf buf count pos ↔ 0 ∈ buf.take count ∨ buf.length < count := by
  rw [← scanned_le_iff]
  constructor
  · exact WriterKeepsCount.reads
  · intro reads
    refine ⟨reads, ?_⟩
    intro other same
    rcases (scanned_le_iff buf count).mp reads with ends | short
    · -- the string of the write ends before its memory does
      have string : cstr other = cstr buf := by
        rw [← List.take_append_drop count other, ← List.take_append_drop count buf, same,
          cstr_append_of_mem ends, cstr_append_of_mem ends]
      rw [procfsWriter, procfsWriter, Kbuf.print, Kbuf.print, string]
    · -- there is no memory behind the write
      have length := congrArg List.length same
      rw [List.length_take, List.length_take] at length
      rw [List.take_of_length_le (by omega), List.take_of_length_le (by omega)] at same
      rw [same]

/-! ## Every call of a history -/

omit [DecidableEq File] in
theorem keepsCount_iff_countsString (s : Session Kbuf File) (call : Call File) :
    KeepsCount s call ↔ CountsString s call := by
  cases call with
  | read file room count =>
      refine forall_congr' fun terminated => forall_congr' fun pos => forall_congr' fun _ => ?_
      exact readerKeepsCount_iff terminated room count pos
  | write file buf count =>
      refine forall_congr' fun _ => forall_congr' fun pos => forall_congr' fun _ => ?_
      exact writerKeepsCount_iff s.device buf count pos
  | openFile file => exact Iff.rfl
  | release file => exact Iff.rfl
  | seek file pos => exact Iff.rfl

/-- In every history, all calls in terminated states keep to their counts
exactly when all counts suit the strings. -/
theorem run_keepsCount_iff_countsString (kbuf : Kbuf) (calls : List (Call File)) :
    (system File).Along KeepsCount (Session.fresh kbuf) calls ↔
      (system File).Along CountsString (Session.fresh kbuf) calls :=
  (system File).along_congr keepsCount_iff_countsString (Session.fresh kbuf) calls

theorem usedBlock_terminated : Terminated usedBlock := by
  rw [Terminated]
  decide +kernel

/-- A client reads one byte into a page, and another writes a line that has no
NUL byte and is followed by one. -/
def shortRead : List (Call Unit) := [.openFile (), .read () 4096 1]

def plainWrite : List (Call Unit) := [.openFile (), .write () [0x70, 0x77, 0x0a, 0] 3]

/-- The read stores three bytes, and the write looks at four. -/
theorem shortRead_plainWrite_not_keepsCount :
    ¬ (system Unit).Along KeepsCount (Session.fresh usedBlock) shortRead ∧
      ¬ (system Unit).Along KeepsCount (Session.fresh usedBlock) plainWrite := by
  constructor
  · rintro ⟨_, keeps, _⟩
    exact absurd (keeps usedBlock_terminated 0 rfl).stores (by decide)
  · rintro ⟨_, keeps, _⟩
    exact absurd (keeps usedBlock_terminated 0 rfl).reads (by decide)

end Procfs
end KernelHacking
