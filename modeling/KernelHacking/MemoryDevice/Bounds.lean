import KernelHacking.MemoryDevice.Driver

namespace KernelHacking
namespace MemoryDevice

/-!
# Where `memory_write` stores

`memory_write` never compares `loc` with `BUFSIZE`.  Its stores stay inside
the block exactly as long as the clients clear the device often enough, and
this is a property of the history of calls: `loc` counts the writes since the
last clear, whichever files issued them.
-/

variable {File : Type*} [DecidableEq File]

/-- No store of this answer leaves the block. -/
def StoresInside (v : Version) (answer : Option Answer) : Prop :=
  forall a, answer = some a → forall i, i ∈ a.stored → 0 ≤ i ∧ i < BUFSIZE v

/-- The bounds law for one history: every store lies inside the block, `loc`
never exceeds `BUFSIZE` in any state passed through, and a write that finds
the buffer full is refused. -/
structure BoundsSafe (v : Version) (s : Session Device File) (calls : List (Call File)) : Prop where
  stores : forall answer, answer ∈ (system v File).trace s calls → StoresInside v answer
  loc : forall before after, calls = before ++ after →
    0 ≤ ((system v File).run s before).device.loc ∧
      ((system v File).run s before).device.loc ≤ BUFSIZE v
  refused : forall before call after, calls = before ++ call :: after →
    ((system v File).run s before).writes call = true →
    ((system v File).run s before).device.loc = BUFSIZE v →
      ∃ answer, (system v File).out ((system v File).run s before) call = some answer ∧
        answer.ret < 0 ∧ answer.stored = []

/-! ## `loc` counts the writes since the last clear -/

/-- The coupling of `loc` with the count, as long as nothing has overflowed. -/
def LocCounts (v : Version) (state : Session Device File × Nat) : Prop :=
  state.1.device.loc = state.2 ∧ state.2 ≤ BUFSIZE v

omit [DecidableEq File] in
theorem locCounts_initial (v : Version) (heap : ByteMemory) :
    LocCounts v ((initial v heap : Session Device File), 0) :=
  ⟨rfl, Nat.zero_le _⟩

private theorem wrapLong_succ {v : Version} {n : Nat} (below : n < BUFSIZE v) :
    wrapLong ((n : Int) + 1) = ((n + 1 : Nat) : Int) := by
  have small := BUFSIZE_le v
  rw [wrapLong_of_range (by omega) (by omega)]
  rfl

theorem locCounts_next {v : Version} {state : Session Device File × Nat} {call : Call File}
    (counts : LocCounts v state) (room : state.1.writes call = true → state.2 < BUFSIZE v) :
    LocCounts v ((counted v File).next state call) := by
  rcases state with ⟨s, fill⟩
  have effect := effect_step v s call
  simp only [LocCounts, Machine.withGhost_next]
  generalize ((system v File).next s call).device = device,
    (system v File).out s call = answer at effect ⊢
  cases effect with
  | write file buf count opened =>
      have below : fill < BUFSIZE v := room opened
      have loc : s.device.loc = (fill : Int) := counts.1
      simp only [tally, opened, if_true, loc]
      exact ⟨wrapLong_succ below, below⟩
  | start file room count opened =>
      simpa only [LocCounts, tally, Session.writes, clears, Session.readsAt, opened, bne_self_eq_false,
        Bool.false_eq_true, if_false] using counts
  | finish file room count cleared =>
      simp only [tally, Session.writes, cleared, Bool.false_eq_true, if_false, if_true,
        memoryCleanup]
      exact ⟨rfl, Nat.zero_le _⟩
  | idle call ret noWrite noRead =>
      simpa only [LocCounts, tally, noWrite, clears, noRead, Bool.false_eq_true, if_false] using counts

/-- A write shows its store at `loc`; no other call stores anything. -/
theorem storesInside_iff {v : Version} {state : Session Device File × Nat} {call : Call File}
    (counts : LocCounts v state) :
    StoresInside v ((system v File).out state.1 call) ↔
      (state.1.writes call = true → state.2 < BUFSIZE v) := by
  rcases state with ⟨s, fill⟩
  have effect := effect_step v s call
  simp only
  generalize ((system v File).next s call).device = device,
    (system v File).out s call = answer at effect ⊢
  cases effect with
  | write file buf count opened =>
      have loc : s.device.loc = (fill : Int) := counts.1
      constructor
      · intro inside _
        have range := inside _ rfl s.device.loc (List.mem_singleton.mpr rfl)
        omega
      · intro below answer same i member
        cases same
        have here : i = s.device.loc := List.mem_singleton.mp member
        have bound := below opened
        omega
  | start file room count opened =>
      refine iff_of_true ?_ (fun impossible => by cases impossible)
      intro answer same i member
      cases same
      cases member
  | finish file room count cleared =>
      refine iff_of_true ?_ (fun impossible => by cases impossible)
      intro answer same i member
      cases same
      cases member
  | idle call ret noWrite noRead =>
      refine iff_of_true ?_ (fun impossible => absurd impossible (by rw [noWrite]; decide))
      intro answer same i member
      cases same
      cases member

/-! ## The bounds law is the bound on the clients -/

/-- In a history that never fills the buffer, `loc` is the count throughout. -/
theorem locCounts_run {v : Version} {s : Session Device File} {calls : List (Call File)}
    (counts : LocCounts v (s, 0)) (never : NeverFull v s calls) :
    LocCounts v ((counted v File).run (s, 0) calls) :=
  Machine.run_invariant (counted v File) (LocCounts v) _
    (fun _ _ counts room => locCounts_next counts room) counts never

theorem neverFull_of_stores {v : Version} {s : Session Device File} {calls : List (Call File)}
    (counts : LocCounts v (s, 0))
    (stores : forall answer, answer ∈ (system v File).trace s calls → StoresInside v answer) :
    NeverFull v s calls := by
  have along := (Machine.forall_trace_iff_along (system v File) (StoresInside v) s calls).mp stores
  have watched := (Machine.withGhost_along_fst (system v File) tally
    (fun state call => StoresInside v ((system v File).out state call)) (s, 0) calls).mpr along
  refine Machine.along_of_invariant (counted v File) (LocCounts v) _ _ ?_ ?_ counts watched
  · intro state call counts inside
    exact locCounts_next counts ((storesInside_iff counts).mp inside)
  · intro state call counts inside
    exact (storesInside_iff counts).mp inside

theorem boundsSafe_of_neverFull {v : Version} {s : Session Device File} {calls : List (Call File)}
    (counts : LocCounts v (s, 0)) (never : NeverFull v s calls) : BoundsSafe v s calls where
  stores := by
    apply (Machine.forall_trace_iff_along (system v File) (StoresInside v) s calls).mpr
    apply (Machine.withGhost_along_fst (system v File) tally
      (fun state call => StoresInside v ((system v File).out state call)) (s, 0) calls).mp
    refine Machine.along_of_invariant (counted v File) (LocCounts v) _ _ ?_ ?_ counts never
    · intro state call counts room
      exact locCounts_next counts room
    · intro state call counts room
      exact (storesInside_iff counts).mpr room
  loc := by
    intro before after split
    have prefixNever : NeverFull v s before := by
      rw [NeverFull, split, Machine.along_append] at never
      exact never.1
    have atPrefix := locCounts_run counts prefixNever
    simp only [LocCounts, Machine.withGhost_run_fst] at atPrefix
    omega
  refused := by
    intro before call after split reaches full
    rw [NeverFull, split, Machine.along_append] at never
    have atPrefix := locCounts_run counts never.1
    have room := never.2.1
    simp only [LocCounts, Machine.withGhost_run_fst] at atPrefix room
    have below := room reaches
    omega

/-- From a successful load on, a history obeys the bounds law exactly when it
issues at most `BUFSIZE` writes between two clears. -/
theorem boundsSafe_iff_neverFull (v : Version) (heap : ByteMemory) (calls : List (Call File)) :
    BoundsSafe v (initial v heap) calls ↔ NeverFull v (initial v heap) calls := by
  constructor
  · intro safe
    exact neverFull_of_stores (locCounts_initial v heap) safe.stores
  · exact boundsSafe_of_neverFull (locCounts_initial v heap)

/-- One client opens the device and writes one byte more than the buffer holds. -/
def overrun : List (Call Unit) :=
  .openFile () :: List.replicate 1025 (.write () [0x41] 1)

theorem overrun_not_boundsSafe :
    ¬ BoundsSafe .memory (initial .memory (fun _ => 0)) overrun := by
  intro safe
  have never : NeverFull .memory (initial .memory (fun _ => 0)) overrun :=
    neverFull_of_stores (locCounts_initial .memory (fun _ => 0)) safe.stores
  revert never
  decide +kernel

end MemoryDevice
end KernelHacking
