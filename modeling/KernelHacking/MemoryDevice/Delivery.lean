import KernelHacking.MemoryDevice.Bounds

namespace KernelHacking
namespace MemoryDevice

/-!
# Which accepted bytes are delivered

The comment over `memory_cleanup` promises to clear the device after we finish
reading from it.  The clear is triggered by any file's read away from position
zero, whatever was written since that file read the contents.  A byte that
`memory_write` accepted is therefore delivered exactly when some read at
position zero comes between the write and the next clear.
-/

variable {File : Type*} [DecidableEq File]

/-- The byte that a write took from its user and the index where it is kept.
A write whose copy faults reports success too, but there is no byte. -/
def accepted (s : Session Device File) : Call File → Option (Nat × UInt8)
  | .write file (byte :: _) _ =>
      if (s.fpos file).isSome then some (s.device.loc.toNat, byte) else none
  | _ => none

/-- A full read hands over this byte at its index. -/
def Delivers (v : Version) (answer : Option Answer) (index : Nat) (byte : UInt8) : Prop :=
  ∃ a, answer = some a ∧ a.ret = BUFSIZE v ∧ a.data[index]? = some byte

/-- No clear comes before a full read that hands over the byte. -/
def DeliveredBeforeClear (v : Version) (index : Nat) (byte : UInt8) :
    Session Device File → List (Call File) → Prop
  | _, [] => True
  | s, call :: rest =>
      clears s call = false ∧
        (Delivers v ((system v File).out s call) index byte ∨
          DeliveredBeforeClear v index byte ((system v File).next s call) rest)

/-- Every byte accepted in this history is delivered before it is erased. -/
def NoByteLost (v : Version) (s : Session Device File) (calls : List (Call File)) : Prop :=
  forall before write after, calls = before ++ write :: after →
    forall index byte, accepted ((system v File).run s before) write = some (index, byte) →
      DeliveredBeforeClear v index byte
        ((system v File).next ((system v File).run s before) write) after

omit [DecidableEq File] in
private theorem split_cons {call : Call File} {rest before after : List (Call File)}
    {op : Call File} (split : call :: rest = before ++ op :: after) :
    (before = [] ∧ op = call ∧ after = rest) ∨
      ∃ shorter, before = call :: shorter ∧ rest = shorter ++ op :: after := by
  cases before with
  | nil =>
      rcases List.cons.inj split with ⟨same, tail⟩
      exact Or.inl ⟨rfl, same.symm, tail.symm⟩
  | cons head shorter =>
      rcases List.cons.inj split with ⟨same, tail⟩
      exact Or.inr ⟨shorter, by rw [same], tail⟩

theorem noByteLost_cons (v : Version) (s : Session Device File) (call : Call File)
    (rest : List (Call File)) :
    NoByteLost v s (call :: rest) ↔
      (forall index byte, accepted s call = some (index, byte) →
        DeliveredBeforeClear v index byte ((system v File).next s call) rest) ∧
      NoByteLost v ((system v File).next s call) rest := by
  constructor
  · intro safe
    refine ⟨safe [] call rest rfl, ?_⟩
    intro before write after split
    exact safe (call :: before) write after (congrArg (call :: ·) split)
  · rintro ⟨here, later⟩ before write after split
    rcases split_cons split with ⟨rfl, rfl, rfl⟩ | ⟨shorter, rfl, tail⟩
    · exact here
    · exact later shorter write after tail

/-! ## The clients' side of the law -/

/-- The number of bytes that a read can store in its user's buffer. -/
def roomOf : Call File → Nat
  | .read _ room _ => room
  | _ => 0

/-- The index of the last byte accepted since the last clear, if no read at
position zero reached that far since. -/
def lastUnread (s : Session Device File) (call : Call File) (fill : Nat)
    (unread : Option Nat) : Option Nat :=
  match accepted s call with
  | some _ => some fill
  | none =>
      if clears s call then none
      else if s.readsAt call = some 0 then unread.filter (fun index => roomOf call ≤ index)
      else unread

/-- The driver watched by the write count and the last unread byte. -/
abbrev watched (v : Version) (File : Type*) [DecidableEq File] :
    Machine (Session Device File × (Nat × Option Nat)) (Call File) (Option Answer) :=
  (system v File).withGhost
    (fun s call ghost => (tally s call ghost.1, lastUnread s call ghost.1 ghost.2))

/-- The clients clear the device only when the last byte accepted since the
previous clear has been within reach of a read at position zero. -/
def ReadBeforeClear (v : Version) (s : Session Device File) (calls : List (Call File)) : Prop :=
  (watched v File).Along (fun state call => clears state.1 call = true → state.2.2 = none)
    (s, (0, none)) calls

instance decidableReadBeforeClear (v : Version) (s : Session Device File)
    (calls : List (Call File)) : Decidable (ReadBeforeClear v s calls) :=
  inferInstanceAs (Decidable ((watched v File).Along _ (s, (0, none)) calls))

/-! ## Bytes that are still waiting -/

/-- `pending` lists the bytes accepted since the last clear that no read has
handed over.  They lie in the block at their indices, and the ghost `unread`
is the highest of them. -/
structure Waiting (v : Version) (s : Session Device File) (fill : Nat) (unread : Option Nat)
    (pending : List (Nat × UInt8)) : Prop where
  counts : LocCounts v (s, fill)
  kept : forall index byte, (index, byte) ∈ pending →
    index < fill ∧ s.device.mem index = byte
  none_unread : unread = none → pending = []
  last_unread : forall last, unread = some last →
    (∃ byte, (last, byte) ∈ pending) ∧ forall index byte, (index, byte) ∈ pending → index ≤ last

omit [DecidableEq File] in
/-- At a clear nothing may be waiting. -/
theorem Waiting.unread_none_iff {v : Version} {s : Session Device File} {fill : Nat}
    {unread : Option Nat} {pending : List (Nat × UInt8)} (waiting : Waiting v s fill unread pending) :
    unread = none ↔ pending = [] := by
  constructor
  · exact waiting.none_unread
  · intro empty
    cases known : unread with
    | none => rfl
    | some last =>
        rcases (waiting.last_unread last known).1 with ⟨byte, member⟩
        rw [empty] at member
        cases member

/-- The bytes still waiting after one more call. -/
def remaining (s : Session Device File) (call : Call File) (pending : List (Nat × UInt8)) :
    List (Nat × UInt8) :=
  match accepted s call with
  | some entry => entry :: pending
  | none =>
      if clears s call then []
      else if s.readsAt call = some 0 then pending.filter (fun entry => roomOf call ≤ entry.1)
      else pending

/-- A waiting byte is handed over by the reads at position zero that reach it,
and by no other call. -/
theorem delivers_iff {v : Version} {s : Session Device File} {index : Nat} {byte : UInt8}
    (inside : index < BUFSIZE v) (holds : s.device.mem index = byte) (call : Call File) :
    Delivers v ((system v File).out s call) index byte ↔
      s.readsAt call = some 0 ∧ index < roomOf call := by
  have effect := effect_step v s call
  generalize ((system v File).next s call).device = device,
    (system v File).out s call = answer at effect ⊢
  cases effect with
  | write file buf count opened =>
      constructor
      · rintro ⟨answer, same, _, entry⟩
        cases same
        cases entry
      · rintro ⟨impossible, _⟩
        cases impossible
  | start file room count opened =>
      have reached : (bytesAt s.device.mem 0 (min (BUFSIZE v) room))[index]? = some byte ↔
          index < room := by
        rcases Nat.lt_or_ge index room with within | beyond
        · rw [bytesAt_getElem? _ _ (Nat.lt_min.mpr ⟨inside, within⟩), zero_add, holds]
          exact iff_of_true rfl within
        · rw [bytesAt_getElem?_of_le _ _ (Nat.le_trans (Nat.min_le_right _ _) beyond)]
          exact iff_of_false (fun impossible => by cases impossible) (Nat.not_lt.mpr beyond)
      constructor
      · rintro ⟨answer, same, _, entry⟩
        cases same
        exact ⟨opened, reached.mp entry⟩
      · rintro ⟨_, within⟩
        exact ⟨_, rfl, rfl, reached.mpr within⟩
  | finish file room count cleared =>
      constructor
      · rintro ⟨answer, same, full, _⟩
        cases same
        have positive := BUFSIZE_pos v
        simp only at full
        omega
      · rintro ⟨start, _⟩
        simp only [clears, start, bne_self_eq_false, Bool.false_eq_true] at cleared
  | idle call ret noWrite noRead =>
      constructor
      · rintro ⟨answer, same, _, entry⟩
        cases same
        cases entry
      · rintro ⟨start, _⟩
        rw [noRead] at start
        cases start

omit [DecidableEq File] in
theorem accepted_none_of_not_writes {s : Session Device File} {call : Call File}
    (noWrite : s.writes call = false) : accepted s call = none := by
  cases call with
  | write file buf count =>
      cases buf with
      | nil => rfl
      | cons byte rest =>
          rw [Session.writes] at noWrite
          simp only [accepted, noWrite, Bool.false_eq_true, if_false]
  | _ => rfl

section Account

variable {v : Version} {s next : Session Device File} {fill : Nat} {unread : Option Nat}
  {pending : List (Nat × UInt8)}

omit [DecidableEq File] in
/-- A store at `loc` leaves every waiting byte in its place. -/
private theorem Waiting.untouched (waiting : Waiting v s fill unread pending) (byte : UInt8)
    (device : next.device.mem = Function.update s.device.mem s.device.loc byte) :
    forall index stored, (index, stored) ∈ pending →
      index < fill + 1 ∧ next.device.mem index = stored := by
  intro index stored member
  have kept := waiting.kept index stored member
  have loc : s.device.loc = (fill : Int) := waiting.counts.1
  refine ⟨Nat.lt_succ_of_lt kept.1, ?_⟩
  rw [device, Function.update_of_ne (by omega)]
  exact kept.2

omit [DecidableEq File] in
/-- The byte just accepted waits at the end of the account. -/
private theorem Waiting.accept (waiting : Waiting v s fill unread pending) (byte : UInt8)
    (device : next.device.mem = Function.update s.device.mem s.device.loc byte)
    (counts : LocCounts v (next, fill + 1)) :
    Waiting v next (fill + 1) (some fill) ((fill, byte) :: pending) where
  counts := counts
  kept := by
    intro index stored member
    rcases List.mem_cons.mp member with same | member
    · cases same
      have loc : s.device.loc = (fill : Int) := waiting.counts.1
      refine ⟨Nat.lt_succ_self _, ?_⟩
      rw [device, ← loc, Function.update_self]
    · exact waiting.untouched byte device index stored member
  none_unread impossible := by cases impossible
  last_unread := by
    intro last known
    cases known
    refine ⟨⟨byte, List.mem_cons_self⟩, ?_⟩
    intro index stored member
    rcases List.mem_cons.mp member with same | member
    · cases same
      exact Nat.le_refl _
    · exact Nat.le_of_lt (waiting.kept index stored member).1

omit [DecidableEq File] in
/-- A read at position zero takes the bytes it reaches off the account. -/
private theorem Waiting.reach (waiting : Waiting v s fill unread pending) (room : Nat)
    (device : next.device = s.device) (counts : LocCounts v (next, fill)) :
    Waiting v next fill (unread.filter (fun index => room ≤ index))
      (pending.filter (fun entry => room ≤ entry.1)) where
  counts := counts
  kept := by
    intro index byte member
    rw [device]
    exact waiting.kept index byte (List.mem_of_mem_filter member)
  none_unread := by
    intro nothing
    apply List.filter_eq_nil_iff.mpr
    rintro ⟨index, byte⟩ member
    cases known : unread with
    | none =>
        rw [waiting.none_unread known] at member
        cases member
    | some last =>
        rw [known, Option.filter_eq_none_iff] at nothing
        have beyond := nothing last rfl
        have below := (waiting.last_unread last known).2 index byte member
        simp only [decide_eq_true_eq] at beyond ⊢
        omega
  last_unread := by
    intro last survives
    rw [Option.filter_eq_some_iff] at survives
    have facts := waiting.last_unread last survives.1
    rcases facts.1 with ⟨byte, member⟩
    refine ⟨⟨byte, List.mem_filter.mpr ⟨member, survives.2⟩⟩, ?_⟩
    intro index stored stays
    exact facts.2 index stored (List.mem_of_mem_filter stays)

/-- One call keeps the account of waiting bytes right. -/
theorem waiting_next {call : Call File} (waiting : Waiting v s fill unread pending)
    (space : s.writes call = true → fill < BUFSIZE v) :
    Waiting v ((system v File).next s call) (tally s call fill) (lastUnread s call fill unread)
      (remaining s call pending) := by
  have counts : LocCounts v ((system v File).next s call, tally s call fill) :=
    @locCounts_next File _ v (s, fill) call waiting.counts space
  have effect := effect_step v s call
  generalize (system v File).next s call = next at effect counts ⊢
  generalize device : next.device = after, (system v File).out s call = answer at effect
  cases effect with
  | write file buf count opened =>
      have stored : next.device.mem = Function.update s.device.mem s.device.loc (buf.headD 0) := by
        rw [device]
      have filled : tally s (.write file buf count) fill = fill + 1 := by
        simp only [tally, opened, if_true]
      rw [filled] at counts ⊢
      cases buf with
      | nil => exact ⟨counts, waiting.untouched 0 stored, waiting.none_unread, waiting.last_unread⟩
      | cons byte rest =>
          have isOpen : (s.fpos file).isSome = true := opened
          have loc : s.device.loc = (fill : Int) := waiting.counts.1
          have entry : accepted s (.write file (byte :: rest) count) = some (fill, byte) := by
            simp only [accepted, isOpen, if_true, loc, Int.toNat_natCast]
          simp only [lastUnread, remaining, entry]
          exact waiting.accept byte stored counts
  | start file room count opened =>
      have reads : s.readsAt (.read file room count) = some 0 := opened
      have noClear : clears s (.read file room count) = false := by
        simp only [clears, reads, bne_self_eq_false]
      simp only [tally, lastUnread, remaining, accepted, noClear, reads, Session.writes,
        Bool.false_eq_true, if_false, if_true] at counts ⊢
      exact waiting.reach room device counts
  | finish file room count cleared =>
      simp only [tally, lastUnread, remaining, accepted, cleared, Session.writes,
        Bool.false_eq_true, if_false, if_true] at counts ⊢
      refine ⟨counts, ?_, fun _ => rfl, ?_⟩
      · intro index byte member
        cases member
      · intro last impossible
        cases impossible
  | idle call ret noWrite noRead =>
      have noClear : clears s call = false := by simp only [clears, noRead]
      have noEntry := accepted_none_of_not_writes noWrite
      simp only [tally, lastUnread, remaining, noEntry, noClear, noRead, noWrite,
        Bool.false_eq_true, if_false, reduceCtorEq] at counts ⊢
      refine ⟨counts, ?_, waiting.none_unread, waiting.last_unread⟩
      rw [device]
      exact waiting.kept

end Account

/-! ## The law is the condition on the clients -/

/-- One call: the bytes waiting before it and the byte it takes are delivered
in time exactly when it clears nothing that waits and the bytes waiting after
it are delivered in time. -/
theorem delivered_step {v : Version} {s : Session Device File} {fill : Nat} {unread : Option Nat}
    {pending : List (Nat × UInt8)} (waiting : Waiting v s fill unread pending) (call : Call File)
    (rest : List (Call File)) :
    ((forall index byte, (index, byte) ∈ pending →
        DeliveredBeforeClear v index byte s (call :: rest)) ∧
      (forall index byte, accepted s call = some (index, byte) →
        DeliveredBeforeClear v index byte ((system v File).next s call) rest)) ↔
    ((clears s call = true → unread = none) ∧
      forall index byte, (index, byte) ∈ remaining s call pending →
        DeliveredBeforeClear v index byte ((system v File).next s call) rest) := by
  have delivers : forall index byte, (index, byte) ∈ pending →
      (Delivers v ((system v File).out s call) index byte ↔
        s.readsAt call = some 0 ∧ index < roomOf call) := by
    intro index byte member
    have kept := waiting.kept index byte member
    exact delivers_iff (Nat.lt_of_lt_of_le kept.1 waiting.counts.2) kept.2 call
  rw [waiting.unread_none_iff]
  simp only [DeliveredBeforeClear]
  cases entry : accepted s call with
  | some taken =>
      have noRead : s.readsAt call = none := by
        cases call <;> first | rfl | cases entry
      have noClear : clears s call = false := by simp only [clears, noRead]
      simp only [remaining, entry, noClear, noRead, Option.some.injEq, true_and, List.mem_cons,
        Bool.false_eq_true, false_implies] at delivers ⊢
      constructor
      · rintro ⟨waitingOnes, new⟩ index byte (same | member)
        · exact new index byte same.symm
        · rcases waitingOnes index byte member with now | later
          · exact absurd ((delivers index byte member).mp now).1 (by simp)
          · exact later
      · intro every
        exact ⟨fun index byte member => Or.inr (every index byte (Or.inr member)),
          fun index byte same => every index byte (Or.inl same.symm)⟩
  | none =>
      cases cleared : clears s call with
      | true =>
          simp only [remaining, entry, cleared, if_true, reduceCtorEq, false_and, true_implies,
            false_implies, implies_true, and_true, List.not_mem_nil]
          constructor
          · intro nothing
            exact List.eq_nil_iff_forall_not_mem.mpr fun entry member => nothing _ _ member
          · intro empty index byte member
            rw [empty] at member
            cases member
      | false =>
          simp only [remaining, entry, cleared, Bool.false_eq_true, if_false, reduceCtorEq,
            false_implies, implies_true, and_true, true_and]
          by_cases start : s.readsAt call = some 0
          · simp only [start, if_true, List.mem_filter, decide_eq_true_eq, true_and] at delivers ⊢
            constructor
            · rintro every index byte ⟨member, beyond⟩
              rcases every index byte member with now | later
              · exact absurd ((delivers index byte member).mp now) (Nat.not_lt.mpr beyond)
              · exact later
            · intro every index byte member
              rcases Nat.lt_or_ge index (roomOf call) with within | beyond
              · exact Or.inl ((delivers index byte member).mpr within)
              · exact Or.inr (every index byte ⟨member, beyond⟩)
          · simp only [start, if_false, false_and] at delivers ⊢
            constructor
            · intro every index byte member
              rcases every index byte member with now | later
              · exact ((delivers index byte member).mp now).elim
              · exact later
            · intro every index byte member
              exact Or.inr (every index byte member)

/-- The induction over a history, with any bytes already waiting. -/
theorem delivered_iff {v : Version} {s : Session Device File} {fill : Nat} {unread : Option Nat}
    {pending : List (Nat × UInt8)} (waiting : Waiting v s fill unread pending)
    {calls : List (Call File)}
    (never : (counted v File).Along (fun state call => state.1.writes call = true →
      state.2 < BUFSIZE v) (s, fill) calls) :
    ((forall index byte, (index, byte) ∈ pending → DeliveredBeforeClear v index byte s calls) ∧
      NoByteLost v s calls) ↔
    (watched v File).Along (fun state call => clears state.1 call = true → state.2.2 = none)
      (s, (fill, unread)) calls := by
  induction calls generalizing s fill unread pending with
  | nil =>
      refine iff_of_true ⟨fun _ _ _ => trivial, ?_⟩ trivial
      intro before write after split
      cases before <;> cases split
  | cons call rest ih =>
      have later := ih (waiting_next waiting never.1) never.2
      rw [Machine.along_cons, Machine.withGhost_next, ← later, noByteLost_cons, ← and_assoc,
        delivered_step waiting call rest, and_assoc]

/-- As long as the buffer is never full, the driver loses no accepted byte
exactly when its clients clear it only after reading as far as the last one. -/
theorem noByteLost_iff_readBeforeClear (v : Version) (heap : ByteMemory) (calls : List (Call File))
    (never : NeverFull v (initial v heap) calls) :
    NoByteLost v (initial v heap) calls ↔ ReadBeforeClear v (initial v heap) calls := by
  have waiting : Waiting v (initial v heap : Session Device File) 0 none [] :=
    ⟨locCounts_initial v heap, fun _ _ member => absurd member List.not_mem_nil, fun _ => rfl,
      fun _ impossible => absurd impossible (by simp)⟩
  have law := delivered_iff waiting never
  constructor
  · intro safe
    exact law.mp ⟨fun _ _ member => absurd member List.not_mem_nil, safe⟩
  · intro along
    exact (law.mpr along).2

/-- A byte written before the reader starts. -/
def promptByte : List (Call Bool) :=
  [.openFile true, .write true [0x41] 1, .openFile false, .read false 1024 1024,
    .read false 1024 1024]

theorem promptByte_delivered :
    NoByteLost .memory (initial .memory (fun _ => 0)) promptByte :=
  (noByteLost_iff_readBeforeClear .memory (fun _ => 0) promptByte (by decide)).mpr (by decide)

/-- One client has read the empty device and a second one writes a byte before
the first comes back to see the end of the file. -/
def lateByte : List (Call Bool) :=
  [.openFile false, .read false 1024 1024, .openFile true, .write true [0x41] 1,
    .read false 1024 1024]

theorem lateByte_lost :
    NeverFull .memory (initial .memory (fun _ => 0)) lateByte ∧
      ¬ NoByteLost .memory (initial .memory (fun _ => 0)) lateByte := by
  refine ⟨by decide, ?_⟩
  intro safe
  have delivered := safe [.openFile false, .read false 1024 1024, .openFile true]
    (.write true [0x41] 1) [.read false 1024 1024] rfl 0 0x41 rfl
  exact absurd delivered.1 (by decide)

end MemoryDevice
end KernelHacking
