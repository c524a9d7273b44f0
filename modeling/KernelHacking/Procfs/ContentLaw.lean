import KernelHacking.Procfs.Driver

namespace KernelHacking
namespace Procfs

/-!
# What a read of the proc file delivers

All files share `kbuf`, and every one has its own position.  The law below is
about whole histories: a read from the start of a file delivers the content of
the last write that returned, by whatever file, and nothing of `kbuf` or of the
users' memory besides.  The stale tail of an earlier and longer content stays
in `kbuf`, where the terminator of the last print hides it.
-/

variable {File : Type*} [DecidableEq File]

/-- The proc file and the clients that have it open. -/
abbrev system (File : Type*) [DecidableEq File] :
    Machine (Session Kbuf File) (Call File) (Option Answer) :=
  procFops.machine File

/-- The buffer and the count of the last write that returned. -/
def lastWrite (s : Session Kbuf File) (call : Call File) (last : Option (List UInt8 × Nat)) :
    Option (List UInt8 × Nat) :=
  match call with
  | .write _ buf count =>
      if s.writes call ∧ ((system File).out s call).isSome then some (buf, count) else last
  | _ => last

/-- The driver watched by its last write. -/
abbrev watched (File : Type*) [DecidableEq File] :
    Machine (Session Kbuf File × Option (List UInt8 × Nat)) (Call File) (Option Answer) :=
  (system File).withGhost lastWrite

/-- The string at `kbuf` is the content of the last write. -/
def Holds (state : Session Kbuf File × Option (List UInt8 × Nat)) : Prop :=
  forall buf count, state.2 = some (buf, count) →
    cstr state.1.device.mapped = some (content buf count)

/-! ## One call -/

theorem procfsReader_device {kbuf : Kbuf} {room count : Nat} {pos : Int} {reply : Reply Kbuf}
    (returned : procfsReader kbuf room count pos = some reply) : reply.device = kbuf := by
  unfold procfsReader at returned
  split at returned
  · cases returned
    rfl
  · split at returned
    · cases returned
    · split at returned
      · cases returned
        rfl
      · cases returned

/-- A read from the start delivers the string at `kbuf`, or faults behind the
end of the user's buffer. -/
theorem procfsReader_start {kbuf : Kbuf} {text : List UInt8} (found : cstr kbuf.mapped = some text)
    (room count : Nat) :
    procfsReader kbuf room count 0 =
      if text.length < room then
        some { device := kbuf, fpos := text.length, ret := text.length, data := text ++ [0] }
      else none := by
  simp only [procfsReader, found, ne_eq, not_true_eq_false, if_false]

theorem procfsReader_elsewhere (kbuf : Kbuf) (room count : Nat) {pos : Int} (moved : pos ≠ 0) :
    procfsReader kbuf room count pos = some { device := kbuf, fpos := pos, ret := 0 } :=
  if_pos moved

/-- A write returns exactly when the user's string ends in mapped memory. -/
theorem procfsWriter_isSome_iff (kbuf : Kbuf) (buf : List UInt8) (count : Nat) (pos : Int) :
    (procfsWriter kbuf buf count pos).isSome = true ↔ 0 ∈ buf := by
  rw [procfsWriter, Kbuf.print, Option.isSome_map, Option.isSome_map, cstr_isSome_iff]

theorem procfsWriter_some {kbuf : Kbuf} {buf : List UInt8} {count : Nat} {pos : Int}
    {reply : Reply Kbuf} (returned : procfsWriter kbuf buf count pos = some reply) :
    reply.fpos = 0 ∧ reply.answer = { ret := wrapLong count } ∧
      cstr reply.device.mapped = some (content buf count) := by
  rcases Option.map_eq_some_iff.mp returned with ⟨printed, done, same⟩
  subst same
  refine ⟨rfl, ?_, print_cstr done⟩
  simp only [Reply.answer]

/-- A call is a write that returns and leaves its content, or it leaves `kbuf`
and the last write as they were. -/
theorem watched_cases (s : Session Kbuf File) (call : Call File)
    (last : Option (List UInt8 × Nat)) :
    (((system File).next s call).device = s.device ∧ lastWrite s call last = last) ∨
      ∃ buf count, lastWrite s call last = some (buf, count) ∧
        cstr ((system File).next s call).device.mapped = some (content buf count) := by
  have effect := FileOps.effect_step procFops_passive s call
  unfold lastWrite Machine.out Machine.next
  generalize (system File).step s call = outcome at effect ⊢
  cases effect with
  | read file room n fpos opened =>
      refine Or.inl ⟨?_, rfl⟩
      cases returned : procfsReader s.device room n fpos with
      | none =>
          simp only [procFops, returned]
          rfl
      | some reply =>
          simp only [procFops, returned]
          exact procfsReader_device returned
  | write file buf n fpos opened =>
      cases returned : procfsWriter s.device buf n fpos with
      | none =>
          simp only [procFops, returned, Session.settle, Option.isSome_none, Bool.false_eq_true,
            and_false, if_false, and_self, true_or]
      | some reply =>
          have reaches : s.writes (.write file buf n) = true := by
            simp only [Session.writes, opened, Option.isSome_some]
          simp only [procFops, returned, Session.settle, Option.isSome_some, reaches, and_self,
            if_true]
          exact Or.inr ⟨buf, n, rfl, (procfsWriter_some returned).2.2⟩
  | idle call fpos ret noWrite noRead =>
      refine Or.inl ⟨rfl, ?_⟩
      cases call with
      | write file buf n => simp only [noWrite, Bool.false_eq_true, false_and, if_false]
      | _ => rfl

/-- Every call keeps the string at `kbuf` in step with the last write. -/
theorem holds_next {state : Session Kbuf File × Option (List UInt8 × Nat)} (holds : Holds state)
    (call : Call File) : Holds ((watched File).next state call) := by
  intro buf count known
  rcases watched_cases state.1 call state.2 with ⟨device, unchanged⟩ | ⟨buf', count', last, text⟩
  · simp only [Machine.withGhost_next, unchanged, device] at known ⊢
    exact holds buf count known
  · simp only [Machine.withGhost_next, last] at known ⊢
    cases known
    exact text

/-- So it is after any history that begins with an unwritten `kbuf`. -/
theorem holds_run (kbuf : Kbuf) (calls : List (Call File)) :
    Holds ((watched File).run (Session.fresh kbuf, none) calls) := by
  apply Machine.run_invariant_of_step (watched File) Holds
  · intro state call holds
    exact holds_next holds call
  · intro buf count known
    cases known

/-! ## The law -/

/-- What the calls of a client do in a session whose last write is known. -/
structure ContentLaw (s : Session Kbuf File) (last : Option (List UInt8 × Nat)) : Prop where
  /-- A read from the start delivers the content of the last write and moves
  the file to the content's end. -/
  readStart : forall file room count buf n, s.fpos file = some 0 → last = some (buf, n) →
    (content buf n).length < room →
      (system File).step s (.read file room count) =
        ({ s with fpos := Function.update s.fpos file (some (content buf n).length) },
          some { ret := (content buf n).length, data := content buf n ++ [0] })
  /-- With no room for the content and its terminator the call does not return. -/
  readFault : forall file room count buf n, s.fpos file = some 0 → last = some (buf, n) →
    room ≤ (content buf n).length → (system File).step s (.read file room count) = (s, none)
  /-- A read from anywhere else returns zero and changes nothing. -/
  readElsewhere : forall file room count pos, s.fpos file = some pos → pos ≠ 0 →
    (system File).step s (.read file room count) = (s, some { ret := 0 })
  /-- A write returns its count and resets the position of its own file only. -/
  write : forall file buf n pos, s.fpos file = some pos → 0 ∈ buf →
    ((system File).next s (.write file buf n)).fpos = Function.update s.fpos file (some 0) ∧
      (system File).out s (.write file buf n) = some { ret := wrapLong n }
  /-- A write of a string that never ends does not return. -/
  writeFault : forall file buf n pos, s.fpos file = some pos → 0 ∉ buf →
    (system File).step s (.write file buf n) = (s, none)

/-- A write of a string that ends returns, with its content left at `kbuf`. -/
theorem step_write_ends {s : Session Kbuf File} {file : File} {pos : Int}
    (opened : s.fpos file = some pos) {buf : List UInt8} (ends : 0 ∈ buf) (count : Nat) :
    ∃ reply, (system File).step s (.write file buf count) = s.settle file (some reply) ∧
      reply.fpos = 0 ∧ reply.answer = { ret := wrapLong count } ∧
      cstr reply.device.mapped = some (content buf count) := by
  rcases Option.isSome_iff_exists.mp ((procfsWriter_isSome_iff s.device buf count pos).mpr ends) with
    ⟨reply, returned⟩
  refine ⟨reply, ?_, procfsWriter_some returned⟩
  rw [FileOps.step_write procFops opened, ← returned]
  rfl

/-- A write of one that does not end faults. -/
theorem step_write_endless {s : Session Kbuf File} {file : File} {pos : Int}
    (opened : s.fpos file = some pos) {buf : List UInt8} (endless : 0 ∉ buf) (count : Nat) :
    (system File).step s (.write file buf count) = (s, none) := by
  have faults : procfsWriter s.device buf count pos = none := by
    rw [← Option.not_isSome_iff_eq_none, procfsWriter_isSome_iff]
    exact endless
  rw [FileOps.step_write procFops opened]
  change s.settle file (procfsWriter s.device buf count pos) = _
  rw [faults]
  rfl

theorem contentLaw_of_holds {s : Session Kbuf File} {last : Option (List UInt8 × Nat)}
    (holds : Holds (s, last)) : ContentLaw s last where
  readStart := by
    intro file room count buf n opened known enough
    have found := holds buf n known
    rw [FileOps.step_read procFops opened]
    change s.settle file (procfsReader s.device room count 0) = _
    rw [procfsReader_start found, if_pos enough]
    rfl
  readFault := by
    intro file room count buf n opened known short
    have found := holds buf n known
    rw [FileOps.step_read procFops opened]
    change s.settle file (procfsReader s.device room count 0) = _
    rw [procfsReader_start found, if_neg (Nat.not_lt.mpr short)]
    rfl
  readElsewhere := by
    intro file room count pos opened moved
    rw [FileOps.step_read procFops opened]
    change s.settle file (procfsReader s.device room count pos) = _
    rw [procfsReader_elsewhere s.device room count moved]
    simp only [Session.settle, ← opened, Function.update_eq_self]
    rfl
  write := by
    intro file buf n pos opened ends
    rcases step_write_ends opened ends n with ⟨reply, step, reset, answer, _⟩
    rw [Machine.next, Machine.out, step]
    simp only [Session.settle, reset, answer, and_self]
  writeFault := by
    intro file buf n pos opened endless
    exact step_write_endless opened endless n

/-- Two last writes hand over the same bytes within their count. -/
def SameBytes (last last' : Option (List UInt8 × Nat)) : Prop :=
  ∃ buf buf' n, last = some (buf, n) ∧ last' = some (buf', n) ∧ buf.take n = buf'.take n

theorem content_congr {buf buf' : List UInt8} {n : Nat} (same : buf.take n = buf'.take n) :
    content buf n = content buf' n := by
  have cut := congrArg (List.take (BUFSIZE - 1)) same
  rw [List.take_take, List.take_take, Nat.min_comm] at cut
  rw [content, content, cut]

/-- After every history the law holds with the last write of that history, and
a read from the start cannot tell two histories apart whose last writes hand
over the same bytes: neither an older content of `kbuf` nor what lies behind
the user's bytes is ever delivered. -/
theorem read_delivers_lastWrite (kbuf : Kbuf) (calls : List (Call File)) :
    ContentLaw ((watched File).run (Session.fresh kbuf, none) calls).1
        ((watched File).run (Session.fresh kbuf, none) calls).2 ∧
      forall (kbuf' : Kbuf) (calls' : List (Call File)),
        SameBytes ((watched File).run (Session.fresh kbuf, none) calls).2
          ((watched File).run (Session.fresh kbuf', none) calls').2 →
        forall file file' room count count',
          ((watched File).run (Session.fresh kbuf, none) calls).1.fpos file = some 0 →
          ((watched File).run (Session.fresh kbuf', none) calls').1.fpos file' = some 0 →
          (system File).out ((watched File).run (Session.fresh kbuf, none) calls).1
              (.read file room count) =
            (system File).out ((watched File).run (Session.fresh kbuf', none) calls').1
              (.read file' room count') := by
  have law := contentLaw_of_holds (holds_run kbuf calls)
  refine ⟨law, ?_⟩
  intro kbuf' calls' agree file file' room count count' start start'
  have law' := contentLaw_of_holds (holds_run kbuf' calls')
  rcases agree with ⟨buf, buf', n, known, known', bytes⟩
  have same := content_congr bytes
  rw [Machine.out, Machine.out]
  rcases Nat.lt_or_ge (content buf n).length room with enough | short
  · rw [law.readStart file room count buf n start known enough,
      law'.readStart file' room count' buf' n start' known' (same ▸ enough), same]
  · rw [law.readFault file room count buf n start known short,
      law'.readFault file' room count' buf' n start' known' (same ▸ short)]

/-- A shorter write of one file after a longer one of another. -/
def twoWrites : List (Call Bool) :=
  [.openFile true, .write true [97, 98, 99, 0] 3, .openFile false, .write false [120, 121, 0] 1]

/-- The block as `kmalloc` may hand it over. -/
def unwritten : Kbuf where
  mapped := List.replicate BUFSIZE 255
  block := by rw [List.length_replicate]

/-- The shorter content is delivered although the tail of the longer one is
still in `kbuf`. -/
theorem shorterWrite_delivered :
    ((system Bool).step ((watched Bool).run (Session.fresh unwritten, none) twoWrites).1
      (.read false 2 100)).2 = some { ret := 1, data := [120, 0] } := by
  have law := (read_delivers_lastWrite unwritten twoWrites).1
  exact congrArg Prod.snd (law.readStart false 2 100 [120, 121, 0] 1 rfl rfl (by decide))

end Procfs
end KernelHacking
