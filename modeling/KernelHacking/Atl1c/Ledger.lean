import Mathlib.Tactic.IntervalCases
import KernelHacking.Atl1c.Rollback
import KernelHacking.Foundations.Conservation

namespace KernelHacking
namespace Atl1c

/-!
# What the transmit side owes the kernel

A packet that the driver has taken is to be freed once, and a mapping that it has
made is to be undone once, with the length and the kind it was made with.  What
is still owed stands in the buffers of the ring: it is what cleaning them all
would give back.
-/

variable {count : Nat}

/-- What the event makes the driver owe. -/
def Event.put : Event → Option Release
  | .took skb => some (.consume skb)
  | .mapped undo => some undo
  | _ => none

/-- What the event settles. -/
def Event.settle : Event → Option Release
  | .gave release => some release
  | .freed skb => some (.consume skb)
  | _ => none

/-- The packet that the event leaves to nobody. -/
def Event.lose : Event → Option Release
  | .forgot skb => some (.consume skb)
  | _ => none

/-- What the event settles, or gives up. -/
def Event.get : Event → Option Release
  | .gave release => some release
  | .freed skb | .forgot skb => some (.consume skb)
  | _ => none

/-! ## Buffers -/

namespace TxBuffer

/-- What cleaning the buffer would give back. -/
def owed (info : TxBuffer) : List Release := (cleanBuffer info).2

def isFree (info : TxBuffer) : Bool := info.flags &&& bufferFree != 0

/-- A free buffer holds no packet. -/
def Tidy (info : TxBuffer) : Prop := info.isFree = true → info.skb = none

theorem owed_of_free {info : TxBuffer} (free : info.isFree = true) : info.owed = [] := by
  rw [isFree] at free
  rw [owed, cleanBuffer, if_pos free]

theorem owed_of_not_free {info : TxBuffer} (busy : info.isFree = false) :
    info.owed = info.unmap ++ info.skb.toList.map .consume := by
  rw [isFree] at busy
  rw [owed, cleanBuffer, busy]
  rfl

theorem isFree_setBufferState (flags : BitVec 16) :
    (setBufferState flags bufferFree &&& bufferFree != 0) = true := by
  rw [setBufferState, bne_iff_ne]
  intro zero
  have bit := congrArg (BitVec.getLsbD · 0) zero
  simp [bufferFree, bufferStateMask] at bit

theorem isFree_clean (info : TxBuffer) : (cleanBuffer info).1.isFree = true := by
  unfold cleanBuffer
  split_ifs with free
  · exact free
  · exact isFree_setBufferState info.flags

theorem owed_clean (info : TxBuffer) : (cleanBuffer info).1.owed = [] :=
  owed_of_free info.isFree_clean

theorem Tidy.clean {info : TxBuffer} (tidy : info.Tidy) : (cleanBuffer info).1.Tidy := by
  unfold cleanBuffer
  split_ifs with free
  · exact tidy
  · exact fun _ => rfl

/-- A buffer that nothing is owed for has no packet. -/
theorem Tidy.skb {info : TxBuffer} (tidy : info.Tidy) (quiet : info.owed = []) :
    info.skb = none := by
  cases free : info.isFree with
  | true => exact tidy free
  | false =>
      rw [owed_of_not_free free] at quiet
      cases packet : info.skb with
      | none => rfl
      | some skb =>
          rw [packet] at quiet
          exact absurd (List.append_eq_nil_iff.mp quiet).2 (List.cons_ne_nil _ _)

/-- The buffer of a mapping that was refused. -/
theorem Tidy.refused {info : TxBuffer} (tidy : info.Tidy) (quiet : info.owed = []) :
    ({ info with length := 0, dma := 0 } : TxBuffer).Tidy ∧
      ({ info with length := 0, dma := 0 } : TxBuffer).owed = [] := by
  refine ⟨tidy, ?_⟩
  cases free : info.isFree with
  | true => exact owed_of_free free
  | false =>
      have empty := tidy.skb quiet
      have whole := owed_of_not_free
        (show TxBuffer.isFree { info with length := 0, dma := 0 } = false from free)
      rw [whole, unmap, if_pos rfl, empty]
      rfl

section Flags

variable (flags : BitVec 16)

/-- The flags of a buffer that has been mapped. -/
theorem flags_single :
    (setPcimapType (setBufferState flags bufferBusy) pcimapSingle pcimapTodevice &&&
        bufferFree != 0) = false ∧
      (setPcimapType (setBufferState flags bufferBusy) pcimapSingle pcimapTodevice &&&
        pcimapSingle != 0) = true := by
  constructor
  · rw [bne_eq_false_iff_eq]
    apply BitVec.eq_of_getLsbD_eq
    intro i inside
    interval_cases i <;> simp [setPcimapType, setBufferState, bufferBusy, bufferFree,
      bufferStateMask, pcimapTypeMask, pcimapDirectionMask, pcimapSingle, pcimapTodevice]
  · rw [bne_iff_ne]
    intro zero
    have bit := congrArg (BitVec.getLsbD · 2) zero
    simp [setPcimapType, pcimapDirectionMask, pcimapSingle, pcimapTodevice] at bit

theorem flags_page :
    (setPcimapType (setBufferState flags bufferBusy) pcimapPage pcimapTodevice &&&
        bufferFree != 0) = false ∧
      (setPcimapType (setBufferState flags bufferBusy) pcimapPage pcimapTodevice &&&
        pcimapSingle != 0) = false ∧
      (setPcimapType (setBufferState flags bufferBusy) pcimapPage pcimapTodevice &&&
        pcimapPage != 0) = true := by
  refine ⟨?_, ?_, ?_⟩
  · rw [bne_eq_false_iff_eq]
    apply BitVec.eq_of_getLsbD_eq
    intro i inside
    interval_cases i <;> simp [setPcimapType, setBufferState, bufferBusy, bufferFree,
      bufferStateMask, pcimapTypeMask, pcimapDirectionMask, pcimapPage, pcimapTodevice]
  · rw [bne_eq_false_iff_eq]
    apply BitVec.eq_of_getLsbD_eq
    intro i inside
    interval_cases i <;> simp [setPcimapType, setBufferState, bufferBusy,
      bufferStateMask, pcimapTypeMask, pcimapDirectionMask, pcimapPage, pcimapSingle,
      pcimapTodevice]
  · rw [bne_iff_ne]
    intro zero
    have bit := congrArg (BitVec.getLsbD · 3) zero
    simp [setPcimapType, pcimapDirectionMask, pcimapPage, pcimapTodevice] at bit

end Flags

/-- What a mapping makes the driver owe. -/
theorem owed_mapped {info : TxBuffer} (empty : info.skb = none) {dma : BitVec 64}
    (real : dma ≠ 0) (fresh : Bool) (length : BitVec 16) {type : BitVec 16}
    (kind : type = pcimapSingle ∨ type = pcimapPage) :
    let mapped : TxBuffer := { info with
      length := length
      dma := dma
      flags := setPcimapType (setBufferState info.flags bufferBusy) type pcimapTodevice }
    mapped.isFree = false ∧ mapped.Tidy ∧
      mapped.owed = [Request.undo ⟨fresh, length, type⟩ dma] := by
  intro mapped
  rcases kind with rfl | rfl
  · have flags := flags_single info.flags
    refine ⟨flags.1, fun _ => empty, ?_⟩
    rw [owed_of_not_free (show mapped.isFree = false from flags.1), unmap, if_neg real,
      if_pos flags.2, show mapped.skb = none from empty]
    rfl
  · have flags := flags_page info.flags
    refine ⟨flags.1, fun _ => empty, ?_⟩
    rw [owed_of_not_free (show mapped.isFree = false from flags.1), unmap, if_neg real,
      if_neg (Bool.eq_false_iff.mp flags.2.1), if_pos flags.2.2,
      show mapped.skb = none from empty]
    rfl

/-- The last buffer of a packet gets the packet too. -/
theorem owed_finished {info : TxBuffer} (busy : info.isFree = false) (empty : info.skb = none)
    (skb : Nat) :
    ({ info with skb := some skb } : TxBuffer).owed = info.owed ++ [.consume skb] := by
  have whole := owed_of_not_free
    (show TxBuffer.isFree { info with skb := some skb } = false from busy)
  rw [whole, owed_of_not_free busy, empty]
  change info.unmap ++ [Release.consume skb] = info.unmap ++ [] ++ [Release.consume skb]
  rw [List.append_nil]

end TxBuffer

/-! ## The ring -/

namespace Ring

/-- What cleaning the whole ring would give back. -/
def owed (ring : Ring count) : List Release := inPlaces fun place => (ring.bufferInfo place).owed

theorem owed_congr {ring ring' : Ring count}
    (same : forall place, (ring'.bufferInfo place).owed = (ring.bufferInfo place).owed) :
    ring'.owed = ring.owed := congrArg inPlaces (funext same)

theorem owed_setInfo (ring : Ring count) (place : Fin count) (info : TxBuffer) :
    ((ring.bufferInfo place).owed ++ (ring.setInfo place info).owed).Perm
      (info.owed ++ ring.owed) := by
  have written : (fun other => ((ring.setInfo place info).bufferInfo other).owed) =
      Function.update (fun other => (ring.bufferInfo other).owed) place info.owed := by
    funext other
    by_cases same : other = place
    · subst same
      rw [setInfo_self, Function.update_self]
    · rw [setInfo_of_ne _ _ _ same, Function.update_of_ne same]
  have moved := inPlaces_update (fun other => (ring.bufferInfo other).owed) place info.owed
  rwa [← written] at moved

/-- Cleaning a buffer gives back what was owed for it. -/
theorem owed_cleaned (ring : Ring count) (place : Fin count) :
    ((ring.bufferInfo place).owed ++
      (ring.setInfo place (cleanBuffer (ring.bufferInfo place)).1).owed).Perm ring.owed := by
  have moved := ring.owed_setInfo place (cleanBuffer (ring.bufferInfo place)).1
  rwa [TxBuffer.owed_clean] at moved

/-- What a ring is like at any time: free buffers hold no packet, and nothing is
owed for the places that are not in use. -/
structure Roomy (ring : Ring count) : Prop where
  tidy : forall place, (ring.bufferInfo place).Tidy
  quiet : forall j, j ≤ ring.tpdAvail →
    (ring.bufferInfo (Cyclic.next^[j] ring.nextToUse)).owed = []

theorem Roomy.txQueue {ring : Ring count} (roomy : Roomy ring) : Roomy (txQueue ring) :=
  ⟨roomy.tidy, roomy.quiet⟩

/-- The places not in use end where the card has not reported yet. -/
theorem iterate_tpdAvail (ring : Ring count) :
    Cyclic.next^[ring.tpdAvail + 1] ring.nextToUse = ring.nextToClean := by
  have use := ring.nextToUse.isLt
  have clean := ring.nextToClean.isLt
  apply Fin.ext
  rw [Cyclic.iterate_val, tpdAvail]
  split
  · next ahead =>
      rw [Nat.mod_eq_of_lt (by omega)]
      omega
  · next behind =>
      have around : ring.nextToUse.val + (count + ring.nextToClean.val - ring.nextToUse.val - 1 + 1) =
          ring.nextToClean.val + count := by omega
      rw [around, Nat.add_mod_right, Nat.mod_eq_of_lt clean]

/-- Taking descriptors leaves so many less. -/
theorem tpdAvail_moved {ring ring' : Ring count} {k : Nat} (few : k ≤ ring.tpdAvail)
    (nextToUse : ring'.nextToUse = Cyclic.next^[k] ring.nextToUse)
    (nextToClean : ring'.nextToClean = ring.nextToClean) :
    ring'.tpdAvail = ring.tpdAvail - k := by
  have use := ring.nextToUse.isLt
  have clean := ring.nextToClean.isLt
  have place := congrArg Fin.val nextToUse
  rw [Cyclic.iterate_val] at place
  unfold tpdAvail at few ⊢
  rw [place, nextToClean]
  split at few
  · next ahead =>
      rw [if_pos ahead, Nat.mod_eq_of_lt (by omega), if_pos (by omega)]
      omega
  · next behind =>
      rw [if_neg behind]
      rcases Nat.lt_or_ge (ring.nextToUse.val + k) count with inside | around
      · rw [Nat.mod_eq_of_lt inside, if_neg (by omega)]
        omega
      · have wrapped : (ring.nextToUse.val + k) % count = ring.nextToUse.val + k - count := by
          rw [Nat.mod_eq_sub_mod around]
          exact Nat.mod_eq_of_lt (by omega)
        rw [wrapped, if_pos (by omega)]
        omega

/-- A report of the card gives one place more, or nothing was in use. -/
theorem tpdAvail_cleanOne_le (ring : Ring count) : ring.cleanOne.tpdAvail ≤ ring.tpdAvail + 1 := by
  have use := ring.nextToUse.isLt
  have clean := ring.nextToClean.isLt
  have next := Cyclic.next_val ring.nextToClean
  change (if ring.nextToUse.val < (Cyclic.next ring.nextToClean).val then
      (Cyclic.next ring.nextToClean).val - ring.nextToUse.val - 1
    else count + (Cyclic.next ring.nextToClean).val - ring.nextToUse.val - 1) ≤ _
  unfold tpdAvail
  rcases Nat.lt_or_ge (ring.nextToClean.val + 1) count with inside | last
  · rw [Nat.mod_eq_of_lt inside] at next
    rw [next]
    split_ifs <;> omega
  · have wrapped : (ring.nextToClean.val + 1) % count = 0 := by
      have whole : ring.nextToClean.val + 1 = count := by omega
      rw [whole, Nat.mod_self]
    rw [wrapped] at next
    rw [next]
    split_ifs <;> omega

theorem Roomy.cleanOne {ring : Ring count} (roomy : Roomy ring) : Roomy ring.cleanOne where
  tidy place := by
    change ((ring.setInfo _ _).bufferInfo place).Tidy
    by_cases same : place = ring.nextToClean
    · rw [same, setInfo_self]
      exact (roomy.tidy _).clean
    · rw [setInfo_of_ne _ _ _ same]
      exact roomy.tidy place
  quiet j few := by
    change ((ring.setInfo _ _).bufferInfo (Cyclic.next^[j] ring.nextToUse)).owed = []
    by_cases same : Cyclic.next^[j] ring.nextToUse = ring.nextToClean
    · rw [same, setInfo_self]
      exact TxBuffer.owed_clean _
    · rw [setInfo_of_ne _ _ _ same]
      apply roomy.quiet
      rcases Nat.lt_or_ge ring.tpdAvail j with last | before
      · have reached : j = ring.tpdAvail + 1 :=
          Nat.le_antisymm (Nat.le_trans few ring.tpdAvail_cleanOne_le) last
        rw [reached, iterate_tpdAvail] at same
        exact absurd rfl same
      · exact before

theorem cleanLoop_balance (turns : Nat) {ring : Ring count} (roomy : Roomy ring) :
    Roomy (cleanLoop turns ring).1 ∧
      ((cleanLoop turns ring).2 ++ (cleanLoop turns ring).1.owed).Perm ring.owed := by
  induction turns generalizing ring with
  | zero => exact ⟨roomy, List.Perm.refl _⟩
  | succ turns ih =>
      rcases ih roomy.cleanOne with ⟨kept, later⟩
      refine ⟨kept, ?_⟩
      change ((ring.bufferInfo ring.nextToClean).owed ++ _ ++ _).Perm _
      rw [List.append_assoc]
      exact (later.append_left _).trans (ring.owed_cleaned ring.nextToClean)

end Ring

/-! ## A packet in the making -/

/-- A call has taken the places up to `last`, and those from `clear` on are still as
they were. -/
structure Owing (start : Ring count) (base clear last : Nat) (log : List Release)
    (ring : Ring count) : Prop where
  base_le : base ≤ last
  nextToUse : ring.nextToUse = Cyclic.next^[last + 1] start.nextToUse
  nextToClean : ring.nextToClean = start.nextToClean
  producer : ring.producer = start.producer
  tidy : forall place, (ring.bufferInfo place).Tidy
  quiet : forall j, clear ≤ j → j ≤ start.tpdAvail →
    (ring.bufferInfo (Cyclic.next^[j] start.nextToUse)).owed = []
  others : forall place, (forall j, base ≤ j → j ≤ last → place ≠ Cyclic.next^[j] start.nextToUse) →
    ring.bufferInfo place = start.bufferInfo place
  owed : ring.owed.Perm (log ++ start.owed)

/-- The last place taken is mapped. -/
structure Backed (start : Ring count) (base last : Nat) (log : List Release) (m : Mapping count) :
    Prop where
  owing : Owing start base (last + 1) last log m.ring
  useTpd : m.useTpd = some (Cyclic.next^[last] start.nextToUse)
  isFree : (m.ring.bufferInfo (Cyclic.next^[last] start.nextToUse)).isFree = false
  skb : (m.ring.bufferInfo (Cyclic.next^[last] start.nextToUse)).skb = none

/-- The environment gives no mapping at address zero, which the driver takes for
none. -/
def Env.Real (env : Env) : Prop := forall i, env.dma i ≠ some 0

/-- What the request is for is one of the two kinds. -/
def Request.Kind (request : Request) : Prop :=
  request.type = pcimapSingle ∨ request.type = pcimapPage

section Making

variable {start : Ring count} {base last : Nat} {log : List Release} {m : Mapping count} {env : Env}

/-- The buffer of the last place is written. -/
theorem Owing.write {ring ring' : Ring count} {clear : Nat} {more : List Release}
    (owing : Owing start base clear last log ring) (clearLe : clear ≤ last + 1)
    (less : last ≤ start.tpdAvail) {info : TxBuffer} (tidy : info.Tidy)
    (owes : info.owed =
      (ring.bufferInfo (Cyclic.next^[last] start.nextToUse)).owed ++ more)
    (nextToUse : ring'.nextToUse = ring.nextToUse)
    (nextToClean : ring'.nextToClean = ring.nextToClean) (producer : ring'.producer = ring.producer)
    (written : ring'.bufferInfo =
      (ring.setInfo (Cyclic.next^[last] start.nextToUse) info).bufferInfo) :
    Owing start base (last + 1) last (log ++ more) ring' where
  base_le := owing.base_le
  nextToUse := nextToUse.trans owing.nextToUse
  nextToClean := nextToClean.trans owing.nextToClean
  producer := producer.trans owing.producer
  tidy place := by
    rw [written]
    by_cases same : place = Cyclic.next^[last] start.nextToUse
    · rw [same, Ring.setInfo_self]
      exact tidy
    · rw [Ring.setInfo_of_ne _ _ _ same]
      exact owing.tidy place
  quiet j above below := by
    have bound := start.tpdAvail_lt
    have apart : Cyclic.next^[j] start.nextToUse ≠ Cyclic.next^[last] start.nextToUse :=
      Cyclic.iterate_ne (by omega) (by omega) (by omega)
    rw [written, Ring.setInfo_of_ne _ _ _ apart]
    exact owing.quiet j (by omega) below
  others place outside := by
    rw [written, Ring.setInfo_of_ne _ _ _ (outside last owing.base_le (Nat.le_refl _))]
    exact owing.others place outside
  owed := by
    have moved := ring.owed_setInfo (Cyclic.next^[last] start.nextToUse) info
    rw [owes, List.append_assoc, List.perm_append_left_iff] at moved
    have settled := moved.trans (owing.owed.append_left more)
    have swapped := settled.trans (List.perm_append_comm_assoc ..)
    rw [← List.append_assoc] at swapped
    have same : ring'.owed = (ring.setInfo (Cyclic.next^[last] start.nextToUse) info).owed :=
      Ring.owed_congr fun place => by rw [written]
    rwa [← same] at swapped

/-- A mapping for the last place. -/
theorem Owing.map (owing : Owing start base last last log m.ring) (less : last ≤ start.tpdAvail)
    (real : env.Real) {request : Request} (kind : request.Kind) :
    match m.map env (Cyclic.next^[last] start.nextToUse) request.length request.type with
    | .ok m' => ∃ dma, env.dma m.attempts = some dma ∧ m'.attempts = m.attempts + 1 ∧
        Backed start base last (log ++ [request.undo dma]) m'
    | .error m' => env.dma m.attempts = none ∧ Owing start base last last log m'.ring := by
  have quiet := owing.quiet last (Nat.le_refl _) less
  have tidy := owing.tidy (Cyclic.next^[last] start.nextToUse)
  unfold Mapping.map
  cases answer : env.dma m.attempts with
  | none =>
      have refused := tidy.refused quiet
      have owes : TxBuffer.owed _ = _ ++ [] :=
        refused.2.trans (congrArg (· ++ []) quiet).symm
      have written : Owing start base (last + 1) last _ (m.ring.setInfo _ _) :=
        owing.write (Nat.le_succ last) less refused.1 owes rfl rfl rfl rfl
      rw [List.append_nil] at written
      refine ⟨rfl, { written with quiet := fun j above below => ?_ }⟩
      rcases Nat.lt_or_eq_of_le above with behind | here
      · exact written.quiet j behind below
      · rw [← here]
        exact (congrArg TxBuffer.owed (Ring.setInfo_self ..)).trans refused.2
  | some dma =>
      have nonzero : dma ≠ 0 := by
        rintro rfl
        exact real _ answer
      have empty := tidy.skb quiet
      have mapped := TxBuffer.owed_mapped empty nonzero request.fresh request.length kind
      refine ⟨dma, rfl, rfl, ?_, rfl, ?_, ?_⟩
      · have owes : TxBuffer.owed _ = _ ++ [request.undo dma] :=
          mapped.2.2.trans (congrArg (· ++ [request.undo dma]) quiet).symm
        exact owing.write (Nat.le_succ last) less mapped.2.1 owes rfl rfl rfl rfl
      · exact (congrArg TxBuffer.isFree (Ring.setInfo_self ..)).trans mapped.1
      · exact (congrArg TxBuffer.skb (Ring.setInfo_self ..)).trans empty

/-- The place after the last one is taken. -/
theorem Backed.takeCopy (backed : Backed start base last log m) (tpd : Fin count) :
    Owing start base (last + 1) (last + 1) log (m.takeCopy tpd).ring := by
  have owing := backed.owing
  refine { owing with base_le := ?_, nextToUse := ?_, others := ?_ }
  · exact Nat.le_succ_of_le owing.base_le
  · rw [Function.iterate_succ_apply', ← owing.nextToUse]
    rfl
  · exact fun place outside => owing.others place
      fun j above below => outside j above (Nat.le_succ_of_le below)

/-- The mappings of one list: all are granted, or one is refused on the way. -/
def Served (start : Ring count) (base last : Nat) (log : List Release) (env : Env) (next : Nat)
    (requests : List Request) : Except (Mapping count) (Mapping count) → Prop
  | .ok m => ∃ reached, reached ≤ last ∧
      Backed start base reached (log ++ granted env next requests) m
  | .error m => ∃ reached, reached ≤ last ∧
      Owing start base reached reached (log ++ granted env next requests) m.ring

/-- One mapping for the last place, and then the rest of the list. -/
theorem Owing.served (owing : Owing start base last last log m.ring) (less : last ≤ start.tpdAvail)
    (real : env.Real) {request : Request} (kind : request.Kind) {rest : List Request} {final : Nat}
    (lastLe : last ≤ final) {tpd : Fin count}
    (later : forall m' log', Backed start base last log' m' →
      Served start base final log' env m'.attempts rest (m'.serve env tpd rest)) :
    Served start base final log env m.attempts (request :: rest)
      ((m.map env (Cyclic.next^[last] start.nextToUse) request.length request.type).bind
        (Mapping.serve env tpd rest)) := by
  have one := owing.map less real kind
  generalize m.map env (Cyclic.next^[last] start.nextToUse) request.length request.type =
    outcome at one ⊢
  cases outcome with
  | error m' =>
      rcases one with ⟨refused, stopped⟩
      refine ⟨last, lastLe, ?_⟩
      rw [granted, refused, List.append_nil]
      exact stopped
  | ok m' =>
      rcases one with ⟨dma, answered, attempts, backed⟩
      have done := later m' _ backed
      have same : log ++ granted env m.attempts (request :: rest) =
          log ++ [request.undo dma] ++ granted env m'.attempts rest := by
        rw [granted, answered, attempts, List.append_assoc]
        rfl
      change Served start base final log env m.attempts (request :: rest) (m'.serve env tpd rest)
      generalize m'.serve env tpd rest = outcome at done ⊢
      cases outcome with
      | error m'' =>
          rw [Served, same]
          exact done
      | ok m'' =>
          rw [Served, same]
          exact done

/-- The mappings that each take a new descriptor. -/
theorem Backed.serve (backed : Backed start base last log m) (real : env.Real) (tpd : Fin count)
    {requests : List Request} (kinds : forall request, request ∈ requests → request.Kind)
    (fresh : forall request, request ∈ requests → request.fresh = true)
    (less : last + requests.length ≤ start.tpdAvail) :
    Served start base (last + requests.length) log env m.attempts requests
      (m.serve env tpd requests) := by
  induction requests generalizing m last log with
  | nil =>
      refine ⟨last, Nat.le_refl _, ?_⟩
      rw [granted, List.append_nil]
      exact backed
  | cons request rest ih =>
      rw [List.length_cons] at less ⊢
      have taken := backed.takeCopy tpd
      have place : m.ring.nextToUse = Cyclic.next^[last + 1] start.nextToUse := backed.owing.nextToUse
      rw [Mapping.serve, Mapping.answer, if_pos (fresh request List.mem_cons_self), place]
      refine taken.served (by omega) real (kinds request List.mem_cons_self) (by omega) ?_
      intro m' log' backed'
      have done := ih backed' (fun other member => kinds other (List.mem_cons_of_mem _ member))
        (fun other member => fresh other (List.mem_cons_of_mem _ member)) (by omega)
      rwa [Nat.add_right_comm, Nat.add_assoc] at done

/-- The list of a packet with a header: the first mapping is for the descriptor at
hand, and every other for a new one. -/
theorem SkBuff.requests_eq_cons (skb : SkBuff) {tso : Bool} (header : tso = true → skb.hdrLen ≠ 0) :
    ∃ first rest, skb.requests tso = first :: rest ∧ first.fresh = false ∧ first.Kind ∧
      (forall request, request ∈ rest → request.fresh = true ∧ request.Kind) ∧
      rest.length = skb.moreTpds tso := by
  have pages : forall request,
      request ∈ skb.frags.map (fun size => (⟨true, BitVec.ofNat 16 size, pcimapPage⟩ : Request)) →
      request.fresh = true ∧ request.Kind := by
    intro request member
    rcases List.mem_map.mp member with ⟨size, _, rfl⟩
    exact ⟨rfl, Or.inr rfl⟩
  unfold SkBuff.requests SkBuff.moreTpds
  cases tso with
  | false =>
      refine ⟨_, _, rfl, rfl, Or.inl rfl, pages, ?_⟩
      rw [if_neg Bool.false_ne_true, Nat.zero_add]
      exact List.length_map _
  | true =>
      have filled := header rfl
      refine ⟨_, _, rfl, rfl, Or.inl rfl, ?_, ?_⟩
      · intro request member
        rcases List.mem_append.mp member with linear | page
        · split_ifs at linear with more
          · rw [List.mem_singleton.mp linear]
            exact ⟨bne_iff_ne.mpr filled, Or.inl rfl⟩
          · exact absurd linear List.not_mem_nil
        · exact pages request page
      · rw [if_pos rfl, SkBuff.extraTpd, if_neg filled, SkBuff.remainder, List.append_eq,
          List.length_append, List.length_map]
        split_ifs <;> rfl

/-- All mappings of a packet. -/
theorem Owing.all (owing : Owing start base base base log m.ring) (attempts : m.attempts = 0)
    (real : env.Real) (skb : SkBuff) {tso : Bool}
    (same : (m.ring.desc (Cyclic.next^[base] start.nextToUse)).lsoEn = tso)
    (header : tso = true → skb.hdrLen ≠ 0) (less : base + skb.moreTpds tso ≤ start.tpdAvail) :
    Served start base (base + skb.moreTpds tso) log env 0 (skb.requests tso)
      (m.all env (Cyclic.next^[base] start.nextToUse) skb) := by
  rw [Mapping.all_eq_serve, same]
  rcases skb.requests_eq_cons header with ⟨first, rest, split, given, kind, others, length⟩
  rw [← length] at less ⊢
  rw [split]
  rw [Mapping.serve, Mapping.answer, given, ← attempts]
  refine owing.served (by omega) real kind (by omega) ?_
  intro m' log' backed
  exact backed.serve real _ (fun request member => (others request member).2)
    (fun request member => (others request member).1) less

/-- The call ends behind the last place it took. -/
theorem Owing.roomy {ring : Ring count} (owing : Owing start base (last + 1) last log ring)
    (less : last + 1 ≤ start.tpdAvail) : ring.Roomy where
  tidy := owing.tidy
  quiet j few := by
    rw [Ring.tpdAvail_moved less owing.nextToUse owing.nextToClean] at few
    rw [owing.nextToUse, ← Function.iterate_add_apply]
    exact owing.quiet _ (by omega) (by omega)

/-- The last buffer gets the packet. -/
theorem Backed.finish (backed : Backed start base last log m) (less : last + 1 ≤ start.tpdAvail)
    (skb : SkBuff) :
    (txQueue (m.finish skb).ring).Roomy ∧
      (txQueue (m.finish skb).ring).owed.Perm (log ++ [.consume skb.id] ++ start.owed) := by
  have owes := TxBuffer.owed_finished backed.isFree backed.skb skb.id
  have written : Owing start base (last + 1) last (log ++ [.consume skb.id]) (m.finish skb).ring := by
    rw [Mapping.finish, backed.useTpd]
    refine backed.owing.write (Nat.le_refl _) (Nat.le_of_succ_le less) ?_ owes rfl rfl rfl rfl
    exact fun free => absurd (backed.isFree.symm.trans free) Bool.false_ne_true
  exact ⟨(written.roomy less).txQueue, written.owed⟩

end Making

end Atl1c
end KernelHacking
