import KernelHacking.Atl1c.Soundness

namespace KernelHacking
namespace Atl1c

/-!
# Taking back descriptors

The driver that the fork was made from looks at the result of `atl1c_tx_map`.
When a mapping was refused, `atl1c_tx_rollback` gives the buffers back from the
first descriptor of the data on and moves `next_to_use` there.  Both drivers are
written here as one call with two ways to give up, and each call reports what
it takes from the kernel and what it gives back.
-/

variable {count : Nat}

/-! ## The mappings of a packet as a list -/

/-- A mapping that `atl1c_tx_map` asks for, in a new descriptor or in the first. -/
structure Request where
  fresh : Bool
  length : BitVec 16
  type : BitVec 16
deriving DecidableEq

/-- What gives the mapping back. -/
def Request.undo (request : Request) (dma : BitVec 64) : Release :=
  if request.type = pcimapSingle then .unmapSingle dma request.length
  else .unmapPage dma request.length

/-- What `atl1c_tx_map` asks for, one after another. -/
def SkBuff.requests (skb : SkBuff) (tso : Bool) : List Request :=
  (if tso then
    ⟨false, BitVec.ofNat 16 skb.hdrLen, pcimapSingle⟩ ::
      if skb.hdrLen < skb.headlen then
        [⟨skb.hdrLen != 0, BitVec.ofNat 16 (skb.headlen - skb.hdrLen), pcimapSingle⟩]
      else []
  else [⟨false, BitVec.ofNat 16 skb.headlen, pcimapSingle⟩]) ++
    skb.frags.map fun size => ⟨true, BitVec.ofNat 16 size, pcimapPage⟩

/-- The requests that the kernel grants before it refuses one. -/
def granted (env : Env) : Nat → List Request → List Release
  | _, [] => []
  | attempts, request :: rest =>
      match env.dma attempts with
      | some dma => request.undo dma :: granted env (attempts + 1) rest
      | none => []

namespace Mapping

def answer (env : Env) (tpd : Fin count) (request : Request) (m : Mapping count) :
    Except (Mapping count) (Mapping count) :=
  if request.fresh then
    (m.takeCopy tpd).map env m.ring.nextToUse request.length request.type
  else m.map env tpd request.length request.type

def serve (env : Env) (tpd : Fin count) : List Request → Mapping count →
    Except (Mapping count) (Mapping count)
  | [], m => .ok m
  | request :: rest, m => (m.answer env tpd request).bind (serve env tpd rest)

theorem serve_append (env : Env) (tpd : Fin count) (first second : List Request)
    (m : Mapping count) :
    m.serve env tpd (first ++ second) = (m.serve env tpd first).bind (serve env tpd second) := by
  induction first generalizing m with
  | nil => rfl
  | cons request rest ih =>
      change (m.answer env tpd request).bind (fun m => m.serve env tpd (rest ++ second)) =
        ((m.answer env tpd request).bind (serve env tpd rest)).bind _
      cases m.answer env tpd request with
      | error stopped => rfl
      | ok m => exact ih m

theorem fragments_eq_serve (env : Env) (tpd : Fin count) (frags : List Nat) (m : Mapping count) :
    m.fragments env tpd frags =
      m.serve env tpd (frags.map fun size => ⟨true, BitVec.ofNat 16 size, pcimapPage⟩) := by
  induction frags generalizing m with
  | nil => rfl
  | cons size rest ih =>
      have later : fragments env tpd rest = serve env tpd (rest.map _) := funext ih
      rw [fragments, later]
      rfl

theorem serve_singleton (env : Env) (tpd : Fin count) (request : Request) (m : Mapping count) :
    m.serve env tpd [request] = m.answer env tpd request := by
  change (m.answer env tpd request).bind .ok = _
  cases m.answer env tpd request <;> rfl

/-- The rest of the linear part behind the header. -/
theorem linear_eq_serve (env : Env) (tpd : Fin count) (skb : SkBuff) (m : Mapping count) :
    m.linear env tpd skb skb.hdrLen = m.serve env tpd
      (if skb.hdrLen < skb.headlen then
        [⟨skb.hdrLen != 0, BitVec.ofNat 16 (skb.headlen - skb.hdrLen), pcimapSingle⟩]
      else []) := by
  unfold linear
  split_ifs with more empty
  · rw [serve_singleton, answer, empty]
    rfl
  · rw [serve_singleton, answer, if_pos (bne_iff_ne.mpr empty)]
  · rfl

/-- The mappings are made in the order of the list. -/
theorem all_eq_serve (env : Env) (tpd : Fin count) (skb : SkBuff) (m : Mapping count) :
    m.all env tpd skb = m.serve env tpd (skb.requests (m.ring.desc tpd).lsoEn) := by
  have fragments : fragments env tpd skb.frags = serve env tpd (skb.frags.map _) :=
    funext (fragments_eq_serve env tpd skb.frags)
  rw [SkBuff.requests, serve_append, all, fragments]
  cases (m.ring.desc tpd).lsoEn with
  | true =>
      apply congrArg (Except.bind · _)
      change (m.map env tpd _ _).bind _ = (m.map env tpd _ _).bind _
      apply congrArg
      funext m'
      exact linear_eq_serve env tpd skb m'
  | false =>
      apply congrArg (Except.bind · _)
      rw [linear, if_pos skb.headlen_pos, if_pos rfl]
      exact (serve_singleton env tpd ⟨false, BitVec.ofNat 16 skb.headlen, pcimapSingle⟩ m).symm

end Mapping

/-! ## What a call takes and gives back -/

/-- The driver takes a packet over, has a buffer mapped, gives a mapping or a
packet back, frees a packet that it does not send, or loses its pointer to it. -/
inductive Event where
  | took (skb : Nat)
  | mapped (undo : Release)
  | gave (release : Release)
  | freed (skb : Nat)
  | forgot (skb : Nat)
deriving DecidableEq, Repr

/-- What a call leaves: the ring, the result, the mappings that it made, and
what it did in order. -/
structure Sending (count : Nat) where
  ring : Ring count
  result : NetdevTx
  made : List (Fin count × BitVec 64)
  events : List Event

/-- The loop of `atl1c_tx_rollback`. -/
def rollbackLoop : Nat → Fin count → Ring count → Ring count × List Release
  | 0, _, ring => (ring, [])
  | turns + 1, index, ring =>
      let cleaned := cleanBuffer (ring.bufferInfo index)
      let rest := rollbackLoop turns (Cyclic.next index)
        ((ring.setInfo index cleaned.1).setDesc index Tpd.zero)
      (rest.1, cleaned.2 ++ rest.2)

/-- `atl1c_tx_rollback`. -/
def txRollback (ring : Ring count) (firstTpd : Fin count) : Ring count × List Release :=
  let cleaned := rollbackLoop (Cyclic.distance firstTpd ring.nextToUse) firstTpd ring
  ({ cleaned.1 with nextToUse := firstTpd }, cleaned.2)

/-- What is done about a packet of which a mapping was refused. -/
abbrev GiveUp (count : Nat) := Mapping count → Fin count → Nat → Ring count × List Event

/-- The driver takes the descriptors of the data back and frees the packet. -/
def Edited.giveUp : GiveUp count := fun m tpd skb =>
  let undone := txRollback m.ring tpd
  (undone.1, undone.2.map .gave ++ [.freed skb])

/-- The fork shows the card what there is. -/
def Fork.giveUp : GiveUp count := fun m _ skb => (txQueue m.ring, [.forgot skb])

/-- The end of `atl1c_xmit_frame`, for a packet that `atl1c_tso_csum` prepared. -/
def sendPrepared (giveUp : GiveUp count) (env : Env) (skb : Nat) (prepared : Prepared count) :
    Sending count :=
  let tpd := prepared.tpd
  let maps := granted env 0 (prepared.skb.requests (prepared.tagged.desc tpd).lsoEn)
  let taken := .took skb :: maps.map .mapped
  match Mapping.all env tpd prepared.skb ⟨prepared.tagged, none, 0, []⟩ with
  | .ok m => ⟨txQueue (m.finish prepared.skb).ring, .ok, m.held, taken⟩
  | .error m =>
      let left := giveUp m tpd skb
      ⟨left.1, .ok, m.held, taken ++ left.2⟩

/-- `atl1c_xmit_frame`, with one of the two ways to give up. -/
def sendFrame (giveUp : GiveUp count) (ring : Ring count) (env : Env) (skb : SkBuff) :
    Sending count :=
  if env.down then ⟨ring, .ok, [], [.took skb.id, .freed skb.id]⟩
  else if env.locked then ⟨ring, .locked, [], []⟩
  else if ring.tpdAvail < skb.calTpdReq then ⟨ring, .busy, [], []⟩
  else
    let prepared := tsoCsum env ring.getTpd ring.nextToUse skb
    if prepared.error then ⟨prepared.ring, .ok, [], [.took skb.id, .freed skb.id]⟩
    else sendPrepared giveUp env skb.id prepared

theorem Mapping.finish_held (m : Mapping count) (skb : SkBuff) : (m.finish skb).held = m.held := by
  unfold Mapping.finish
  split <;> rfl

/-- The fork's way to give up makes it the call of the fork. -/
theorem sendFrame_fork (ring : Ring count) (env : Env) (skb : SkBuff) :
    (sendFrame Fork.giveUp ring env skb).ring = (xmitFrame ring env skb).ring ∧
      (sendFrame Fork.giveUp ring env skb).result = (xmitFrame ring env skb).result ∧
      (sendFrame Fork.giveUp ring env skb).made = (xmitFrame ring env skb).held := by
  unfold sendFrame xmitFrame
  split_ifs with down locked full
  · exact ⟨rfl, rfl, rfl⟩
  · exact ⟨rfl, rfl, rfl⟩
  · exact ⟨rfl, rfl, rfl⟩
  · generalize tsoCsum env ring.getTpd ring.nextToUse skb = prepared
    cases error : prepared.error with
    | true =>
        dsimp only
        rw [error]
        exact ⟨rfl, rfl, rfl⟩
    | false =>
        dsimp only
        rw [error, sendPrepared, txMap]
        cases Mapping.all env prepared.tpd prepared.skb ⟨prepared.tagged, none, 0, []⟩ with
        | ok m => exact ⟨rfl, rfl, (m.finish_held _).symm⟩
        | error m => exact ⟨rfl, rfl, rfl⟩

end Atl1c
end KernelHacking
