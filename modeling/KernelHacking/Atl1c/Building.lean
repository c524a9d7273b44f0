import KernelHacking.Atl1c.Transmit

namespace KernelHacking
namespace Atl1c

/-!
# What a chain of descriptors looks like while it is built

The mappings of one packet are made place after place.  At each moment all
places but the last are mapped, nothing marks an end yet, and the places before
the first descriptor of the data are as they were.
-/

variable {count : Nat}

/-- The descriptor shows the card a buffer that the call has mapped for it. -/
structure Mapped (ring : Ring count) (held : List (Fin count × BitVec 64)) (place : Fin count) :
    Prop where
  busy : (ring.bufferInfo place).busy = true
  held : (place, (ring.bufferInfo place).dma) ∈ held
  address : (ring.desc place).bufferAddr = (ring.bufferInfo place).dma
  length : (ring.desc place).bufferLen = (ring.bufferInfo place).length

theorem Mapped.congr {ring ring' : Ring count} {held held' : List (Fin count × BitVec 64)}
    {place : Fin count} (mapped : Mapped ring held place) (desc : ring'.desc place = ring.desc place)
    (info : ring'.bufferInfo place = ring.bufferInfo place) (more : held ⊆ held') :
    Mapped ring' held' place where
  busy := info ▸ mapped.busy
  held := more (info ▸ mapped.held)
  address := by rw [desc, info, mapped.address]
  length := by rw [desc, info, mapped.length]

/-- Where a packet is built: the ring when the mappings begin, the first place
taken, and how many places later the data begins. -/
structure Site (count : Nat) where
  ring : Ring count
  start : Fin count
  base : Nat

/-- The places counted from the first one. -/
def Site.place (site : Site count) (k : Nat) : Fin count := Cyclic.next^[k] site.start

theorem Site.place_ne {site : Site count} {j k : Nat} (jLess : j < count) (kLess : k < count)
    (different : j ≠ k) : site.place j ≠ site.place k :=
  Cyclic.iterate_ne jLess kLess different

theorem Site.place_succ (site : Site count) (k : Nat) :
    site.place (k + 1) = Cyclic.next (site.place k) := Function.iterate_succ_apply' ..

/-- The places up to the last are taken, and those before it are mapped. -/
structure Taken (site : Site count) (last : Nat) (m : Mapping count) : Prop where
  base_le : site.base ≤ last
  nextToUse : m.ring.nextToUse = site.place (last + 1)
  noEnd : forall j, site.base ≤ j → j ≤ last → (m.ring.desc (site.place j)).eop = false
  kept : forall j, j < site.base → m.ring.desc (site.place j) = site.ring.desc (site.place j)
  heldAt : forall entry, entry ∈ m.held → ∃ j, site.base ≤ j ∧ j ≤ last ∧ entry.1 = site.place j
  mapped : forall j, site.base ≤ j → j < last → Mapped m.ring m.held (site.place j)

/-- The last place is mapped too. -/
structure Laid (site : Site count) (last : Nat) (m : Mapping count) : Prop where
  taken : Taken site last m
  useTpd : m.useTpd = some (site.place last)
  lastMapped : Mapped m.ring m.held (site.place last)

theorem Laid.mapped {site : Site count} {last : Nat} {m : Mapping count} (laid : Laid site last m)
    {j : Nat} (above : site.base ≤ j) (below : j ≤ last) :
    Mapped m.ring m.held (site.place j) := by
  rcases Nat.lt_or_eq_of_le below with before | rfl
  · exact laid.taken.mapped j above before
  · exact laid.lastMapped

/-- A buffer that was set busy stays so when its mapping is described. -/
theorem busy_setPcimapType (flags : BitVec 16) {type : BitVec 16}
    (kind : type = pcimapSingle ∨ type = pcimapPage) :
    (setPcimapType (setBufferState flags bufferBusy) type pcimapTodevice).getLsbD 1 = true := by
  rcases kind with rfl | rfl <;>
    simp [setPcimapType, setBufferState, bufferBusy, pcimapTypeMask, pcimapDirectionMask]

/-- A refused or an answered mapping at the last place. -/
theorem Taken.map {site : Site count} {last : Nat} {m : Mapping count}
    (taken : Taken site last m) (less : last < count) (env : Env) (length : BitVec 16)
    {type : BitVec 16} (kind : type = pcimapSingle ∨ type = pcimapPage) :
    match m.map env (site.place last) length type with
    | .ok m' => Laid site last m' ∧ m'.attempts = m.attempts + 1 ∧ (env.dma m.attempts).isSome
    | .error m' => Taken site last m' ∧ env.dma m.attempts = none := by
  have apart : forall j, j < last → site.place j ≠ site.place last := fun j below =>
    Site.place_ne (Nat.lt_trans below less) less (Nat.ne_of_lt below)
  unfold Mapping.map
  cases answer : env.dma m.attempts with
  | none =>
      refine ⟨{ taken with mapped := fun j above below => ?_ }, rfl⟩
      exact (taken.mapped j above below).congr rfl
        (Ring.setInfo_of_ne _ _ _ (apart j below)) (List.Subset.refl _)
  | some address =>
      refine ⟨⟨⟨taken.base_le, taken.nextToUse, ?noEnd, ?kept, ?heldAt,
        ?mapped⟩, rfl, ?lastMapped⟩, rfl, rfl⟩
      case noEnd =>
        intro j above below
        rcases Nat.lt_or_eq_of_le below with before | rfl
        · rw [Ring.setDesc_of_ne _ _ _ (apart j before)]
          exact taken.noEnd j above below
        · rw [Ring.setDesc_self]
          exact taken.noEnd j above below
      case kept =>
        intro j below
        rw [Ring.setDesc_of_ne _ _ _ (apart j (Nat.lt_of_lt_of_le below taken.base_le))]
        exact taken.kept j below
      case heldAt =>
        intro entry member
        rcases List.mem_cons.mp member with rfl | earlier
        · exact ⟨last, taken.base_le, Nat.le_refl _, rfl⟩
        · exact taken.heldAt entry earlier
      case mapped =>
        intro j above below
        apply (taken.mapped j above below).congr
        · exact Ring.setDesc_of_ne _ _ _ (apart j below)
        · exact Ring.setInfo_of_ne _ _ _ (apart j below)
        · exact List.subset_cons_self _ _
      case lastMapped =>
        constructor
        · simp only [Ring.setDesc_bufferInfo, Ring.setInfo_self, TxBuffer.busy]
          exact busy_setPcimapType _ kind
        · simp only [Ring.setDesc_bufferInfo, Ring.setInfo_self, List.mem_cons_self]
        · simp only [Ring.setDesc_self, Ring.setDesc_bufferInfo, Ring.setInfo_self]
        · simp only [Ring.setDesc_self, Ring.setDesc_bufferInfo, Ring.setInfo_self]

/-- The copy of the first descriptor becomes the last place. -/
theorem Laid.takeCopy {site : Site count} {last : Nat} {m : Mapping count}
    (laid : Laid site last m) (less : last + 1 < count) :
    Taken site (last + 1) (m.takeCopy (site.place site.base)) := by
  have taken := laid.taken
  have apart : forall j, j ≤ last → site.place j ≠ m.ring.nextToUse := fun j below => by
    rw [taken.nextToUse]
    exact Site.place_ne (by omega) less (by omega)
  have old : forall j, j ≤ last →
      (m.takeCopy (site.place site.base)).ring.desc (site.place j) = m.ring.desc (site.place j) :=
    fun j below => (Ring.setDesc_of_ne _ _ _ (apart j below)).trans
      (Ring.getTpd_of_ne _ (apart j below))
  constructor
  case base_le => exact Nat.le_succ_of_le taken.base_le
  case nextToUse =>
    rw [Site.place_succ, ← taken.nextToUse]
    rfl
  case noEnd =>
    intro j above below
    rcases Nat.lt_or_eq_of_le below with before | rfl
    · rw [old j (Nat.le_of_lt_succ before)]
      exact taken.noEnd j above (Nat.le_of_lt_succ before)
    · rw [← taken.nextToUse, Mapping.takeCopy, Ring.setDesc_self,
        Ring.getTpd_of_ne _ (apart _ taken.base_le)]
      exact taken.noEnd _ (Nat.le_refl _) taken.base_le
  case kept =>
    intro j below
    rw [old j (by have := taken.base_le; omega)]
    exact taken.kept j below
  case heldAt =>
    intro entry member
    rcases taken.heldAt entry member with ⟨j, above, below, same⟩
    exact ⟨j, above, Nat.le_succ_of_le below, same⟩
  case mapped =>
    intro j above below
    have inside := Nat.le_of_lt_succ below
    exact (laid.mapped above inside).congr (old j inside) rfl (List.Subset.refl _)

/-! ## How much a packet needs -/

namespace SkBuff

/-- Whether something of the linear part stands behind the header. -/
def remainder (skb : SkBuff) : Nat := if skb.hdrLen < skb.headlen then 1 else 0

/-- The descriptors that the rest of the linear part takes. -/
def extraTpd (skb : SkBuff) : Nat := if skb.hdrLen = 0 then 0 else skb.remainder

/-- The DMA mappings that the packet needs. -/
def mapCount (skb : SkBuff) (tso : Bool) : Nat :=
  (if tso then 1 + skb.remainder else 1) + skb.frags.length

/-- The descriptors that the packet takes after the first one of its data. -/
def moreTpds (skb : SkBuff) (tso : Bool) : Nat :=
  (if tso then skb.extraTpd else 0) + skb.frags.length

end SkBuff

/-! ## Stretches of mappings -/

/-- The mappings from one attempt to another: all were answered and the last
place is known, or one was refused on the way there. -/
def Built (site : Site count) (env : Env) (last first next : Nat) :
    Except (Mapping count) (Mapping count) → Prop
  | .ok m => Laid site last m ∧ m.attempts = next ∧
      forall i, first ≤ i → i < next → (env.dma i).isSome
  | .error m => (∃ l, l ≤ last ∧ Taken site l m) ∧
      ∃ i, first ≤ i ∧ i < next ∧ env.dma i = none

section Stretches

variable {site : Site count} {m : Mapping count} (env : Env)

variable {env} in
theorem Built.bind {last last' first middle next : Nat} {f : Mapping count →
    Except (Mapping count) (Mapping count)} {result : Except (Mapping count) (Mapping count)}
    (built : Built site env last first middle result) (lastLe : last ≤ last')
    (firstLe : first ≤ middle) (middleLe : middle ≤ next)
    (rest : forall m, Laid site last m → m.attempts = middle →
      Built site env last' middle next (f m)) :
    Built site env last' first next (result.bind f) := by
  cases result with
  | error m =>
      rcases built with ⟨⟨l, below, taken⟩, i, above, less, refused⟩
      exact ⟨⟨l, Nat.le_trans below lastLe, taken⟩, i, above,
        Nat.lt_of_lt_of_le less middleLe, refused⟩
  | ok m =>
      rcases built with ⟨laid, attempts, answered⟩
      have later := rest m laid attempts
      change Built site env last' first next (f m)
      generalize f m = outcome at later ⊢
      cases outcome with
      | error m' =>
          rcases later with ⟨stopped, i, above, less, refused⟩
          exact ⟨stopped, i, Nat.le_trans firstLe above, less, refused⟩
      | ok m' =>
          rcases later with ⟨laid', attempts', answered'⟩
          refine ⟨laid', attempts', fun i above less => ?_⟩
          rcases Nat.lt_or_ge i middle with early | late
          · exact answered i above early
          · exact answered' i late less

/-- One mapping is a stretch. -/
theorem Taken.built {last : Nat} (taken : Taken site last m) (less : last < count)
    (length : BitVec 16) {type : BitVec 16} (kind : type = pcimapSingle ∨ type = pcimapPage) :
    Built site env last m.attempts (m.attempts + 1)
      (m.map env (site.place last) length type) := by
  have one := taken.map less env length kind
  generalize m.map env (site.place last) length type = outcome at one ⊢
  have only : forall i, m.attempts ≤ i → i < m.attempts + 1 → i = m.attempts :=
    fun i above less => Nat.le_antisymm (Nat.le_of_lt_succ less) above
  cases outcome with
  | error m' => exact ⟨⟨last, Nat.le_refl _, one.1⟩, _, Nat.le_refl _, Nat.lt_succ_self _, one.2⟩
  | ok m' =>
      refine ⟨one.1, one.2.1, fun i above less => ?_⟩
      rw [only i above less]
      exact one.2.2

/-- A mapping in a new descriptor. -/
theorem Laid.builtCopy {last : Nat} (laid : Laid site last m) (less : last + 1 < count)
    (length : BitVec 16) {type : BitVec 16} (kind : type = pcimapSingle ∨ type = pcimapPage) :
    Built site env (last + 1) m.attempts (m.attempts + 1)
      ((m.takeCopy (site.place site.base)).map env m.ring.nextToUse length type) := by
  have taken := laid.takeCopy less
  rw [laid.taken.nextToUse]
  exact taken.built env less length kind

theorem Laid.built {last : Nat} (laid : Laid site last m) :
    Built site env last m.attempts m.attempts (.ok m) :=
  ⟨laid, rfl, fun _ above less => absurd less (Nat.not_lt.mpr above)⟩

theorem Laid.fragments (frags : List Nat) {last : Nat} (laid : Laid site last m)
    (less : last + frags.length < count) :
    Built site env (last + frags.length) m.attempts (m.attempts + frags.length)
      (m.fragments env (site.place site.base) frags) := by
  induction frags generalizing m last with
  | nil => exact laid.built env
  | cons size rest ih =>
      rw [List.length_cons] at less ⊢
      have one := laid.builtCopy env (by omega) (BitVec.ofNat 16 size) (Or.inr rfl)
      apply one.bind (by omega) (Nat.le_succ _) (by omega)
      intro m' laid' attempts'
      have later := ih laid' (by omega)
      rw [attempts', Nat.add_right_comm, Nat.add_right_comm m.attempts] at later
      exact later

/-- The linear part of a packet without a header of its own. -/
theorem Taken.linear (taken : Taken site site.base m) (less : site.base < count) (skb : SkBuff) :
    Built site env site.base m.attempts (m.attempts + 1)
      (m.linear env (site.place site.base) skb 0) := by
  rw [Mapping.linear, if_pos skb.headlen_pos, if_pos rfl]
  exact taken.built env less _ (Or.inl rfl)

/-- The rest of the linear part behind the header. -/
theorem Laid.linear (laid : Laid site site.base m) (skb : SkBuff)
    (less : site.base + skb.extraTpd < count) :
    Built site env (site.base + skb.extraTpd) m.attempts (m.attempts + skb.remainder)
      (m.linear env (site.place site.base) skb skb.hdrLen) := by
  unfold SkBuff.extraTpd SkBuff.remainder at *
  unfold Mapping.linear
  by_cases more : skb.hdrLen < skb.headlen
  · rw [if_pos more, if_pos more]
    rw [if_pos more] at less
    by_cases empty : skb.hdrLen = 0
    · rw [if_pos empty, if_pos empty]
      exact laid.taken.built env (by omega) _ (Or.inl rfl)
    · rw [if_neg empty, if_neg empty]
      rw [if_neg empty] at less
      exact laid.builtCopy env less _ (Or.inl rfl)
  · rw [if_neg more, if_neg more]
    have none : (if skb.hdrLen = 0 then 0 else 0) = 0 := ite_self 0
    rw [none]
    exact laid.built env

/-- All mappings of a packet, header first if it is a large one. -/
theorem Taken.all (taken : Taken site site.base m) (fresh : m.attempts = 0) (skb : SkBuff)
    {tso : Bool} (same : (m.ring.desc (site.place site.base)).lsoEn = tso)
    (less : site.base + skb.moreTpds tso < count) :
    Built site env (site.base + skb.moreTpds tso) 0 (skb.mapCount tso)
      (m.all env (site.place site.base) skb) := by
  have inside : site.base < count := Nat.lt_of_le_of_lt (Nat.le_add_right ..) less
  cases tso with
  | false =>
      rw [SkBuff.moreTpds, if_neg Bool.false_ne_true, Nat.zero_add] at *
      rw [Mapping.all, same, if_neg Bool.false_ne_true, SkBuff.mapCount,
        if_neg Bool.false_ne_true]
      have one := taken.linear env inside skb
      rw [fresh] at one
      apply one.bind (Nat.le_add_right ..) (Nat.zero_le _) (Nat.le_add_right ..)
      intro m' laid attempts
      have rest := laid.fragments env skb.frags less
      rw [attempts] at rest
      exact rest
  | true =>
      rw [SkBuff.moreTpds, if_pos rfl] at *
      rw [Mapping.all, same, if_pos rfl, SkBuff.mapCount, if_pos rfl]
      have one := taken.built env inside (BitVec.ofNat 16 skb.hdrLen) (Or.inl rfl)
      rw [fresh] at one
      have two : Built site env (site.base + skb.extraTpd) 0 (1 + skb.remainder)
          ((m.header env (site.place site.base) skb).bind
            (Mapping.linear env (site.place site.base) skb skb.hdrLen)) := by
        apply one.bind (Nat.le_add_right ..) (Nat.zero_le _) (Nat.le_add_right ..)
        intro m' laid attempts
        have rest := laid.linear env skb (by omega)
        rw [attempts] at rest
        exact rest
      apply two.bind (by omega) (Nat.zero_le _) (Nat.le_add_right ..)
      intro m' laid attempts
      have rest := laid.fragments env skb.frags (by omega)
      rw [attempts, Nat.add_assoc] at rest
      exact rest

end Stretches

/-! ## The end of the chain -/

/-- What `atl1c_tx_map` leaves when every mapping was answered. -/
structure Chained (site : Site count) (last : Nat) (skb : SkBuff) (m : Mapping count) : Prop where
  base_le : site.base ≤ last
  nextToUse : m.ring.nextToUse = site.place (last + 1)
  kept : forall j, j < site.base → m.ring.desc (site.place j) = site.ring.desc (site.place j)
  heldAt : forall entry, entry ∈ m.held → ∃ j, site.base ≤ j ∧ j ≤ last ∧ entry.1 = site.place j
  mapped : forall j, site.base ≤ j → j ≤ last → Mapped m.ring m.held (site.place j)
  ends : (m.ring.desc (site.place last)).eop = true
  owned : (m.ring.bufferInfo (site.place last)).skb = some skb.id

theorem Laid.finish {site : Site count} {last : Nat} {m : Mapping count}
    (laid : Laid site last m) (less : last < count) (skb : SkBuff) :
    Chained site last skb (m.finish skb) := by
  have taken := laid.taken
  have apart : forall j, j < last → site.place j ≠ site.place last := fun j below =>
    Site.place_ne (Nat.lt_trans below less) less (Nat.ne_of_lt below)
  rw [Mapping.finish, laid.useTpd]
  constructor
  case base_le => exact taken.base_le
  case nextToUse => exact taken.nextToUse
  case kept =>
    intro j below
    rw [Ring.setInfo_desc,
      Ring.orWord1_of_ne _ _ _ (apart j (Nat.lt_of_lt_of_le below taken.base_le))]
    exact taken.kept j below
  case heldAt => exact taken.heldAt
  case mapped =>
    intro j above below
    rcases Nat.lt_or_eq_of_le below with before | rfl
    · exact (taken.mapped j above before).congr (Ring.orWord1_of_ne _ _ _ (apart j before))
        (Ring.setInfo_of_ne _ _ _ (apart j before)) (List.Subset.refl _)
    · have mapped := laid.lastMapped
      constructor
      · rw [Ring.setInfo_self]
        exact mapped.busy
      · rw [Ring.setInfo_self]
        exact mapped.held
      · rw [Ring.setInfo_self, Ring.setInfo_desc, Ring.orWord1_self]
        exact mapped.address
      · rw [Ring.setInfo_self, Ring.setInfo_desc, Ring.orWord1_self]
        exact mapped.length
  case ends =>
    rw [Ring.setInfo_desc, Ring.orWord1_self, Tpd.eop_orWord1]
    exact Bool.or_true _
  case owned => rw [Ring.setInfo_self]

end Atl1c
end KernelHacking
