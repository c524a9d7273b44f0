import KernelHacking.Foundations.Carving
import KernelHacking.Foundations.Machine
import Mathlib.Data.Nat.Size
import Mathlib.Algebra.Ring.Nat
import Mathlib.Logic.Function.Basic

namespace KernelHacking
namespace Atl1c

/-!
# Where the `atl1c` driver puts its receive buffers

Small buffers are carved out of pages.  The size of a piece follows from the MTU
and is a power of two, so pieces of one size fill a page.  The page at hand is
kept when the interface goes down, and a change of the MTU changes the size of
the pieces that are carved off the rest of it.
-/

namespace Fragments

/-- What the kernel was built with. -/
structure Arch where
  pageShift : Nat
  netSkbPad : Nat
  smpCacheBytes : Nat
  sharedInfo : Nat
deriving DecidableEq, Repr

def Arch.pageSize (arch : Arch) : Nat := 2 ^ arch.pageShift

/-- `roundup`. -/
def roundup (value step : Nat) : Nat := (value + step - 1) / step * step

/-- `roundup_pow_of_two`, which shifts one by `fls_long` of the value less one. -/
def roundupPowOfTwo (value : Nat) : Nat := 2 ^ (value - 1).size

/-- `SKB_DATA_ALIGN`. -/
def Arch.skbDataAlign (arch : Arch) (value : Nat) : Nat := roundup value arch.smpCacheBytes

def ethHlen : Nat := 14
def ethFrameLen : Nat := 1514
def vlanHlen : Nat := 4
def ethFcsLen : Nat := 4
def atRxBufSize : Nat := ethFrameLen + vlanHlen + ethFcsLen

/-- The fields of the adapter that its buffers are taken by, and what the kernel
knows of them: the references to each page, the pages so far, and the buffers
that are in use. -/
structure Pool where
  rxPage : Option Nat
  rxPageOffset : Nat
  rxBufferLen : Nat
  rxFragSize : Nat
  refs : Nat → Nat
  pages : Nat
  inUse : List Piece

/-- The length that `atl1c_set_rxbufsize` gives to the buffers, a number of 16 bits. -/
def bufferLen (mtu : Nat) : Nat :=
  (if atRxBufSize < mtu then roundup (mtu + ethHlen + ethFcsLen + vlanHlen) 8
    else atRxBufSize) % 65536

/-- The size of the pieces, for buffers of this length. -/
def Arch.fragSize (arch : Arch) (length : Nat) : Nat :=
  roundupPowOfTwo (arch.skbDataAlign (length + arch.netSkbPad) + arch.skbDataAlign arch.sharedInfo)

/-- `atl1c_set_rxbufsize`. -/
def setRxbufsize (arch : Arch) (mtu : Nat) (pool : Pool) : Pool :=
  { pool with rxBufferLen := bufferLen mtu, rxFragSize := arch.fragSize (bufferLen mtu) }

/-- What `atl1c_alloc_skb` returns: nothing, a buffer of its own, or one on a page. -/
inductive Skb
  | none
  | own
  | onPage (piece : Piece)
deriving DecidableEq, Repr

/-- The page at hand, or a new one if the kernel has one. -/
def takePage (pool : Pool) (alloc : Bool) : Option (Nat × Pool) :=
  match pool.rxPage with
  | some page => some (page, pool)
  | none =>
      if alloc then
        some (pool.pages,
          { pool with
            rxPage := some pool.pages
            rxPageOffset := 0
            refs := Function.update pool.refs pool.pages 1
            pages := pool.pages + 1 })
      else none

/-- `build_skb` has succeeded on the page. -/
def cut (arch : Arch) (page : Nat) (pool : Pool) : Pool :=
  let offset := pool.rxPageOffset + pool.rxFragSize
  let piece : Piece := ⟨page, pool.rxPageOffset, pool.rxFragSize⟩
  if arch.pageSize ≤ offset then
    { pool with rxPageOffset := offset, rxPage := none, inUse := piece :: pool.inUse }
  else
    { pool with
      rxPageOffset := offset
      refs := Function.update pool.refs page (pool.refs page + 1)
      inUse := piece :: pool.inUse }

/-- `atl1c_alloc_skb`; `alloc` and `build` say whether a page can be had and
whether `build_skb` succeeds. -/
def allocSkb (arch : Arch) (alloc build : Bool) (pool : Pool) : Skb × Pool :=
  if arch.pageSize < pool.rxFragSize then (.own, pool)
  else
    match takePage pool alloc with
    | none => (.none, pool)
    | some (page, pool) =>
        if build then (.onPage ⟨page, pool.rxPageOffset, pool.rxFragSize⟩, cut arch page pool)
        else (.none, pool)

/-- A buffer is freed, wherever it has gone. -/
def release (piece : Piece) (pool : Pool) : Pool :=
  if piece ∈ pool.inUse then
    { pool with
      refs := Function.update pool.refs piece.block (pool.refs piece.block - 1)
      inUse := pool.inUse.erase piece }
  else pool

/-- What `atl1c_free_ring_resources` does about the page. -/
def putPage (pool : Pool) : Pool :=
  match pool.rxPage with
  | some page =>
      { pool with refs := Function.update pool.refs page (pool.refs page - 1), rxPage := none }
  | none => pool

inductive Op
  | alloc (alloc build : Bool)
  | release (piece : Piece)
  | setMtu (mtu : Nat)
  | putPage
deriving DecidableEq, Repr

def step (arch : Arch) (pool : Pool) : Op → Pool × Skb
  | .alloc alloc build =>
      let taken := allocSkb arch alloc build pool
      (taken.2, taken.1)
  | .release piece => (release piece pool, .none)
  | .setMtu mtu => (setRxbufsize arch mtu pool, .none)
  | .putPage => (putPage pool, .none)

def buffers (arch : Arch) : Machine Pool Op Skb where
  step := step arch

/-- The adapter when the card has been probed. -/
def probed (arch : Arch) (mtu : Nat) : Pool :=
  setRxbufsize arch mtu ⟨none, 0, 0, 0, fun _ => 0, 0, []⟩

/-- Pieces of the new size go on where those of the old size stopped. -/
def Aligned (arch : Arch) (size : Nat) (pool : Pool) : Prop :=
  size ≤ arch.pageSize → pool.rxPage ≠ none → size ∣ pool.rxPageOffset

/-- A change of the MTU finds no page at hand, or one of which the pieces of the
new size fill the rest. -/
def Orderly (arch : Arch) (pool : Pool) : Op → Prop
  | .setMtu mtu => Aligned arch (arch.fragSize (bufferLen mtu)) pool
  | _ => True

/-! ## Sizes -/

theorem fragSize_dvd_pageSize {arch : Arch} {length : Nat}
    (small : arch.fragSize length ≤ arch.pageSize) : arch.fragSize length ∣ arch.pageSize :=
  Nat.pow_dvd_pow 2 ((Nat.pow_le_pow_iff_right (Nat.lt_succ_self 1)).mp small)

/-- A multiple of the size below the length leaves room for the size. -/
theorem room_of_dvd {size offset length : Nat} (atOffset : size ∣ offset) (whole : size ∣ length)
    (inside : offset < length) : offset + size ≤ length := by
  rcases atOffset with ⟨i, rfl⟩
  rcases whole with ⟨n, rfl⟩
  have less : i < n := Nat.lt_of_mul_lt_mul_left inside
  calc
    size * i + size = size * (i + 1) := (Nat.mul_succ size i).symm
    _ ≤ size * n := Nat.mul_le_mul_left size less

/-! ## What holds between two operations -/

/-- What no change of the MTU disturbs. -/
structure Kept (arch : Arch) (pool : Pool) : Prop where
  carved : Carved pool.rxPage pool.rxPageOffset pool.pages pool.inUse
  inside : pool.rxPage ≠ none → pool.rxPageOffset < arch.pageSize
  size : ∃ length, pool.rxFragSize = arch.fragSize length
  refs : forall page, pool.refs page = references pool.rxPage pool.inUse page

/-- What holds as well as long as the changes of the MTU are orderly. -/
structure Inv (arch : Arch) (pool : Pool) : Prop where
  within : forall piece, piece ∈ pool.inUse → piece.Within arch.pageSize
  aligned : Aligned arch pool.rxFragSize pool

section Steps

variable {arch : Arch} {pool : Pool}

theorem Kept.setRxbufsize (kept : Kept arch pool) (mtu : Nat) :
    Kept arch (setRxbufsize arch mtu pool) :=
  ⟨kept.carved, kept.inside, ⟨bufferLen mtu, rfl⟩, kept.refs⟩

/-- The page at hand after `takePage`. -/
theorem Kept.takePage (kept : Kept arch pool) {alloc : Bool} {page : Nat} {taken : Pool}
    (found : takePage pool alloc = some (page, taken)) :
    Kept arch taken ∧ taken.rxPage = some page ∧ taken.rxFragSize = pool.rxFragSize ∧
      (Inv arch pool → Inv arch taken) := by
  unfold Fragments.takePage at found
  split at found
  · next current same =>
      cases found
      exact ⟨kept, same, rfl, id⟩
  · next none =>
      split at found
      · cases found
        refine ⟨⟨kept.carved.renew, fun _ => Nat.two_pow_pos _, kept.size, fun page => ?_⟩, rfl, rfl,
          fun inv => ⟨inv.within, fun _ _ => Nat.dvd_zero _⟩⟩
        have before := kept.refs page
        dsimp only
        rcases eq_or_ne page pool.pages with rfl | other
        · have unused := references_fresh kept.carved (Nat.le_refl pool.pages)
          rw [references, none, if_neg (Option.some_ne_none _).symm, Nat.add_zero] at unused
          rw [Function.update_self, references, unused, if_pos rfl]
        · have apart : ¬ some pool.pages = some page := fun same =>
            other (Option.some.inj same).symm
          rw [Function.update_of_ne other, before, references, references, none, if_neg apart,
            if_neg (Option.some_ne_none _).symm]
      · cases found

/-- A piece is cut, and the page is left when it is used up. -/
theorem Kept.cut (kept : Kept arch pool) {page : Nat} (current : pool.rxPage = some page) :
    Kept arch (cut arch page pool) := by
  have carved := kept.carved
  rw [current] at carved
  have next := carved.carve pool.rxFragSize
  unfold Fragments.cut
  dsimp only
  split
  · exact {
      carved := next.leave _
      inside := fun none => absurd rfl none
      size := kept.size
      refs := by
        intro other
        dsimp only
        rw [references_cons, kept.refs other, references, references, current,
          if_neg (Option.some_ne_none other).symm, Nat.add_zero]
        simp only [Option.some.injEq] }
  · next inside =>
      exact {
        carved := by
          dsimp only
          rw [current]
          exact next
        inside := fun _ => Nat.not_le.mp inside
        size := kept.size
        refs := by
          intro other
          dsimp only
          rw [references_cons, ← kept.refs other]
          rcases eq_or_ne other page with rfl | apart
          · rw [Function.update_self, if_pos rfl]
          · rw [Function.update_of_ne apart, if_neg (Ne.symm apart), Nat.add_zero] }

/-- On an aligned page the piece finds room. -/
theorem Inv.cut (inv : Inv arch pool) (kept : Kept arch pool) {page : Nat}
    (current : pool.rxPage = some page) (small : pool.rxFragSize ≤ arch.pageSize) :
    Inv arch (cut arch page pool) := by
  have some : pool.rxPage ≠ none := by
    rw [current]
    exact Option.some_ne_none _
  have whole : pool.rxFragSize ∣ arch.pageSize := by
    rcases kept.size with ⟨length, same⟩
    rw [same] at small ⊢
    exact fragSize_dvd_pageSize small
  have atOffset := inv.aligned small some
  have within : forall piece,
      piece ∈ (⟨page, pool.rxPageOffset, pool.rxFragSize⟩ : Piece) :: pool.inUse →
        piece.Within arch.pageSize := by
    intro piece member
    rcases List.mem_cons.mp member with rfl | old
    · exact room_of_dvd atOffset whole (kept.inside some)
    · exact inv.within piece old
  unfold Fragments.cut
  dsimp only
  split
  · exact ⟨within, fun _ none => absurd rfl none⟩
  · exact ⟨within, fun _ _ => Nat.dvd_add atOffset (Nat.dvd_refl _)⟩

theorem Kept.allocSkb (kept : Kept arch pool) (alloc build : Bool) :
    Kept arch (allocSkb arch alloc build pool).2 ∧
      (Inv arch pool → Inv arch (allocSkb arch alloc build pool).2) := by
  unfold Fragments.allocSkb
  split
  · exact ⟨kept, id⟩
  · next small =>
      cases found : Fragments.takePage pool alloc with
      | none => exact ⟨kept, id⟩
      | some taken =>
          rcases taken with ⟨page, taken⟩
          rcases kept.takePage found with ⟨next, current, size, inv⟩
          cases build with
          | false => exact ⟨next, inv⟩
          | true =>
              refine ⟨next.cut current, fun before => (inv before).cut next current ?_⟩
              rw [size]
              exact Nat.not_lt.mp small

theorem Kept.release (kept : Kept arch pool) (piece : Piece) :
    Kept arch (release piece pool) ∧ (Inv arch pool → Inv arch (release piece pool)) := by
  unfold Fragments.release
  split
  · next member =>
      refine ⟨{
        carved := kept.carved.sublist List.erase_sublist
        inside := kept.inside
        size := kept.size
        refs := ?_ }, fun inv => ⟨fun other left => ?_, inv.aligned⟩⟩
      · intro page
        have counted := references_erase member pool.rxPage page
        dsimp only
        rcases eq_or_ne page piece.block with rfl | other
        · rw [if_pos rfl] at counted
          rw [Function.update_self, kept.refs piece.block]
          omega
        · rw [if_neg (Ne.symm other)] at counted
          rw [Function.update_of_ne other, kept.refs page]
          omega
      · exact inv.within other (List.mem_of_mem_erase left)
  · exact ⟨kept, id⟩

theorem Kept.putPage (kept : Kept arch pool) :
    Kept arch (putPage pool) ∧ (Inv arch pool → Inv arch (putPage pool)) := by
  unfold Fragments.putPage
  split
  · next page current =>
      refine ⟨{
        carved := kept.carved.leave _
        inside := fun none => absurd rfl none
        size := kept.size
        refs := ?_ }, fun inv => ⟨inv.within, fun _ none => absurd rfl none⟩⟩
      intro other
      have before := kept.refs other
      rw [references, current] at before
      dsimp only
      rw [references, if_neg (Option.some_ne_none other).symm]
      rcases eq_or_ne other page with rfl | apart
      · rw [if_pos rfl] at before
        rw [Function.update_self]
        omega
      · rw [if_neg fun same => apart (Option.some.inj same).symm] at before
        rw [Function.update_of_ne apart]
        exact before
  · exact ⟨kept, id⟩

theorem Kept.step (kept : Kept arch pool) (op : Op) :
    Kept arch ((buffers arch).next pool op) ∧
      (Inv arch pool → Orderly arch pool op → Inv arch ((buffers arch).next pool op)) := by
  cases op with
  | alloc alloc build =>
      rcases kept.allocSkb alloc build with ⟨next, inv⟩
      exact ⟨next, fun before _ => inv before⟩
  | release piece =>
      rcases kept.release piece with ⟨next, inv⟩
      exact ⟨next, fun before _ => inv before⟩
  | setMtu mtu => exact ⟨kept.setRxbufsize mtu, fun before orderly => ⟨before.within, orderly⟩⟩
  | putPage =>
      rcases kept.putPage with ⟨next, inv⟩
      exact ⟨next, fun before _ => inv before⟩

end Steps

theorem kept_probed (arch : Arch) (mtu : Nat) : Kept arch (probed arch mtu) where
  carved := Carved.nothing _ _
  inside none := absurd rfl none
  size := ⟨bufferLen mtu, rfl⟩
  refs _ := rfl

theorem inv_probed (arch : Arch) (mtu : Nat) : Inv arch (probed arch mtu) where
  within _ member := absurd member List.not_mem_nil
  aligned _ none := absurd rfl none

theorem kept_run (arch : Arch) (mtu : Nat) (ops : List Op) :
    Kept arch ((buffers arch).run (probed arch mtu) ops) :=
  (buffers arch).run_invariant_of_step (Kept arch) (fun _ op kept => (kept.step op).1)
    (kept_probed arch mtu) ops

theorem inv_run (arch : Arch) (mtu : Nat) {ops : List Op}
    (orderly : (buffers arch).Along (Orderly arch) (probed arch mtu) ops) :
    Inv arch ((buffers arch).run (probed arch mtu) ops) := by
  have both := (buffers arch).run_invariant (fun pool => Kept arch pool ∧ Inv arch pool)
    (Orderly arch)
    (fun _ op both here => ⟨(both.1.step op).1, (both.1.step op).2 both.2 here⟩)
    ⟨kept_probed arch mtu, inv_probed arch mtu⟩ orderly
  exact both.2

/-- Whatever changes of the MTU there are, no buffer reaches into another on its page,
and a page has a reference for each buffer on it and one for the driver while it is
at hand.  As long as each change finds the page at hand aligned for pieces of the new
size, every buffer lies in its page. -/
theorem buffers_apart (arch : Arch) (mtu : Nat) {ops : List Op} {pool : Pool}
    (reaches : (buffers arch).run (probed arch mtu) ops = pool) :
    pool.inUse.Pairwise Piece.Apart ∧
      (forall page, pool.refs page =
        pool.inUse.countP (fun piece => piece.block = page) +
          if pool.rxPage = some page then 1 else 0) ∧
      ((buffers arch).Along (Orderly arch) (probed arch mtu) ops →
        forall piece, piece ∈ pool.inUse → piece.Within arch.pageSize) := by
  have kept := kept_run arch mtu ops
  rw [reaches] at kept
  refine ⟨kept.carved.apart, kept.refs, fun orderly => ?_⟩
  have inv := inv_run arch mtu orderly
  rw [reaches] at inv
  exact inv.within

def x86 : Arch := ⟨12, 64, 64, 320⟩

/-- One buffer is on the page when the MTU is raised, and the next one on it reaches
over its end. -/
def unevenRun : List Op := [.alloc true true, .setMtu 3000, .alloc true true]

theorem buffers_apart_x86 :
    ((buffers x86).run (probed x86 1500) unevenRun).inUse.Pairwise Piece.Apart :=
  (buffers_apart x86 1500 rfl).1

/-! ## What a misaligned page leads to -/

section Overflow

variable {arch : Arch} {pool : Pool}

/-- One more buffer on the page at hand. -/
theorem next_alloc {page : Nat} (current : pool.rxPage = some page)
    (small : pool.rxFragSize ≤ arch.pageSize) :
    (buffers arch).next pool (.alloc true true) = cut arch page pool := by
  change (allocSkb arch true true pool).2 = _
  rw [allocSkb, if_neg (Nat.not_lt.mpr small), takePage, current]
  rfl

/-- Pieces that do not meet the end of the page reach over it in the end. -/
theorem piece_overflows {page : Nat} (current : pool.rxPage = some page)
    (small : pool.rxFragSize ≤ arch.pageSize) (whole : pool.rxFragSize ∣ arch.pageSize)
    (inside : pool.rxPageOffset < arch.pageSize)
    (misaligned : ¬ pool.rxFragSize ∣ pool.rxPageOffset) :
    ∃ turns piece, piece ∈ ((buffers arch).run pool
      (List.replicate turns (.alloc true true))).inUse ∧ ¬ piece.Within arch.pageSize := by
  generalize left : arch.pageSize - pool.rxPageOffset = room
  induction room using Nat.strongRecOn generalizing pool with
  | ind room ih =>
      have first := next_alloc current small
      by_cases fits : pool.rxPageOffset + pool.rxFragSize ≤ arch.pageSize
      · have short : pool.rxPageOffset + pool.rxFragSize < arch.pageSize := by
          refine Nat.lt_of_le_of_ne fits fun same => misaligned ?_
          rw [← same] at whole
          exact (Nat.dvd_add_left (Nat.dvd_refl _)).mp whole
        have positive : 0 < pool.rxFragSize := Nat.pos_of_ne_zero fun zero => by
          rw [zero] at whole
          rw [Nat.eq_zero_of_zero_dvd whole] at inside
          exact Nat.not_lt_zero _ inside
        have next : cut arch page pool =
            { pool with
              rxPageOffset := pool.rxPageOffset + pool.rxFragSize
              refs := Function.update pool.refs page (pool.refs page + 1)
              inUse := ⟨page, pool.rxPageOffset, pool.rxFragSize⟩ :: pool.inUse } := by
          rw [cut, if_neg (Nat.not_le.mpr short)]
        have still : ¬ pool.rxFragSize ∣ pool.rxPageOffset + pool.rxFragSize := fun divides =>
          misaligned ((Nat.dvd_add_left (Nat.dvd_refl _)).mp divides)
        have nextPage : (cut arch page pool).rxPage = some page := by
          rw [next]
          exact current
        rcases ih (arch.pageSize - (pool.rxPageOffset + pool.rxFragSize)) (by omega) nextPage
          (by rw [next]; exact small) (by rw [next]; exact whole) (by rw [next]; exact short)
          (by rw [next]; exact still) (by rw [next]) with ⟨turns, piece, member, reaches⟩
        refine ⟨turns + 1, piece, ?_, reaches⟩
        rw [List.replicate_succ, Machine.run_cons, first]
        exact member
      · refine ⟨1, ⟨page, pool.rxPageOffset, pool.rxFragSize⟩, ?_, fits⟩
        change _ ∈ ((buffers arch).next pool (.alloc true true)).inUse
        rw [first]
        unfold cut
        dsimp only
        split <;> exact List.mem_cons_self

/-- No change of the MTU. -/
def Op.Carves : Op → Prop
  | .setMtu _ => False
  | _ => True

theorem along_carves {ops : List Op} (carves : forall op, op ∈ ops → op.Carves) :
    (buffers arch).Along (Orderly arch) pool ops := by
  refine (buffers arch).along_of_invariant (fun _ => True) (fun _ op => op.Carves) _
    (fun _ _ _ _ => trivial) ?_ trivial ((buffers arch).along_of_forall_mem Op.Carves pool carves)
  intro pool op _ carves
  cases op with
  | setMtu mtu => exact absurd carves not_false
  | alloc alloc build => trivial
  | release piece => trivial
  | putPage => trivial

end Overflow

/-- The condition on a change of the MTU is exact: from any state that is reached
without breaking it, whatever is allocated and freed after the change lies in its
page exactly when the page at hand is aligned for the new size. -/
theorem within_iff_aligned (arch : Arch) (mtu : Nat) {before : List Op}
    (orderly : (buffers arch).Along (Orderly arch) (probed arch mtu) before) (newMtu : Nat) :
    (forall later, (forall op, op ∈ later → op.Carves) → forall piece,
      piece ∈ ((buffers arch).run (probed arch mtu) (before ++ .setMtu newMtu :: later)).inUse →
        piece.Within arch.pageSize) ↔
      Aligned arch (arch.fragSize (bufferLen newMtu))
        ((buffers arch).run (probed arch mtu) before) := by
  have kept := kept_run arch mtu before
  constructor
  · intro within small atHand
    by_contra misaligned
    rcases Option.ne_none_iff_exists'.mp atHand with ⟨page, current⟩
    have changed : (setRxbufsize arch newMtu
        ((buffers arch).run (probed arch mtu) before)).rxPage = some page := current
    rcases piece_overflows changed small (fragSize_dvd_pageSize small) (kept.inside atHand)
      misaligned with ⟨turns, piece, member, reaches⟩
    refine reaches (within (List.replicate turns (.alloc true true)) ?_ piece ?_)
    · intro op alloc
      rw [List.eq_of_mem_replicate alloc]
      trivial
    · rw [Machine.run_append]
      exact member
  · intro aligned later carves
    have along : (buffers arch).Along (Orderly arch) (probed arch mtu)
        (before ++ .setMtu newMtu :: later) :=
      ((buffers arch).along_append _ _ _ _).mpr ⟨orderly, aligned, along_carves carves⟩
    exact (inv_run arch mtu along).within

/-- With one buffer on the page at hand an MTU of 3000 leads over its end. -/
theorem within_iff_aligned_x86 :
    ¬ forall later, (forall op, op ∈ later → op.Carves) → forall piece,
      piece ∈ ((buffers x86).run (probed x86 1500)
        ([.alloc true true] ++ .setMtu 3000 :: later)).inUse →
        piece.Within x86.pageSize := fun within =>
  have one : (buffers x86).Along (Orderly x86) (probed x86 1500) [.alloc true true] :=
    ⟨trivial, trivial⟩
  have aligned := (within_iff_aligned x86 1500 one 3000).mp within
  absurd (aligned (by decide +kernel) (by decide +kernel)) (by decide +kernel)

end Fragments
end Atl1c
end KernelHacking
